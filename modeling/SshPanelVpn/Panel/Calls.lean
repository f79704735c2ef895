import SshPanelVpn.Library.Effects
import SshPanelVpn.Panel.Model
import SshPanelVpn.ShadowLink.Bridge

/-! What the panel asks of its clock, its database, its nodes and their bridges. -/
namespace SshPanelVpn.Panel

open Effects ShadowLink

/-- A finished command: its exit status and what it wrote. -/
structure CommandResult where
  exitCode : Nat
  stdout : Str
  stderr : Str
  deriving DecidableEq, Repr

def CommandResult.ok (r : CommandResult) : Bool := r.exitCode = 0

/-- How `requests.request` fails. -/
inductive HttpError where
  | connectionError
  | timeout
  deriving DecidableEq, Repr

inductive Call where
  | now
  | generatePassword
  /-- `uuid.uuid4` for `access_token` and `auth_token`. -/
  | newTokens
  | connect (server : Server)
  | exec (server : Server) (username : Str) (cmd : Cmd)
  | http (server : Server) (request : BridgeRequest)
  | getServer (pk : Nat)
  | getPlan (pk : Nat)
  | getAccount (pk : Nat)
  | activeServers
  | activeServersByLoad
  | currentUserCount (server : Nat)
  | selectAccounts (query : AccountQuery)
  | insertAccount (account : Account)
  | saveAccount (account : Account) (fields : List AccountField)
  | insertAuditLog (entry : AuditLog)
  | begin
  | commit
  | rollback
  deriving DecidableEq, Repr

abbrev Reply : Call → Type
  | .now => DateTime
  | .generatePassword => Str
  | .newTokens => Str × Str
  | .connect _ => Except Exc Unit
  | .exec _ _ _ => Except Exc CommandResult
  | .http _ _ => Except HttpError BridgeResponse
  | .getServer _ => Option Server
  | .getPlan _ => Option Plan
  | .getAccount _ => Option Account
  | .activeServers => List Server
  | .activeServersByLoad => List Server
  | .currentUserCount _ => Nat
  | .selectAccounts _ => List Account
  | .insertAccount _ => Except Exc Account
  | .saveAccount _ _ => Unit
  | .insertAuditLog _ => Unit
  | .begin => Unit
  | .commit => Unit
  | .rollback => Unit

/-- A function of the panel: the calls it makes, and its value or its exception. -/
abbrev PanelProg (α : Type) := Prog Call Reply Exc α

/-- One call, its reply returned. -/
abbrev ask (c : Call) : PanelProg (Reply c) := Prog.perform c

/-- `get_object_or_404`. -/
def orHttp404 {α : Type} : Option α → PanelProg α
  | some a => .ret a
  | none => .raise .http404

/-- `@transaction.atomic`. -/
def atomic {α : Type} (body : PanelProg α) : PanelProg α := do
  ask .begin
  let a ← body.handle fun e => do
    ask .rollback
    .raise e
  ask .commit
  return a

theorem allCalls_atomic {α : Type} {P : Call → Prop} {body : PanelProg α} (h : body.AllCalls P)
    (hbegin : P .begin) (hcommit : P .commit) (hrollback : P .rollback) :
    (atomic body).AllCalls P := by
  refine ⟨hbegin, fun _ => ?_⟩
  change (body.handle _ >>= _ : PanelProg α).AllCalls P
  refine (h.handle fun e => ?_).bind fun a => ?_
  · exact ⟨hrollback, fun _ => trivial⟩
  · exact ⟨hcommit, fun _ => trivial⟩

end SshPanelVpn.Panel

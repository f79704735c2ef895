import SshPanelVpn.Library.Interleaving
import SshPanelVpn.Panel.AuditTrail

/-! Two operations on one account at the same time: the row they share, what else each of them meets,
and what each makes of the row. -/
namespace SshPanelVpn.Panel

open Effects ShadowLink
open Effects.Prog (Reads Saves Interleaved)

/-! The row. -/

/-- The columns on which the operations decide. -/
structure Columns where
  status : AccountStatus
  expireDate : DateTime
  maxConnections : Nat
  bandwidthLimitGb : Nat
  note : Str
  deriving DecidableEq, Repr

def Account.columns (a : Account) : Columns :=
  ⟨a.status, a.expireDate, a.maxConnections, a.bandwidthLimitGb, a.note⟩

/-- The row with these columns. -/
def Columns.on (c : Columns) (row : Account) : Account :=
  { row with
    status := c.status
    expireDate := c.expireDate
    maxConnections := c.maxConnections
    bandwidthLimitGb := c.bandwidthLimitGb
    note := c.note }

@[simp] theorem Columns.columns_on (c : Columns) (row : Account) : (c.on row).columns = c := rfl

/-- What an operation meets besides the row: the answers it gets, those of a query being the other rows,
and the place of the row among them. -/
structure Surroundings (pk : Nat) where
  answer : (c : Call) → Reply c
  place : AccountQuery → Nat
  others : ∀ q, ∀ a ∈ answer (.selectAccounts q), a.id ≠ pk
  servers : ((answer .activeServers).map Server.id).Nodup

namespace Surroundings

variable {pk : Nat}

/-- The other rows that a query returns before the row. -/
def newer (s : Surroundings pk) (q : AccountQuery) : List Account :=
  (s.answer (.selectAccounts q)).take (s.place q)

def older (s : Surroundings pk) (q : AccountQuery) : List Account :=
  (s.answer (.selectAccounts q)).drop (s.place q)

/-- The calls of an operation, with the row as the rest of the state. -/
def handler (s : Surroundings pk) : (c : Call) → Account → Reply c × Account
  | .getAccount k, row => (if k = pk then some row else s.answer (.getAccount k), row)
  | .selectAccounts q, row =>
    (if q.filter row then s.newer q ++ row :: s.older q else s.answer (.selectAccounts q), row)
  | .currentUserCount srv, row =>
    (s.answer (.currentUserCount srv) + if row.server = srv ∧ row.status ≠ .deleted then 1 else 0, row)
  | .saveAccount obj fields, row => ((), if obj.id = pk then row.write obj fields else row)
  | c, row => (s.answer c, row)

/-- The program comes to its end with these answers. -/
def completes {α : Type} (s : Surroundings pk) (p : PanelProg α) : Bool := (p.value s.answer).isOk

theorem completes_ok {α : Type} {s : Surroundings pk} {p : PanelProg α} {a : α}
    (h : p.value s.answer = .ok a) : s.completes p = true := by
  rw [completes, h]
  rfl

theorem completes_error {α : Type} {s : Surroundings pk} {p : PanelProg α} {e : Exc}
    (h : p.value s.answer = .error e) : s.completes p = false := by
  rw [completes, h]
  rfl

end Surroundings

/-! The operations on one account. -/

inductive RowOp where
  | expireUsers
  | syncBandwidthUsage
  | suspend (adminUser : Option Nat)
  | activate (adminUser : Option Nat)
  | extend (days : Int) (adminUser : Option Nat)
  | delete (adminUser : Option Nat)
  | patch (data : AccountUpdate)
  | webhook (username : Str) (planId : Nat) (status : PaymentStatus)

def RowOp.op (pk : Nat) : RowOp → Op
  | expireUsers => .expireUsers
  | syncBandwidthUsage => .syncBandwidthUsage
  | suspend adminUser => .suspend pk adminUser
  | activate adminUser => .activate pk adminUser
  | extend days adminUser => .extend pk days adminUser
  | delete adminUser => .delete pk adminUser
  | patch data => .patch pk data
  | webhook username planId status => .webhook username planId status

/-! What is done on the nodes before the row is saved. -/

/-- The node's side of `suspend_account`, `activate_account` and `delete_account`. -/
def changeNode (account : Account) (bridge : Server → Str → PanelProg BridgeResponse)
    (ssh : Server → Str → PanelProg CommandResult) : PanelProg Unit := do
  let server ← accountServer account
  match account.protocolType with
  | .shadowlink => logged (bridge server account.authToken)
  | .ssh =>
    SSHManager.connect server
    let _ ← ssh server account.username

/-- The node's side of `expire_users` for one account. -/
def expireNode (acc : Account) : PanelProg Unit := do
  let server ← accountServer acc
  SSHManager.connect server
  let _ ← SSHManager.lockUser server acc.username

/-- The node's side of `sync_bandwidth_usage` up to the reading for one account. -/
def syncNode (srv : Server) (before : List Account) (acc : Account) : PanelProg Nat := do
  SSHManager.connect srv
  syncAccounts srv before
  bytesUsed srv acc

theorem changeStatus_eq (a : Account) (status : AccountStatus) (action : AuditAction)
    (adminUser : Option Nat) (bridge : Server → Str → PanelProg BridgeResponse)
    (ssh : Server → Str → PanelProg CommandResult) :
    changeStatus a status action adminUser bridge ssh = changeNode a bridge ssh >>= fun _ => (do
      saveStatus a status
      ask (.insertAuditLog ⟨action, some a.id, adminUser, []⟩)) := by
  unfold changeStatus changeNode
  rw [Prog.bind_bind]
  refine congrArg _ (funext fun server => ?_)
  cases a.protocolType <;> simp [Prog.bind_bind]

theorem expireUser_eq (acc : Account) :
    expireUser acc = expireNode acc >>= fun _ => saveStatus acc .expired := by
  unfold expireUser expireNode
  simp [Prog.bind_bind]

/-! What an operation makes of the columns. -/

/-- `renew` gives the end that an extension saves, `none` where there is none. -/
inductive Change where
  | nothing
  | status (acts : Columns → Bool) (new : AccountStatus)
  | renew (date : Columns → Option DateTime)
  | update (data : AccountUpdate) (fromDuration : Option DateTime)

namespace Columns

def withStatus (c : Columns) (status : AccountStatus) : Columns := { c with status := status }

/-- The columns that `extend` saves. -/
def renewed (c : Columns) (date : DateTime) : Columns :=
  { c with expireDate := date, status := .active }

/-- The columns of the object that `patch` saves. -/
def updated (c : Columns) (data : AccountUpdate) (fromDuration : Option DateTime) : Columns where
  status := c.status
  expireDate := data.expireDate.getD (fromDuration.getD c.expireDate)
  maxConnections := data.maxConnections.getD c.maxConnections
  bandwidthLimitGb := data.bandwidthLimitGb.getD c.bandwidthLimitGb
  note := data.note.getD c.note

end Columns

/-- What is saved over `c` after `read` has been read; `patch` saves every column. -/
def Change.save : Change → (read c : Columns) → Columns
  | nothing, _, c => c
  | status acts new, read, c => if acts read then c.withStatus new else c
  | renew date, read, c => ((date read).map c.renewed).getD c
  | update data fromDuration, read, _ => read.updated data fromDuration

namespace Surroundings

variable {pk : Nat}

def expires (s : Surroundings pk) (row : Account) : Change :=
  .status (fun c => (AccountQuery.expiredBy (s.answer .now)).filter (c.on row) &&
    s.completes (expireNode row)) .expired

/-- Where a server or a reading fails, `sync_bandwidth_usage` does not get to the limit. -/
def syncsOn (s : Surroundings pk) (row : Account) (srv : Server) : Change :=
  match (syncNode srv (s.newer (.activeOn srv.id)) row).value s.answer with
  | .error _ => .nothing
  | .ok bytes => .status (fun c => (AccountQuery.activeOn srv.id).filter (c.on row) &&
      (overLimit (c.on row) (gbUsed bytes) &&
        s.completes (SSHManager.lockUser srv row.username))) .suspended

def syncs (s : Surroundings pk) (row : Account) (servers : List Server) : Change :=
  match servers.find? fun srv => srv.id = row.server with
  | none => .nothing
  | some srv => s.syncsOn row srv

/-- `suspend_account`, `activate_account` and `delete_account` act whatever the row says. -/
def sets (s : Surroundings pk) (row : Account) (new : AccountStatus)
    (bridge : Server → Str → PanelProg BridgeResponse)
    (ssh : Server → Str → PanelProg CommandResult) : Change :=
  .status (fun _ => s.completes (changeNode row bridge ssh)) new

/-- The end that `extend` gives. -/
def extended (s : Surroundings pk) (days : Int) (c : Columns) : Option DateTime :=
  ((c.expireDate.latest (s.answer .now)).addDays days).toOption

/-- A payment renews the newest account of the name that is ACTIVE or EXPIRED. -/
def pays (s : Surroundings pk) (row : Account) (username : Str) (planId : Nat)
    (status : PaymentStatus) : Change :=
  match status, s.answer (.getPlan planId), s.newer (.renewable username) with
  | .paid, some plan, [] => .renew fun c =>
      if (AccountQuery.renewable username).filter (c.on row) then s.extended plan.durationDays c
      else none
  | _, _, _ => .nothing

/-- Nothing is updated where the new end is out of range. -/
def patches (s : Surroundings pk) (data : AccountUpdate) : Change :=
  match data.newDate.value s.answer with
  | .ok fromDuration => .update data fromDuration
  | .error _ => .nothing

end Surroundings

/-- What the operation makes of the columns of the row, in its surroundings. -/
def RowOp.change {pk : Nat} (s : Surroundings pk) (row : Account) : RowOp → Change
  | expireUsers => s.expires row
  | syncBandwidthUsage => s.syncs row (s.answer .activeServers)
  | suspend _ => s.sets row .suspended ShadowLinkManager.suspendToken SSHManager.lockUser
  | activate _ => s.sets row .active ShadowLinkManager.activateToken SSHManager.unlockUser
  | extend days _ => .renew (s.extended days)
  | delete _ => s.sets row .deleted ShadowLinkManager.deregisterToken SSHManager.deleteUser
  | patch data => s.patches data
  | webhook username planId status => s.pays row username planId status

end SshPanelVpn.Panel

import SshPanelVpn.Panel.Rebalance

/-! All ways to the accounts: the views and tasks, the actions of `accounts/admin.py`, bulk creation,
password resets and `rebalance_users`. -/
namespace SshPanelVpn.Panel

open Effects
open Effects.Prog (ofExcept)

/-! More services and views. -/

def resetPassword (account : Account) (adminUser : Option Nat) : PanelProg Unit := do
  let newPw ← ask .generatePassword
  let server ← accountServer account
  SSHManager.connect server
  -- `change_password`
  let result ← SSHManager.run server account.username (.chpasswd newPw)
  if result.ok = false then
    .raise (.accountError ("Password reset failed: ".toList ++ result.stderr))
  else
    ask (.saveAccount { account with passwordDisplay := newPw } [.passwordDisplay])
    ask (.insertAuditLog ⟨.passwordReset, some account.id, adminUser, []⟩)

inductive AdminAction where
  | suspend
  | activate
  | delete
  deriving DecidableEq, Repr

namespace AdminAction

/-- The status filter of the action. -/
def takes : AdminAction → Account → Bool
  | suspend, acc => acc.status = .active
  | activate, acc => acc.status = .suspended
  | delete, acc => acc.status ≠ .deleted

def service : AdminAction → Account → Option Nat → PanelProg Unit
  | suspend => suspendAccount
  | activate => activateAccount
  | delete => deleteAccount

end AdminAction

/-- The rows with the keys. -/
def selectPks : List Nat → PanelProg (List Account)
  | [] => return []
  | pk :: pks => do
    let row ← ask (.getAccount pk)
    let rows ← selectPks pks
    return row.toList ++ rows

/-- `action_suspend`, `action_activate` and `action_delete_accounts` on the rows that are selected. -/
def adminAction (action : AdminAction) (pks : List Nat) (adminUser : Option Nat) : PanelProg Nat := do
  let rows ← selectPks pks.dedup
  countSucceeded (fun acc => action.service acc adminUser) (rows.filter action.takes)

theorem allCalls_adminAction {P : Call → Prop} {action : AdminAction} {adminUser : Option Nat}
    (hget : ∀ pk, P (.getAccount pk)) (h : ∀ acc, (action.service acc adminUser).AllCalls P)
    (pks : List Nat) : (adminAction action pks adminUser).AllCalls P := by
  have hselect : ∀ pks, (selectPks pks).AllCalls P := by
    intro pks
    induction pks with
    | nil => trivial
    | cons pk pks ih => exact ⟨hget pk, fun _ => ih.bind fun _ => trivial⟩
  exact (hselect pks.dedup).bind fun rows => allCalls_countSucceeded h _

/-! Bulk creation: every account draws its own password and tokens. -/

/-- `f"{i:03d}"`. -/
def pad3 (i : Nat) : Str :=
  if i < 10 then '0' :: '0' :: decimal i else if i < 100 then '0' :: decimal i else decimal i

structure BulkRequest where
  pre : Str
  count : Nat
  planId : Nat
  serverId : Option Nat
  adminUser : Option Nat

/-- What `bulk_create_accounts` passes on for one of the numbers. -/
def BulkRequest.args (r : BulkRequest) (plan : Plan) (server : Option Server) (i : Nat) :
    CreateArgs :=
  { CreateArgs.plain (r.pre ++ pad3 i) plan with server := server, adminUser := r.adminUser }

namespace World

/-- The loop of `bulk_create_accounts`, which an exception ends. -/
def bulkCreate (envs : Nat → Env) (args : Nat → CreateArgs) : List Nat → World → World
  | [], w => w
  | i :: is, w =>
    let r := (createAccount (args i)).run (handler (envs i)) w
    if r.1.isOk then bulkCreate envs args is r.2 else r.2

/-- `BulkCreateAccountView`. -/
def bulkCreateView (envs : Nat → Env) (r : BulkRequest) (w : World) : World :=
  match w.db.getPlan r.planId with
  | none => w
  | some plan =>
    if plan.isActive then
      match r.serverId with
      | none => bulkCreate envs (r.args plan none) (List.range' 1 r.count) w
      | some pk =>
        match w.db.getServer pk with
        | none => w
        | some server => bulkCreate envs (r.args plan (some server)) (List.range' 1 r.count) w
    else w

end World

/-- The operations on accounts, whichever way they are reached. -/
inductive AccountOp where
  | op (op : Op)
  | adminAction (action : AdminAction) (pks : List Nat) (adminUser : Option Nat)
  | resetPassword (pk : Nat) (adminUser : Option Nat)
  | bulkCreate (r : BulkRequest)
  | rebalanceUsers (downServerId : Nat)

namespace World

/-- The world after an operation. Only the loops of `bulk_create_accounts` and `rebalance_users` meet
more than the first environment. -/
def act (w : World) : AccountOp × (Nat → Env) → World
  | (.op op, envs) => w.step (op, envs 0)
  | (.adminAction action pks adminUser, envs) =>
    ((Panel.adminAction action pks adminUser).run (handler (envs 0)) w).2
  | (.resetPassword pk adminUser, envs) =>
    ((onAccount pk fun account => Panel.resetPassword account adminUser).run (handler (envs 0)) w).2
  | (.bulkCreate r, envs) => bulkCreateView envs r w
  | (.rebalanceUsers downServerId, envs) =>
    match Panel.rebalanceUsers (fun acc => envs acc.id) downServerId (w, []) with
    | some (_, t) => t.1
    | none => w

/-- The state after a list of operations. -/
abbrev actAll (w : World) (xs : List (AccountOp × (Nat → Env))) : World := Runs.after act w xs

end World

end SshPanelVpn.Panel

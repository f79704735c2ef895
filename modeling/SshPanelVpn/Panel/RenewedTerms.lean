import Mathlib.Algebra.Order.Group.Int
import SshPanelVpn.Library.Renewals
import SshPanelVpn.Panel.AccountIdentity
import SshPanelVpn.Panel.RepeatedPayments

/-! The end of an account over any run: what its extensions and its payments add up to. -/
namespace SshPanelVpn.Panel

open Effects Renewals Runs ShadowLink
open Effects.Prog (run_bind)

/-- The end of the account with a key. -/
def Db.endOf (db : Db) (pk : Nat) : Option DateTime := (db.getAccount pk).map Account.expireDate

/-- The account that an operation renews, and the days that it adds. -/
def AccountOp.renewed (db : Db) : AccountOp → Option (Account × Int)
  | .op (.extend pk days _) => (db.getAccount pk).map fun a => (a, days)
  | .op (.webhook username planId .paid) =>
    match db.getPlan planId, (db.selectAccounts (.renewable username)).head? with
    | some plan, some a => some (a, plan.durationDays)
    | _, _ => none
  | _ => none

/-- The renewal of the key, if the new end is one that a `datetime` can hold. -/
def AccountOp.renewal (now : DateTime) (db : Db) (pk : Nat) (op : AccountOp) : Option (Renewal Int) :=
  match op.renewed db with
  | some (a, days) =>
    if a.id = pk ∧ (a.extend now days).isOk then some ⟨now.micros, days * microsPerDay⟩ else none
  | none => none

/-- The renewals of the key along a run. -/
def World.renewals (pk : Nat) : World → List (AccountOp × (Nat → Env)) → List (Renewal Int)
  | _, [] => []
  | w, x :: xs => (x.1.renewal (x.2 0).now w.db pk).toList ++ renewals pk (w.act x) xs

/-- `AccountUpdateView.patch` with a new end for the key. -/
def AccountOp.redates (pk : Nat) : AccountOp → Bool
  | .op (.patch pk' data) => pk' = pk && (data.expireDate.isSome || data.durationDays.isSome)
  | _ => false

/-! The rows' ends after a write. -/

theorem Account.write_expireDate (row obj : Account) {fields : List AccountField}
    (h : .expireDate ∉ fields) : (row.write obj fields).expireDate = row.expireDate := by
  induction fields generalizing row with
  | nil => rfl
  | cons f fields ih =>
    obtain ⟨hf, hfields⟩ := not_or.mp (List.mem_cons.not.mp h)
    refine (ih (row.writeField obj f) hfields).trans ?_
    cases f <;> first | rfl | exact (hf rfl).elim

section Ends

variable {db db' : Db} {l : TableWrite} {pk : Nat} {a obj : Account} {fields : List AccountField}
  {entry : Option AuditLog}

theorem Db.endOf_of_mem (h : a ∈ db.accounts) : db.endOf a.id = some a.expireDate := by
  simp [endOf, getAccount_of_mem h]

theorem Db.endOf_write : (db.write obj fields entry).endOf pk =
    (db.getAccount pk).map fun row => (if row.id = obj.id then row.write obj fields else row).expireDate := by
  rw [endOf, getAccount_write, Option.map_map]
  rfl

/-- A save that leaves the column out, or says what it says. -/
theorem Db.endOf_write_kept (h : .expireDate ∉ fields) :
    (db.write obj fields entry).endOf pk = db.endOf pk := by
  rw [endOf_write, endOf]
  congr 1
  funext row
  split
  · exact Account.write_expireDate row obj h
  · rfl

theorem Db.endOf_write_ne (h : obj.id ≠ pk) : (db.write obj fields entry).endOf pk = db.endOf pk := by
  rw [endOf_write, endOf]
  cases hrow : db.getAccount pk with
  | none => rfl
  | some row =>
    have hne : row.id ≠ obj.id := by
      rw [getAccount_id hrow]
      exact h.symm
    simp [hne]

/-- A row that is there stays there, and no creation or move touches its end. -/
theorem TableStep.endOf_kept (h : TableStep db l db') (hl : (∃ pk', l = .created pk') ∨ ∃ pk', l = .moved pk')
    {date : DateTime} (hdate : db.endOf pk = some date) : db'.endOf pk = some date := by
  obtain ⟨row, hrow, rfl⟩ := Option.map_eq_some_iff.mp hdate
  have hmem := Db.getAccount_mem hrow
  have hid := Db.getAccount_id hrow
  cases h with
  | @created server new accounts entry _ _ _ _ hinsert _ _ =>
    have hrow' : row ∈ ({ db with accounts := accounts, auditLog := entry :: db.auditLog } : Db).accounts :=
      (AccountTable.mem_insert hinsert).mpr (.inr hmem)
    rw [← hid]
    exact Db.endOf_of_mem hrow'
  | @moved row' target accounts entry _ _ _ hmove _ =>
    have hrow' : AccountTable.moved row'.id target.id row ∈
        ({ db with accounts := accounts, auditLog := entry :: db.auditLog } : Db).accounts :=
      (AccountTable.mem_move hmove).mpr ⟨row, hmem, rfl⟩
    have hend := Db.endOf_of_mem hrow'
    rw [(Account.moved_origin row'.id target.id row).id, hid] at hend
    refine hend.trans (congrArg some ?_)
    unfold AccountTable.moved
    split <;> rfl
  | status _ _ _ _ => rcases hl with ⟨_, hl⟩ | ⟨_, hl⟩ <;> cases hl
  | columns _ _ _ _ => rcases hl with ⟨_, hl⟩ | ⟨_, hl⟩ <;> cases hl

theorem Wrote.endOf_kept {P : TableWrite → Prop} (h : Wrote P db db')
    (hP : ∀ l, P l → (∃ pk', l = .created pk') ∨ ∃ pk', l = .moved pk') {date : DateTime}
    (hdate : db.endOf pk = some date) : db'.endOf pk = some date :=
  h.keeps (fun _ l _ hst hl hd => hst.endOf_kept (hP l hl) hd) hdate

end Ends

/-! Programs that save no end. -/

/-- The calls that leave the ends of all accounts as they are. -/
def Call.KeepsEnds : Call → Prop
  | .insertAccount _ => False
  | .saveAccount _ fields => .expireDate ∉ fields
  | .begin => False
  | .commit => False
  | .rollback => False
  | _ => True

abbrev KeepsEnds {α : Type} (p : PanelProg α) : Prop := p.AllCalls Call.KeepsEnds

section Programs

variable {env : Env} {w : World} {pk : Nat} {a : Account}

theorem World.endOf_handler {c : Call} (hc : c.KeepsEnds) (w : World) :
    (World.handler env c w).2.db.endOf pk = w.db.endOf pk := by
  have hquiet : c.Quiet → (World.handler env c w).2.db.endOf pk = w.db.endOf pk := by
    intro h
    rw [(World.handler_quiet env h w).1]
  cases c with
  | saveAccount obj fields =>
    have hwrite : (World.handler env (.saveAccount obj fields) w).2.db = w.db.write obj fields none := rfl
    rw [hwrite]
    exact Db.endOf_write_kept hc
  | insertAuditLog entry => rfl
  | insertAccount account => exact hc.elim
  | begin => exact hc.elim
  | commit => exact hc.elim
  | rollback => exact hc.elim
  | _ => exact hquiet trivial

theorem KeepsEnds.run {α : Type} {p : PanelProg α} (hp : KeepsEnds p) (env : Env) (w : World) (pk : Nat) :
    (p.run (World.handler env) w).2.db.endOf pk = w.db.endOf pk :=
  hp.run_related (r := fun w w' : World => w'.db.endOf pk = w.db.endOf pk) (fun _ => rfl)
    (fun h h' => h'.trans h) (fun _ _ hc => World.endOf_handler hc _) w

theorem Quiet.keepsEnds {α : Type} {p : PanelProg α} (hp : Quiet p) : KeepsEnds p := by
  refine hp.mono ?_
  intro c hc
  cases c <;> first | exact trivial | exact hc.elim

theorem keepsEnds_changeStatus {status : AccountStatus} {action : AuditAction} {adminUser : Option Nat}
    {bridge : Server → Str → PanelProg BridgeResponse} {ssh : Server → Str → PanelProg CommandResult}
    (hbridge : ∀ server token, Quiet (bridge server token)) (hssh : ∀ server u, Quiet (ssh server u)) :
    KeepsEnds (changeStatus a status action adminUser bridge ssh) := by
  have hsave : KeepsEnds (do
      saveStatus a status
      ask (.insertAuditLog ⟨action, some a.id, adminUser, []⟩)) :=
    ⟨by simp [Call.KeepsEnds], fun _ => ⟨trivial, fun _ => trivial⟩⟩
  refine (quiet_accountServer a).keepsEnds.bind fun server => ?_
  cases a.protocolType with
  | shadowlink => exact (quiet_logged (hbridge server a.authToken)).keepsEnds.bind fun _ => hsave
  | ssh =>
    exact quiet_connect.keepsEnds.bind fun _ => (hssh server a.username).keepsEnds.bind fun _ => hsave

theorem keepsEnds_suspendAccount (adminUser : Option Nat) : KeepsEnds (suspendAccount a adminUser) :=
  keepsEnds_changeStatus (fun _ _ => quiet_bridgeRequest _ _) quiet_lockUser

theorem keepsEnds_activateAccount (adminUser : Option Nat) : KeepsEnds (activateAccount a adminUser) :=
  keepsEnds_changeStatus (fun _ _ => quiet_bridgeRequest _ _) quiet_unlockUser

theorem keepsEnds_deleteAccount (adminUser : Option Nat) : KeepsEnds (deleteAccount a adminUser) :=
  keepsEnds_changeStatus (fun _ _ => quiet_bridgeRequest _ _) quiet_deleteUser

theorem keepsEnds_expireUser : KeepsEnds (expireUser a) := by
  refine (quiet_accountServer a).keepsEnds.bind fun server => ?_
  refine quiet_connect.keepsEnds.bind fun _ => ?_
  refine (quiet_lockUser server a.username).keepsEnds.bind fun _ => ?_
  exact ⟨by simp [Call.KeepsEnds], fun _ => trivial⟩

theorem keepsEnds_resetPassword (adminUser : Option Nat) : KeepsEnds (resetPassword a adminUser) := by
  refine ⟨trivial, fun newPw => ?_⟩
  refine (quiet_accountServer a).keepsEnds.bind fun server => ?_
  refine quiet_connect.keepsEnds.bind fun _ => ?_
  refine (quiet_run (.chpasswd newPw)).keepsEnds.bind fun result => ?_
  split
  · trivial
  · exact ⟨by simp [Call.KeepsEnds], fun _ => ⟨trivial, fun _ => trivial⟩⟩

theorem keepsEnds_syncAccount (srv : Server) : KeepsEnds (syncAccount srv a) := by
  have haccounting : Quiet (SSHManager.setupTrafficAccounting srv a.username) :=
    SSHManager.allCalls_setupTrafficAccounting quiet_exec
  have hbytes : Quiet (SSHManager.getUserBandwidthBytes srv a.username) :=
    SSHManager.allCalls_getUserBandwidthBytes quiet_exec
  refine haccounting.keepsEnds.bind fun _ => hbytes.keepsEnds.bind fun bytes => ?_
  refine Prog.AllCalls.bind ?_ fun _ => ?_
  · unfold saveUsage
    split
    · exact ⟨by simp [Call.KeepsEnds], fun _ => trivial⟩
    · trivial
  · unfold enforceLimit
    split
    · exact (quiet_lockUser srv a.username).keepsEnds.bind fun _ =>
        ⟨by simp [Call.KeepsEnds], fun _ => trivial⟩
    · trivial

theorem keepsEnds_expireUsers : KeepsEnds expireUsers :=
  ⟨trivial, fun _ => ⟨trivial, fun _ => allCalls_countSucceeded (fun _ => keepsEnds_expireUser) _⟩⟩

theorem keepsEnds_cleanupExpiredAccounts (graceDays : Int) :
    KeepsEnds (cleanupExpiredAccounts graceDays) :=
  ⟨trivial, fun _ => (Prog.allCalls_ofExcept _).bind fun _ =>
    ⟨trivial, fun _ => allCalls_countSucceeded (fun _ => keepsEnds_deleteAccount none) _⟩⟩

theorem keepsEnds_syncBandwidthUsage : KeepsEnds syncBandwidthUsage :=
  allCalls_syncBandwidthUsage trivial (fun _ => trivial) (fun _ => trivial) fun srv _ =>
    keepsEnds_syncAccount srv

theorem keepsEnds_adminAction (action : AdminAction) (pks : List Nat) (adminUser : Option Nat) :
    KeepsEnds (adminAction action pks adminUser) := by
  refine allCalls_adminAction (fun _ => trivial) (fun a => ?_) pks
  cases action with
  | suspend => exact keepsEnds_suspendAccount adminUser
  | activate => exact keepsEnds_activateAccount adminUser
  | delete => exact keepsEnds_deleteAccount adminUser

theorem keepsEnds_onAccount {service : Account → PanelProg Unit} (h : ∀ a, KeepsEnds (service a))
    (pk : Nat) : KeepsEnds (onAccount pk service) := by
  refine ⟨trivial, fun row => ?_⟩
  cases row with
  | none => trivial
  | some a => exact h a

end Programs

/-! One operation. -/

theorem Account.extend_micros {a a' : Account} {now : DateTime} {days : Int}
    (h : a.extend now days = .ok a') :
    a'.expireDate.micros = max a.expireDate.micros now.micros + days * microsPerDay := by
  have hnow : now ≤ a.expireDate ↔ now.micros ≤ a.expireDate.micros := Iff.rfl
  have hlatest : (a.expireDate.latest now).micros = max a.expireDate.micros now.micros := by
    unfold DateTime.latest
    simp only [hnow]
    split <;> omega
  unfold Account.extend DateTime.addDays at h
  rw [← hlatest]
  split at h
  · cases h
  · next date hdate =>
    split at hdate
    · cases hdate
      cases h
      rfl
    · cases hdate

section Operations

variable {env : Env} {w : World} {pk : Nat} {date : DateTime}

/-- An extension is there once it is saved, whether the node is reached or not. -/
theorem endOf_extendAccount (env : Env) {a : Account} (ha : a ∈ w.db.accounts) (days : Int)
    (adminUser : Option Nat) (hdate : w.db.endOf pk = some date) :
    ∃ date', ((extendAccount a days adminUser).run (World.handler env) w).2.db.endOf pk = some date' ∧
      date'.micros = endAfter date.micros (if a.id = pk ∧ (a.extend env.now days).isOk then
        some ⟨env.now.micros, days * microsPerDay⟩ else none : Option (Renewal Int)).toList := by
  rw [db_extendAccount]
  cases he : a.extend env.now days with
  | error e => exact ⟨date, hdate, by simp [Except.isOk, Except.toBool]⟩
  | ok a' =>
    obtain ⟨hkeys, -⟩ := Account.extend_ok he
    by_cases hid : a.id = pk
    · subst hid
      rw [Db.endOf_of_mem ha] at hdate
      cases hdate
      refine ⟨a'.expireDate, ?_, ?_⟩
      · rw [Db.endOf_write, Db.getAccount_of_mem ha, Option.map_some, if_pos hkeys.id.symm]
        rfl
      · simpa [Except.isOk, Except.toBool, renew] using Account.extend_micros he
    · refine ⟨date, ?_, by simp [hid]⟩
      dsimp only
      rw [Db.endOf_write_ne (by rwa [hkeys.id])]
      exact hdate

/-- An undated `patch`, or one of another account. -/
theorem endOf_patchAccount (env : Env) (w : World) {pk' : Nat} {data : AccountUpdate}
    (h : AccountOp.redates pk (.op (.patch pk' data)) = false) :
    ((patchAccount pk' data).run (World.handler env) w).2.db.endOf pk = w.db.endOf pk := by
  have hspec : tables.Spec env (fun v => v.db = w.db) (patchAccount pk' data)
      (fun _ v => v.db.endOf pk = w.db.endOf pk) fun v => v.db.endOf pk = w.db.endOf pk := by
    refine Observation.Spec.patchAccount ?_ ?_ ?_
    · intro a date v ha hdata hv
      have hdb : (v.save (data.apply a date) AccountField.all).db =
          w.db.write (data.apply a date) AccountField.all none := by
        rw [← hv]
        rfl
      rw [hv] at ha
      have hid : (data.apply a date).id = pk' := Db.getAccount_id (a := a) ha
      rw [hdb]
      by_cases hpk : pk' = pk
      · -- the end that is saved is the row's own
        subst hpk
        have hundated : data.expireDate = none ∧ data.durationDays = none := by
          simpa [AccountOp.redates] using h
        have hnone : date = none := by
          simpa [AccountUpdate.dateAt, hundated.2] using hdata.symm
        rw [Db.endOf_write, Db.endOf, ha, Option.map_some, Option.map_some]
        simp [AccountField.all, Account.write, Account.writeField, AccountUpdate.apply, hundated.1, hnone]
      · exact Db.endOf_write_ne (by rwa [hid])
    · exact fun account => tables_quiet (quiet_push account)
    · intro v hv
      rw [hv]
  have hw := hspec w fun _ => rfl
  rcases hr : (patchAccount pk' data).run (World.handler env) w with ⟨x | x, t⟩ <;>
    rw [hr] at hw <;> exact hw fun _ _ => rfl

theorem World.act_endOf (w : World) (x : AccountOp × (Nat → Env)) (hdate : w.db.endOf pk = some date)
    (hx : x.1.redates pk = false) :
    ∃ date', (w.act x).db.endOf pk = some date' ∧
      date'.micros = endAfter date.micros (x.1.renewal (x.2 0).now w.db pk).toList := by
  obtain ⟨op, envs⟩ := x
  have hkept : ∀ {op : AccountOp}, op.renewed w.db = none → (w.act (op, envs)).db.endOf pk = w.db.endOf pk →
      ∃ date', (w.act (op, envs)).db.endOf pk = some date' ∧
        date'.micros = endAfter date.micros (op.renewal (envs 0).now w.db pk).toList := by
    intro op hop hend
    exact ⟨date, hend.trans hdate, by simp [AccountOp.renewal, hop]⟩
  have hnew : ∀ {op : AccountOp}, op.renewed w.db = none → (∀ l, op.MayWrite (envs 0) w l →
      (∃ pk', l = .created pk') ∨ ∃ pk', l = .moved pk') →
      ∃ date', (w.act (op, envs)).db.endOf pk = some date' ∧
        date'.micros = endAfter date.micros (op.renewal (envs 0).now w.db pk).toList := by
    intro op hop hl
    exact ⟨date, (w.act_wrote (op, envs)).endOf_kept hl hdate, by simp [AccountOp.renewal, hop]⟩
  have hprog : ∀ {α : Type} {p : PanelProg α}, KeepsEnds p →
      ((p >>= fun _ => pure () : PanelProg Unit).run (World.handler (envs 0)) w).2.db.endOf pk =
        w.db.endOf pk := by
    intro α p hp
    rw [Prog.run_discard]
    exact hp.run _ w pk
  cases op with
  | op op =>
    cases op with
    | create r => exact hnew rfl fun l hl => .inl hl
    | suspend pk' adminUser =>
      exact hkept rfl ((keepsEnds_onAccount (fun _ => keepsEnds_suspendAccount adminUser) pk').run _ w pk)
    | activate pk' adminUser =>
      exact hkept rfl ((keepsEnds_onAccount (fun _ => keepsEnds_activateAccount adminUser) pk').run _ w pk)
    | extend pk' days adminUser =>
      cases ha : w.db.getAccount pk' with
      | none =>
        refine hkept (by simp [AccountOp.renewed, ha]) ?_
        simp [act, step, Op.prog, onAccount, handler, ha, orHttp404]
      | some a =>
        have hrun : (w.act (.op (.extend pk' days adminUser), envs)).db =
            ((extendAccount a days adminUser).run (World.handler (envs 0)) w).2.db := by
          simp [act, step, Op.prog, onAccount, handler, ha, orHttp404]
        rw [hrun]
        simp only [AccountOp.renewal, AccountOp.renewed, ha, Option.map_some]
        exact endOf_extendAccount _ (Db.getAccount_mem ha) days adminUser hdate
    | delete pk' adminUser =>
      exact hkept rfl ((keepsEnds_onAccount (fun _ => keepsEnds_deleteAccount adminUser) pk').run _ w pk)
    | patch pk' data =>
      refine hkept rfl ?_
      change ((patchAccount pk' data >>= fun _ => pure () : PanelProg Unit).run _ w).2.db.endOf pk = _
      rw [Prog.run_discard]
      exact endOf_patchAccount _ w hx
    | webhook username planId status =>
      have hrun : ∀ status, (w.act (.op (.webhook username planId status), envs)).db =
          ((paymentWebhook username planId status).run (World.handler (envs 0)) w).2.db := by
        intro status
        change ((paymentWebhook username planId status >>= fun _ => pure () :
          PanelProg Unit).run _ w).2.db = _
        rw [Prog.run_discard]
      cases status with
      | failed => exact hkept rfl (congrArg (fun db => db.endOf pk) (hrun .failed))
      | pending => exact hkept rfl (congrArg (fun db => db.endOf pk) (hrun .pending))
      | paid =>
        rw [hrun, db_paymentWebhook]
        simp only [AccountOp.renewal, AccountOp.renewed]
        cases hplan : w.db.getPlan planId with
        | none => exact ⟨date, hdate, rfl⟩
        | some plan =>
          cases hhead : (w.db.selectAccounts (.renewable username)).head? with
          | none =>
            have hargs : ∀ s ∈ (CreateArgs.plain username plan).server, s ∈ w.db.servers := by
              simp [CreateArgs.plain]
            exact ⟨date, (wrote_createAccount _ _ w hargs).endOf_kept (fun l hl => .inl hl) hdate, rfl⟩
          | some a => exact endOf_extendAccount _ (Db.mem_of_head? hhead) plan.durationDays none hdate
    | expireUsers => exact hkept rfl (hprog keepsEnds_expireUsers)
    | cleanupExpiredAccounts graceDays => exact hkept rfl (hprog (keepsEnds_cleanupExpiredAccounts graceDays))
    | syncBandwidthUsage => exact hkept rfl (keepsEnds_syncBandwidthUsage.run _ w pk)
  | adminAction action pks adminUser =>
    exact hkept rfl ((keepsEnds_adminAction action pks adminUser).run _ w pk)
  | resetPassword pk' adminUser =>
    exact hkept rfl ((keepsEnds_onAccount (fun _ => keepsEnds_resetPassword adminUser) pk').run _ w pk)
  | bulkCreate r => exact hnew rfl fun l hl => .inl hl
  | rebalanceUsers downServerId => exact hnew rfl fun l hl => .inr hl

/-- A run. -/
theorem World.actAll_endOf (w : World) (xs : List (AccountOp × (Nat → Env)))
    (hdate : w.db.endOf pk = some date) (hxs : ∀ x ∈ xs, x.1.redates pk = false) :
    ∃ date', (w.actAll xs).db.endOf pk = some date' ∧
      date'.micros = endAfter date.micros (w.renewals pk xs) := by
  induction xs generalizing w date with
  | nil => exact ⟨date, hdate, rfl⟩
  | cons x xs ih =>
    obtain ⟨mid, hmid, hfirst⟩ := World.act_endOf w x hdate (hxs x List.mem_cons_self)
    obtain ⟨last, hlast, hrest⟩ := ih (w.act x) hmid fun y hy => hxs y (List.mem_cons_of_mem _ hy)
    refine ⟨last, hlast, ?_⟩
    rw [hrest, hfirst, World.renewals, endAfter_append]

end Operations

/-- While no `patch` gives it a new end, an account ends at the latest date that anyone can hold the
panel to: its first end with all the days that were added, or the time of one of the renewals with the
days that were added from it on. Beyond the days it only has the time for which it had already ended. -/
theorem World.renewals_add_up (w : World) (xs : List (AccountOp × (Nat → Env))) {pk : Nat} {date : DateTime}
    (hdate : w.db.endOf pk = some date) (hxs : ∀ x ∈ xs, x.1.redates pk = false) :
    ∃ date', (w.actAll xs).db.endOf pk = some date' ∧
      IsGreatest (claims date.micros (w.renewals pk xs)) date'.micros ∧
      date'.micros = date.micros + paid (w.renewals pk xs) + lapsed date.micros (w.renewals pk xs) := by
  obtain ⟨date', hend, hmicros⟩ := World.actAll_endOf w xs hdate hxs
  refine ⟨date', hend, ?_, ?_⟩
  · rw [hmicros]
    exact endAfter_isGreatest _ _
  · rw [hmicros]
    exact endAfter_eq _ _

/-- An extension whose node is not reached, and a payment that comes when the account has ended. -/
def renewedTwice : List (AccountOp × (Nat → Env)) :=
  [(.op (.extend 1 5 none), fun _ => { sampleEnv 10 with connect := fun _ => .error (.sshError []) }),
    (.op .expireUsers, fun _ => sampleEnv 40),
    (.op (.webhook "alice".toList 0 .paid), fun _ => sampleEnv 50)]

theorem World.renewals_add_up_renewedTwice :
    (NodeChange.sampleAccountWorld .ssh).renewals 1 renewedTwice =
      [⟨10 * microsPerDay, 5 * microsPerDay⟩, ⟨50 * microsPerDay, 30 * microsPerDay⟩] ∧
    ∃ date', ((NodeChange.sampleAccountWorld .ssh).actAll renewedTwice).db.endOf 1 = some date' ∧
      IsGreatest (claims (sampleDay 30).micros
        ((NodeChange.sampleAccountWorld .ssh).renewals 1 renewedTwice)) date'.micros ∧
      date'.micros = (sampleDay 30).micros +
        paid ((NodeChange.sampleAccountWorld .ssh).renewals 1 renewedTwice) +
        lapsed (sampleDay 30).micros ((NodeChange.sampleAccountWorld .ssh).renewals 1 renewedTwice) :=
  ⟨by decide +kernel, World.renewals_add_up _ _ (by decide +kernel) (by decide)⟩

end SshPanelVpn.Panel

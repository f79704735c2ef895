import SshPanelVpn.Panel.AuditTrail
import SshPanelVpn.Panel.RenewedTerms

/-! `expire_users` and `cleanup_expired_accounts`: which accounts they settle, and which they leave. -/
namespace SshPanelVpn.Panel

open Effects Renewals Runs ShadowLink
open Effects.Prog (run_bind run_handle)

/-- A step on the node of the account that raised. -/
def Event.stops (a : Account) : Event → Bool
  | .connected server ok => server = a.server && !ok
  | .ran server u _ exitCode => server = a.server && u = a.username && exitCode.isNone
  | .asked _ _ _ => false

/-- What stopped a step for an account: its server has no row, or something on its node raised. -/
def World.StoppedOn (w w' : World) (a : Account) : Prop :=
  w.db.getServer a.server = none ∨ ∃ es, w'.log = es ++ w.log ∧ ∃ e ∈ es, e.stops a = true

/-- The accounts saved with a status one after the other, each with its entry of the log. -/
def Db.settle (status : AccountStatus) (entry : Account → Option AuditLog) (db : Db) (done : List Account) :
    Db :=
  done.foldl (fun d a => d.write { a with status := status } [.status] (entry a)) db

/-- The world after a task's step for one account. -/
def World.turn (env : Env) (step : Account → PanelProg Unit) (w : World) (a : Account) : World :=
  ((step a).run (World.handler env) w).2

/-- Every account that was due has its step, in its turn. Some are done and the others were stopped in
their own step; nothing else is written. -/
structure Swept (env : Env) (step : Account → PanelProg Unit) (status : AccountStatus)
    (entry : Account → Option AuditLog) (due done : List Account) (w w' : World) : Prop where
  sublist : done.Sublist due
  rows : w'.db.accounts.rows =
    w.db.accounts.rows.map fun row => if row ∈ done then { row with status := status } else row
  auditLog : w'.db.auditLog = (done.filterMap entry).reverse ++ w.db.auditLog
  servers : w'.db.servers = w.db.servers
  plans : w'.db.plans = w.db.plans
  turns : w' = after (World.turn env step) w due
  stopped : Along (World.turn env step) (fun u a => a ∉ done → u.StoppedOn (u.turn env step a) a) w due

/-! The tables after the saves. -/

section Tables

variable {status : AccountStatus} {entry : Account → Option AuditLog} {db : Db} {a : Account}
  {done : List Account}

theorem Db.settle_cons : db.settle status entry (a :: done) =
    (db.write { a with status := status } [.status] (entry a)).settle status entry done := rfl

theorem Db.settle_rows : (db.settle status entry done).accounts.rows = db.accounts.rows.map fun row =>
    if row.id ∈ done.map Account.id then { row with status := status } else row := by
  induction done generalizing db with
  | nil => simp [settle]
  | cons a done ih =>
    have hwrite : (db.write { a with status := status } [.status] (entry a)).accounts.rows =
        db.accounts.rows.map fun row => if row.id = a.id then { row with status := status } else row := rfl
    rw [settle_cons, ih, hwrite, List.map_map]
    refine List.map_congr_left ?_
    intro row _
    simp only [Function.comp_apply, List.map_cons, List.mem_cons]
    by_cases ha : row.id = a.id
    · simp [ha]
    · simp [ha]

theorem Db.settle_log : (db.settle status entry done).auditLog =
    (done.filterMap entry).reverse ++ db.auditLog := by
  induction done generalizing db with
  | nil => rfl
  | cons a done ih =>
    rw [settle_cons, ih]
    cases h : entry a with
    | none => simp [write, h]
    | some e => simp [write, h]

theorem Db.settle_others : (db.settle status entry done).servers = db.servers ∧
    (db.settle status entry done).plans = db.plans := by
  induction done generalizing db with
  | nil => exact ⟨rfl, rfl⟩
  | cons a done ih => exact ih

end Tables

/-! Steps that raise. -/

section Raises

variable {env : Env} {w w' w'' : World} {a : Account} {α β : Type} {p : PanelProg α}

theorem World.run_log (env : Env) (p : PanelProg α) (w : World) :
    w.log <:+ (p.run (World.handler env) w).2.log :=
  Prog.run_invariant (I := fun t => w.log <:+ t.log)
    (fun c t h => h.trans (World.log_handler env c t)) p (List.suffix_refl _)

/-- The program raises only with a step on the node of the account. -/
def RaisesOn (env : Env) (a : Account) (p : PanelProg α) : Prop :=
  ∀ w e w', p.run (World.handler env) w = (.error e, w') →
    ∃ es, w'.log = es ++ w.log ∧ ∃ e ∈ es, e.stops a = true

theorem RaisesOn.of_ok (h : ∀ w, ∃ x w', p.run (World.handler env) w = (.ok x, w')) : RaisesOn env a p := by
  intro w e w' hr
  obtain ⟨x, t, hx⟩ := h w
  rw [hx] at hr
  cases hr

theorem RaisesOn.bind {f : α → PanelProg β} (hp : RaisesOn env a p) (hf : ∀ x, RaisesOn env a (f x)) :
    RaisesOn env a (p >>= f) := by
  intro w e w' hr
  rw [run_bind] at hr
  have hgrows := World.run_log env p w
  rcases hx : p.run (World.handler env) w with ⟨x | x, t⟩
  · rw [hx] at hr
    cases hr
    exact hp w e w' hx
  · rw [hx] at hr hgrows
    obtain ⟨es, hes, ev, hev, hstops⟩ := hf x t e w' hr
    obtain ⟨fs, hfs⟩ := hgrows
    refine ⟨es ++ fs, ?_, ev, List.mem_append_left _ hev, hstops⟩
    rw [hes, ← hfs, List.append_assoc]

theorem raisesOn_ask (c : Call) : RaisesOn env a (ask c) := .of_ok fun _ => ⟨_, _, rfl⟩

theorem raisesOn_logged (request : PanelProg BridgeResponse) : RaisesOn env a (logged request) := by
  refine .of_ok fun w => ?_
  unfold logged
  rw [run_handle, run_bind]
  rcases request.run (World.handler env) w with ⟨x | x, t⟩ <;> exact ⟨_, _, rfl⟩

theorem raisesOn_connect {server : Server} (hid : server.id = a.server) :
    RaisesOn env a (SSHManager.connect server) := by
  intro w e w' hr
  have hrun : (SSHManager.connect server).run (World.handler env) w =
      (Prog.ofExcept (w.connect env server).1 : PanelProg Unit).run (World.handler env)
        (w.connect env server).2 := rfl
  rw [hrun] at hr
  unfold World.connect at hr
  split at hr
  · cases hr
  · cases hr
    exact ⟨[.connected server.id false], rfl, _, List.mem_singleton_self _, by simp [Event.stops, hid]⟩

theorem raisesOn_run {server : Server} (hid : server.id = a.server) (cmd : Cmd) :
    RaisesOn env a (SSHManager.run server a.username cmd) := by
  intro w e w' hr
  have hrun : (SSHManager.run server a.username cmd).run (World.handler env) w =
      (Prog.ofExcept (w.exec env server a.username cmd).1 >>= fun result =>
        Prog.ret ⟨result.exitCode, PyString.strip result.stdout, PyString.strip result.stderr⟩ :
          PanelProg CommandResult).run (World.handler env) (w.exec env server a.username cmd).2 := rfl
  rw [hrun] at hr
  unfold World.exec at hr
  dsimp only at hr
  split at hr
  · cases hr
    exact ⟨[.ran server.id a.username cmd none], rfl, _, List.mem_singleton_self _,
      by simp [Event.stops, hid]⟩
  · split at hr
    · split at hr <;> cases hr
    · cases hr

/-- The server's row, then steps on its node. -/
theorem stoppedOn_of_error {rest : Server → PanelProg Unit} {e : Exc}
    (hrest : ∀ server : Server, server.id = a.server → RaisesOn env a (rest server))
    (hr : (accountServer a >>= rest).run (World.handler env) w = (.error e, w')) : w.StoppedOn w' a := by
  cases hs : w.db.getServer a.server with
  | none => exact .inl hs
  | some server =>
    simp only [accountServer, orHttp404, Prog.perform_bind, Prog.run_call, World.handler, hs,
      Prog.call_bind, Prog.ret_bind] at hr
    have hid : server.id = a.server := by simpa using List.find?_some hs
    exact .inr (hrest server hid w e w' hr)

end Raises

/-! The tasks' steps. -/

/-- The step saves the status of the account with its entry, or it is stopped and writes nothing. -/
def Settles (env : Env) (status : AccountStatus) (entry : Account → Option AuditLog)
    (step : Account → PanelProg Unit) : Prop :=
  ∀ a w, match (step a).run (World.handler env) w with
    | (.ok _, w') => w'.db = w.db.write { a with status := status } [.status] (entry a)
    | (.error _, w') => w'.db = w.db ∧ w.StoppedOn w' a

section Steps

variable {env : Env} {status : AccountStatus} {entry : Account → Option AuditLog}
  {step : Account → PanelProg Unit}

theorem Settles.of_rest {rest : Account → Server → PanelProg Unit}
    (hstep : ∀ a, step a = accountServer a >>= rest a)
    (htables : ∀ a (db : Db), tables.Spec env (fun v => v.db = db) (step a)
      (fun _ v => v.db = db.write { a with status := status } [.status] (entry a)) fun v => v.db = db)
    (hrest : ∀ a (server : Server), server.id = a.server → RaisesOn env a (rest a server)) :
    Settles env status entry step := by
  intro a w
  have hw := htables a w.db w fun _ => rfl
  rcases hr : (step a).run (World.handler env) w with ⟨e | x, w'⟩
  · rw [hr] at hw
    rw [hstep] at hr
    exact ⟨hw fun _ _ => rfl, stoppedOn_of_error (hrest a) hr⟩
  · rw [hr] at hw
    exact hw fun _ _ => rfl

theorem settles_expireUser : Settles env .expired (fun _ => none) expireUser := by
  refine .of_rest (fun _ => rfl) ?_ ?_
  · intro a db
    refine (tables_accountServer fun _ hv => hv).bind fun server => ?_
    refine (tables_quiet quiet_connect).bind fun _ => ?_
    refine Observation.Spec.bind (tables_quiet (quiet_lockUser _ _)) fun _ => ?_
    refine (Observation.Spec.saveAccount _ _).pre ?_
    rintro v rfl
    rfl
  · intro a server hid
    exact (raisesOn_connect hid).bind fun _ => (raisesOn_run hid .usermodLock).bind fun _ => raisesOn_ask _

theorem settles_deleteAccount : Settles env .deleted (fun a => some ⟨.delete, some a.id, none, []⟩)
    fun a => deleteAccount a none := by
  refine .of_rest (fun _ => rfl) ?_ ?_
  · intro a db
    exact tables_changeStatus (fun _ _ => quiet_bridgeRequest _ _) quiet_deleteUser db
  · intro a server hid
    have hsave : RaisesOn env a (do
        saveStatus a .deleted
        ask (.insertAuditLog ⟨.delete, some a.id, none, []⟩)) :=
      (raisesOn_ask _).bind fun _ => raisesOn_ask _
    cases a.protocolType with
    | shadowlink => exact (raisesOn_logged _).bind fun _ => hsave
    | ssh =>
      refine (raisesOn_connect hid).bind fun _ => ?_
      exact ((raisesOn_run hid .pkill).bind fun _ => raisesOn_run hid .userdel).bind fun _ => hsave

theorem run_countSucceeded_cons (acc : Account) (accs : List Account) (w : World) :
    (countSucceeded step (acc :: accs)).run (World.handler env) w =
      (((countSucceeded step accs).run (World.handler env)
          ((step acc).run (World.handler env) w).2).1.map
            fun n => if ((step acc).run (World.handler env) w).1.isOk then n + 1 else n,
        ((countSucceeded step accs).run (World.handler env) ((step acc).run (World.handler env) w).2).2) := by
  rw [countSucceeded, run_bind, succeeded, run_handle, run_bind]
  rcases (step acc).run (World.handler env) w with ⟨x | x, t⟩
  · dsimp only [Prog.run_ret]
    rw [run_bind]
    rcases (countSucceeded step accs).run (World.handler env) t with ⟨y | y, u⟩ <;> rfl
  · dsimp only [Prog.pure_eq, Prog.run_ret]
    rw [run_bind]
    rcases (countSucceeded step accs).run (World.handler env) t with ⟨y | y, u⟩ <;> rfl

/-- A failure is no hindrance to the accounts after it. -/
theorem Settles.countSucceeded (h : Settles env status entry step) (accs : List Account) (w : World) :
    ∃ done : List Account, done.Sublist accs ∧
      ((countSucceeded step accs).run (World.handler env) w).1 = .ok done.length ∧
      ((countSucceeded step accs).run (World.handler env) w).2.db = w.db.settle status entry done ∧
      Along (World.turn env step) (fun u a => a ∉ done → u.StoppedOn (u.turn env step a) a) w accs := by
  induction accs generalizing w with
  | nil => exact ⟨[], .slnil, rfl, rfl, trivial⟩
  | cons acc accs ih =>
    have hacc := h acc w
    have hturn : w.turn env step acc = ((step acc).run (World.handler env) w).2 := rfl
    rw [run_countSucceeded_cons]
    simp only [Along, hturn]
    rcases hr : (step acc).run (World.handler env) w with ⟨e | x, t⟩
    · -- the account is left as it is
      rw [hr] at hacc
      obtain ⟨done, hsub, hok, hdb, hstopped⟩ := ih t
      exact ⟨done, hsub.cons acc, by rw [hok]; rfl, by rw [hdb, hacc.1], fun _ => hacc.2, hstopped⟩
    · rw [hr] at hacc
      obtain ⟨done, hsub, hok, hdb, hstopped⟩ := ih t
      refine ⟨acc :: done, hsub.cons_cons acc, by rw [hok]; rfl, by rw [hdb, hacc, Db.settle_cons], ?_, ?_⟩
      · intro hnot
        exact (hnot List.mem_cons_self).elim
      · refine hstopped.imp ?_
        intro u a hu hnot
        exact hu fun ha => hnot (List.mem_cons_of_mem _ ha)

theorem Settles.swept (h : Settles env status entry step) (q : AccountQuery) (w : World) :
    ∃ done, ((Panel.countSucceeded step (w.db.selectAccounts q)).run (World.handler env) w).1 =
        .ok done.length ∧
      Swept env step status entry (w.db.selectAccounts q) done w
        ((Panel.countSucceeded step (w.db.selectAccounts q)).run (World.handler env) w).2 := by
  obtain ⟨done, hsub, hok, hdb, hstopped⟩ := h.countSucceeded (w.db.selectAccounts q) w
  refine ⟨done, hok, hsub, ?_, ?_, ?_, ?_, run_countSucceeded step _ w, hstopped⟩
  · rw [hdb, Db.settle_rows]
    refine List.map_congr_left ?_
    intro row hrow
    have hiff : row.id ∈ done.map Account.id ↔ row ∈ done := by
      refine ⟨fun hid => ?_, List.mem_map_of_mem⟩
      obtain ⟨a, ha, hid⟩ := List.mem_map.mp hid
      have hmem : a ∈ w.db.accounts := (Db.mem_selectAccounts.mp (hsub.mem ha)).1
      rwa [← AccountTable.eq_of_id hmem hrow hid]
    simp only [hiff]
  · rw [hdb, Db.settle_log]
  · rw [hdb]
    exact Db.settle_others.1
  · rw [hdb]
    exact Db.settle_others.2

end Steps

theorem expireUsers_swept (env : Env) (w : World) :
    ∃ done, (expireUsers.run (World.handler env) w).1 = .ok done.length ∧
      Swept env expireUser .expired (fun _ => none) (w.db.selectAccounts (.expiredBy env.now)) done w
        (expireUsers.run (World.handler env) w).2 :=
  settles_expireUser.swept (.expiredBy env.now) w

theorem cleanupExpiredAccounts_swept {env : Env} {graceDays : Int} {cutoff : DateTime}
    (hcutoff : env.now.addDays (-graceDays) = .ok cutoff) (w : World) :
    ∃ done, ((cleanupExpiredAccounts graceDays).run (World.handler env) w).1 = .ok done.length ∧
      Swept env (fun a => deleteAccount a none) .deleted (fun a => some ⟨.delete, some a.id, none, []⟩)
        (w.db.selectAccounts (.expiredSince cutoff)) done w
        ((cleanupExpiredAccounts graceDays).run (World.handler env) w).2 := by
  have hrun : (cleanupExpiredAccounts graceDays).run (World.handler env) w =
      (countSucceeded (fun a => deleteAccount a none)
        (w.db.selectAccounts (.expiredSince cutoff))).run (World.handler env) w := by
    simp [cleanupExpiredAccounts, World.handler, hcutoff]
  rw [hrun]
  exact settles_deleteAccount.swept (.expiredSince cutoff) w

/-- A number of days that leads out of the calendar stops the task before its first step. -/
theorem cleanupExpiredAccounts_overflow {env : Env} {graceDays : Int} {e : Exc}
    (hcutoff : env.now.addDays (-graceDays) = .error e) (w : World) :
    (cleanupExpiredAccounts graceDays).run (World.handler env) w = (.error e, w) := by
  simp [cleanupExpiredAccounts, World.handler, hcutoff]

/-- Each task returns the number of accounts that it has settled, never raises for one of them, and has
settled every account that was due but those whose own step was stopped; no other row and no other column
changes. -/
theorem World.tasks_sweep (env : Env) (w : World) :
    (∃ done, (expireUsers.run (World.handler env) w).1 = .ok done.length ∧
      Swept env expireUser .expired (fun _ => none) (w.db.selectAccounts (.expiredBy env.now)) done w
        (expireUsers.run (World.handler env) w).2) ∧
    ∀ graceDays, match env.now.addDays (-graceDays) with
      | .error e => (cleanupExpiredAccounts graceDays).run (World.handler env) w = (.error e, w)
      | .ok cutoff => ∃ done,
        ((cleanupExpiredAccounts graceDays).run (World.handler env) w).1 = .ok done.length ∧
          Swept env (fun a => deleteAccount a none) .deleted
            (fun a => some ⟨.delete, some a.id, none, []⟩) (w.db.selectAccounts (.expiredSince cutoff))
            done w ((cleanupExpiredAccounts graceDays).run (World.handler env) w).2 := by
  refine ⟨expireUsers_swept env w, ?_⟩
  intro graceDays
  cases hcutoff : env.now.addDays (-graceDays) with
  | error e => exact cleanupExpiredAccounts_overflow hcutoff w
  | ok cutoff => exact cleanupExpiredAccounts_swept hcutoff w

/-! What has been paid for. -/

theorem Swept.statusOf_kept {env : Env} {step : Account → PanelProg Unit} {status : AccountStatus}
    {entry : Account → Option AuditLog} {q : AccountQuery} {done : List Account} {w w' : World} {pk : Nat}
    {row : Account} (h : Swept env step status entry (w.db.selectAccounts q) done w w')
    (hrow : w.db.getAccount pk = some row)
    (hq : q.filter row = false) : w'.db.statusOf pk = w.db.statusOf pk := by
  have hnot : row ∉ done := by
    intro hdone
    have hdue := (Db.mem_selectAccounts.mp (h.sublist.mem hdone)).2
    rw [hq] at hdue
    cases hdue
  have hfind : w'.db.getAccount pk = some row := by
    unfold Db.getAccount at hrow ⊢
    rw [h.rows, find_map_rows, hrow, Option.map_some, if_neg hnot]
    intro a
    split <;> rfl
  rw [Db.statusOf, Db.statusOf, hfind, hrow]

theorem DateTime.addDays_micros {d e : DateTime} {days : Int} (h : d.addDays days = .ok e) :
    e.micros = d.micros + days * microsPerDay := by
  unfold addDays at h
  split at h
  · cases h
    rfl
  · cases h

/-- As long as one of the dates that the panel can be held to has not come, `expire_users` leaves an
account as it is, and `cleanup_expired_accounts` until the grace period after it is over. -/
theorem World.paid_time_is_kept (w : World) (xs : List (AccountOp × (Nat → Env))) {pk : Nat}
    {date : DateTime} (hdate : w.db.endOf pk = some date) (hxs : ∀ x ∈ xs, x.1.redates pk = false)
    (env : Env) :
    ((∃ c ∈ claims date.micros (w.renewals pk xs), env.now.micros < c) →
      (expireUsers.run (World.handler env) (w.actAll xs)).2.db.statusOf pk =
        (w.actAll xs).db.statusOf pk) ∧
    ∀ graceDays, (∃ c ∈ claims date.micros (w.renewals pk xs),
      env.now.micros < c + graceDays * microsPerDay) →
        ((cleanupExpiredAccounts graceDays).run (World.handler env) (w.actAll xs)).2.db.statusOf pk =
          (w.actAll xs).db.statusOf pk := by
  obtain ⟨last, hlast, hmicros⟩ := World.actAll_endOf w xs hdate hxs
  have hclaims : ∀ c ∈ claims date.micros (w.renewals pk xs), c ≤ last.micros := by
    rw [hmicros]
    exact (endAfter_isGreatest date.micros (w.renewals pk xs)).2
  obtain ⟨row, hrow, rfl⟩ := Option.map_eq_some_iff.mp hlast
  constructor
  · rintro ⟨c, hc, hnow⟩
    obtain ⟨done, -, hswept⟩ := expireUsers_swept env (w.actAll xs)
    refine hswept.statusOf_kept hrow (decide_eq_false ?_)
    rintro ⟨-, hle⟩
    have hend : row.expireDate.micros ≤ env.now.micros := hle
    have hclaim := hclaims c hc
    omega
  · rintro graceDays ⟨c, hc, hnow⟩
    cases hcutoff : env.now.addDays (-graceDays) with
    | error e => rw [cleanupExpiredAccounts_overflow hcutoff]
    | ok cutoff =>
      obtain ⟨done, -, hswept⟩ := cleanupExpiredAccounts_swept hcutoff (w.actAll xs)
      refine hswept.statusOf_kept hrow (decide_eq_false ?_)
      rintro ⟨-, hle⟩
      have hend : row.expireDate.micros ≤ cutoff.micros := hle
      have hclaim := hclaims c hc
      rw [DateTime.addDays_micros hcutoff] at hend
      simp only [microsPerDay] at hend hnow
      omega

theorem World.paid_time_is_kept_renewedTwice :
    (expireUsers.run (World.handler (sampleEnv 79))
      ((NodeChange.sampleAccountWorld .ssh).actAll renewedTwice)).2.db.statusOf 1 = some .active := by
  have hstatus : ((NodeChange.sampleAccountWorld .ssh).actAll renewedTwice).db.statusOf 1 =
      some .active := by decide +kernel
  rw [← hstatus]
  have hdate : (NodeChange.sampleAccountWorld .ssh).db.endOf 1 = some (sampleDay 30) := by decide +kernel
  refine (World.paid_time_is_kept _ renewedTwice hdate (by decide) (sampleEnv 79)).1
    ⟨80 * microsPerDay, .inr ?_, by decide⟩
  exact ⟨[⟨10 * microsPerDay, 5 * microsPerDay⟩], ⟨50 * microsPerDay, 30 * microsPerDay⟩, [],
    by decide +kernel, by decide⟩

end SshPanelVpn.Panel

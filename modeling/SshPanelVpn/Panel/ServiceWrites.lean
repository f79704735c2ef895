import SshPanelVpn.Panel.TableSteps

/-! The services and their loops as steps of the tables. -/
namespace SshPanelVpn.Panel

open Effects Runs ShadowLink
open Effects.Prog (Triple run_bind)

/-- An object that is up to date makes the program write its row only, and only so. -/
def Writes (env : Env) (P : TableWrite → Prop) (a : Account) (p : PanelProg Unit) : Prop :=
  ∀ db : Db, db.Current a → tables.Spec env (fun v => v.db = db) p
    (fun _ v => Wrote (fun l => P l ∧ l.pk = a.id) db v.db)
    fun v => Wrote (fun l => P l ∧ l.pk = a.id) db v.db

section Services

variable {env : Env} {a : Account} {P : TableWrite → Prop}

theorem Writes.mono {Q : TableWrite → Prop} {p : PanelProg Unit} (h : Writes env P a p)
    (hPQ : ∀ l, P l → l.pk = a.id → Q l) : Writes env Q a p := by
  have hmono : ∀ {db db' : Db}, Wrote (fun l => P l ∧ l.pk = a.id) db db' →
      Wrote (fun l => Q l ∧ l.pk = a.id) db db' := by
    rintro db db' ⟨ls, hrun, hls⟩
    exact ⟨ls, hrun, fun l hl => ⟨hPQ l (hls l hl).1 (hls l hl).2, (hls l hl).2⟩⟩
  intro db ha
  exact (h db ha).imp (fun _ hv => hv) (fun _ _ hv => hmono hv) fun _ hv => hmono hv

theorem Writes.of_spec {p : PanelProg Unit} {l : TableWrite} (next : Db → Db) (hl : P l)
    (hpk : l.pk = a.id) (hstep : ∀ db : Db, db.Current a → TableStep db l (next db))
    (h : ∀ db : Db, tables.Spec env (fun v => v.db = db) p (fun _ v => v.db = next db)
      fun v => v.db = db) : Writes env P a p := by
  intro db ha
  refine (h db).imp (fun _ hv => hv) ?_ ?_
  · intro _ v hv
    rw [hv]
    exact (Wrote.refl _ db).step (hstep db ha) ⟨hl, hpk⟩
  · rintro v rfl
    exact Wrote.refl _ _

/-- A status and its log entry are written together, or nothing is. -/
theorem tables_changeStatus {status : AccountStatus} {action : AuditAction} {adminUser : Option Nat}
    {bridge : Server → Str → PanelProg BridgeResponse}
    {ssh : Server → Str → PanelProg CommandResult} (hbridge : ∀ server token, Quiet (bridge server token))
    (hssh : ∀ server u, Quiet (ssh server u)) (db : Db) :
    tables.Spec env (fun v => v.db = db) (changeStatus a status action adminUser bridge ssh)
      (fun _ v => v.db = db.write { a with status := status } [.status]
        (some ⟨action, some a.id, adminUser, []⟩)) fun v => v.db = db := by
  refine (tables_accountServer fun _ hv => hv).bind fun server => ?_
  have hsave : tables.Spec env (fun v => v.db = db) (do
      saveStatus a status
      ask (.insertAuditLog ⟨action, some a.id, adminUser, []⟩))
      (fun _ v => v.db = db.write { a with status := status } [.status]
        (some ⟨action, some a.id, adminUser, []⟩)) fun v => v.db = db := by
    refine Observation.Spec.pre (Observation.Spec.bind (Observation.Spec.saveAccount _ _) fun _ =>
      Observation.Spec.insertAuditLog _) ?_
    rintro v rfl
    rfl
  cases a.protocolType with
  | shadowlink => exact (tables_quiet (quiet_logged (hbridge _ _))).bind fun _ => hsave
  | ssh =>
    refine (tables_quiet quiet_connect).bind fun _ => ?_
    exact Observation.Spec.bind (tables_quiet (hssh _ _)) fun _ => hsave

theorem writes_changeStatus {status : AccountStatus} {action : AuditAction} {adminUser : Option Nat}
    {bridge : Server → Str → PanelProg BridgeResponse}
    {ssh : Server → Str → PanelProg CommandResult} (hbridge : ∀ server token, Quiet (bridge server token))
    (hssh : ∀ server u, Quiet (ssh server u)) :
    Writes env (fun l => l = .status a.id a.status status (some action)) a
      (changeStatus a status action adminUser bridge ssh) :=
  .of_spec _ rfl rfl (fun _ ha => ha.writes { a with status := status } [.status]
    (some ⟨action, some a.id, adminUser, []⟩) rfl List.mem_cons_self (by simp))
    (tables_changeStatus hbridge hssh)

theorem writes_suspendAccount {adminUser : Option Nat} :
    Writes env (fun l => l = .status a.id a.status .suspended (some .suspend)) a
      (suspendAccount a adminUser) :=
  writes_changeStatus (fun _ _ => quiet_bridgeRequest _ _) quiet_lockUser

theorem writes_activateAccount {adminUser : Option Nat} :
    Writes env (fun l => l = .status a.id a.status .active (some .activate)) a
      (activateAccount a adminUser) :=
  writes_changeStatus (fun _ _ => quiet_bridgeRequest _ _) quiet_unlockUser

theorem writes_deleteAccount {adminUser : Option Nat} :
    Writes env (fun l => l = .status a.id a.status .deleted (some .delete)) a
      (deleteAccount a adminUser) :=
  writes_changeStatus (fun _ _ => quiet_bridgeRequest _ _) quiet_deleteUser

theorem writes_expireUser :
    Writes env (fun l => l = .status a.id a.status .expired none) a (expireUser a) := by
  refine .of_spec (fun db => db.write { a with status := .expired } [.status] none) rfl rfl
    (fun _ ha => ha.writes { a with status := .expired } [.status] none rfl List.mem_cons_self (by simp)) ?_
  intro db
  refine (tables_accountServer fun _ hv => hv).bind fun server => ?_
  refine (tables_quiet quiet_connect).bind fun _ => ?_
  refine Observation.Spec.bind (tables_quiet (quiet_lockUser _ _)) fun _ => ?_
  refine (Observation.Spec.saveAccount _ _).pre ?_
  rintro v rfl
  rfl

theorem writes_resetPassword {adminUser : Option Nat} :
    Writes env (fun l => l = .columns a.id (some .passwordReset)) a (resetPassword a adminUser) := by
  refine .of_spec (fun db => db.write { a with passwordDisplay := env.password }
    [.passwordDisplay] (some ⟨.passwordReset, some a.id, adminUser, []⟩)) rfl rfl
    (fun _ ha => ha.writesColumns { a with passwordDisplay := env.password }
      [.passwordDisplay] (some ⟨.passwordReset, some a.id, adminUser, []⟩) rfl (by simp) (by simp)) ?_
  intro db
  refine (Observation.Spec.read (fun _ => env.password) fun _ => rfl).bind fun newPw => .pure fun hpw => ?_
  subst hpw
  refine (tables_accountServer fun _ hv => hv).bind fun server => ?_
  refine (tables_quiet quiet_connect).bind fun _ => ?_
  refine Observation.Spec.bind (tables_quiet (quiet_run _)) fun result => ?_
  split
  · exact Observation.Spec.raise fun _ hv => hv
  · refine Observation.Spec.pre (Observation.Spec.bind (Observation.Spec.saveAccount _ _) fun _ =>
      Observation.Spec.insertAuditLog _) ?_
    rintro v rfl
    rfl

/-! `sync_bandwidth_usage` saves the usage, then it may suspend. -/

theorem writes_syncAccount {srv : Server} :
    Writes env (fun l => l = .columns a.id none ∨ l = .status a.id a.status .suspended none) a
      (syncAccount srv a) := by
  intro db ha
  let I : View Unit → Prop := fun v => Wrote (fun l => (l = .columns a.id none ∨
    l = .status a.id a.status .suspended none) ∧ l.pk = a.id) db v.db
  have hstart : ∀ v : View Unit, v.db = db → I v ∧ v.db.Current a := by
    intro v hv
    constructor
    · change Wrote _ db v.db
      rw [hv]
      exact Wrote.refl _ db
    · rw [hv]
      exact ha
  have husage : ∀ gb, tables.Spec env (fun v => I v ∧ v.db.Current a) (saveUsage a gb)
      (fun _ v => I v ∧ v.db.Current a) I := by
    intro gb
    unfold saveUsage
    split
    · refine (Observation.Spec.saveAccount _ _).pre ?_
      rintro v ⟨hv, hc⟩
      refine ⟨hv.step (hc.writesColumns { a with bandwidthUsedGb := gb } [.bandwidthUsedGb] none rfl
        (by simp) (by simp)) ⟨.inl rfl, rfl⟩, ?_⟩
      exact hc.write none fun _ => by simp
    · exact Observation.Spec.ret fun _ hv => hv
  have henforce : ∀ gb, tables.Spec env (fun v => I v ∧ v.db.Current a) (enforceLimit srv a gb)
      (fun _ => I) I := by
    intro gb
    unfold enforceLimit
    split
    · refine (Observation.Spec.imp (tables_quiet (quiet_lockUser _ _)) (fun _ hv => hv)
        (fun _ _ hv => hv) fun _ hv => hv.1).bind fun _ => ?_
      refine (Observation.Spec.saveAccount _ _).pre ?_
      rintro v ⟨hv, hc⟩
      exact hv.step (hc.writes { a with status := .suspended } [.status] none rfl List.mem_cons_self (by simp))
        ⟨.inr rfl, rfl⟩
    · exact Observation.Spec.ret fun _ hv => hv.1
  have hquiet : ∀ {β : Type} {p : PanelProg β}, Quiet p →
      tables.Spec env (fun v => I v ∧ v.db.Current a) p (fun _ v => I v ∧ v.db.Current a) I :=
    fun hp => (tables_quiet hp).imp (fun _ hv => hv) (fun _ _ hv => hv) fun _ hv => hv.1
  refine Observation.Spec.pre ?_ hstart
  refine (hquiet (SSHManager.allCalls_setupTrafficAccounting quiet_exec)).bind fun _ => ?_
  refine (hquiet (SSHManager.allCalls_getUserBandwidthBytes quiet_exec)).bind fun bytes => ?_
  exact (husage _).bind fun _ => henforce _

end Services

/-! Loops over rows that have been read. -/

section Loops

variable {env : Env} {P : TableWrite → Prop} {db₀ : Db} {X : View Unit → Prop}

/-- One row is worked on, the rest stays up to date. -/
theorem Writes.next {a : Account} {p : PanelProg Unit} (h : Writes env P a p) {accs : List Account}
    (hids : ((a :: accs).map Account.id).Nodup) :
    tables.Spec env (fun v => Wrote P db₀ v.db ∧ ∀ b ∈ a :: accs, v.db.Current b) p
      (fun _ v => Wrote P db₀ v.db ∧ ∀ b ∈ accs, v.db.Current b)
      fun v => Wrote P db₀ v.db ∧ ∀ b ∈ accs, v.db.Current b := by
  have hne : ∀ b ∈ accs, a.id ≠ b.id := by
    intro b hb he
    exact (List.nodup_cons.mp hids).1 (he ▸ List.mem_map_of_mem hb)
  refine .of_view ?_
  rintro v₀ ⟨hv₀, hc₀⟩
  have hdone : ∀ v : View Unit, Wrote (fun l => P l ∧ l.pk = a.id) v₀.db v.db →
      Wrote P db₀ v.db ∧ ∀ b ∈ accs, v.db.Current b := by
    intro v hv
    refine ⟨hv₀.trans ?_, fun b hb => ?_⟩
    · obtain ⟨ls, hrun, hls⟩ := hv
      exact ⟨ls, hrun, fun l hl => (hls l hl).1⟩
    · refine hv.current ?_ (hc₀ b (List.mem_cons_of_mem _ hb))
      rintro l ⟨-, hpk⟩
      rw [hpk]
      exact hne b hb
  refine (h v₀.db (hc₀ a List.mem_cons_self)).imp ?_ (fun _ v hv => hdone v hv) hdone
  rintro v rfl
  rfl

theorem Writes.countSucceeded {step : Account → PanelProg Unit} {accs : List Account}
    (h : ∀ a ∈ accs, Writes env P a (step a)) (hids : (accs.map Account.id).Nodup) :
    tables.Spec env (fun v => Wrote P db₀ v.db ∧ ∀ a ∈ accs, v.db.Current a)
      (countSucceeded step accs) (fun _ v => Wrote P db₀ v.db) X := by
  induction accs with
  | nil => exact Observation.Spec.ret fun _ hv => hv.1
  | cons a accs ih =>
    refine (Observation.Spec.succeeded ((h a List.mem_cons_self).next hids)).bind fun _ => ?_
    refine (ih (fun b hb => h b (List.mem_cons_of_mem _ hb)) (List.nodup_cons.mp hids).2).bind fun _ => ?_
    exact Observation.Spec.ret fun _ hv => hv

theorem writes_syncAccounts {srv : Server} {accs : List Account}
    (h : ∀ a ∈ accs, Writes env P a (syncAccount srv a)) (hids : (accs.map Account.id).Nodup) :
    tables.Spec env (fun v => Wrote P db₀ v.db ∧ ∀ a ∈ accs, v.db.Current a)
      (syncAccounts srv accs) (fun _ v => Wrote P db₀ v.db) fun v => Wrote P db₀ v.db := by
  induction accs with
  | nil => exact Observation.Spec.ret fun _ hv => hv.1
  | cons a accs ih =>
    refine Observation.Spec.bind (((h a List.mem_cons_self).next hids).imp (fun _ hv => hv)
      (fun _ _ hv => hv) fun _ hv => hv.1) fun _ => ?_
    exact ih (fun b hb => h b (List.mem_cons_of_mem _ hb)) (List.nodup_cons.mp hids).2

theorem Db.selectAccounts_ids (db : Db) (q : AccountQuery) :
    ((db.selectAccounts q).map Account.id).Nodup :=
  db.accounts.ids.sublist (List.filter_sublist.map _)

/-- Rows that a query has just found are up to date. -/
theorem tables_select {β : Type} {q : AccountQuery} {k : List Account → PanelProg β}
    {A : β → View Unit → Prop}
    (h : ∀ accs, (∀ a ∈ accs, q.filter a = true) → (accs.map Account.id).Nodup →
      tables.Spec env (fun v => Wrote P db₀ v.db ∧ ∀ a ∈ accs, v.db.Current a) (k accs) A X) :
    tables.Spec env (fun v => Wrote P db₀ v.db) (ask (.selectAccounts q) >>= k) A X := by
  refine (Observation.Spec.read (fun v => v.db.selectAccounts q) fun _ => rfl).bind fun accs => ?_
  refine .of_view ?_
  rintro v₀ ⟨rfl, hv₀⟩
  refine (h _ ?_ (v₀.db.selectAccounts_ids q)).pre ?_
  · intro a ha
    exact (Db.mem_selectAccounts.mp ha).2
  · rintro v rfl
    exact ⟨hv₀, fun a ha => .of_mem (Db.mem_selectAccounts.mp ha).1⟩

end Loops

end SshPanelVpn.Panel

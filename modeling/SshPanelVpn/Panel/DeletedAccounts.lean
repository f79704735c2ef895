import SshPanelVpn.Panel.OperationWrites

/-! Whether DELETED is the end of an account. -/
namespace SshPanelVpn.Panel

open Effects Runs ShadowLink

/-! The property, and when it holds. -/

/-- From each point of the run on, what is DELETED stays so. -/
def DeletedForGood (w : World) (xs : List (AccountOp × (Nat → Env))) : Prop :=
  ∀ ys zs us, xs = ys ++ zs ++ us → ∀ pk, (w.actAll ys).db.statusOf pk = some .deleted →
    (w.actAll (ys ++ zs)).db.statusOf pk = some .deleted

/-- One write. -/
theorem TableStep.statusOf_deleted {db db' : Db} {l : TableWrite} {pk : Nat} (h : TableStep db l db')
    (hl : ∀ new action, l = .status pk .deleted new action → new = .deleted)
    (hs : db.statusOf pk = some .deleted) : db'.statusOf pk = some .deleted := by
  rw [h.statusOf pk, hs]
  cases l with
  | created pk' =>
    simp only [TableWrite.statusAfter]
    split
    · next hpk =>
      have hnone := h.nextId
      rw [hpk, hs] at hnone
      cases hnone
    · rfl
  | status pk' old new action =>
    simp only [TableWrite.statusAfter]
    split
    · next hpk =>
      subst hpk
      have hold := h.statusOf_old
      rw [hs] at hold
      cases hold
      rw [hl new action rfl]
    · rfl
  | columns pk' action => rfl
  | moved pk' => rfl

/-- One operation. -/
theorem act_deleted (w : World) (x : AccountOp × (Nat → Env))
    (h : ∀ a, ¬ x.1.Revives (x.2 0) w a) (pk : Nat) (hs : w.db.statusOf pk = some .deleted) :
    (w.act x).db.statusOf pk = some .deleted := by
  refine (w.act_wrote x).keeps (I := fun d => d.statusOf pk = some .deleted) ?_ hs
  intro d l d' hstep hl hd
  refine hstep.statusOf_deleted ?_ hd
  rintro new action rfl
  by_contra hnew
  obtain ⟨a, -, hrevives, -⟩ := hl.revives hnew
  exact h a hrevives

/-- A change of status that gets through on the node is written. -/
theorem db_changeStatus_done {env : Env} {w : World} {a : Account} {cmd : Cmd}
    (status : AccountStatus) (action : AuditAction) (adminUser : Option Nat) (path : String)
    (h : env.changes w a cmd = true) :
    ((changeStatus a status action adminUser (fun server token =>
      ShadowLinkManager.bridgeRequest server "POST" path ⟨token, 0⟩) fun server u =>
        SSHManager.run server u cmd).run (World.handler env) w).2.db =
      w.db.write { a with status := status } [.status] (some ⟨action, some a.id, adminUser, []⟩) := by
  rw [run_handler]
  unfold Env.changes at h
  let rest : PanelProg Unit := do
    saveStatus a status
    ask (.insertAuditLog ⟨action, some a.id, adminUser, []⟩)
  have hrest : ∀ (u : World) ds, u.db = w.db → (rest.run (World.recorded env) (u, ds)).2.1.db =
      w.db.write { a with status := status } [.status] (some ⟨action, some a.id, adminUser, []⟩) := by
    intro u ds hu
    rw [← hu]
    rfl
  cases hp : a.protocolType with
  | shadowlink =>
    simp only [hp] at h
    obtain ⟨server, hserver⟩ := Option.isSome_iff_exists.mp h
    simp only [changeStatus, hp]
    rw [PanelProg.run_accountServer env [] hserver, PanelProg.run_logged]
    exact hrest _ _ World.http_db
  | ssh =>
    simp only [hp] at h
    have hprog : changeStatus a status action adminUser (fun server token =>
        ShadowLinkManager.bridgeRequest server "POST" path ⟨token, 0⟩)
        (fun server u => SSHManager.run server u cmd) = onServerOf a cmd rest := by
      simp only [changeStatus, hp]
      rfl
    rw [hprog]
    rcases run_onServerOf env a cmd rest w with ⟨hg, -⟩ | ⟨-, u, ds, hu, hr⟩
    · rw [h] at hg
      cases hg
    · rw [hr]
      exact hrest u ds hu

/-- A request that gets through revives the account. -/
theorem not_revives_of_act (w : World) (x : AccountOp × (Nat → Env))
    (h : ∀ pk, w.db.statusOf pk = some .deleted → (w.act x).db.statusOf pk = some .deleted) :
    ∀ a, ¬ x.1.Revives (x.2 0) w a := by
  obtain ⟨op, envs⟩ := x
  have hrevived : ∀ {pk : Nat} {a : Account} {service : Account → PanelProg Unit} {obj : Account}
      {fields : List AccountField} {entry : Option AuditLog}, w.db.getAccount pk = some a →
      a.status = .deleted → (w.act (op, envs)) = ((onAccount pk service).run (World.handler (envs 0)) w).2 →
      ((service a).run (World.handler (envs 0)) w).2.db = w.db.write obj fields entry →
      obj.id = a.id → .status ∈ fields → obj.status = .deleted := by
    intro pk a service obj fields entry ha hstatus hact hdb hid hfields
    have hmem := Db.getAccount_mem ha
    have hkept := h a.id (by rw [Db.statusOf_of_mem hmem, hstatus])
    have hrun : ((onAccount pk service).run (World.handler (envs 0)) w).2 =
        ((service a).run (World.handler (envs 0)) w).2 := by
      simp [onAccount, World.handler, ha, orHttp404]
    rw [hact, hrun, hdb, Db.statusOf_write hmem hid, if_pos rfl, if_pos hfields] at hkept
    exact Option.some.inj hkept
  intro a hrevives
  cases op with
  | op op =>
    cases op with
    | suspend pk adminUser =>
      obtain ⟨ha, hstatus, hreach⟩ := hrevives
      have hdb := db_changeStatus_done .suspended .suspend adminUser "/api/tokens/suspend" hreach
      cases hrevived ha hstatus rfl hdb rfl List.mem_cons_self
    | activate pk adminUser =>
      obtain ⟨ha, hstatus, hreach⟩ := hrevives
      have hdb := db_changeStatus_done .active .activate adminUser "/api/tokens/activate" hreach
      cases hrevived ha hstatus rfl hdb rfl List.mem_cons_self
    | extend pk days adminUser =>
      obtain ⟨ha, hstatus, a', he⟩ := hrevives
      obtain ⟨hkeys, hactive⟩ := Account.extend_ok he
      have hdb := db_extendAccount (envs 0) a days adminUser w
      rw [he] at hdb
      have hdeleted := hrevived ha hstatus rfl hdb hkeys.id (by simp)
      rw [hactive] at hdeleted
      cases hdeleted
    | _ => exact hrevives
  | _ => exact hrevives

/-- Once an account is DELETED it stays so, in the runs without a request that revives one. -/
theorem deletedForGood_iff (w : World) (xs : List (AccountOp × (Nat → Env))) :
    DeletedForGood w xs ↔ Along World.act (fun w x => ∀ a, ¬ x.1.Revives (x.2 0) w a) w xs := by
  unfold DeletedForGood
  refine (along_keeps_iff (f := World.act)
    (K := fun (pk : Nat) (w : World) => w.db.statusOf pk = some .deleted)).symm.trans ?_
  exact ⟨fun h => h.imp not_revives_of_act, fun h => h.imp act_deleted⟩

/-- An account that is deleted, then activated. -/
def revivingRun : List (AccountOp × (Nat → Env)) :=
  [(.op (.delete 1 none), fun _ => sampleEnv 0), (.op (.activate 1 none), fun _ => sampleEnv 1)]

theorem not_deletedForGood : ¬ ∀ w xs, DeletedForGood w xs := by
  intro h
  have hrevived := h (NodeChange.sampleAccountWorld .shadowlink) revivingRun
    (revivingRun.take 1) (revivingRun.drop 1) [] rfl 1 (by decide +kernel)
  revert hrevived
  decide +kernel

end SshPanelVpn.Panel

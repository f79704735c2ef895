import SshPanelVpn.Panel.CreateAccount

/-! What no operation takes from the tables: the accounts with what they were created as, and the entries
of the log. -/
namespace SshPanelVpn.Panel

open Runs

namespace Account

/-- The columns that say which account a row is, and where it comes from. -/
structure SameOrigin (row row' : Account) : Prop where
  id : row'.id = row.id
  username : row'.username = row.username
  protocolType : row'.protocolType = row.protocolType
  accessToken : row'.accessToken = row.accessToken
  authToken : row'.authToken = row.authToken
  plan : row'.plan = row.plan
  createdBy : row'.createdBy = row.createdBy

theorem SameOrigin.refl (row : Account) : row.SameOrigin row := ⟨rfl, rfl, rfl, rfl, rfl, rfl, rfl⟩

theorem SameOrigin.trans {a b c : Account} (h : a.SameOrigin b) (h' : b.SameOrigin c) : a.SameOrigin c :=
  ⟨h'.id.trans h.id, h'.username.trans h.username, h'.protocolType.trans h.protocolType,
    h'.accessToken.trans h.accessToken, h'.authToken.trans h.authToken, h'.plan.trans h.plan,
    h'.createdBy.trans h.createdBy⟩

theorem writeField_origin (row obj : Account) (f : AccountField) :
    row.SameOrigin (row.writeField obj f) := by
  cases f <;> exact ⟨rfl, rfl, rfl, rfl, rfl, rfl, rfl⟩

theorem write_origin (row obj : Account) (fields : List AccountField) :
    row.SameOrigin (row.write obj fields) := by
  induction fields generalizing row with
  | nil => exact .refl row
  | cons f fields ih => exact (writeField_origin row obj f).trans (ih _)

theorem moved_origin (pk target : Nat) (row : Account) : row.SameOrigin (AccountTable.moved pk target row) := by
  unfold AccountTable.moved
  split
  · exact ⟨rfl, rfl, rfl, rfl, rfl, rfl, rfl⟩
  · exact .refl row

end Account

/-- The later database has every row of the earlier one under its key, and every entry of its log before
the newer ones. Other rows have keys that were not given before. -/
structure Db.Keeps (db db' : Db) : Prop where
  servers : db'.servers = db.servers
  plans : db'.plans = db.plans
  rows : ∀ a ∈ db.accounts, ∃ b ∈ db'.accounts, a.SameOrigin b
  origins : ∀ b ∈ db'.accounts, (∃ a ∈ db.accounts, a.SameOrigin b) ∨ db.accounts.nextId ≤ b.id
  nextId : db.accounts.nextId ≤ db'.accounts.nextId
  log : db.auditLog <:+ db'.auditLog

/-- The rows stand in the order of their keys, the newest first. -/
def AccountTable.NewestFirst (t : AccountTable) : Prop := (t.rows.map Account.id).Pairwise (· > ·)

section Keeps

variable {db db' db'' : Db} {l : TableWrite} {a b : Account}

theorem Db.Keeps.refl (db : Db) : db.Keeps db where
  servers := rfl
  plans := rfl
  rows a ha := ⟨a, ha, .refl a⟩
  origins b hb := .inl ⟨b, hb, .refl b⟩
  nextId := le_refl _
  log := List.suffix_refl _

theorem Db.Keeps.trans (h : db.Keeps db') (h' : db'.Keeps db'') : db.Keeps db'' where
  servers := h'.servers.trans h.servers
  plans := h'.plans.trans h.plans
  rows a ha := by
    obtain ⟨b, hb, hab⟩ := h.rows a ha
    obtain ⟨c, hc, hbc⟩ := h'.rows b hb
    exact ⟨c, hc, hab.trans hbc⟩
  origins c hc := by
    rcases h'.origins c hc with ⟨b, hb, hbc⟩ | hnew
    · rcases h.origins b hb with ⟨a, ha, hab⟩ | hnew
      · exact .inl ⟨a, ha, hab.trans hbc⟩
      · refine .inr ?_
        rw [hbc.id]
        exact hnew
    · exact .inr (h.nextId.trans hnew)
  nextId := h.nextId.trans h'.nextId
  log := h.log.trans h'.log

theorem AccountTable.nextId_congr {t t' : AccountTable}
    (h : t'.rows.map Account.id = t.rows.map Account.id) : t'.nextId = t.nextId := by
  rw [AccountTable.nextId, AccountTable.nextId, h]

/-- Rows that are changed in place. -/
theorem Db.Keeps.of_map {accounts : AccountTable} {g : Account → Account} {entries : List AuditLog}
    (hrows : accounts.rows = db.accounts.rows.map g) (hg : ∀ row : Account, row.SameOrigin (g row)) :
    db.Keeps { db with accounts := accounts, auditLog := entries ++ db.auditLog } where
  servers := rfl
  plans := rfl
  rows a ha := by
    refine ⟨g a, ?_, hg a⟩
    rw [AccountTable.mem_rows, hrows]
    exact List.mem_map_of_mem ha
  origins b hb := by
    rw [AccountTable.mem_rows, hrows] at hb
    obtain ⟨a, ha, rfl⟩ := List.mem_map.mp hb
    exact .inl ⟨a, ha, hg a⟩
  nextId := by
    refine (AccountTable.nextId_congr ?_).ge
    rw [hrows, List.map_map]
    exact List.map_congr_left fun row _ => (hg row).id
  log := List.suffix_append _ _

theorem Db.Keeps.write (db : Db) (obj : Account) (fields : List AccountField) (entry : Option AuditLog) :
    db.Keeps (db.write obj fields entry) := by
  refine .of_map (g := fun row => if row.id = obj.id then row.write obj fields else row) rfl ?_
  intro row
  split
  · exact Account.write_origin row obj fields
  · exact .refl row

theorem AccountTable.move_rows {t t' : AccountTable} {pk target : Nat} (h : t.move pk target = some t') :
    t'.rows = t.rows.map (AccountTable.moved pk target) := by
  unfold move at h
  split at h
  · cases h
    rfl
  · cases h

theorem TableStep.keeps (h : TableStep db l db') : db.Keeps db' := by
  cases h with
  | @created server row accounts entry _ _ _ _ hinsert _ _ =>
    have hrows := AccountTable.rows_insert hinsert
    refine ⟨rfl, rfl, ?_, ?_, ?_, List.suffix_cons _ _⟩
    · intro a ha
      refine ⟨a, ?_, .refl a⟩
      rw [AccountTable.mem_rows, hrows]
      exact List.mem_cons_of_mem _ ha
    · intro b hb
      rw [AccountTable.mem_rows, hrows] at hb
      rcases List.mem_cons.mp hb with rfl | hb
      · exact .inr (le_refl _)
      · exact .inl ⟨b, hb, .refl b⟩
    · rw [AccountTable.nextId, AccountTable.nextId, hrows]
      simp only [List.map_cons, List.foldr_cons]
      omega
  | status _ _ _ _ => exact .write _ _ _ _
  | columns _ _ _ _ => exact .write _ _ _ _
  | @moved row target accounts entry _ _ _ hmove _ =>
    exact @Db.Keeps.of_map db accounts (AccountTable.moved row.id target.id) [entry]
      (AccountTable.move_rows hmove) (Account.moved_origin _ _)

theorem AccountTable.NewestFirst.of_map {t t' : AccountTable} (h : t.NewestFirst)
    (hids : t'.rows.map Account.id = t.rows.map Account.id) : t'.NewestFirst := by
  rw [NewestFirst, hids]
  exact h

theorem TableStep.newestFirst (h : TableStep db l db') (ho : db.accounts.NewestFirst) :
    db'.accounts.NewestFirst := by
  cases h with
  | created _ _ _ _ hinsert _ _ =>
    rw [AccountTable.NewestFirst, AccountTable.rows_insert hinsert, List.map_cons, List.pairwise_cons]
    refine ⟨?_, ho⟩
    intro n hn
    have hle := AccountTable.le_foldr_max hn
    dsimp only
    unfold AccountTable.nextId
    omega
  | status _ _ _ _ =>
    refine ho.of_map ?_
    exact AccountTable.map_saveRows (fun a b h => h.id) _ _ _
  | columns _ _ _ _ =>
    refine ho.of_map ?_
    exact AccountTable.map_saveRows (fun a b h => h.id) _ _ _
  | moved _ _ _ hmove _ =>
    refine ho.of_map ?_
    rw [AccountTable.move_rows hmove]
    exact AccountTable.map_moved (fun _ _ => rfl) _ _ _

end Keeps

/-- No row is on another server than before. -/
def Db.KeepsServers (db db' : Db) : Prop :=
  ∀ a ∈ db.accounts, ∃ b ∈ db'.accounts, b.id = a.id ∧ b.server = a.server

section Servers

variable {db db' db'' : Db} {l : TableWrite}

theorem Db.KeepsServers.trans (h : db.KeepsServers db') (h' : db'.KeepsServers db'') :
    db.KeepsServers db'' := by
  intro a ha
  obtain ⟨b, hb, hid, hserver⟩ := h a ha
  obtain ⟨c, hc, hid', hserver'⟩ := h' b hb
  exact ⟨c, hc, hid'.trans hid, hserver'.trans hserver⟩

theorem Db.KeepsServers.write (db : Db) (obj : Account) (fields : List AccountField)
    (entry : Option AuditLog) : db.KeepsServers (db.write obj fields entry) := by
  intro a ha
  refine ⟨_, Db.mem_write.mpr ⟨a, ha, rfl⟩, ?_⟩
  split
  · exact ⟨(a.write_keys obj fields).id, (a.write_keys obj fields).server⟩
  · exact ⟨rfl, rfl⟩

theorem TableStep.keepsServers (h : TableStep db l db') (hl : ∀ pk, l ≠ .moved pk) :
    db.KeepsServers db' := by
  cases h with
  | created _ _ _ _ hinsert _ _ =>
    exact fun a ha => ⟨a, (AccountTable.mem_insert hinsert).mpr (.inr ha), rfl, rfl⟩
  | status _ _ _ _ => exact .write _ _ _ _
  | columns _ _ _ _ => exact .write _ _ _ _
  | moved _ _ _ _ _ => exact (hl _ rfl).elim

end Servers

def AccountOp.isRebalance : AccountOp → Bool
  | .rebalanceUsers _ => true
  | _ => false

/-- Only `rebalance_users` moves rows. -/
theorem AccountOp.MayWrite.not_moved {env : Env} {w : World} {op : AccountOp} {l : TableWrite}
    (h : op.MayWrite env w l) (hop : op.isRebalance = false) (pk : Nat) : l ≠ .moved pk := by
  rintro rfl
  cases op with
  | op op => cases op <;> simp [MayWrite] at h
  | rebalanceUsers downServerId => cases hop
  | _ => simp [MayWrite] at h

namespace World

theorem act_keeps (w : World) (x : AccountOp × (Nat → Env)) : w.db.Keeps (w.act x).db :=
  (act_wrote w x).keeps (fun _ _ _ hst _ h => h.trans hst.keeps) (.refl w.db)

theorem act_newestFirst (w : World) (x : AccountOp × (Nat → Env)) (h : w.db.accounts.NewestFirst) :
    (w.act x).db.accounts.NewestFirst :=
  (act_wrote w x).keeps (I := fun db => db.accounts.NewestFirst) (fun _ _ _ hst _ h => hst.newestFirst h) h

theorem act_keepsServers (w : World) (x : AccountOp × (Nat → Env)) (hx : x.1.isRebalance = false) :
    w.db.KeepsServers (w.act x).db :=
  (act_wrote w x).keeps (fun _ _ _ hst hl h => h.trans (hst.keepsServers (hl.not_moved hx)))
    fun a ha => ⟨a, ha, rfl, rfl⟩

theorem actAll_keeps (w : World) (xs : List (AccountOp × (Nat → Env))) : w.db.Keeps (w.actAll xs).db := by
  induction xs generalizing w with
  | nil => exact .refl w.db
  | cons x xs ih => exact (act_keeps w x).trans (ih (w.act x))

theorem actAll_newestFirst (w : World) (xs : List (AccountOp × (Nat → Env)))
    (h : w.db.accounts.NewestFirst) : (w.actAll xs).db.accounts.NewestFirst := by
  induction xs generalizing w with
  | nil => exact h
  | cons x xs ih => exact ih (w.act x) (act_newestFirst w x h)

theorem actAll_keepsServers (w : World) (xs : List (AccountOp × (Nat → Env)))
    (hxs : ∀ x ∈ xs, x.1.isRebalance = false) : w.db.KeepsServers (w.actAll xs).db := by
  induction xs generalizing w with
  | nil => exact fun a ha => ⟨a, ha, rfl, rfl⟩
  | cons x xs ih =>
    exact (act_keepsServers w x (hxs x List.mem_cons_self)).trans
      (ih (w.act x) fun y hy => hxs y (List.mem_cons_of_mem _ hy))

/-- Whatever the operations, their order and how far they get: every account keeps its key, its name,
its protocol, its tokens, its plan and its creator, and but for `rebalance_users` its server; no later
account is given a key of an earlier one; the log keeps its entries below the new ones; and the rows
stay in the order of their creation, which `.first()` of the webhook goes by. -/
theorem accounts_persist (w : World) (xs : List (AccountOp × (Nat → Env))) :
    (∀ a ∈ w.db.accounts, ∃ b ∈ (w.actAll xs).db.accounts, a.SameOrigin b ∧
      ((∀ x ∈ xs, x.1.isRebalance = false) → b.server = a.server)) ∧
    (∀ b ∈ (w.actAll xs).db.accounts, (∃ a ∈ w.db.accounts, a.SameOrigin b) ∨
      ∀ a ∈ w.db.accounts, a.id < b.id) ∧
    w.db.auditLog <:+ (w.actAll xs).db.auditLog ∧
    (w.db.accounts.NewestFirst → (w.actAll xs).db.accounts.NewestFirst) := by
  have hkeeps := actAll_keeps w xs
  refine ⟨?_, ?_, hkeeps.log, actAll_newestFirst w xs⟩
  · intro a ha
    obtain ⟨b, hb, hab⟩ := hkeeps.rows a ha
    refine ⟨b, hb, hab, ?_⟩
    intro hxs
    obtain ⟨c, hc, hid, hserver⟩ := actAll_keepsServers w xs hxs a ha
    rw [AccountTable.eq_of_id hb hc (hab.id.trans hid.symm), hserver]
  · intro b hb
    rcases hkeeps.origins b hb with hold | hnew
    · exact .inl hold
    · refine .inr ?_
      intro a ha
      have hle := AccountTable.le_foldr_max (List.mem_map_of_mem (f := Account.id) ha)
      unfold AccountTable.nextId at hnew
      omega

end World

end SshPanelVpn.Panel

import SshPanelVpn.Panel.Tables

/-! The writes that the operations make, as steps of the tables. -/
namespace SshPanelVpn.Panel

open Effects Runs ShadowLink

/-- A write: the row it is about, its status before and after, and the action that is logged with it. -/
inductive TableWrite where
  | created (pk : Nat)
  | status (pk : Nat) (old new : AccountStatus) (action : Option AuditAction)
  | columns (pk : Nat) (action : Option AuditAction)
  | moved (pk : Nat)
  deriving DecidableEq, Repr

/-- Some columns of a row are saved, with an entry of the log. -/
def Db.write (db : Db) (obj : Account) (fields : List AccountField) (entry : Option AuditLog) : Db :=
  { db with
    accounts := db.accounts.save obj fields
    auditLog := entry.toList ++ db.auditLog }

inductive TableStep : Db → TableWrite → Db → Prop where
  | created {db : Db} {server : Server} {row : Account} {accounts : AccountTable}
      {entry : AuditLog} :
      server ∈ db.servers → db.isAvailable server = true → row.server = server.id →
      row.status = .active →
      db.accounts.insert row = some accounts →
      entry.action = .create → entry.account = some db.accounts.nextId →
      TableStep db (.created db.accounts.nextId)
        { db with accounts := accounts, auditLog := entry :: db.auditLog }
  | status {db : Db} {row obj : Account} {fields : List AccountField} {entry : Option AuditLog} :
      row ∈ db.accounts → obj.id = row.id → .status ∈ fields →
      (∀ e ∈ entry, e.account = some row.id) →
      TableStep db (.status row.id row.status obj.status (entry.map AuditLog.action))
        (db.write obj fields entry)
  | columns {db : Db} {row obj : Account} {fields : List AccountField} {entry : Option AuditLog} :
      row ∈ db.accounts → obj.id = row.id → .status ∉ fields →
      (∀ e ∈ entry, e.account = some row.id) →
      TableStep db (.columns row.id (entry.map AuditLog.action)) (db.write obj fields entry)
  | moved {db : Db} {row : Account} {target : Server} {accounts : AccountTable} {entry : AuditLog} :
      row ∈ db.accounts → target ∈ db.servers → db.isAvailable target = true →
      db.accounts.move row.id target.id = some accounts → entry.action = .rebalance →
      TableStep db (.moved row.id) { db with accounts := accounts, auditLog := entry :: db.auditLog }

/-- From one database to another by writes of the kind. -/
def Wrote (P : TableWrite → Prop) (db db' : Db) : Prop :=
  ∃ ls, Run TableStep db ls db' ∧ ∀ l ∈ ls, P l

namespace Wrote

variable {P : TableWrite → Prop} {db db' db'' : Db} {l : TableWrite}

theorem refl (P : TableWrite → Prop) (db : Db) : Wrote P db db := ⟨[], .refl db, by simp⟩

theorem step (h : Wrote P db db') (hs : TableStep db' l db'') (hl : P l) : Wrote P db db'' := by
  obtain ⟨ls, hrun, hP⟩ := h
  refine ⟨ls ++ [l], hrun.snoc hs, ?_⟩
  intro m hm
  rcases List.mem_append.mp hm with hm | hm
  · exact hP m hm
  · rw [List.mem_singleton.mp hm]
    exact hl

theorem trans (h : Wrote P db db') (h' : Wrote P db' db'') : Wrote P db db'' := by
  obtain ⟨ls, hrun, hP⟩ := h
  obtain ⟨ls', hrun', hP'⟩ := h'
  refine ⟨ls ++ ls', hrun.append hrun', ?_⟩
  intro m hm
  rcases List.mem_append.mp hm with hm | hm
  · exact hP m hm
  · exact hP' m hm

end Wrote

theorem Wrote.mono {P Q : TableWrite → Prop} {db db' : Db} (h : Wrote P db db')
    (hPQ : ∀ l, P l → Q l) : Wrote Q db db' := by
  obtain ⟨ls, hrun, hls⟩ := h
  exact ⟨ls, hrun, fun l hl => hPQ l (hls l hl)⟩

/-- A fact that every write keeps. -/
theorem Wrote.keeps {P : TableWrite → Prop} {I : Db → Prop} {db db' : Db} (h : Wrote P db db')
    (hI : ∀ db l db', TableStep db l db' → P l → I db → I db') (hdb : I db) : I db' := by
  obtain ⟨ls, hrun, hls⟩ := h
  induction hrun with
  | refl => exact hdb
  | step hst _ ih =>
    exact ih (hI _ _ _ hst (hls _ List.mem_cons_self) hdb)
      fun m hm => hls m (List.mem_cons_of_mem _ hm)

/-- No operation on accounts touches the servers. -/
theorem Wrote.servers {P : TableWrite → Prop} {db db' : Db} (h : Wrote P db db') :
    db'.servers = db.servers := by
  refine h.keeps (I := fun d => d.servers = db.servers) ?_ rfl
  intro d l d' hst _ hd
  rw [← hd]
  cases hst <;> rfl

/-! The rows after a write. -/

theorem Account.write_id (row obj : Account) (fields : List AccountField) :
    (row.write obj fields).id = row.id := (row.write_keys obj fields).id

/-- Only the status column writes the status. -/
theorem Account.write_status (row obj : Account) (fields : List AccountField) :
    (row.write obj fields).status = if .status ∈ fields then obj.status else row.status := by
  have hother : ∀ (r : Account) (fs : List AccountField), .status ∉ fs →
      (r.write obj fs).status = r.status := by
    intro r fs h
    induction fs generalizing r with
    | nil => rfl
    | cons f fs ih =>
      have hf : f ≠ .status := fun he => h (he ▸ List.mem_cons_self)
      have hfs : .status ∉ fs := fun hm => h (List.mem_cons_of_mem _ hm)
      have hone : (r.writeField obj f).status = r.status := by
        cases f <;> first | rfl | exact (hf rfl).elim
      exact (ih _ hfs).trans hone
  induction fields generalizing row with
  | nil => rfl
  | cons f fields ih =>
    have hstep : (row.write obj (f :: fields)) = (row.writeField obj f).write obj fields := rfl
    rw [hstep, ih]
    by_cases hm : AccountField.status ∈ fields
    · simp [hm]
    · by_cases hf : f = .status
      · subst hf
        simp [hm, Account.writeField]
      · have hone : (row.writeField obj f).status = row.status := by
          cases f <;> first | rfl | exact (hf rfl).elim
        simp [hm, Ne.symm hf, hone]

/-- An object that is up to date: its row has its status. -/
def Db.Current (db : Db) (a : Account) : Prop :=
  ∃ row ∈ db.accounts, row.id = a.id ∧ row.status = a.status

theorem Db.Current.of_mem {db : Db} {a : Account} (h : a ∈ db.accounts) : db.Current a :=
  ⟨a, h, rfl, rfl⟩

/-- The row of the write. -/
def TableWrite.pk : TableWrite → Nat
  | created pk => pk
  | status pk _ _ _ => pk
  | columns pk _ => pk
  | moved pk => pk

theorem AccountTable.mem_move {t t' : AccountTable} {pk target : Nat} (h : t.move pk target = some t')
    {b : Account} : b ∈ t' ↔ ∃ a ∈ t, b = moved pk target a := by
  unfold move at h
  split at h
  · cases h
    simp only [mem_rows, List.mem_map]
    constructor
    · rintro ⟨a, ha, he⟩
      exact ⟨a, ha, he.symm⟩
    · rintro ⟨a, ha, he⟩
      exact ⟨a, ha, he.symm⟩
  · cases h

section Rows

variable {db db' : Db} {l : TableWrite} {a obj : Account} {fields : List AccountField}
  {entry : Option AuditLog}

theorem Db.mem_write {b : Account} : b ∈ (db.write obj fields entry).accounts ↔
    ∃ row ∈ db.accounts, b = if row.id = obj.id then row.write obj fields else row :=
  AccountTable.mem_save

theorem Db.Current.write (h : db.Current a) (entry : Option AuditLog) (hne : obj.id = a.id → .status ∉ fields) :
    (db.write obj fields entry).Current a := by
  obtain ⟨row, hrow, hid, hstatus⟩ := h
  refine ⟨_, Db.mem_write.mpr ⟨row, hrow, rfl⟩, ?_⟩
  by_cases hobj : row.id = obj.id
  · have hfields := hne (hobj.symm.trans hid)
    rw [if_pos hobj, Account.write_id, Account.write_status, if_neg hfields]
    exact ⟨hid, hstatus⟩
  · rw [if_neg hobj]
    exact ⟨hid, hstatus⟩

/-- A write on another row leaves an object up to date. -/
theorem TableStep.current (h : TableStep db l db') (ha : db.Current a) (hne : l.pk ≠ a.id) :
    db'.Current a := by
  cases h with
  | created _ _ _ _ hinsert _ _ =>
    obtain ⟨row, hrow, hkeys⟩ := ha
    exact ⟨row, (AccountTable.mem_insert hinsert).mpr (.inr hrow), hkeys⟩
  | status hrow hobj _ _ => exact ha.write _ fun he => (hne (hobj.symm.trans he)).elim
  | columns hrow hobj hfields _ => exact ha.write _ fun _ => hfields
  | moved hrow _ _ hmove _ =>
    obtain ⟨row, hmem, hid, hstatus⟩ := ha
    refine ⟨_, (AccountTable.mem_move hmove).mpr ⟨row, hmem, rfl⟩, ?_⟩
    unfold AccountTable.moved
    split <;> exact ⟨hid, hstatus⟩

theorem Wrote.current {P : TableWrite → Prop} (h : Wrote P db db') (hP : ∀ l, P l → l.pk ≠ a.id)
    (ha : db.Current a) : db'.Current a :=
  h.keeps (fun _ l _ hst hl hd => hst.current hd (hP l hl)) ha

/-- Saving an object of a row is a step, and what it does to the status says which. -/
theorem Db.Current.writes (h : db.Current a) (obj : Account) (fields : List AccountField)
    (entry : Option AuditLog) (hid : obj.id = a.id) (hfields : .status ∈ fields)
    (hentry : ∀ e ∈ entry, e.account = some a.id) :
    TableStep db (.status a.id a.status obj.status (entry.map AuditLog.action))
      (db.write obj fields entry) := by
  obtain ⟨row, hrow, hrid, hstatus⟩ := h
  rw [← hrid, ← hstatus]
  exact .status hrow (hid.trans hrid.symm) hfields (hrid ▸ hentry)

theorem Db.Current.writesColumns (h : db.Current a) (obj : Account) (fields : List AccountField)
    (entry : Option AuditLog) (hid : obj.id = a.id) (hfields : .status ∉ fields)
    (hentry : ∀ e ∈ entry, e.account = some a.id) :
    TableStep db (.columns a.id (entry.map AuditLog.action)) (db.write obj fields entry) := by
  obtain ⟨row, hrow, hrid, -⟩ := h
  rw [← hrid]
  exact .columns hrow (hid.trans hrid.symm) hfields (hrid ▸ hentry)

end Rows

/-! The status of a key. -/

def Db.statusOf (db : Db) (pk : Nat) : Option AccountStatus :=
  (db.getAccount pk).map Account.status

/-- The status of a key after a write. -/
def TableWrite.statusAfter (l : TableWrite) (pk : Nat) (old : Option AccountStatus) :
    Option AccountStatus :=
  match l with
  | created pk' => if pk' = pk then some .active else old
  | status pk' _ new _ => if pk' = pk then some new else old
  | columns _ _ => old
  | moved _ => old

section Status

variable {db db' : Db} {l : TableWrite} {pk : Nat} {a obj : Account} {fields : List AccountField}
  {entry : Option AuditLog}

theorem find_map_rows {g : Account → Account} (hg : ∀ a, (g a).id = a.id) (rows : List Account)
    (pk : Nat) : (rows.map g).find? (fun a => a.id = pk) =
      (rows.find? fun a => a.id = pk).map g := by
  rw [List.find?_map]
  congr 2
  funext a
  simp [hg]

theorem Db.getAccount_of_mem (h : a ∈ db.accounts) : db.getAccount a.id = some a := by
  cases hf : db.getAccount a.id with
  | none =>
    have hnone := List.find?_eq_none.mp hf a h
    simp at hnone
  | some b => rw [AccountTable.eq_of_id (getAccount_mem hf) h (getAccount_id hf)]

theorem Db.statusOf_of_mem (h : a ∈ db.accounts) : db.statusOf a.id = some a.status := by
  simp [statusOf, getAccount_of_mem h]

theorem Db.getAccount_write : (db.write obj fields entry).getAccount pk =
    (db.getAccount pk).map fun row => if row.id = obj.id then row.write obj fields else row := by
  refine find_map_rows ?_ db.accounts.rows pk
  intro row
  split
  · exact Account.write_id row obj fields
  · rfl

/-- A saved object is the status of its key, if it writes that column. -/
theorem Db.statusOf_write (h : a ∈ db.accounts) (hobj : obj.id = a.id) :
    (db.write obj fields entry).statusOf pk =
      if a.id = pk then some (if .status ∈ fields then obj.status else a.status)
      else db.statusOf pk := by
  unfold statusOf
  rw [getAccount_write]
  by_cases hpk : a.id = pk
  · subst hpk
    simp [getAccount_of_mem h, hobj, Account.write_status]
  · cases hb : db.getAccount pk with
    | none => simp [hpk]
    | some b =>
      have hne : b.id ≠ obj.id := by
        rw [getAccount_id hb, hobj]
        exact Ne.symm hpk
      simp [hpk, hne]

/-- The status of every key after a write. -/
theorem TableStep.statusOf (h : TableStep db l db') (pk : Nat) :
    db'.statusOf pk = l.statusAfter pk (db.statusOf pk) := by
  cases h with
  | @created server row accounts entry _ _ _ hactive hinsert _ _ =>
    unfold AccountTable.insert at hinsert
    split at hinsert
    · cases hinsert
      simp only [Db.statusOf, Db.getAccount, List.find?_cons, TableWrite.statusAfter]
      by_cases hpk : db.accounts.nextId = pk
      · simp [hpk, hactive]
      · simp [hpk]
    · cases hinsert
  | @status row obj fields entry hrow hobj hfields _ =>
    rw [Db.statusOf_write hrow hobj, if_pos hfields]
    rfl
  | @columns row obj fields entry hrow hobj hfields _ =>
    rw [Db.statusOf_write hrow hobj, if_neg hfields]
    simp only [TableWrite.statusAfter]
    split
    · next hpk => rw [← hpk, Db.statusOf_of_mem hrow]
    · rfl
  | @moved row target accounts entry _ _ _ hmove _ =>
    unfold AccountTable.move at hmove
    split at hmove
    · cases hmove
      simp only [Db.statusOf, Db.getAccount, TableWrite.statusAfter]
      rw [find_map_rows]
      · cases hfind : db.accounts.rows.find? fun a => a.id = pk with
        | none => rfl
        | some b =>
          simp only [Option.map_some, AccountTable.moved]
          split <;> rfl
      · intro b
        unfold AccountTable.moved
        split <;> rfl
    · cases hmove

/-- A write of a status finds the old one in its row. -/
theorem TableStep.statusOf_old {old new : AccountStatus} {action : Option AuditAction}
    (h : TableStep db (.status pk old new action) db') : db.statusOf pk = some old := by
  cases h with
  | status hrow _ _ _ => exact Db.statusOf_of_mem hrow

theorem TableStep.nextId (h : TableStep db (.created pk) db') : db.statusOf pk = none := by
  cases h with
  | created _ _ _ _ _ _ _ =>
    simp only [Db.statusOf, Db.getAccount, Option.map_eq_none_iff, List.find?_eq_none]
    intro a ha hid
    exact db.accounts.nextId_notMem (by simpa using ⟨a, ha, by simpa using hid⟩)

end Status

end SshPanelVpn.Panel

import SshPanelVpn.Panel.FailedChanges
import SshPanelVpn.Panel.RowChanges

/-! When two operations on one account at the same time lose nothing that either has saved. -/
namespace SshPanelVpn.Panel

open Effects
open Effects.Prog (Interleaved)
open NodeChange (sampleAccount sampleAccountWorld)

/-- The operation saves, having read these columns. -/
def Change.Acts : Change → Columns → Prop
  | nothing, _ => False
  | status acts _, c => acts c = true
  | renew date, c => (date c).isSome = true
  | update _ _, _ => True

/-- Both have read `c`, the first has saved and the second saves over it: what is left is what the second
makes of the first one's columns, or the first of the second one's. -/
def Change.Yields : (first second : Change) → Columns → Prop
  | status acts new, status acts' new', c =>
    new = new' ∨ acts' (c.withStatus new) = true ∨ acts (c.withStatus new') = false
  | status acts new, renew date, c => ∀ d, date c = some d →
    new = .active ∨ date (c.withStatus new) = some d ∨ acts (c.renewed d) = false
  | status acts new, update data fromDuration, c =>
    new = c.status ∨ acts (c.updated data fromDuration) = false
  | renew date, status acts new, c => ∀ d, date c = some d →
    new = .active ∨ acts (c.renewed d) = true ∨ (d = c.expireDate ∧ date (c.withStatus new) = none)
  | renew date, renew date', c => ∀ d d', date c = some d → date' c = some d' →
    (date' (c.renewed d)).getD d = d' ∨ (date (c.renewed d')).getD d' = d'
  | renew date, update data fromDuration, c =>
    date (c.updated data fromDuration) = none ∨ (c.status = .active ∧
      ((data.expireDate.or fromDuration).isSome = true ∨ date c = some c.expireDate ∨
        date (c.updated data fromDuration) = some (c.updated data fromDuration).expireDate))
  -- `patch` saves the status that it has read, and the second one sets its own
  | update _ _, status _ _, _ => True
  | update data fromDuration, renew date, c =>
    date (c.updated data fromDuration) = date c ∨ data.expireDate.or fromDuration = none ∨
      data.expireDate.or fromDuration = date c
  -- a column that only the first one sets is set to what it was
  | update data fromDuration, update data' fromDuration', c =>
    ((data'.expireDate.or fromDuration').isSome = true ∨
        (c.updated data fromDuration).expireDate = c.expireDate) ∧
      (data'.maxConnections.isSome = true ∨
        (c.updated data fromDuration).maxConnections = c.maxConnections) ∧
      (data'.bandwidthLimitGb.isSome = true ∨
        (c.updated data fromDuration).bandwidthLimitGb = c.bandwidthLimitGb) ∧
      (data'.note.isSome = true ∨ (c.updated data fromDuration).note = c.note)
  | nothing, _, _ => True
  | _, nothing, _ => True

namespace Change

/-- What the second save leaves is what one of the serial orders leaves. -/
def Serial (first second : Change) (c : Columns) : Prop :=
  second.save c (first.save c c) = second.save (first.save c c) (first.save c c) ∨
    second.save c (first.save c c) = first.save (second.save c c) (second.save c c)

section Cases

variable {c : Columns} {acts acts' : Columns → Bool} {new new' : AccountStatus}
  {date date' : Columns → Option DateTime} {data data' : AccountUpdate}
  {fromDuration fromDuration' : Option DateTime}

theorem withStatus_inj : c.withStatus new = c.withStatus new' ↔ new = new' := by
  simp [Columns.withStatus]

theorem renewed_inj {d d' : DateTime} : c.renewed d = c.renewed d' ↔ d = d' := by
  simp [Columns.renewed]

theorem renewed_eq_withStatus {d : DateTime} :
    c.renewed d = c.withStatus new ↔ d = c.expireDate ∧ new = .active := by
  rcases c with ⟨status, expireDate, maxConnections, bandwidthLimitGb, note⟩
  simp [Columns.renewed, Columns.withStatus, and_comm, eq_comm]

theorem renewed_withStatus {d : DateTime} : (c.renewed d).withStatus new = c.renewed d ↔ new = .active := by
  simp [Columns.renewed, Columns.withStatus]

theorem status_status (h : acts c = true) (h' : acts' c = true) :
    (status acts new).Serial (status acts' new') c ↔ (status acts new).Yields (status acts' new') c := by
  have hover : (c.withStatus new).withStatus new' = c.withStatus new' := rfl
  have hback : (c.withStatus new').withStatus new = c.withStatus new := rfl
  simp only [Serial, Yields, save, h, h', if_true, hover, hback]
  cases acts' (c.withStatus new) <;> cases acts (c.withStatus new') <;>
    simp [withStatus_inj, eq_comm]

theorem status_renew {d : DateTime} (h : acts c = true) (hd : date c = some d) :
    (status acts new).Serial (renew date) c ↔ (status acts new).Yields (renew date) c := by
  have hover : (c.withStatus new).renewed d = c.renewed d := rfl
  simp only [Serial, Yields, save, h, hd, if_true, Option.map_some, Option.getD_some, hover,
    Option.some.injEq, forall_eq']
  have hlast : (c.renewed d = if acts (c.renewed d) = true then (c.renewed d).withStatus new
      else c.renewed d) ↔ new = .active ∨ acts (c.renewed d) = false := by
    cases acts (c.renewed d) <;> simp [eq_comm (a := c.renewed d), renewed_withStatus]
  rw [hlast]
  cases hdate : date (c.withStatus new) with
  | none =>
    simp only [Option.map_none, Option.getD_none, renewed_eq_withStatus]
    tauto
  | some d' =>
    have hthen : (c.withStatus new).renewed d' = c.renewed d' := rfl
    simp only [Option.map_some, Option.getD_some, hthen, renewed_inj, Option.some.injEq,
      eq_comm (a := d)]
    tauto

/-- `patch` keeps the status that it finds. -/
theorem updated_withStatus : (c.withStatus new).updated data fromDuration =
    (c.updated data fromDuration).withStatus new := rfl

theorem updated_eq_withStatus : c.updated data fromDuration =
    (c.updated data fromDuration).withStatus new ↔ new = c.status := by
  simp [Columns.withStatus, Columns.updated, eq_comm]

theorem status_update (h : acts c = true) :
    (status acts new).Serial (update data fromDuration) c ↔
      (status acts new).Yields (update data fromDuration) c := by
  by_cases hacts : acts (c.updated data fromDuration) = true
  · have hother : c.updated data fromDuration = (c.updated data fromDuration).withStatus new ↔
        new = c.status := updated_eq_withStatus
    simp [Serial, Yields, save, h, hacts, updated_withStatus, hother]
  · simp [Serial, Yields, save, h, hacts]

theorem renew_status {d : DateTime} (hd : date c = some d) (h : acts c = true) :
    (renew date).Serial (status acts new) c ↔ (renew date).Yields (status acts new) c := by
  have hback : (c.withStatus new).renewed = c.renewed := rfl
  have hlast : (c.renewed d).withStatus new = c.withStatus new ↔ d = c.expireDate := by
    rcases c with ⟨status, expireDate, maxConnections, bandwidthLimitGb, note⟩
    simp [Columns.renewed, Columns.withStatus]
  have hactive : new = .active → (c.renewed d).withStatus new = c.renewed d := renewed_withStatus.mpr
  simp only [Serial, Yields, save, h, hd, if_true, Option.map_some, Option.getD_some, hback,
    Option.some.injEq, forall_eq']
  cases hacts : acts (c.renewed d) with
  | true => simp
  | false =>
    simp only [Bool.false_eq_true, if_false, false_or, renewed_withStatus]
    cases hdate : date (c.withStatus new) with
    | none => simp [hlast]
    | some d' =>
      simp only [Option.map_some, Option.getD_some, reduceCtorEq, and_false, or_false]
      constructor
      · rintro (h | h)
        · exact h
        · exact congrArg Columns.status h
      · exact .inl

theorem renew_renew {d d' : DateTime} (hd : date c = some d) (hd' : date' c = some d') :
    (renew date).Serial (renew date') c ↔ (renew date).Yields (renew date') c := by
  have hover : ∀ e, (c.renewed e).renewed = c.renewed := fun _ => rfl
  have hlast : ∀ (o : Option DateTime) (e : DateTime),
      (c.renewed d' = (o.map c.renewed).getD (c.renewed e)) ↔ o.getD e = d' := by
    intro o e
    cases o <;> simp [renewed_inj, eq_comm]
  simp only [Serial, Yields, save, hd, hd', Option.map_some, Option.getD_some, hover, hlast,
    Option.some.injEq, forall_eq', forall_apply_eq_imp_iff]

theorem updated_eq : c.updated data fromDuration =
    ⟨c.status, (data.expireDate.or fromDuration).getD c.expireDate,
      data.maxConnections.getD c.maxConnections, data.bandwidthLimitGb.getD c.bandwidthLimitGb,
      data.note.getD c.note⟩ := by
  unfold Columns.updated
  cases data.expireDate <;> rfl

theorem updated_expireDate : (c.updated data fromDuration).expireDate =
    (data.expireDate.or fromDuration).getD c.expireDate := by
  rw [updated_eq]

/-- `patch` over an extension: the end that it sets, or the extension's. -/
theorem updated_renewed {d : DateTime} : (c.renewed d).updated data fromDuration =
    (c.updated data fromDuration).renewed ((data.expireDate.or fromDuration).getD d) := by
  cases h : data.expireDate.or fromDuration <;> simp [updated_eq, Columns.renewed, h]

theorem eq_renewed_iff {u : Columns} {d : DateTime} :
    u = u.renewed d ↔ u.status = .active ∧ u.expireDate = d := by
  rcases u with ⟨status, expireDate, maxConnections, bandwidthLimitGb, note⟩
  simp [Columns.renewed, and_comm]

theorem renew_update {d : DateTime} (hd : date c = some d) :
    (renew date).Serial (update data fromDuration) c ↔
      (renew date).Yields (update data fromDuration) c := by
  have hfirst : c.updated data fromDuration = (c.renewed d).updated data fromDuration ↔
      c.status = .active ∧
        ((data.expireDate.or fromDuration).isSome = true ∨ d = c.expireDate) := by
    rw [updated_renewed, eq_renewed_iff, updated_expireDate]
    cases data.expireDate.or fromDuration with
    | none => simp [Columns.updated, eq_comm]
    | some e => simp [Columns.updated]
  simp only [Serial, Yields, save, hd, Option.map_some, Option.getD_some, hfirst, Option.some.injEq]
  cases hdate : date (c.updated data fromDuration) with
  | none => simp
  | some e =>
    simp only [Option.map_some, Option.getD_some, eq_renewed_iff, Option.some.injEq, reduceCtorEq,
      false_or, eq_comm (a := e)]
    have hstatus : (c.updated data fromDuration).status = c.status := rfl
    rw [hstatus]
    tauto

theorem update_status (h : acts c = true) :
    (update data fromDuration).Serial (status acts new) c ↔
      (update data fromDuration).Yields (status acts new) c := by
  simp only [Serial, Yields, save, h, if_true, updated_withStatus, or_true]

theorem update_renew {d : DateTime} (hd : date c = some d) :
    (update data fromDuration).Serial (renew date) c ↔
      (update data fromDuration).Yields (renew date) c := by
  have hsecond : (c.updated data fromDuration).renewed d = (c.renewed d).updated data fromDuration ↔
      data.expireDate.or fromDuration = none ∨ data.expireDate.or fromDuration = some d := by
    rw [updated_renewed, renewed_inj]
    cases data.expireDate.or fromDuration <;> simp [eq_comm]
  simp only [Serial, Yields, save, hd, Option.map_some, Option.getD_some, hsecond]
  cases hdate : date (c.updated data fromDuration) with
  | some e => simp [renewed_inj, eq_comm]
  | none =>
    simp only [Option.map_none, Option.getD_none, reduceCtorEq, false_or,
      eq_comm (a := (c.updated data fromDuration).renewed d), eq_renewed_iff, updated_expireDate]
    constructor
    · rintro (⟨-, he⟩ | h)
      · cases hset : data.expireDate.or fromDuration with
        | none => exact .inl rfl
        | some e =>
          rw [hset] at he
          exact .inr (congrArg some he)
      · exact h
    · exact .inr

section Column

variable {α : Type} {set set' : Option α} {x : α}

/-- A column set by one `patch` and then by another. -/
theorem getD_over : set'.getD x = set'.getD (set.getD x) ↔ set'.isSome = true ∨ set.getD x = x := by
  cases set' <;> simp [eq_comm]

theorem getD_back (h : set'.getD x = set.getD (set'.getD x)) :
    set'.isSome = true ∨ set.getD x = x := by
  cases set' with
  | none => exact .inr h.symm
  | some y => exact .inl rfl

end Column

theorem update_update : (update data fromDuration).Serial (update data' fromDuration') c ↔
    (update data fromDuration).Yields (update data' fromDuration') c := by
  simp only [Serial, Yields, save, updated_eq, Columns.mk.injEq, true_and, getD_over]
  constructor
  · rintro (h | ⟨hdate, hmax, hband, hnote⟩)
    · exact h
    · exact ⟨getD_back hdate, getD_back hmax, getD_back hband, getD_back hnote⟩
  · exact .inl

end Cases

theorem serial_of_not_acts {a b : Change} {c : Columns} (ha : ¬ a.Acts c ∨ ¬ b.Acts c) :
    a.Serial b c := by
  have hid : ∀ {x : Change}, ¬ x.Acts c → x.save c = id := by
    intro x hx
    funext y
    cases x with
    | nothing => rfl
    | status acts new => exact if_neg hx
    | renew date => simp [save, Option.not_isSome_iff_eq_none.mp hx]
    | update data fromDuration => exact (hx trivial).elim
  rcases ha with ha | hb
  · exact .inl (by rw [hid ha, id])
  · exact .inr (by rw [hid hb, id, id])

/-- One case for each two kinds of change. -/
theorem serial_iff {a b : Change} {c : Columns} (ha : a.Acts c) (hb : b.Acts c) :
    a.Serial b c ↔ a.Yields b c := by
  cases a with
  | nothing => exact ha.elim
  | status acts new =>
    cases b with
    | nothing => exact hb.elim
    | status acts' new' => exact status_status ha hb
    | renew date =>
      obtain ⟨d, hd⟩ := Option.isSome_iff_exists.mp hb
      exact status_renew ha hd
    | update data fromDuration => exact status_update ha
  | renew date =>
    obtain ⟨d, hd⟩ := Option.isSome_iff_exists.mp ha
    cases b with
    | nothing => exact hb.elim
    | status acts new => exact renew_status hd hb
    | renew date' =>
      obtain ⟨d', hd'⟩ := Option.isSome_iff_exists.mp hb
      exact renew_renew hd hd'
    | update data fromDuration => exact renew_update hd
  | update data fromDuration =>
    cases b with
    | nothing => exact hb.elim
    | status acts new => exact update_status hb
    | renew date =>
      obtain ⟨d, hd⟩ := Option.isSome_iff_exists.mp hb
      exact update_renew hd
    | update data' fromDuration' => exact update_update

theorem serial_and_serial_iff {a b : Change} {c : Columns} : a.Serial b c ∧ b.Serial a c ↔
    (a.Acts c → b.Acts c → a.Yields b c ∧ b.Yields a c) := by
  by_cases ha : a.Acts c
  · by_cases hb : b.Acts c
    · rw [serial_iff ha hb, serial_iff hb ha]
      simp [ha, hb]
    · simp [hb, serial_of_not_acts (a := a) (.inr hb), serial_of_not_acts (b := a) (.inl hb)]
  · simp [ha, serial_of_not_acts (b := b) (.inl ha), serial_of_not_acts (a := b) (.inr ha)]

end Change

/-! Interleavings of two operations. -/

section Interleavings

variable {row : Account}

/-- However their calls come, the two operations leave the columns that they leave in one of the orders. -/
def Serializable (s t : Surroundings row.id) (a b : RowOp) : Prop :=
  ∀ x, Interleaved s.handler t.handler (a.op row.id).prog (b.op row.id).prog row x →
    x.columns = ((b.op row.id).prog.run t.handler
        ((a.op row.id).prog.run s.handler row).2).2.columns ∨
      x.columns = ((a.op row.id).prog.run s.handler
        ((b.op row.id).prog.run t.handler row).2).2.columns

/-- Nothing is lost exactly where one of the operations does not save, or each save over the other
leaves what an order of the two leaves. -/
theorem serializable_iff (s t : Surroundings row.id) (a b : RowOp) :
    Serializable s t a b ↔
      ((a.change s row).Acts row.columns → (b.change t row).Acts row.columns →
        (a.change s row).Yields (b.change t row) row.columns ∧
          (b.change t row).Yields (a.change s row) row.columns) := by
  have hall := Prog.interleaved_iff (handler_keys s) (handler_keys t) (reads_op s a) (reads_op t b)
    (Account.SameKeys.refl row)
  exact hall.trans ((and_congr_right' or_comm).trans Change.serial_and_serial_iff)

end Interleavings

/-! A due account is renewed while it is expired. -/

/-- The node has the user, and no other account is in the table. -/
def sampleSurroundings (day : Nat) : Surroundings 1 where
  answer c := (World.handler (sampleEnv day) c
    { sampleAccountWorld .ssh with db := sampleWorld.db }).1
  place _ := 0
  others := by
    intro q a h
    cases h
  servers := List.nodup_singleton _

/-- The expiry has read the row before the extension saves it, and then saves its own status: the
account is EXPIRED with an end that has not come. -/
theorem not_serializable : ∃ x : Account,
    Interleaved (sampleSurroundings 31).handler (sampleSurroundings 31).handler
        (RowOp.op 1 (.extend 30 none)).prog (RowOp.op 1 .expireUsers).prog (sampleAccount .ssh) x ∧
      x.status = .expired ∧ ¬ x.expireDate ≤ sampleDay 31 ∧
      ¬ @Serializable (sampleAccount .ssh) (sampleSurroundings 31) (sampleSurroundings 31)
        (.extend 30 none) .expireUsers := by
  let s : Surroundings (sampleAccount .ssh).id := sampleSurroundings 31
  obtain ⟨x, hx, hcell⟩ := Prog.exists_interleaved (handler_keys s) (handler_keys s)
    (reads_op s (.extend 30 none)) (reads_op s .expireUsers) (Account.SameKeys.refl _)
  have hcolumns : x.columns = ((sampleAccount .ssh).columns.renewed (sampleDay 61)).withStatus .expired :=
    hcell.trans (by decide)
  refine ⟨x, hx, congrArg Columns.status hcolumns, ?_, ?_⟩
  · have hdate : x.expireDate = sampleDay 61 := congrArg Columns.expireDate hcolumns
    rw [hdate]
    decide
  · intro h
    rcases h x hx with h | h
    · rw [hcolumns] at h
      exact absurd h (by decide)
    · rw [hcolumns] at h
      exact absurd h (by decide)

end SshPanelVpn.Panel

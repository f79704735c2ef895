import Mathlib.Data.List.Nodup

/-! The first element of a stably sorted list that a predicate takes. -/
namespace FirstInOrder

variable {α : Type} {le : α → α → Bool} {p : α → Bool} {l : List α} {x y : α}

/-- `x` is sorted before `y`: it is less, or it is listed earlier. -/
def Before (le : α → α → Bool) (l : List α) (x y : α) : Prop :=
  le x y = true ∧ (le y x = true → [x, y].Sublist l)

/-- `x` comes before all others that the predicate takes. -/
structure First (le : α → α → Bool) (p : α → Bool) (l : List α) (x : α) : Prop where
  mem : x ∈ l
  takes : p x = true
  before : ∀ y ∈ l, p y = true → y ≠ x → Before le l x y

theorem pair_order (hx : x ∈ l) (hy : y ∈ l) (hne : x ≠ y) : [x, y].Sublist l ∨ [y, x].Sublist l := by
  obtain ⟨as, bs, rfl⟩ := List.append_of_mem hx
  have hlast : ∀ {a : α} {cs : List α}, a ∈ cs → [a].Sublist cs := List.singleton_sublist.mpr
  rcases List.mem_append.mp hy with h | h
  · exact .inr ((hlast h).append (hlast List.mem_cons_self))
  · have hmem : y ∈ bs := (List.mem_cons.mp h).resolve_left (Ne.symm hne)
    exact .inl ((List.Sublist.cons_cons x (hlast hmem)).trans (List.sublist_append_right _ _))

theorem not_pair_order (h : l.Nodup) (hxy : [x, y].Sublist l) : ¬ [y, x].Sublist l := by
  induction l with
  | nil => cases hxy
  | cons a l ih =>
    obtain ⟨ha, hl⟩ := List.nodup_cons.mp h
    intro hyx
    cases hxy with
    | cons _ hxy =>
      cases hyx with
      | cons _ hyx => exact ih hl hxy hyx
      | cons_cons _ hx => exact ha (hxy.subset (by simp))
    | cons_cons _ hy =>
      cases hyx with
      | cons _ hyx => exact ha (hyx.subset (by simp))
      | cons_cons _ hx => exact ha (hy.subset (by simp))

theorem Before.antisymm (hl : l.Nodup) (h : Before le l x y) (h' : Before le l y x) : False :=
  not_pair_order hl (h.2 h'.1) (h'.2 h.1)

/-- What the predicate takes is all that matters of the list. -/
theorem first_filter_iff {q : α → Bool} (hpq : ∀ x, p x = true → q x = true) :
    First le p (l.filter q) x ↔ First le p l x := by
  have hpair : ∀ {a b : α}, p a = true → p b = true →
      ([a, b].Sublist (l.filter q) ↔ [a, b].Sublist l) := by
    intro a b ha hb
    refine ⟨fun h => h.trans List.filter_sublist, fun h => ?_⟩
    have hfilter := h.filter q
    rwa [List.filter_eq_self.mpr (by simp [hpq a ha, hpq b hb])] at hfilter
  constructor
  · rintro ⟨hx, hp, hb⟩
    refine ⟨List.mem_of_mem_filter hx, hp, fun y hy hpy hne => ?_⟩
    obtain ⟨hle, heq⟩ := hb y (List.mem_filter.mpr ⟨hy, hpq y hpy⟩) hpy hne
    exact ⟨hle, fun h => (hpair hp hpy).mp (heq h)⟩
  · rintro ⟨hx, hp, hb⟩
    refine ⟨List.mem_filter.mpr ⟨hx, hpq x hp⟩, hp, fun y hy hpy hne => ?_⟩
    obtain ⟨hle, heq⟩ := hb y (List.mem_of_mem_filter hy) hpy hne
    exact ⟨hle, fun h => (hpair hp hpy).mpr (heq h)⟩

section Sorted

variable (trans : ∀ a b c, le a b = true → le b c = true → le a c = true)
  (total : ∀ a b, (le a b || le b a) = true)

include trans total

theorem le_of_pair_mergeSort (h : [x, y].Sublist (l.mergeSort le)) : le x y = true := by
  have hpair : [x, y].Pairwise fun a b => le a b = true :=
    (List.pairwise_mergeSort trans total l).sublist h
  simpa using hpair

theorem pair_mergeSort_iff (hl : l.Nodup) (hx : x ∈ l) (hy : y ∈ l) (hne : x ≠ y) :
    [x, y].Sublist (l.mergeSort le) ↔ Before le l x y := by
  have hperm := List.mergeSort_perm l le
  have hsorted : (l.mergeSort le).Nodup := hperm.nodup_iff.mpr hl
  have hforth : ∀ {a b : α}, Before le l a b → a ∈ l → b ∈ l → a ≠ b → [a, b].Sublist (l.mergeSort le) := by
    intro a b hab ha hb hne
    by_cases hba : le b a = true
    · exact List.pair_sublist_mergeSort trans total hab.1 (hab.2 hba)
    · refine (pair_order (hperm.mem_iff.mpr ha) (hperm.mem_iff.mpr hb) hne).resolve_right ?_
      intro h
      exact hba (le_of_pair_mergeSort trans total h)
  constructor
  · intro h
    refine ⟨le_of_pair_mergeSort trans total h, fun hyx => (pair_order hx hy hne).resolve_right ?_⟩
    intro hpair
    exact not_pair_order hsorted h (List.pair_sublist_mergeSort trans total hyx hpair)
  · exact fun h => hforth h hx hy hne

/-- Searching the sorted list finds the first element, and only this one is first. -/
theorem find?_mergeSort_iff (hl : l.Nodup) :
    (l.mergeSort le).find? p = some x ↔ First le p l x := by
  have hperm := List.mergeSort_perm l le
  have hsorted : (l.mergeSort le).Nodup := hperm.nodup_iff.mpr hl
  have hforth : ∀ {z : α}, (l.mergeSort le).find? p = some z → First le p l z := by
    intro z hz
    obtain ⟨hp, as, bs, heq, has⟩ := List.find?_eq_some_iff_append.mp hz
    have hmem : z ∈ l := hperm.mem_iff.mp (heq ▸ by simp)
    refine ⟨hmem, hp, fun y hy hpy hne => ?_⟩
    rw [← pair_mergeSort_iff trans total hl hmem hy (Ne.symm hne), heq]
    have hy' : y ∈ as ++ z :: bs := heq ▸ hperm.mem_iff.mpr hy
    have hbs : y ∈ bs := by
      rcases List.mem_append.mp hy' with h | h
      · exact absurd hpy (by simpa using has y h)
      · exact (List.mem_cons.mp h).resolve_left hne
    exact (List.Sublist.cons_cons z (List.singleton_sublist.mpr hbs)).trans
      (List.sublist_append_right _ _)
  refine ⟨hforth, fun h => ?_⟩
  obtain ⟨z, hz⟩ : ∃ z, (l.mergeSort le).find? p = some z := by
    rw [← Option.isSome_iff_exists, List.find?_isSome]
    exact ⟨x, hperm.mem_iff.mpr h.mem, h.takes⟩
  have hfirst := hforth hz
  by_cases hne : z = x
  · rw [hz, hne]
  · exact ((h.before z hfirst.mem hfirst.takes hne).antisymm hl
      (hfirst.before x h.mem h.takes (Ne.symm hne))).elim

end Sorted

end FirstInOrder

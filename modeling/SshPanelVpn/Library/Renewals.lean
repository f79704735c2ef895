import Mathlib.Algebra.BigOperators.Group.List.Basic
import Mathlib.Algebra.Order.Group.Defs
import Mathlib.Algebra.Order.Monoid.Unbundled.MinMax
import Mathlib.Order.Bounds.Basic
import Mathlib.Tactic.Abel

/-! Terms that are renewed: a renewal at some instant moves the end by its length, from where it is or from
that instant, whichever is later. -/
namespace Renewals

/-- When a term is renewed, and for how long. -/
structure Renewal (α : Type) where
  instant : α
  length : α
  deriving DecidableEq, Repr

section Definitions

variable {α : Type} [AddCommGroup α]

/-- All that was paid for. -/
def paid (rs : List (Renewal α)) : α := (rs.map Renewal.length).sum

@[simp] theorem paid_nil : paid ([] : List (Renewal α)) = 0 := rfl

@[simp] theorem paid_cons (r : Renewal α) (rs : List (Renewal α)) :
    paid (r :: rs) = r.length + paid rs := by
  simp [paid]

variable [LinearOrder α]

/-- The end after one renewal. -/
def renew (e : α) (r : Renewal α) : α := max e r.instant + r.length

/-- The end after renewals in their order. -/
def endAfter (e : α) (rs : List (Renewal α)) : α := rs.foldl renew e

/-- The time for which the term had ended when it was renewed. -/
def lapsed : α → List (Renewal α) → α
  | _, [] => 0
  | e, r :: rs => max 0 (r.instant - e) + lapsed (renew e r) rs

/-- The ends that the term can be held to: the first one with all that was paid, and the instant of each
renewal with all that was paid from it on. -/
def claims (e : α) (rs : List (Renewal α)) : Set α :=
  { x | x = e + paid rs ∨ ∃ pre r post, rs = pre ++ r :: post ∧ x = r.instant + r.length + paid post }

@[simp] theorem endAfter_nil (e : α) : endAfter e [] = e := rfl

@[simp] theorem endAfter_cons (e : α) (r : Renewal α) (rs : List (Renewal α)) :
    endAfter e (r :: rs) = endAfter (renew e r) rs := rfl

theorem endAfter_append (e : α) (rs rs' : List (Renewal α)) :
    endAfter e (rs ++ rs') = endAfter (endAfter e rs) rs' := List.foldl_append

theorem endAfter_mem_claims (e : α) (rs : List (Renewal α)) : endAfter e rs ∈ claims e rs := by
  induction rs generalizing e with
  | nil => exact .inl (by simp)
  | cons r rs ih =>
    rw [endAfter_cons]
    rcases ih (renew e r) with h | ⟨pre, r', post, hrs, h⟩
    · rw [h, renew]
      rcases max_choice e r.instant with he | he
      · refine .inl ?_
        rw [he, paid_cons, add_assoc]
      · exact .inr ⟨[], r, rs, rfl, by rw [he]⟩
    · exact .inr ⟨r :: pre, r', post, by rw [hrs, List.cons_append], h⟩

end Definitions

section Order

variable {α : Type} [AddCommGroup α] [LinearOrder α] [IsOrderedAddMonoid α]

theorem renew_eq (e : α) (r : Renewal α) : renew e r = e + r.length + max 0 (r.instant - e) := by
  have hmax : max e r.instant = e + max 0 (r.instant - e) := by
    rw [← max_add_add_left, add_zero, add_sub_cancel]
  rw [renew, hmax]
  abel

/-- Nothing that was paid for is lost, and only lapsed time comes on top. -/
theorem endAfter_eq (e : α) (rs : List (Renewal α)) : endAfter e rs = e + paid rs + lapsed e rs := by
  induction rs generalizing e with
  | nil => simp [lapsed]
  | cons r rs ih =>
    rw [endAfter_cons, ih, paid_cons, lapsed]
    nth_rewrite 1 [renew_eq]
    abel

theorem lapsed_nonneg (e : α) (rs : List (Renewal α)) : 0 ≤ lapsed e rs := by
  induction rs generalizing e with
  | nil => exact le_refl _
  | cons r rs ih => exact add_nonneg (le_max_left _ _) (ih _)

theorem le_endAfter (e : α) (rs : List (Renewal α)) : e + paid rs ≤ endAfter e rs := by
  rw [endAfter_eq]
  exact le_add_of_nonneg_right (lapsed_nonneg e rs)

/-- The end is the latest of the ends that it can be held to. -/
theorem endAfter_isGreatest (e : α) (rs : List (Renewal α)) :
    IsGreatest (claims e rs) (endAfter e rs) := by
  refine ⟨endAfter_mem_claims e rs, ?_⟩
  rintro x (rfl | ⟨pre, r, post, rfl, rfl⟩)
  · exact le_endAfter e rs
  · rw [endAfter_append, endAfter_cons]
    have hrenew : r.instant + r.length ≤ renew (endAfter e pre) r :=
      add_le_add_left (le_max_right _ _) _
    exact (add_le_add_left hrenew _).trans (le_endAfter _ post)

end Order

end Renewals

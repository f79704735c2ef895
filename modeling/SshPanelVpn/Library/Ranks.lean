import Mathlib.Data.List.Nodup
import Mathlib.Data.List.Sort
import Mathlib.Order.Defs.LinearOrder

/-! The elements that are left of a sorted list behind its first ones. -/
namespace Ranks

variable {α κ : Type} [LinearOrder κ] {key : α → κ} {l l' : List α} {x y : α} {m : Nat}

/-- How many elements come before `x`. -/
def rank (key : α → κ) (l : List α) (x : α) : Nat := l.countP fun y => key y < key x

theorem rank_perm (h : l.Perm l') : rank key l x = rank key l' x := h.countP_eq _

theorem rank_mono (h : key x ≤ key y) : rank key l x ≤ rank key l y := by
  apply List.countP_mono_left
  intro z _ hz
  exact decide_eq_true (lt_of_lt_of_le (of_decide_eq_true hz) h)

/-- Behind the first `m` of a strictly sorted list are those that at least `m` come before. -/
theorem filter_rank (h : l.Pairwise fun a b => key a < key b) (m : Nat) :
    (l.filter fun x => m ≤ rank key l x) = l.drop m := by
  induction l generalizing m with
  | nil => simp
  | cons a l ih =>
    obtain ⟨ha, hl⟩ := List.pairwise_cons.mp h
    have hfirst : rank key (a :: l) a = 0 := by
      rw [rank, List.countP_eq_zero]
      intro b hb hlt
      rcases List.mem_cons.mp hb with rfl | hb
      · exact lt_irrefl _ (of_decide_eq_true hlt)
      · exact lt_asymm (ha b hb) (of_decide_eq_true hlt)
    have hrest : ∀ x ∈ l, rank key (a :: l) x = rank key l x + 1 := by
      intro x hx
      simp [rank, ha x hx]
    cases m with
    | zero => simp
    | succ m =>
      rw [List.drop_succ_cons, ← ih hl m, List.filter_cons_of_neg (by simp [hfirst])]
      apply List.filter_congr
      intro x hx
      rw [hrest x hx]
      exact decide_eq_decide.mpr Nat.succ_le_succ_iff

/-- The list in the order of its keys; what is equal stays in the order it came. -/
def sorted (key : α → κ) (l : List α) : List α := l.insertionSort fun a b => key a ≤ key b

theorem sorted_perm (key : α → κ) (l : List α) : (sorted key l).Perm l := List.perm_insertionSort _ l

theorem sorted_strict (h : (l.map key).Nodup) :
    (sorted key l).Pairwise fun a b => key a < key b := by
  have : Std.Total fun a b : α => key a ≤ key b := ⟨fun a b => le_total _ _⟩
  have : IsTrans α fun a b => key a ≤ key b := ⟨fun a b c => le_trans⟩
  have hle : (sorted key l).Pairwise fun a b => key a ≤ key b := List.pairwise_insertionSort _ l
  have hne : (sorted key l).Pairwise fun a b => key a ≠ key b := by
    rw [← List.pairwise_map]
    exact ((sorted_perm key l).map key).nodup_iff.mpr h
  exact hle.imp₂ (fun a b => lt_of_le_of_ne) hne

/-- What a slice from `m` on of the sorted list holds does not depend on the order of the list. -/
theorem mem_drop_sorted (h : (l.map key).Nodup) :
    x ∈ (sorted key l).drop m ↔ x ∈ l ∧ m ≤ rank key l x := by
  rw [← filter_rank (sorted_strict h), List.mem_filter, decide_eq_true_eq,
    (sorted_perm key l).mem_iff, rank_perm (sorted_perm key l)]

/-- It holds all but `m` of the list. -/
theorem countP_rank (h : (l.map key).Nodup) (m : Nat) :
    (l.countP fun x => m ≤ rank key l x) = l.length - m := by
  have hsame : ∀ x, rank key (sorted key l) x = rank key l x := fun x => rank_perm (sorted_perm key l)
  calc (l.countP fun x => m ≤ rank key l x)
      = ((sorted key l).countP fun x => m ≤ rank key (sorted key l) x) := by
        simp only [hsame]
        exact ((sorted_perm key l).countP_eq _).symm
    _ = ((sorted key l).drop m).length := by
        rw [List.countP_eq_length_filter, filter_rank (sorted_strict h)]
    _ = l.length - m := by rw [List.length_drop, (sorted_perm key l).length_eq]

end Ranks

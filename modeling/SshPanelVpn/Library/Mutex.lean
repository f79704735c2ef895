import Mathlib.Data.List.Basic

/-! A lock as the goroutine that holds it, beside what the program counters say of who does. -/
namespace Mutex

variable {γ : Type} {m : Option γ} {holds holds' : γ → Prop} {a b : γ}

/-- The holder of the lock is the one goroutine behind it. -/
def Guards (m : Option γ) (holds : γ → Prop) : Prop := ∀ g, m = some g ↔ holds g

theorem Guards.unique (h : Guards m holds) (ha : holds a) (hb : holds b) : a = b := by
  have hm := (h a).mpr ha
  rw [(h b).mpr hb] at hm
  exact (Option.some.inj hm).symm

theorem Guards.none_holds (h : Guards none holds) (g : γ) : ¬ holds g := by
  intro hg
  have hm := (h g).mpr hg
  cases hm

/-- A step that moves nobody into or out of the guarded part. -/
theorem Guards.congr (h : Guards m holds) (hg : ∀ g, holds' g ↔ holds g) : Guards m holds' := by
  intro g
  rw [h g, hg g]

theorem Guards.acquire (h : Guards none holds) (ha : holds' a)
    (hg : ∀ g, g ≠ a → (holds' g ↔ holds g)) : Guards (some a) holds' := by
  intro g
  by_cases hga : g = a
  · subst hga
    exact iff_of_true rfl ha
  · refine iff_of_false ?_ ?_
    · intro hm
      exact hga (Option.some.inj hm).symm
    · intro hg'
      exact h.none_holds g ((hg g hga).mp hg')

theorem Guards.release (h : Guards m holds) (ha : holds a) (ha' : ¬ holds' a)
    (hg : ∀ g, g ≠ a → (holds' g ↔ holds g)) : Guards none holds' := by
  intro g
  refine iff_of_false (by simp) ?_
  intro hg'
  by_cases hga : g = a
  · subst hga
    exact ha' hg'
  · exact hga (h.unique ((hg g hga).mp hg') ha)

/-- What one step of `a` does to the lock: take it, give it back, or neither. -/
def Moves (a : γ) (m m' : Option γ) (holds holds' : γ → Prop) : Prop :=
  (m = none ∧ m' = some a ∧ holds' a) ∨ (holds a ∧ m' = none ∧ ¬ holds' a) ∨
    (m' = m ∧ (holds' a ↔ holds a))

theorem Guards.step {m' : Option γ} (h : Guards m holds) (ha : Moves a m m' holds holds')
    (hg : ∀ g, g ≠ a → (holds' g ↔ holds g)) : Guards m' holds' := by
  rcases ha with ⟨rfl, rfl, ha'⟩ | ⟨ha, rfl, ha'⟩ | ⟨rfl, hself⟩
  · exact h.acquire ha' hg
  · exact h.release ha ha' hg
  · refine h.congr fun g => ?_
    by_cases hga : g = a
    · rw [hga]
      exact hself
    · exact hg g hga

end Mutex

import Mathlib.Data.List.Basic

/-! Codes whose words can be read off the front of a text: no word is the beginning of another, and
a text that is cut off is none. -/
namespace PrefixCodes

variable {α β σ : Type} {f : α → List σ} {g : β → List σ} {p : List σ} {x y : α}

/-- What follows a word does not change which word it is. -/
def SelfDelimiting (f : α → List σ) : Prop :=
  ∀ x y r s, f x ++ r = f y ++ s → x = y ∧ r = s

theorem SelfDelimiting.injective (hf : SelfDelimiting f) : Function.Injective f := by
  intro x y h
  exact (hf x y [] [] (by rw [h])).1

/-- A word that is cut off is not a word. -/
theorem SelfDelimiting.ne_of_cut (hf : SelfDelimiting f) (hp : p <+: f y) (hne : p ≠ f y) (x : α) :
    f x ≠ p := by
  rintro rfl
  obtain ⟨rest, hrest⟩ := hp
  have heq : f x ++ rest = f y ++ [] := by rw [hrest, List.append_nil]
  obtain ⟨rfl, -⟩ := hf x y rest [] heq
  exact hne rfl

/-! Putting codes together. -/

theorem SelfDelimiting.comp (hf : SelfDelimiting f) {h : β → α} (hh : Function.Injective h) :
    SelfDelimiting fun b => f (h b) := by
  intro b c r s heq
  obtain ⟨hbc, hrs⟩ := hf _ _ r s heq
  exact ⟨hh hbc, hrs⟩

theorem SelfDelimiting.after (hf : SelfDelimiting f) (w : List σ) :
    SelfDelimiting fun x => w ++ f x := by
  intro x y r s heq
  simp only [List.append_assoc, List.append_cancel_left_eq] at heq
  exact hf x y r s heq

theorem SelfDelimiting.before (hf : SelfDelimiting f) (w : List σ) :
    SelfDelimiting fun x => f x ++ w := by
  intro x y r s heq
  simp only [List.append_assoc] at heq
  obtain ⟨hxy, hrs⟩ := hf x y _ _ heq
  exact ⟨hxy, List.append_cancel_left hrs⟩

theorem SelfDelimiting.prod (hf : SelfDelimiting f) (hg : SelfDelimiting g) :
    SelfDelimiting fun p : α × β => f p.1 ++ g p.2 := by
  rintro ⟨x, a⟩ ⟨y, b⟩ r s heq
  simp only [List.append_assoc] at heq
  obtain ⟨rfl, hrest⟩ := hf x y _ _ heq
  obtain ⟨rfl, hrs⟩ := hg a b r s hrest
  exact ⟨rfl, hrs⟩

/-- Words without `c`, up to a `c`. -/
theorem selfDelimiting_upTo [DecidableEq σ] {c : σ} (hf : Function.Injective f)
    (hc : ∀ x, c ∉ f x) : SelfDelimiting fun x => f x ++ [c] := by
  intro x y r s heq
  have htake : ∀ z t, ((f z ++ [c]) ++ t).takeWhile (· ≠ c) = f z := by
    intro z t
    rw [List.append_assoc, List.takeWhile_append_of_pos]
    · simp
    · intro a ha
      simp only [ne_eq, decide_not, Bool.not_eq_true', decide_eq_false_iff_not]
      rintro rfl
      exact hc z ha
  have hxy : f x = f y := by rw [← htake x r, heq, htake y s]
  obtain rfl := hf hxy
  exact ⟨rfl, List.append_cancel_left heq⟩

/-- A sequence of words, none of which begins with `c`, up to `c` and what follows it. -/
theorem SelfDelimiting.list (hf : SelfDelimiting f) {c : σ} (w : List σ)
    (hc : ∀ x, ∃ b l, f x = b :: l ∧ b ≠ c) :
    SelfDelimiting fun xs : List α => xs.flatMap f ++ c :: w := by
  intro xs ys r s heq
  have hhead : ∀ {x l t}, f x ++ l = c :: t → False := by
    intro x l t h
    obtain ⟨b, l', hb, hne⟩ := hc x
    rw [hb, List.cons_append] at h
    exact hne (List.cons.inj h).1
  induction xs generalizing ys with
  | nil =>
    cases ys with
    | nil =>
      simp only [List.flatMap_nil, List.nil_append, List.cons_append, List.cons.injEq, true_and,
        List.append_cancel_left_eq] at heq
      exact ⟨rfl, heq⟩
    | cons y ys =>
      simp only [List.flatMap_nil, List.nil_append, List.flatMap_cons, List.append_assoc,
        List.cons_append] at heq
      exact (hhead heq.symm).elim
  | cons x xs ih =>
    cases ys with
    | nil =>
      simp only [List.flatMap_nil, List.nil_append, List.flatMap_cons, List.append_assoc,
        List.cons_append] at heq
      exact (hhead heq).elim
    | cons y ys =>
      simp only [List.flatMap_cons, List.append_assoc] at heq
      obtain ⟨rfl, hrest⟩ := hf x y _ _ heq
      obtain ⟨rfl, hrs⟩ := ih ys (by simpa only [List.append_assoc] using hrest)
      exact ⟨rfl, hrs⟩

/-! Reading. -/

open Classical in
/-- The meaning of a text, if it is a word. -/
noncomputable def read (f : α → List σ) (l : List σ) : Option α :=
  if h : ∃ x, f x = l then some h.choose else none

theorem SelfDelimiting.read_word (hf : SelfDelimiting f) (x : α) : read f (f x) = some x := by
  have h : ∃ y, f y = f x := ⟨x, rfl⟩
  rw [read, dif_pos h, hf.injective h.choose_spec]

theorem SelfDelimiting.read_cut (hf : SelfDelimiting f) (hp : p <+: f y) (hne : p ≠ f y) :
    read f p = none := by
  rw [read, dif_neg]
  rintro ⟨x, hx⟩
  exact hf.ne_of_cut hp hne x hx

end PrefixCodes

import Mathlib.Data.List.Basic
import Mathlib.Data.List.TakeWhile

/-! The words of a list: what lies between separators. -/
namespace Words

variable {α : Type} (sep : α → Bool)

/-- The words of `s` after the word `w`, which no separator has ended yet. -/
def wordsFrom : List α → List α → List (List α)
  | w, [] => if w = [] then [] else [w]
  | w, c :: cs =>
    if sep c then
      if w = [] then wordsFrom [] cs else w :: wordsFrom [] cs
    else wordsFrom (w ++ [c]) cs

def words (s : List α) : List (List α) := wordsFrom sep [] s

variable {sep} {s v w : List α} {c : α}

theorem wordsFrom_append (h : ∀ c ∈ w, sep c = false) :
    wordsFrom sep v (w ++ s) = wordsFrom sep (v ++ w) s := by
  induction w generalizing v with
  | nil => simp
  | cons c w ih =>
    have hc := h c (List.mem_cons_self ..)
    have hrest := ih (v := v ++ [c]) fun d hd => h d (List.mem_cons_of_mem _ hd)
    rw [List.cons_append, wordsFrom, hc]
    simpa using hrest

/-- Separators in front make no words. -/
theorem words_front (h : ∀ c ∈ w, sep c = true) : words sep (w ++ s) = words sep s := by
  induction w with
  | nil => rfl
  | cons c w ih =>
    have hc := h c (List.mem_cons_self ..)
    rw [List.cons_append, words, wordsFrom, if_pos hc, if_pos rfl]
    exact ih fun d hd => h d (List.mem_cons_of_mem _ hd)

theorem words_cons (h : ∀ c ∈ w, sep c = false) (hw : w ≠ []) (hc : sep c = true) :
    words sep (w ++ c :: s) = w :: words sep s := by
  rw [words, wordsFrom_append h, List.nil_append, wordsFrom, if_pos hc, if_neg hw, words]

theorem words_word (h : ∀ c ∈ w, sep c = false) (hw : w ≠ []) : words sep w = [w] := by
  have happ := wordsFrom_append (v := []) (s := []) h
  rw [List.append_nil, List.nil_append] at happ
  rw [words, happ, wordsFrom, if_neg hw]

/-- The first word is what comes before the first separator that follows an element of it. -/
theorem head_words (s : List α) :
    ((words sep s)[0]?).getD [] = (s.dropWhile sep).takeWhile fun c => !sep c := by
  have hfront : words sep s = words sep (s.dropWhile sep) := by
    conv_lhs => rw [← List.takeWhile_append_dropWhile (p := sep) (l := s)]
    exact words_front fun c hc => List.mem_takeWhile_imp hc
  rw [hfront]
  cases hrest : s.dropWhile sep with
  | nil => rfl
  | cons c t =>
    have hc : sep c = false := by
      have hhead := List.head?_dropWhile_not sep s
      rw [hrest] at hhead
      simpa using hhead
    have hword : ∀ d ∈ (c :: t).takeWhile (fun c => !sep c), sep d = false :=
      fun d hd => by simpa using List.mem_takeWhile_imp hd
    have hne : (c :: t).takeWhile (fun c => !sep c) ≠ [] := by simp [hc]
    have hsplit := List.takeWhile_append_dropWhile (p := fun c => !sep c) (l := c :: t)
    cases hmore : (c :: t).dropWhile fun c => !sep c with
    | nil =>
      rw [hmore, List.append_nil] at hsplit
      rw [hsplit] at hword hne ⊢
      rw [words_word hword hne]
      rfl
    | cons d u =>
      have hd : sep d = true := by
        have hhead := List.head?_dropWhile_not (fun c => !sep c) (c :: t)
        rw [hmore] at hhead
        simpa using hhead
      rw [hmore] at hsplit
      conv_lhs => rw [← hsplit, words_cons hword hne hd]
      rfl

/-- Separators at the end make no words. -/
theorem wordsFrom_back (h : ∀ c ∈ w, sep c = true) : wordsFrom sep v (s ++ w) = wordsFrom sep v s := by
  induction s generalizing v with
  | nil =>
    cases w with
    | nil => rfl
    | cons c w =>
      have hrest : words sep w = [] := by
        simpa [words, wordsFrom] using
          words_front (s := []) fun d hd => h d (List.mem_cons_of_mem c hd)
      have hc := h c (List.mem_cons_self ..)
      by_cases hv : v = []
      · subst hv
        simp only [List.nil_append, wordsFrom, hc, if_true]
        exact hrest
      · simp only [List.nil_append, wordsFrom, hc, if_true, if_neg hv]
        exact congrArg (v :: ·) hrest
  | cons d s ih =>
    simp only [List.cons_append, wordsFrom, ih]

/-- What is taken off at both ends makes no difference. -/
theorem words_trim (s : List α) :
    words sep ((s.dropWhile sep).reverse.dropWhile sep).reverse = words sep s := by
  have hfront : s.takeWhile sep ++ s.dropWhile sep = s := List.takeWhile_append_dropWhile
  have hback : ((s.dropWhile sep).reverse.dropWhile sep).reverse ++
      ((s.dropWhile sep).reverse.takeWhile sep).reverse = s.dropWhile sep := by
    rw [← List.reverse_append, List.takeWhile_append_dropWhile, List.reverse_reverse]
  calc words sep ((s.dropWhile sep).reverse.dropWhile sep).reverse
      = words sep (((s.dropWhile sep).reverse.dropWhile sep).reverse ++
          ((s.dropWhile sep).reverse.takeWhile sep).reverse) := by
        refine (wordsFrom_back ?_).symm
        intro c hc
        exact List.mem_takeWhile_imp (List.mem_reverse.mp hc)
    _ = words sep (s.dropWhile sep) := by rw [hback]
    _ = words sep (s.takeWhile sep ++ s.dropWhile sep) :=
        (words_front fun c hc => List.mem_takeWhile_imp hc).symm
    _ = words sep s := by rw [hfront]

/-! Trimming. -/

/-- Only what follows the last element that is no separator is taken off. -/
theorem trim_append {t : List α} (ht : t ≠ []) (hf : ∀ c ∈ t.head?, sep c = false)
    (hb : ∀ c ∈ t.getLast?, sep c = false) (hw : ∀ c ∈ w, sep c = true) :
    (((t ++ w).dropWhile sep).reverse.dropWhile sep).reverse = t := by
  have hfront : (t ++ w).dropWhile sep = t ++ w := by
    cases t with
    | nil => exact (ht rfl).elim
    | cons c t => rw [List.cons_append, List.dropWhile_cons_of_neg (by simp [hf c rfl])]
  have hback : t.reverse.dropWhile sep = t.reverse := by
    cases hr : t.reverse with
    | nil => rfl
    | cons c r =>
      have hc : t.getLast? = some c := by
        rw [List.getLast?_eq_head?_reverse, hr]
        rfl
      rw [List.dropWhile_cons_of_neg (by simp [hb c hc])]
  rw [hfront, List.reverse_append, List.dropWhile_append_of_pos, hback, List.reverse_reverse]
  intro c hc
  exact hw c (List.mem_reverse.mp hc)

end Words

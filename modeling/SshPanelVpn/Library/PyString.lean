import Mathlib.Data.List.Infix
import SshPanelVpn.Library.Words

/-! Methods of Python's `str`, on lists of characters. -/
namespace PyString

/-- `c.isspace()`. -/
def isSpace (c : Char) : Bool :=
  c.toNat ∈ [9, 10, 11, 12, 13, 28, 29, 30, 31, 32, 133, 160, 5760, 8192, 8193, 8194, 8195, 8196, 8197,
    8198, 8199, 8200, 8201, 8202, 8232, 8233, 8239, 8287, 12288]

/-- The zeros of the decimal digits; the other nine follow each of them. -/
def decimalZeros : List Nat :=
  [48, 1632, 1776, 1984, 2406, 2534, 2662, 2790, 2918, 3046, 3174, 3302, 3430, 3558, 3664, 3792, 3872,
    4160, 4240, 6112, 6160, 6470, 6608, 6784, 6800, 6992, 7088, 7232, 7248, 42528, 43216, 43264, 43472,
    43504, 43600, 44016, 65296, 66720, 68912, 69734, 69872, 69942, 70096, 70384, 70736, 70864, 71248,
    71360, 71472, 71904, 72016, 72784, 73040, 73120, 73552, 92768, 92864, 93008, 120782, 120792, 120802,
    120812, 120822, 123200, 123632, 124144, 125264, 130032]

/-- First and last of the digits that are no decimal digits, such as superscripts. -/
def otherDigits : List (Nat × Nat) :=
  [(178, 179), (185, 185), (4969, 4977), (6618, 6618), (8304, 8304), (8308, 8313), (8320, 8329),
    (9312, 9320), (9332, 9340), (9352, 9360), (9450, 9450), (9461, 9469), (9471, 9471), (10102, 10110),
    (10112, 10120), (10122, 10130), (68160, 68163), (69216, 69224), (69714, 69722), (127232, 127242)]

/-- The value of a decimal digit. -/
def digitValue (c : Char) : Option Nat :=
  (decimalZeros.find? fun z => z ≤ c.toNat ∧ c.toNat < z + 10).map fun z => c.toNat - z

def isDigitChar (c : Char) : Bool :=
  (digitValue c).isSome || otherDigits.any fun r => r.1 ≤ c.toNat ∧ c.toNat ≤ r.2

/-- `s.isdigit()`. -/
def isdigit (s : List Char) : Bool := !s.isEmpty && s.all isDigitChar

/-- `int(s)` of a digit string; a digit that is not decimal is refused. -/
def int (s : List Char) : Option Nat :=
  (s.mapM digitValue).map fun ds => ds.foldl (fun n d => 10 * n + d) 0

/-- `s.strip()`. -/
def strip (s : List Char) : List Char :=
  ((s.dropWhile isSpace).reverse.dropWhile isSpace).reverse

/-- The words of `s` after the characters `word`, which no blank has ended yet. -/
def splitFrom : List Char → List Char → List (List Char)
  | word, [] => if word = [] then [] else [word]
  | word, c :: cs =>
    if isSpace c then
      if word = [] then splitFrom [] cs else word :: splitFrom [] cs
    else splitFrom (word ++ [c]) cs

/-- `s.split()`. -/
def split (s : List Char) : List (List Char) := splitFrom [] s

/-- `s.split(sep)` for one character. -/
def splitOn (sep : Char) : List Char → List (List Char)
  | [] => [[]]
  | c :: cs =>
    if c = sep then [] :: splitOn sep cs
    else
      match splitOn sep cs with
      | [] => [[c]]
      | w :: ws => (c :: w) :: ws

/-- A character that ends a line for `splitlines`. -/
def isLineBreak (c : Char) : Bool := c.toNat ∈ [10, 11, 12, 13, 28, 29, 30, 133, 8232, 8233]

/-- `s.splitlines()`. -/
def splitlines : List Char → List (List Char)
  | [] => []
  | '\r' :: '\n' :: cs => [] :: splitlines cs
  | c :: cs =>
    if isLineBreak c then [] :: splitlines cs
    else
      match splitlines cs with
      | [] => [[c]]
      | l :: ls => (c :: l) :: ls

/-- `s.split(None, n)`: at most `n` words, and the rest with the blanks before it taken off. -/
def splitMax : Nat → List Char → List (List Char)
  | n, s =>
    match s.dropWhile isSpace, n with
    | [], _ => []
    | t, 0 => [t]
    | t, n + 1 => t.takeWhile (fun c => !isSpace c) :: splitMax n (t.dropWhile fun c => !isSpace c)

/-- `s.rsplit(sep, 1)[0]`: what comes before the last `sep`, or all of `s`. -/
def beforeLast (sep : Char) (s : List Char) : List Char :=
  if sep ∈ s then ((s.reverse.dropWhile (· ≠ sep)).drop 1).reverse else s

/-- The part of `sub in s`: `sub` begins somewhere in `s`. -/
def contains (sub s : List Char) : Bool := s.tails.any fun t => sub.isPrefixOf t

example : split (strip " 12  34\n".toList) = ["12".toList, "34".toList] := by decide

example : splitMax 2 " 12  bob  sshd: bob@notty ".toList =
    ["12".toList, "bob".toList, "sshd: bob@notty ".toList] := by decide

theorem contains_iff {sub s : List Char} : contains sub s = true ↔ sub <:+: s := by
  rw [contains, List.any_eq_true]
  constructor
  · rintro ⟨t, ht, hp⟩
    exact (List.isPrefixOf_iff_prefix.mp hp).isInfix.trans ((List.mem_tails t s).mp ht).isInfix
  · rintro ⟨a, b, rfl⟩
    refine ⟨sub ++ b, (List.mem_tails _ _).mpr ⟨a, by simp⟩, ?_⟩
    exact List.isPrefixOf_iff_prefix.mpr (List.prefix_append _ _)

theorem beforeLast_append {sep : Char} {s t : List Char} (h : sep ∉ t) :
    beforeLast sep (s ++ sep :: t) = s := by
  have hlast : ∀ c ∈ t.reverse, decide (c ≠ sep) = true := by
    intro c hc
    have hne : c ≠ sep := by
      rintro rfl
      exact h (List.mem_reverse.mp hc)
    exact decide_eq_true hne
  rw [beforeLast, if_pos (by simp), List.reverse_append, List.reverse_cons, List.append_assoc,
    List.dropWhile_append_of_pos hlast, List.singleton_append, List.dropWhile_cons_of_neg (by simp),
    List.drop_one, List.tail_cons, List.reverse_reverse]

theorem isDigitChar_of_isdigit {s : List Char} (h : isdigit s = true) {c : Char} (hc : c ∈ s) :
    isDigitChar c = true := by
  simp only [isdigit, Bool.and_eq_true, List.all_eq_true] at h
  exact h.2 c hc

/-- A text without the separator is one part. -/
theorem splitOn_of_not_mem {sep : Char} {s : List Char} (h : sep ∉ s) : splitOn sep s = [s] := by
  induction s with
  | nil => rfl
  | cons c cs ih =>
    have hc : c ≠ sep := by
      rintro rfl
      simp at h
    simp [splitOn, hc, ih fun hm => h (List.mem_cons_of_mem _ hm)]

/-! The words that `split` gives. -/

theorem split_eq (s : List Char) : split s = Words.words isSpace s := by
  have hfrom : ∀ w, splitFrom w s = Words.wordsFrom isSpace w s := by
    induction s with
    | nil => exact fun _ => rfl
    | cons c s ih =>
      intro w
      simp only [splitFrom, Words.wordsFrom, ih]
  exact hfrom []

theorem split_strip (s : List Char) : split (strip s) = split s := by
  rw [split_eq, split_eq]
  exact Words.words_trim s

theorem strip_word {w : List Char} (h : ∀ c ∈ w, isSpace c = false) : strip w = w := by
  by_cases hw : w = []
  · subst hw
    rfl
  · have htrim := Words.trim_append hw (fun c hc => h c (List.mem_of_mem_head? hc))
      (fun c hc => h c (List.mem_of_mem_getLast? hc)) (w := []) fun c hc => absurd hc List.not_mem_nil
    rwa [List.append_nil] at htrim

/-! Lines. -/

section Lines

variable {l s : List Char} {ls : List (List Char)}

theorem isSpace_of_isLineBreak {c : Char} (h : isLineBreak c = true) : isSpace c = true := by
  simp only [isLineBreak, decide_eq_true_eq, List.mem_cons, List.not_mem_nil, or_false] at h
  simp only [isSpace, decide_eq_true_eq, List.mem_cons, List.not_mem_nil, or_false]
  omega

theorem splitlines_cons {c : Char} (h : isLineBreak c = false) :
    splitlines (c :: s) = match splitlines s with
      | [] => [[c]]
      | l :: ls => (c :: l) :: ls := by
  rw [splitlines]
  · rw [if_neg (by simp [h])]
  · rintro cs rfl
    cases h

/-- A line that is ended. -/
theorem splitlines_line (h : ∀ c ∈ l, isLineBreak c = false) :
    splitlines (l ++ '\n' :: s) = l :: splitlines s := by
  induction l with
  | nil => rfl
  | cons c l ih =>
    rw [List.cons_append, splitlines_cons (h c (List.mem_cons_self ..)),
      ih fun d hd => h d (List.mem_cons_of_mem _ hd)]

/-- The last line need not be. -/
theorem splitlines_last (h : ∀ c ∈ l, isLineBreak c = false) (hl : l ≠ []) : splitlines l = [l] := by
  induction l with
  | nil => exact (hl rfl).elim
  | cons c l ih =>
    rw [splitlines_cons (h c (List.mem_cons_self ..))]
    by_cases hnil : l = []
    · subst hnil
      rfl
    · rw [ih (fun d hd => h d (List.mem_cons_of_mem _ hd)) hnil]

/-- Words, one on each line, are read back. -/
theorem splitlines_words (h : ∀ w ∈ ls, w ≠ [] ∧ ∀ c ∈ w, isSpace c = false) :
    splitlines (strip (ls.flatMap (· ++ ['\n']))) = ls := by
  have hbreak : ∀ w ∈ ls, ∀ c ∈ w, isLineBreak c = false := by
    intro w hw c hc
    cases hb : isLineBreak c with
    | false => rfl
    | true =>
      have hspace := (h w hw).2 c hc
      rw [isSpace_of_isLineBreak hb] at hspace
      cases hspace
  rcases List.eq_nil_or_concat' ls with rfl | ⟨init, last, rfl⟩
  · rfl
  · have hlast := h last (by simp)
    have htext : (init ++ [last]).flatMap (· ++ ['\n']) =
        (init.flatMap (· ++ ['\n']) ++ last) ++ ['\n'] := by simp
    have hne : init.flatMap (· ++ ['\n']) ++ last ≠ [] := by simp [hlast.1]
    have hstrip : strip ((init.flatMap (· ++ ['\n']) ++ last) ++ ['\n']) =
        init.flatMap (· ++ ['\n']) ++ last := by
      refine Words.trim_append hne ?_ ?_ ?_
      · intro c hc
        cases init with
        | nil => exact hlast.2 c (List.mem_of_mem_head? hc)
        | cons w ws =>
          obtain ⟨hw, hchars⟩ := h w (by simp)
          cases w with
          | nil => exact (hw rfl).elim
          | cons d w =>
            simp only [List.flatMap_cons, List.cons_append, List.head?_cons, Option.mem_def,
              Option.some.injEq] at hc
            exact hc ▸ hchars d (List.mem_cons_self ..)
      · intro c hc
        rw [List.getLast?_append_of_ne_nil _ hlast.1] at hc
        exact hlast.2 c (List.mem_of_mem_getLast? hc)
      · intro c hc
        obtain rfl := List.mem_singleton.mp hc
        rfl
    rw [htext, hstrip]
    clear htext hne hstrip
    induction init with
    | nil => exact splitlines_last (hbreak last (by simp)) hlast.1
    | cons w ws ih =>
      have hws := ih (fun v hv => h v (by simp at hv ⊢; tauto)) fun v hv => hbreak v (by simp at hv ⊢; tauto)
      rw [List.flatMap_cons, List.append_assoc, List.append_assoc, List.singleton_append,
        splitlines_line (hbreak w (by simp)), hws]
      rfl

end Lines

end PyString

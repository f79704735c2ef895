import SshPanelVpn.Library.Posix

/-! Tokens of a text that has expansions and here-documents. How far one of them goes is a matter of
the rest of the shell's grammar, and a parameter here. -/
namespace Posix

/-- How many characters belong to the expansion that a text begins with, none where its first
character stands for itself, and how many after a newline to the here-documents of the tokens. -/
structure Units where
  expansion : List Char → Nat
  hereDocuments : List (Token Piece) → List Char → Nat

/-- A lexer, and how much is still to come of an expansion or of here-documents. -/
structure Scanner where
  lexer : Lexer
  expansion : Nat
  hereDocuments : Nat
  deriving DecidableEq, Repr

/-- An expansion may begin here. -/
def Mode.expands : Mode → Bool
  | .blank => true
  | .word _ _ .none => true
  | .word _ _ .double => true
  | _ => false

/-- A newline here ends the line, and is not part of a word. -/
def Mode.endsLine : Mode → Bool
  | .blank => true
  | .comment => true
  | .word _ _ .none => true
  | _ => false

namespace Lexer

/-- An operator that the character does not continue is finished, with a here-document too. -/
def settle (s : Lexer) (c : Char) : Lexer :=
  match s.mode with
  | .oper cs => if cs ++ [c] ∈ longOperators then s else ⟨s.tokens ++ [Token.op cs], .blank⟩
  | _ => s

/-- A piece of the current word, or of a new one. -/
def push (s : Lexer) (p : Piece) : Lexer :=
  match s.mode with
  | .blank => ⟨s.tokens, .word [p] false .none⟩
  | .word ps quoted q => ⟨s.tokens, .word (ps ++ [p]) quoted q⟩
  | _ => s

end Lexer

namespace Units

/-- One character, with the text after it. The characters of an expansion stay active. -/
def step (u : Units) (s : Scanner) (c : Char) (rest : List Char) : Except LexError Scanner :=
  match s.expansion, s.hereDocuments with
  | n + 1, k => .ok ⟨s.lexer.push (.glob c), n, k⟩
  | 0, k + 1 => .ok ⟨s.lexer, 0, k⟩
  | 0, 0 =>
    let t := s.lexer.settle c
    if t.mode.expands = true ∧ (c = '$' ∨ c = backquote) then
      match u.expansion (c :: rest) with
      | 0 => .ok ⟨t.push (.lit c), 0, 0⟩
      | n + 1 => .ok ⟨t.push (.glob c), n, 0⟩
    else
      match Posix.step t c with
      | .error e => .error e
      | .ok v =>
        .ok ⟨v, 0, if c = '\n' ∧ t.mode.endsLine = true then u.hereDocuments v.tokens rest else 0⟩

/-- What has been read of a text when `rest` is still to come. -/
def lex (u : Units) (rest : List Char) : Scanner → List Char → Except LexError Scanner
  | s, [] => .ok s
  | s, c :: cs =>
    match u.step s c (cs ++ rest) with
    | .error e => .error e
    | .ok t => u.lex rest t cs

def tokenise (u : Units) (cs : List Char) : Except LexError (List (Token Piece)) :=
  match u.lex [] ⟨⟨[], .blank⟩, 0, 0⟩ cs with
  | .error e => .error e
  | .ok t => finish t.lexer

variable {u : Units} {s : Lexer} {t v : Scanner} {ts : List (Token Piece)} {ps : List Piece}
  {quoted : Bool} {c : Char} {as bs cs rest : List Char}

@[simp] theorem lex_nil (t : Scanner) : u.lex rest t [] = .ok t := rfl

theorem lex_cons_ok (h : u.step t c (cs ++ rest) = .ok v) : u.lex rest t (c :: cs) = u.lex rest v cs := by
  simp [lex, h]

theorem lex_append (u : Units) (rest : List Char) (t : Scanner) (as bs : List Char) :
    u.lex rest t (as ++ bs) =
      match u.lex (bs ++ rest) t as with
      | .error e => .error e
      | .ok v => u.lex rest v bs := by
  induction as generalizing t with
  | nil => rfl
  | cons a as ih =>
    cases h : u.step t a (as ++ (bs ++ rest)) with
    | error e => simp [lex, h]
    | ok v => simp [lex, h, ih]

theorem lex_append_ok (h : u.lex (bs ++ rest) t as = .ok v) :
    u.lex rest t (as ++ bs) = u.lex rest v bs := by
  rw [lex_append, h]

/-! Where no expansion begins and no line ends, the scanner does what the lexer does. -/

theorem settle_of_step {w : Lexer} (h : Posix.step s c = .ok w) : Posix.step (s.settle c) c = .ok w := by
  rcases s with ⟨ts, mode⟩
  cases mode with
  | oper cs =>
    by_cases hlong : cs ++ [c] ∈ longOperators
    · simpa [Lexer.settle, hlong] using h
    · simp only [Lexer.settle, hlong, if_false]
      simp only [Posix.step, hlong, if_false, endOper] at h
      split at h
      · cases h
      · next ts' hts =>
        split at hts
        · cases hts
        · cases hts
          exact h
  | _ => exact h

/-- An expansion is an error of the lexer. -/
theorem not_expands_of_step {w : Lexer} (h : Posix.step s c = .ok w) :
    ¬ (s.mode.expands = true ∧ (c = '$' ∨ c = backquote)) := by
  rintro ⟨hmode, hc⟩
  rcases s with ⟨ts, mode⟩
  rcases hc with rfl | rfl <;> cases mode with
  | word ps quoted q => cases q <;> cases hmode <;> cases h
  | blank => cases h
  | _ => cases hmode

theorem step_of_step {w : Lexer} (h : Posix.step (s.settle c) c = .ok w)
    (hc : c ≠ '\n' ∨ (s.settle c).mode.endsLine = false) :
    u.step ⟨s, 0, 0⟩ c rest = .ok ⟨w, 0, 0⟩ := by
  have hline : ¬ (c = '\n' ∧ (s.settle c).mode.endsLine = true) := by
    rintro ⟨rfl, hends⟩
    rcases hc with hc | hc
    · exact hc rfl
    · rw [hc] at hends
      cases hends
  simp only [step, if_neg (not_expands_of_step h), h, if_neg hline]

/-- A text in which the lexer finds no error, where no here-document is waiting. -/
theorem lex_of_lex {w : Lexer} (hu : ∀ ts cs, u.hereDocuments ts cs = 0) (h : Posix.lex s cs = .ok w) :
    u.lex rest ⟨s, 0, 0⟩ cs = .ok ⟨w, 0, 0⟩ := by
  induction cs generalizing s with
  | nil =>
    cases h
    rfl
  | cons c cs ih =>
    cases hs : Posix.step s c with
    | error e => simp [Posix.lex, hs] at h
    | ok v =>
      have hsettled := settle_of_step hs
      have hstep : u.step ⟨s, 0, 0⟩ c (cs ++ rest) = .ok ⟨v, 0, 0⟩ := by
        simp only [step, if_neg (not_expands_of_step hsettled), hsettled, hu, ite_self]
      rw [lex_cons_ok hstep]
      exact ih (by simpa [Posix.lex, hs] using h)

/-! Single quotes. -/

/-- In a word after quotes, outside quotes. -/
def inWord (ts : List (Token Piece)) (ps : List Piece) : Scanner := ⟨⟨ts, .word ps true .none⟩, 0, 0⟩

/-- The inside of a quoted string and its closing quote, whatever follows. -/
theorem lex_singleQuote_rest (h : '\x00' ∉ cs) :
    u.lex rest ⟨⟨ts, .word ps true .single⟩, 0, 0⟩
      (cs.flatMap (fun c => if c = '\'' then ['\'', '\\', '\'', '\''] else [c]) ++ ['\'']) =
      .ok (inWord ts (ps ++ cs.map .lit)) := by
  induction cs generalizing ps with
  | nil =>
    rw [List.map_nil, List.append_nil]
    exact lex_cons_ok (step_of_step rfl (.inr rfl))
  | cons c cs ih =>
    have hcs : '\x00' ∉ cs := fun hm => h (List.mem_cons_of_mem _ hm)
    have hz : c ≠ '\x00' := by
      rintro rfl
      simp at h
    by_cases hc : c = '\''
    · subst hc
      have hq : ∀ rest, u.lex rest ⟨⟨ts, .word ps true .single⟩, 0, 0⟩ ['\'', '\\', '\'', '\''] =
          .ok ⟨⟨ts, .word (ps ++ [Piece.lit '\'']) true .single⟩, 0, 0⟩ := by
        intro rest
        rw [lex_cons_ok (step_of_step (w := ⟨ts, .word ps true .none⟩) rfl (.inr rfl)),
          lex_cons_ok (step_of_step (w := ⟨ts, .word ps true .escape⟩) rfl (.inl (by decide))),
          lex_cons_ok (step_of_step (w := ⟨ts, .word (ps ++ [Piece.lit '\'']) true .none⟩) rfl
            (.inr rfl)),
          lex_cons_ok (step_of_step rfl (.inl (by decide)))]
        rfl
      rw [List.flatMap_cons, if_pos rfl, List.append_assoc, lex_append_ok (hq _), ih hcs]
      simp
    · have hs : Posix.step ⟨ts, .word ps true .single⟩ c =
          .ok ⟨ts, .word (ps ++ [Piece.lit c]) true .single⟩ := by
        simp [Posix.step, stepWord, hc, hz]
      rw [List.flatMap_cons, if_neg hc, List.append_assoc, List.singleton_append,
        lex_cons_ok (step_of_step (s := ⟨ts, .word ps true .single⟩) hs (.inr rfl)), ih hcs]
      simp

/-- Outside quotes: the tokens before the current word, and what the word has so far. -/
def outside (t : Scanner) : Option (List (Token Piece) × List Piece) :=
  if t.expansion = 0 ∧ t.hereDocuments = 0 then
    match t.lexer.mode with
    | .blank => some (t.lexer.tokens, [])
    | .oper cs => some (t.lexer.tokens ++ [Token.op cs], [])
    | .word ps _ .none => some (t.lexer.tokens, ps)
    | _ => none
  else none

@[simp] theorem outside_inWord (ts : List (Token Piece)) (ps : List Piece) :
    outside (inWord ts ps) = some (ts, ps) := rfl

/-- The opening quote goes on with the current word. -/
theorem step_quote (h : outside t = some (ts, ps)) :
    u.step t '\'' rest = .ok ⟨⟨ts, .word ps true .single⟩, 0, 0⟩ := by
  rcases t with ⟨⟨us, mode⟩, n, k⟩
  unfold outside at h
  split at h
  · next hfree =>
    obtain ⟨rfl, rfl⟩ : n = 0 ∧ k = 0 := hfree
    apply step_of_step _ (.inl (by decide))
    cases mode with
    | blank =>
      cases h
      rfl
    | oper cs =>
      cases h
      have hlong : cs ++ ['\''] ∉ longOperators := by
        intro hmem
        have hlast : ∀ os ∈ longOperators, os.getLast? ≠ some '\'' := by decide
        exact hlast _ hmem (by simp)
      simp only [Lexer.settle, hlong, if_false]
      rfl
    | word qs quoted q =>
      cases q <;> cases h
      rfl
    | comment => cases h
  · cases h

/-- Wherever the text before it ends outside quotes, a quoted string adds its characters to the
current word, and nothing else. -/
theorem lex_singleQuote (h : '\x00' ∉ cs) (hout : outside t = some (ts, ps)) :
    u.lex rest t (singleQuote cs) = .ok (inWord ts (ps ++ cs.map .lit)) := by
  rw [singleQuote, List.cons_append, lex_cons_ok (step_quote hout), lex_singleQuote_rest h]

/-- Any other character without a meaning of its own does so too. -/
theorem lex_plain (hc : Plain c) :
    u.lex rest (inWord ts ps) [c] = .ok (inWord ts (ps ++ [Piece.lit c])) := by
  have hline : c ≠ '\n' := by
    rintro rfl
    exact absurd hc (by decide)
  exact lex_cons_ok (step_of_step (hc.step (.inr rfl)) (.inl hline))

/-- A character that ends words leaves a finished word, and none of its characters is lost. -/
theorem step_inWord (hc : endsWord c = true) :
    ∃ v, u.step (inWord ts ps) c rest = .ok v ∧ (ts ++ [Token.word ps]) <+: v.lexer.tokens := by
  have hblank : ∃ w, stepBlank (ts ++ [Token.word ps]) c = .ok w ∧
      (ts ++ [Token.word ps]) <+: w.tokens := by
    simp only [endsWord, Bool.or_eq_true, beq_iff_eq] at hc
    obtain (hb | rfl) | ho := hc
    · exact ⟨_, if_pos hb, List.prefix_rfl⟩
    · exact ⟨_, rfl, List.prefix_append _ _⟩
    · have hne : isBlank c = false ∧ c ≠ '\n' ∧ c ≠ '#' := by
        simp only [isOperStart, List.mem_cons, List.not_mem_nil, or_false, decide_eq_true_eq] at ho
        rcases ho with rfl | rfl | rfl | rfl | rfl | rfl | rfl <;> decide
      refine ⟨⟨ts ++ [Token.word ps], .oper [c]⟩, ?_, List.prefix_rfl⟩
      simp [stepBlank, hne, ho]
  obtain ⟨w, hw, htokens⟩ := hblank
  have hz : c ≠ '\x00' := by
    rintro rfl
    exact absurd hc (by decide)
  have hs : Posix.step (Lexer.settle ⟨ts, .word ps true .none⟩ c) c = .ok w := by
    change stepWord ts ps true .none c = .ok w
    rw [stepWord, if_neg hz]
    simp only [hc, if_true, wordToken, Bool.true_eq_false, false_and, if_false]
    exact hw
  obtain ⟨k, hk⟩ : ∃ k, u.step (inWord ts ps) c rest = .ok ⟨w, 0, k⟩ := by
    simp only [step, inWord, if_neg (not_expands_of_step hs), hs]
    exact ⟨_, rfl⟩
  exact ⟨_, hk, htokens⟩

end Units

end Posix

import Mathlib.Data.List.Basic

/-! Token recognition of the POSIX shell: how a command line falls into words and operators. -/
namespace Posix

/-- Input outside the part of the grammar that is tokenised here. -/
inductive LexError where
  | unterminatedQuote
  | expansion
  | hereDocument
  | nul
  deriving DecidableEq, Repr

/-- A character of a word after quote removal: literal, or still active for pathname or tilde
expansion. -/
inductive Piece where
  | lit (c : Char)
  | glob (c : Char)
  | tilde
  deriving DecidableEq, Repr

/-- A token whose words are made of `π`. -/
inductive Token (π : Type) where
  | word (ps : List π)
  | ioNumber (digits : List Char)
  | op (cs : List Char)
  | newline
  deriving DecidableEq, Repr

/-- The quoting in force inside a word. -/
inductive Quote where
  | none
  | escape
  | single
  | double
  | doubleEscape
  deriving DecidableEq, Repr

/-- `word` keeps the pieces read so far and whether any of the word has been quoted. -/
inductive Mode where
  | blank
  | comment
  | oper (cs : List Char)
  | word (ps : List Piece) (quoted : Bool) (q : Quote)
  deriving DecidableEq, Repr

structure Lexer where
  tokens : List (Token Piece)
  mode : Mode
  deriving DecidableEq, Repr

def backquote : Char := Char.ofNat 96

def isBlank (c : Char) : Bool := c == ' ' || c == '\t'

def isOperStart (c : Char) : Bool := c ∈ ['|', '&', ';', '<', '>', '(', ')']

scoped instance lawfulBEqChars : LawfulBEq (List Char) := inferInstance

/-- The operators of more than one character. -/
def longOperators : List (List Char) :=
  [['&', '&'], ['|', '|'], [';', ';'], ['<', '<'], ['>', '>'], ['<', '&'], ['>', '&'], ['<', '>'],
    ['>', '|'], ['<', '<', '-']]

/-- The character ends an unquoted word. -/
def endsWord (c : Char) : Bool := isBlank c || c == '\n' || isOperStart c

/-- The digits that a word consists of, if it is nothing but unquoted digits. -/
def digitsOf (ps : List Piece) : Option (List Char) :=
  ps.mapM fun
    | .lit c => if c.isDigit then some c else none
    | _ => none

/-- The token that a finished word becomes: a number right before a redirection is part of it. -/
def wordToken (ps : List Piece) (quoted : Bool) (next : Option Char) : Token Piece :=
  if quoted = false ∧ (next = some '<' ∨ next = some '>') then
    match digitsOf ps with
    | some digits => .ioNumber digits
    | none => .word ps
  else
    .word ps

/-- An unquoted character that does not end the word. -/
def stepUnquoted (ts : List (Token Piece)) (ps : List Piece) (quoted : Bool) (c : Char) :
    Except LexError Lexer :=
  if c = '\x00' then .error .nul
  else if c = '\\' then .ok ⟨ts, .word ps quoted .escape⟩
  else if c = '\'' then .ok ⟨ts, .word ps true .single⟩
  else if c = '"' then .ok ⟨ts, .word ps true .double⟩
  else if c = '$' ∨ c = backquote then .error .expansion
  else if c = '*' ∨ c = '?' ∨ c = '[' then .ok ⟨ts, .word (ps ++ [Piece.glob c]) quoted .none⟩
  else if c = '~' ∧ ps = [] ∧ quoted = false then .ok ⟨ts, .word [.tilde] quoted .none⟩
  else .ok ⟨ts, .word (ps ++ [Piece.lit c]) quoted .none⟩

/-- A character between tokens. -/
def stepBlank (ts : List (Token Piece)) (c : Char) : Except LexError Lexer :=
  if isBlank c then .ok ⟨ts, .blank⟩
  else if c = '\n' then .ok ⟨ts ++ [.newline], .blank⟩
  else if c = '#' then .ok ⟨ts, .comment⟩
  else if isOperStart c then .ok ⟨ts, .oper [c]⟩
  else stepUnquoted ts [] false c

def stepWord (ts : List (Token Piece)) (ps : List Piece) (quoted : Bool) (q : Quote) (c : Char) :
    Except LexError Lexer :=
  if c = '\x00' then .error .nul
  else
    match q with
    | .none =>
      if endsWord c then stepBlank (ts ++ [wordToken ps quoted (some c)]) c
      else stepUnquoted ts ps quoted c
    | .escape =>
      -- a backslash before a newline continues the line and leaves no trace
      if c = '\n' then
        if ps = [] ∧ quoted = false then .ok ⟨ts, .blank⟩ else .ok ⟨ts, .word ps quoted .none⟩
      else .ok ⟨ts, .word (ps ++ [Piece.lit c]) true .none⟩
    | .single =>
      if c = '\'' then .ok ⟨ts, .word ps quoted .none⟩
      else .ok ⟨ts, .word (ps ++ [Piece.lit c]) quoted .single⟩
    | .double =>
      if c = '"' then .ok ⟨ts, .word ps quoted .none⟩
      else if c = '$' ∨ c = backquote then .error .expansion
      else if c = '\\' then .ok ⟨ts, .word ps quoted .doubleEscape⟩
      else .ok ⟨ts, .word (ps ++ [Piece.lit c]) quoted .double⟩
    | .doubleEscape =>
      if c = '\n' then .ok ⟨ts, .word ps quoted .double⟩
      else if c = '$' ∨ c = backquote ∨ c = '"' ∨ c = '\\' then
        .ok ⟨ts, .word (ps ++ [Piece.lit c]) quoted .double⟩
      else .ok ⟨ts, .word (ps ++ [Piece.lit '\\', Piece.lit c]) quoted .double⟩

/-- The tokens with a finished operator; here-documents are left out. -/
def endOper (ts : List (Token Piece)) (cs : List Char) : Except LexError (List (Token Piece)) :=
  if cs = ['<', '<'] ∨ cs = ['<', '<', '-'] then .error .hereDocument else .ok (ts ++ [Token.op cs])

def step (s : Lexer) (c : Char) : Except LexError Lexer :=
  match s.mode with
  | .blank => stepBlank s.tokens c
  | .comment => if c = '\n' then .ok ⟨s.tokens ++ [.newline], .blank⟩ else .ok s
  | .oper cs =>
    if cs ++ [c] ∈ longOperators then .ok ⟨s.tokens, .oper (cs ++ [c])⟩
    else
      match endOper s.tokens cs with
      | .error e => .error e
      | .ok ts => stepBlank ts c
  | .word ps quoted q => stepWord s.tokens ps quoted q c

def lex : Lexer → List Char → Except LexError Lexer
  | s, [] => .ok s
  | s, c :: cs =>
    match step s c with
    | .error e => .error e
    | .ok t => lex t cs

/-- The end of the input. A last backslash stands for itself. -/
def finish (s : Lexer) : Except LexError (List (Token Piece)) :=
  match s.mode with
  | .blank => .ok s.tokens
  | .comment => .ok s.tokens
  | .oper cs => endOper s.tokens cs
  | .word ps quoted .none => .ok (s.tokens ++ [wordToken ps quoted none])
  | .word ps _ .escape => .ok (s.tokens ++ [Token.word (ps ++ [Piece.lit '\\'])])
  | .word _ _ .single => .error .unterminatedQuote
  | .word _ _ .double => .error .unterminatedQuote
  | .word _ _ .doubleEscape => .error .unterminatedQuote

/-- Tokens of a text that follows what the lexer has read. -/
def tokensFrom (s : Lexer) (cs : List Char) : Except LexError (List (Token Piece)) :=
  match lex s cs with
  | .error e => .error e
  | .ok t => finish t

def tokenise (cs : List Char) : Except LexError (List (Token Piece)) := tokensFrom ⟨[], .blank⟩ cs

variable {s t : Lexer} {ts : List (Token Piece)} {ps : List Piece} {quoted : Bool} {q : Quote} {c : Char}
  {as bs cs : List Char}

@[simp] theorem lex_nil (s : Lexer) : lex s [] = .ok s := rfl

theorem lex_cons_ok (h : step s c = .ok t) (cs : List Char) : lex s (c :: cs) = lex t cs := by
  simp [lex, h]

theorem lex_append (s : Lexer) (as bs : List Char) : lex s (as ++ bs) =
    match lex s as with
    | .error e => .error e
    | .ok t => lex t bs := by
  induction as generalizing s with
  | nil => rfl
  | cons a as ih =>
    cases h : step s a with
    | error e => simp [lex, h]
    | ok t => simp [lex, h, ih]

/-- A part of the text whose effect is known. -/
theorem tokensFrom_append (h : lex s as = .ok t) (bs : List Char) :
    tokensFrom s (as ++ bs) = tokensFrom t bs := by
  simp [tokensFrom, lex_append, h]

/-! Tokens already read do not matter for what follows. -/

/-- The lexer with tokens before those it has read. -/
def Lexer.after (s : Lexer) (ts : List (Token Piece)) : Lexer := { s with tokens := ts ++ s.tokens }

theorem stepUnquoted_after (ts us : List (Token Piece)) (ps : List Piece) (quoted : Bool) (c : Char) :
    stepUnquoted (us ++ ts) ps quoted c = (stepUnquoted ts ps quoted c).map (·.after us) := by
  unfold stepUnquoted
  repeat' split
  all_goals rfl

theorem stepBlank_after (ts us : List (Token Piece)) (c : Char) :
    stepBlank (us ++ ts) c = (stepBlank ts c).map (·.after us) := by
  unfold stepBlank
  rw [stepUnquoted_after]
  repeat' split
  all_goals simp [Except.map, Lexer.after]

theorem step_after (s : Lexer) (us : List (Token Piece)) (c : Char) :
    step (s.after us) c = (step s c).map (·.after us) := by
  obtain ⟨ts, mode⟩ := s
  cases mode with
  | blank => exact stepBlank_after ts us c
  | comment =>
    by_cases hc : c = '\n'
    · simp [step, Lexer.after, hc, Except.map]
    · simp [step, Lexer.after, hc, Except.map]
  | oper cs =>
    by_cases hlong : cs ++ [c] ∈ longOperators
    · simp [step, Lexer.after, hlong, Except.map]
    · by_cases hdoc : cs = ['<', '<'] ∨ cs = ['<', '<', '-']
      · simp [step, Lexer.after, hlong, endOper, hdoc, Except.map]
      · simpa [step, Lexer.after, hlong, endOper, hdoc] using stepBlank_after (ts ++ [Token.op cs]) us c
  | word ps quoted q =>
    change stepWord (us ++ ts) ps quoted q c = (stepWord ts ps quoted q c).map (·.after us)
    simp only [stepWord]
    by_cases hz : c = '\x00'
    · simp [hz, Except.map]
    · simp only [hz, if_false]
      cases q with
      | none =>
        by_cases hend : endsWord c = true
        · simpa [hend] using stepBlank_after (ts ++ [wordToken ps quoted (some c)]) us c
        · simpa [hend] using stepUnquoted_after ts us ps quoted c
      | _ =>
        dsimp only
        repeat' split
        all_goals rfl

theorem lex_after (s : Lexer) (us : List (Token Piece)) (cs : List Char) :
    lex (s.after us) cs = (lex s cs).map (·.after us) := by
  induction cs generalizing s with
  | nil => rfl
  | cons c cs ih =>
    rw [lex, lex, step_after]
    cases step s c with
    | error e => rfl
    | ok t => exact ih t

theorem finish_after (s : Lexer) (us : List (Token Piece)) :
    finish (s.after us) = (finish s).map (us ++ ·) := by
  obtain ⟨ts, mode⟩ := s
  cases mode with
  | oper cs =>
    by_cases hdoc : cs = ['<', '<'] ∨ cs = ['<', '<', '-']
    · simp [finish, Lexer.after, endOper, hdoc, Except.map]
    · simp [finish, Lexer.after, endOper, hdoc, Except.map]
  | word ps quoted q => cases q <;> simp [finish, Lexer.after, Except.map]
  | _ => rfl

/-- A space ends the word. -/
theorem step_space (ts : List (Token Piece)) (ps : List Piece) (quoted : Bool) :
    step ⟨ts, .word ps quoted .none⟩ ' ' = .ok (Lexer.after ⟨[], .blank⟩ (ts ++ [Token.word ps])) := by
  simp [step, stepWord, endsWord, isBlank, stepBlank, wordToken, Lexer.after]

theorem lex_space {us : List (Token Piece)} {mode : Mode} (h : lex ⟨[], .blank⟩ cs = .ok ⟨us, mode⟩) :
    lex ⟨ts, .word ps quoted .none⟩ (' ' :: cs) = .ok ⟨ts ++ Token.word ps :: us, mode⟩ := by
  rw [lex_cons_ok (step_space ts ps quoted), lex_after, h]
  simp [Except.map, Lexer.after]

theorem tokensFrom_space {us : List (Token Piece)} (h : tokenise cs = .ok us) :
    tokensFrom ⟨ts, .word ps quoted .none⟩ (' ' :: cs) = .ok (ts ++ Token.word ps :: us) := by
  unfold tokenise tokensFrom at h
  rw [tokensFrom, lex_cons_ok (step_space ts ps quoted), lex_after]
  cases hl : lex ⟨[], .blank⟩ cs with
  | error e => simp [hl] at h
  | ok t =>
    simp only [hl] at h
    simp [Except.map, finish_after, h]

/-! Characters that are literal inside an unquoted word. -/

/-- The character is literal wherever it stands in an unquoted word after its beginning. -/
def Plain (c : Char) : Prop :=
  c ∉ [' ', '\t', '\n', '|', '&', ';', '<', '>', '(', ')', '$', backquote, '\\', '"', '\'', '*', '?', '[',
    '\x00']

instance : DecidablePred Plain := fun c => inferInstanceAs (Decidable (c ∉ _))

/-- A class without the special characters. -/
theorem plain_of_class {p : Char → Bool}
    (hp : [' ', '\t', '\n', '|', '&', ';', '<', '>', '(', ')', '$', backquote, '\\', '"', '\'', '*', '?',
      '[', '\x00'].all (fun c => !p c) = true) (h : p c = true) : Plain c := by
  intro hc
  have hn := List.all_eq_true.mp hp c hc
  simp [h] at hn

/-- A plain character begins a word, unless it begins a comment or a home directory. -/
theorem Plain.start (h : Plain c) (hc : c ≠ '#') (ht : c ≠ '~') :
    Posix.step ⟨ts, .blank⟩ c = .ok ⟨ts, .word [.lit c] false .none⟩ := by
  simp only [Plain, List.mem_cons, List.not_mem_nil, or_false, not_or] at h
  simp [Posix.step, stepBlank, stepUnquoted, isBlank, isOperStart, hc, ht, h]

theorem Plain.step (h : Plain c) (hp : ps ≠ [] ∨ quoted = true) :
    step ⟨ts, .word ps quoted .none⟩ c = .ok ⟨ts, .word (ps ++ [Piece.lit c]) quoted .none⟩ := by
  simp only [Plain, List.mem_cons, List.not_mem_nil, or_false, not_or] at h
  have hend : endsWord c = false := by simp_all [endsWord, isBlank, isOperStart]
  have htilde : ¬ (c = '~' ∧ ps = [] ∧ quoted = false) := by
    rintro ⟨-, h1, h2⟩
    rcases hp with hp | hp
    · exact hp h1
    · simp [hp] at h2
  simp [Posix.step, stepWord, hend, stepUnquoted, htilde, h]

theorem lex_plain (h : ∀ c ∈ cs, Plain c) (hp : ps ≠ [] ∨ quoted = true) :
    lex ⟨ts, .word ps quoted .none⟩ cs = .ok ⟨ts, .word (ps ++ cs.map .lit) quoted .none⟩ := by
  induction cs generalizing ps with
  | nil => simp
  | cons c cs ih =>
    rw [lex_cons_ok ((h c (by simp)).step hp), ih fun c hc => h c (List.mem_cons_of_mem _ hc)]
    · simp
    · exact Or.inl (by simp)

/-! Single quotes. -/

/-- Everything but a quote and NUL is literal between single quotes. -/
theorem lex_single (h : '\'' ∉ cs) (hn : '\x00' ∉ cs) :
    lex ⟨ts, .word ps quoted .single⟩ cs = .ok ⟨ts, .word (ps ++ cs.map .lit) quoted .single⟩ := by
  induction cs generalizing ps with
  | nil => simp
  | cons c cs ih =>
    have hc : c ≠ '\'' := by
      rintro rfl
      simp at h
    have hz : c ≠ '\x00' := by
      rintro rfl
      simp at hn
    have hs : step ⟨ts, .word ps quoted .single⟩ c =
        .ok ⟨ts, .word (ps ++ [Piece.lit c]) quoted .single⟩ := by
      simp [step, stepWord, hc, hz]
    rw [lex_cons_ok hs, ih (fun hm => h (List.mem_cons_of_mem _ hm))
      fun hm => hn (List.mem_cons_of_mem _ hm)]
    simp

/-- `'` + s.replace("'", "'\\''") + `'`. -/
def singleQuote (s : List Char) : List Char :=
  '\'' :: s.flatMap (fun c => if c = '\'' then ['\'', '\\', '\'', '\''] else [c]) ++ ['\'']

/-- The inside of a quoted string and its closing quote. -/
theorem lex_singleQuote_rest (h : '\x00' ∉ cs) :
    lex ⟨ts, .word ps true .single⟩
      (cs.flatMap (fun c => if c = '\'' then ['\'', '\\', '\'', '\''] else [c]) ++ ['\'']) =
      .ok ⟨ts, .word (ps ++ cs.map .lit) true .none⟩ := by
  induction cs generalizing ps with
  | nil => simp [lex, step, stepWord]
  | cons c cs ih =>
    have hcs : '\x00' ∉ cs := fun hm => h (List.mem_cons_of_mem _ hm)
    have hz : c ≠ '\x00' := by
      rintro rfl
      simp at h
    by_cases hc : c = '\''
    · subst hc
      have hq : lex ⟨ts, .word ps true .single⟩ ['\'', '\\', '\'', '\''] =
          .ok ⟨ts, .word (ps ++ [Piece.lit '\'']) true .single⟩ := rfl
      rw [List.flatMap_cons, if_pos rfl, List.append_assoc, lex_append, hq]
      simp only
      rw [ih hcs]
      simp
    · have hs : step ⟨ts, .word ps true .single⟩ c =
          .ok ⟨ts, .word (ps ++ [Piece.lit c]) true .single⟩ := by
        simp [step, stepWord, hc, hz]
      rw [List.flatMap_cons, if_neg hc, List.append_assoc, List.singleton_append, lex_cons_ok hs,
        ih hcs]
      simp

/-- A quoted string is read as its characters, whatever they are, and nothing else. -/
theorem lex_singleQuote (h : '\x00' ∉ cs) :
    lex ⟨ts, .word ps quoted .none⟩ (singleQuote cs) =
      .ok ⟨ts, .word (ps ++ cs.map .lit) true .none⟩ := by
  have hs : step ⟨ts, .word ps quoted .none⟩ '\'' = .ok ⟨ts, .word ps true .single⟩ := rfl
  rw [singleQuote, List.cons_append, lex_cons_ok hs, lex_singleQuote_rest h]

/-- NUL cannot be part of a command, quoted or not. -/
theorem lex_singleQuote_nul (h : '\x00' ∈ cs) :
    lex ⟨ts, .word ps quoted .none⟩ (singleQuote cs) = .error .nul := by
  have hrest : ∀ ps, lex ⟨ts, .word ps true .single⟩
      (cs.flatMap (fun c => if c = '\'' then ['\'', '\\', '\'', '\''] else [c]) ++ ['\'']) =
        .error .nul := by
    induction cs with
    | nil => simp at h
    | cons c cs ih =>
      intro ps
      by_cases hz : c = '\x00'
      · subst hz
        rfl
      · have ih := ih ((List.mem_cons.mp h).resolve_left (Ne.symm hz))
        by_cases hc : c = '\''
        · subst hc
          have hq : lex ⟨ts, .word ps true .single⟩ ['\'', '\\', '\'', '\''] =
              .ok ⟨ts, .word (ps ++ [Piece.lit '\'']) true .single⟩ := rfl
          rw [List.flatMap_cons, if_pos rfl, List.append_assoc, lex_append, hq]
          exact ih _
        · have hs : step ⟨ts, .word ps true .single⟩ c =
              .ok ⟨ts, .word (ps ++ [Piece.lit c]) true .single⟩ := by
            simp [step, stepWord, hc, hz]
          rw [List.flatMap_cons, if_neg hc, List.append_assoc, List.singleton_append,
            lex_cons_ok hs]
          exact ih _
  have hs : step ⟨ts, .word ps quoted .none⟩ '\'' = .ok ⟨ts, .word ps true .single⟩ := rfl
  rw [singleQuote, List.cons_append, lex_cons_ok hs, hrest]

/-- A quoted string after a blank starts a word. -/
theorem lex_blank_singleQuote (h : '\x00' ∉ cs) :
    lex ⟨ts, .blank⟩ (singleQuote cs) = .ok ⟨ts, .word (cs.map .lit) true .none⟩ := by
  have hs : step ⟨ts, .blank⟩ '\'' = .ok ⟨ts, .word [] true .single⟩ := rfl
  rw [singleQuote, List.cons_append, lex_cons_ok hs, lex_singleQuote_rest h]
  rfl

end Posix

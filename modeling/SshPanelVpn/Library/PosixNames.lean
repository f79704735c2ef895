import Mathlib.Tactic.Tauto
import SshPanelVpn.Library.Posix

/-! Command lines with a name in them: what they read as, and which names they read as written. -/
namespace Posix

variable {s t : Lexer} {ts : List (Token Piece)} {ps : List Piece} {quoted : Bool} {q : Quote} {c : Char}
  {as bs cs : List Char}

/-- A place in a word: a fixed piece, or the characters of the name. -/
inductive Slot where
  | piece (p : Piece)
  | hole
  deriving DecidableEq, Repr

def Slot.fill (v : List Char) : Slot → List Piece
  | piece p => [p]
  | hole => v.map .lit

def Token.fill (v : List Char) : Token Slot → Token Piece
  | word ss => .word (ss.flatMap (Slot.fill v))
  | ioNumber digits => .ioNumber digits
  | op cs => .op cs
  | newline => .newline

abbrev Shape := Except LexError (List (Token Slot))

def Shape.fill (v : List Char) (S : Shape) : Except LexError (List (Token Piece)) :=
  S.map fun tokens => tokens.map (Token.fill v)

/-- With every plain name the text has the tokens of the shape. -/
def Fits (text : List Char → List Char) (S : Shape) : Prop :=
  ∀ v, (∀ c ∈ v, Plain c) → tokenise (text v) = S.fill v

/-- The text with `u` has the tokens it has with any plain name, and `u` stands in them only as
literal characters of words. -/
def LiteralUse (text : List Char → List Char) (u : List Char) : Prop :=
  ∃ S, Fits text S ∧ tokenise (text u) = S.fill u

theorem Fits.literalUse {text : List Char → List Char} {S : Shape} {u : List Char}
    (h : Fits text S) (hu : ∀ c ∈ u, Plain c) : LiteralUse text u :=
  ⟨S, h, h u hu⟩

/-- Two names of one character tell fixed pieces and holes apart. -/
theorem slot_eq {s s' : Slot} {x y x' y' : List Piece}
    (ha : s.fill ['a'] ++ x = s'.fill ['a'] ++ x') (hb : s.fill ['b'] ++ y = s'.fill ['b'] ++ y') :
    s = s' ∧ x = x' ∧ y = y' := by
  cases s with
  | piece p =>
    cases s' with
    | piece p' => simp_all [Slot.fill]
    | hole =>
      obtain ⟨rfl, -⟩ : p = .lit 'a' ∧ x = x' := by simpa [Slot.fill] using ha
      simp [Slot.fill] at hb
  | hole =>
    cases s' with
    | piece p' =>
      obtain ⟨rfl, -⟩ : .lit 'a' = p' ∧ x = x' := by simpa [Slot.fill] using ha
      simp [Slot.fill] at hb
    | hole => simp_all [Slot.fill]

theorem slots_eq {ss ss' : List Slot}
    (ha : ss.flatMap (Slot.fill ['a']) = ss'.flatMap (Slot.fill ['a']))
    (hb : ss.flatMap (Slot.fill ['b']) = ss'.flatMap (Slot.fill ['b'])) : ss = ss' := by
  induction ss generalizing ss' with
  | nil =>
    cases ss' with
    | nil => rfl
    | cons s ss' => cases s <;> simp [Slot.fill] at ha
  | cons s ss ih =>
    cases ss' with
    | nil => cases s <;> simp [Slot.fill] at ha
    | cons s' ss' =>
      simp only [List.flatMap_cons] at ha hb
      obtain ⟨rfl, ha', hb'⟩ := slot_eq ha hb
      rw [ih ha' hb']

theorem token_eq {t t' : Token Slot} (ha : t.fill ['a'] = t'.fill ['a'])
    (hb : t.fill ['b'] = t'.fill ['b']) : t = t' := by
  cases t with
  | word ss =>
    cases t' with
    | word ss' =>
      rw [slots_eq (Token.word.inj ha) (Token.word.inj hb)]
    | _ => cases ha
  | ioNumber digits =>
    cases t' <;> cases ha
    rfl
  | op cs =>
    cases t' <;> cases ha
    rfl
  | newline =>
    cases t' <;> cases ha
    rfl

theorem tokens_eq {ts ts' : List (Token Slot)}
    (ha : ts.map (Token.fill ['a']) = ts'.map (Token.fill ['a']))
    (hb : ts.map (Token.fill ['b']) = ts'.map (Token.fill ['b'])) : ts = ts' := by
  induction ts generalizing ts' with
  | nil =>
    cases ts' with
    | nil => rfl
    | cons t' ts' => simp at ha
  | cons t ts ih =>
    cases ts' with
    | nil => simp at ha
    | cons t' ts' =>
      simp only [List.map_cons, List.cons.injEq] at ha hb
      rw [token_eq ha.1 hb.1, ih ha.2 hb.2]

theorem plain_singleton {c : Char} (h : Plain c) : ∀ d ∈ [c], Plain d := by
  intro d hd
  obtain rfl := List.mem_singleton.mp hd
  exact h

/-- A text fits one shape only. -/
theorem Fits.unique {text : List Char → List Char} {S S' : Shape} (h : Fits text S)
    (h' : Fits text S') : S = S' := by
  have hfill : ∀ c, Plain c → S.fill [c] = S'.fill [c] := by
    intro c hc
    rw [← h [c] (plain_singleton hc), h' [c] (plain_singleton hc)]
  have ha := hfill 'a' (by decide)
  have hb := hfill 'b' (by decide)
  cases S <;> cases S' <;> simp_all [Shape.fill, Except.map]
  exact tokens_eq ha hb

/-! The shapes of command lines. -/

def Token.lift : Token Piece → Token Slot
  | word ps => .word (ps.map .piece)
  | ioNumber digits => .ioNumber digits
  | op cs => .op cs
  | newline => .newline

theorem Slot.fill_pieces (v : List Char) (ps : List Piece) :
    (ps.map piece).flatMap (Slot.fill v) = ps := by
  induction ps with
  | nil => rfl
  | cons p ps ih => simp [Slot.fill, ih]

theorem fill_word (v : List Char) (ss : List Slot) :
    (Token.word ss).fill v = .word (ss.flatMap (Slot.fill v)) := rfl

@[simp] theorem Token.fill_lift (v : List Char) (t : Token Piece) : t.lift.fill v = t := by
  cases t with
  | word ps => simp [lift, fill, Slot.fill_pieces]
  | _ => rfl

@[simp] theorem Token.fill_lift_comp (v : List Char) : Token.fill v ∘ Token.lift = id := by
  funext t
  simp

/-- A word that begins with `before`, then holds the name, and ends with `more`. -/
def nameWord (before more : List Piece) : Token Slot :=
  .word (before.map .piece ++ .hole :: more.map .piece)

@[simp] theorem fill_nameWord (v : List Char) (before more : List Piece) :
    (nameWord before more).fill v = .word (before ++ v.map .lit ++ more) := by
  simp [nameWord, Token.fill, Slot.fill_pieces, Slot.fill]

/-- The shape of a line whose name stands in one word. -/
def nameShape (ts : List (Token Piece)) (before more : List Piece) (rest : List (Token Piece)) :
    Shape :=
  .ok (ts.map .lift ++ nameWord before more :: rest.map .lift)

@[simp] theorem fill_nameShape (v : List Char) (ts : List (Token Piece)) (before more : List Piece)
    (rest : List (Token Piece)) :
    (nameShape ts before more rest).fill v =
      .ok (ts ++ Token.word (before ++ v.map .lit ++ more) :: rest) := by
  simp [nameShape, Shape.fill, Except.map]

/-- A line without the name. -/
theorem fits_const (line : List Char) :
    Fits (fun _ => line) ((tokenise line).map (List.map Token.lift)) := by
  intro v _
  cases h : tokenise line with
  | error e => rfl
  | ok ts => simp [Shape.fill, Except.map]

theorem plain_no_nul {v : List Char} (hv : ∀ c ∈ v, Plain c) : '\x00' ∉ v :=
  fun h => absurd (hv _ h) (by decide)

/-- Quoting a plain name only puts quotes around it. -/
theorem singleQuote_plain {v : List Char} (hv : ∀ c ∈ v, Plain c) :
    singleQuote v = '\'' :: v ++ ['\''] := by
  have hq : v.flatMap (fun c => if c = '\'' then ['\'', '\\', '\'', '\''] else [c]) = v := by
    induction v with
    | nil => rfl
    | cons c v ih =>
      have hc : c ≠ '\'' := by
        rintro rfl
        exact absurd (hv '\'' (by simp)) (by decide)
      simp [hc, ih fun d hd => hv d (List.mem_cons_of_mem _ hd)]
  rw [singleQuote, hq]

/-- A line with the name quoted at the beginning of a word. -/
theorem fits_quoted {before after : List Char} {ts rest : List (Token Piece)} {more : List Piece}
    (hb : lex ⟨[], .blank⟩ before = .ok ⟨ts, .blank⟩)
    (ha : ∀ ps, tokensFrom ⟨ts, .word ps true .none⟩ after = .ok (ts ++ Token.word (ps ++ more) :: rest)) :
    Fits (fun v => before ++ singleQuote v ++ after) (nameShape ts [] more rest) := by
  intro v hv
  change tokenise (before ++ singleQuote v ++ after) = _
  rw [List.append_assoc, tokenise, tokensFrom_append hb,
    tokensFrom_append (lex_blank_singleQuote (plain_no_nul hv)), ha, fill_nameShape]
  rfl

/-- A line with the name bare inside a word. -/
theorem fits_bare {before after : List Char} {ts rest : List (Token Piece)}
    (hb : lex ⟨[], .blank⟩ before = .ok ⟨ts, .word ps false .none⟩) (hp : ps ≠ [])
    (ha : ∀ ps, tokensFrom ⟨ts, .word ps false .none⟩ after = .ok (ts ++ Token.word ps :: rest)) :
    Fits (fun v => before ++ v ++ after) (nameShape ts ps [] rest) := by
  intro v hv
  change tokenise (before ++ v ++ after) = _
  rw [List.append_assoc, tokenise, tokensFrom_append hb,
    tokensFrom_append (lex_plain hv (Or.inl hp)), ha, fill_nameShape, List.append_nil]

/-- A line that ends with the bare name. -/
theorem fits_bareLast {before : List Char} {ts : List (Token Piece)}
    (hb : lex ⟨[], .blank⟩ before = .ok ⟨ts, .word ps false .none⟩) (hp : ps ≠ []) :
    Fits (fun v => before ++ v) (nameShape ts ps [] []) := by
  have ha : ∀ ps, tokensFrom ⟨ts, .word ps false .none⟩ [] = .ok (ts ++ [Token.word ps]) := fun ps => rfl
  have h := fits_bare hb hp ha
  simpa only [List.append_nil] using h

/-! A bare name: what the word it stands in can become. -/

/-- The piece that a pending backslash may still add. -/
def Quote.pending : Quote → Nat
  | .doubleEscape => 1
  | _ => 0

/-- The word after `ts`, which began with `ps`, is still being read or has been finished, with at
most `n` pieces. -/
def WordWithin (ts : List (Token Piece)) (ps : List Piece) (n : Nat) (t : Lexer) : Prop :=
  (∃ ps' quoted q, t = ⟨ts, .word ps' quoted q⟩ ∧ ps <+: ps' ∧ ps'.length + q.pending ≤ n) ∨
    ∃ tok, ts ++ [tok] <+: t.tokens ∧ ∀ ps', tok = .word ps' → ps <+: ps' ∧ ps'.length ≤ n

/-- Tokens are only added. -/
theorem stepUnquoted_tokens (h : stepUnquoted ts ps quoted c = .ok t) : t.tokens = ts := by
  unfold stepUnquoted at h
  repeat' split at h
  all_goals cases h <;> rfl

theorem stepBlank_tokens (h : stepBlank ts c = .ok t) : ts <+: t.tokens := by
  unfold stepBlank at h
  split at h
  · cases h
    exact List.prefix_refl _
  · split at h
    · cases h
      exact List.prefix_append _ _
    · split at h
      · cases h
        exact List.prefix_refl _
      · split at h
        · cases h
          exact List.prefix_refl _
        · exact (stepUnquoted_tokens h).symm ▸ List.prefix_refl ts

theorem stepWord_tokens (h : stepWord ts ps quoted q c = .ok t) : ts <+: t.tokens := by
  unfold stepWord at h
  split at h
  · cases h
  · cases q with
    | none =>
      simp only at h
      split at h
      · exact (List.prefix_append _ _).trans (stepBlank_tokens h)
      · exact (stepUnquoted_tokens h).symm ▸ List.prefix_refl ts
    | _ =>
      simp only at h
      repeat' split at h
      all_goals cases h <;> exact List.prefix_refl _

theorem endOper_tokens {ts' : List (Token Piece)} (h : endOper ts cs = .ok ts') : ts <+: ts' := by
  unfold endOper at h
  split at h
  · cases h
  · cases h
    exact List.prefix_append _ _

theorem step_tokens (h : step s c = .ok t) : s.tokens <+: t.tokens := by
  unfold step at h
  split at h
  · exact stepBlank_tokens h
  · split at h <;> cases h
    · exact List.prefix_append _ _
    · exact List.prefix_refl _
  · split at h
    · cases h
      exact List.prefix_refl _
    · split at h
      · cases h
      · next hop => exact (endOper_tokens hop).trans (stepBlank_tokens h)
  · exact stepWord_tokens h

theorem lex_tokens (h : lex s cs = .ok t) : s.tokens <+: t.tokens := by
  induction cs generalizing s with
  | nil =>
    cases h
    exact List.prefix_refl _
  | cons c cs ih =>
    cases hs : step s c with
    | error e => simp [lex, hs] at h
    | ok u =>
      rw [lex_cons_ok hs] at h
      exact (step_tokens hs).trans (ih h)

theorem finish_tokens {F : List (Token Piece)} (h : finish s = .ok F) : s.tokens <+: F := by
  unfold finish at h
  split at h
  · cases h
    exact List.prefix_refl _
  · cases h
    exact List.prefix_refl _
  · exact endOper_tokens h
  · cases h
    exact List.prefix_append _ _
  · cases h
    exact List.prefix_append _ _
  · cases h
  · cases h
  · cases h

theorem tokensFrom_tokens {F : List (Token Piece)} (h : tokensFrom s cs = .ok F) :
    s.tokens <+: F := by
  unfold tokensFrom at h
  split at h
  · cases h
  · next hl => exact (lex_tokens hl).trans (finish_tokens h)

theorem WordWithin.mono {ps' : List Piece} {m n : Nat} (h : WordWithin ts ps' m t)
    (hp : ps <+: ps') (hn : m ≤ n) : WordWithin ts ps n t := by
  rcases h with ⟨ps'', quoted, q, rfl, hpre, hl⟩ | ⟨tok, hpre, hw⟩
  · exact Or.inl ⟨ps'', quoted, q, rfl, hp.trans hpre, by omega⟩
  · refine Or.inr ⟨tok, hpre, ?_⟩
    intro ps'' ht
    obtain ⟨hpre', hl⟩ := hw ps'' ht
    exact ⟨hp.trans hpre', by omega⟩

/-- An unquoted character adds at most one piece to the word. -/
theorem stepUnquoted_within (h : stepUnquoted ts ps quoted c = .ok t) (hp : ps ≠ []) :
    WordWithin ts ps (ps.length + 1) t := by
  unfold stepUnquoted at h
  have htilde : ¬ (c = '~' ∧ ps = [] ∧ quoted = false) := fun ht => hp ht.2.1
  rw [if_neg htilde] at h
  repeat' split at h
  all_goals cases h
  all_goals exact Or.inl ⟨_, _, _, rfl, by simp, by simp [Quote.pending]⟩

theorem wordToken_cases (ps : List Piece) (quoted : Bool) (next : Option Char) :
    wordToken ps quoted next = .word ps ∨ ∃ digits, wordToken ps quoted next = .ioNumber digits := by
  unfold wordToken
  split
  · cases digitsOf ps with
    | some digits => exact Or.inr ⟨digits, rfl⟩
    | none => exact Or.inl rfl
  · exact Or.inl rfl

theorem eq_of_wordToken {next : Option Char} {ps' : List Piece}
    (h : wordToken ps quoted next = .word ps') : ps' = ps := by
  rcases wordToken_cases ps quoted next with hw | ⟨digits, hw⟩
  · rw [hw] at h
    exact (Token.word.inj h).symm
  · rw [hw] at h
    cases h

/-- One more character adds at most one piece, counting a pending backslash. -/
theorem stepWord_within (h : stepWord ts ps quoted q c = .ok t) (hp : ps ≠ []) :
    WordWithin ts ps (ps.length + q.pending + 1) t := by
  unfold stepWord at h
  split at h
  · cases h
  · cases q with
    | none =>
      simp only at h
      split at h
      · refine Or.inr ⟨_, stepBlank_tokens h, ?_⟩
        intro ps' ht
        obtain rfl := eq_of_wordToken ht
        exact ⟨List.prefix_refl _, by omega⟩
      · exact stepUnquoted_within h hp
    | escape =>
      simp only [hp, false_and, if_false] at h
      split at h <;> cases h
      · exact Or.inl ⟨_, _, _, rfl, by simp, by simp [Quote.pending]⟩
      · exact Or.inl ⟨_, _, _, rfl, by simp, by simp [Quote.pending]⟩
    | _ =>
      simp only at h
      repeat' split at h
      all_goals cases h
      all_goals
        refine Or.inl ⟨_, _, _, rfl, by simp, ?_⟩
        simp only [Quote.pending, List.length_append, List.length_cons, List.length_nil]
        omega

theorem WordWithin.step {n : Nat} (h : WordWithin ts ps n s) (hp : ps ≠ [])
    (hst : step s c = .ok t) : WordWithin ts ps (n + 1) t := by
  rcases h with ⟨ps', quoted, q, rfl, hpre, hl⟩ | ⟨tok, hpre, hw⟩
  · have hp' : ps' ≠ [] := by
      rintro rfl
      exact hp (List.prefix_nil.mp hpre)
    exact (stepWord_within hst hp').mono hpre (by omega)
  · refine Or.inr ⟨tok, hpre.trans (step_tokens hst), ?_⟩
    intro ps' ht
    obtain ⟨hpre', hl⟩ := hw ps' ht
    exact ⟨hpre', by omega⟩

theorem WordWithin.lex {n : Nat} (h : WordWithin ts ps n s) (hp : ps ≠ [])
    (hl : Posix.lex s cs = .ok t) : WordWithin ts ps (n + cs.length) t := by
  induction cs generalizing s n with
  | nil =>
    cases hl
    exact h
  | cons c cs ih =>
    cases hs : Posix.step s c with
    | error e => simp [Posix.lex, hs] at hl
    | ok u =>
      rw [lex_cons_ok hs] at hl
      have hw := ih (h.step hp hs) hl
      exact hw.mono (List.prefix_refl _) (by simp only [List.length_cons]; omega)

/-- The token after `ts`, once the whole text has been read. -/
theorem WordWithin.finish {n : Nat} {F : List (Token Piece)} (h : WordWithin ts ps n s)
    (hf : finish s = .ok F) :
    ∃ tok, ts ++ [tok] <+: F ∧ ∀ ps', tok = .word ps' → ps <+: ps' := by
  rcases h with ⟨ps', quoted, q, rfl, hpre, hl⟩ | ⟨tok, hpre, hw⟩
  · cases q with
    | none =>
      cases hf
      refine ⟨_, List.prefix_refl _, ?_⟩
      intro ps'' ht
      rwa [eq_of_wordToken ht]
    | escape =>
      cases hf
      refine ⟨_, List.prefix_refl _, ?_⟩
      intro ps'' ht
      rw [← Token.word.inj ht]
      exact hpre.trans (List.prefix_append _ _)
    | _ => cases hf
  · refine ⟨tok, hpre.trans (finish_tokens hf), ?_⟩
    intro ps' ht
    exact (hw ps' ht).1

theorem eq_of_next {tok tok' : Token Piece} {F : List (Token Piece)} (h : ts ++ [tok] <+: F)
    (h' : ts ++ [tok'] <+: F) : tok = tok' := by
  have he := List.prefix_of_prefix_length_le h h' (by simp)
  simpa using he.eq_of_length (by simp)

/-- Only a backslash leaves an escape pending. -/
theorem step_escape {ts' : List (Token Piece)} (h : step s c = .ok ⟨ts', .word ps quoted .escape⟩) :
    c = '\\' := by
  unfold step at h
  have hu : ∀ ts ps quoted ps' quoted', stepUnquoted ts ps quoted c =
      .ok ⟨ts', .word ps' quoted' .escape⟩ → c = '\\' := by
    intro ts ps quoted ps' quoted' h
    unfold stepUnquoted at h
    repeat' split at h
    all_goals first | assumption | cases h
  have hb : ∀ ts ps' quoted', stepBlank ts c = .ok ⟨ts', .word ps' quoted' .escape⟩ →
      c = '\\' := by
    intro ts ps' quoted' h
    unfold stepBlank at h
    repeat' split at h
    all_goals first | exact hu _ _ _ _ _ h | cases h
  split at h
  · exact hb _ _ _ h
  · repeat' split at h
    all_goals cases h
    simp_all
  · repeat' split at h
    all_goals first | exact hb _ _ _ h | cases h
  · unfold stepWord at h
    repeat' split at h
    all_goals first | exact hb _ _ _ h | exact hu _ _ _ _ _ h | cases h

/-- Everything but a quote, an expansion and a backslash is literal between double quotes. -/
theorem lex_double (h : ∀ c ∈ cs, c ∉ ['\x00', '"', '$', backquote, '\\']) :
    lex ⟨ts, .word ps quoted .double⟩ cs = .ok ⟨ts, .word (ps ++ cs.map .lit) quoted .double⟩ := by
  induction cs generalizing ps with
  | nil => simp
  | cons c cs ih =>
    have hc := h c (by simp)
    simp only [List.mem_cons, List.not_mem_nil, or_false, not_or] at hc
    have hs : step ⟨ts, .word ps quoted .double⟩ c =
        .ok ⟨ts, .word (ps ++ [Piece.lit c]) quoted .double⟩ := by
      simp [step, stepWord, hc]
    rw [lex_cons_ok hs, ih fun d hd => h d (List.mem_cons_of_mem _ hd)]
    simp

/-- The text after a bare name: a blank, a plain word and more, with nothing that would close a
quote. -/
structure Tail (suffix : List Char) (w rest : List Char) : Prop where
  eq : suffix = ' ' :: (w ++ ' ' :: rest)
  word_ne_nil : w ≠ []
  word_plain : ∀ c ∈ w, Plain c
  no_quote : ∀ c ∈ suffix, c ∉ ['\'', '\x00', '"', '$', backquote, '\\']

/-- A pending quotation swallows the tail. -/
theorem tokensFrom_quoted {suffix w rest : List Char} (hs : Tail suffix w rest)
    (hq : q = .single ∨ q = .double ∨ q = .doubleEscape) :
    tokensFrom ⟨ts, .word ps quoted q⟩ suffix = .error .unterminatedQuote := by
  have hsingle : '\'' ∉ suffix := fun hm => hs.no_quote _ hm (by simp)
  have hnul : '\x00' ∉ suffix := fun hm => hs.no_quote _ hm (by simp)
  have hdouble : ∀ c ∈ suffix, c ∉ ['\x00', '"', '$', backquote, '\\'] := by
    intro c hc hm
    exact hs.no_quote c hc (List.mem_cons_of_mem _ hm)
  rcases hq with rfl | rfl | rfl
  · simp [tokensFrom, lex_single hsingle hnul, finish]
  · simp [tokensFrom, lex_double hdouble, finish]
  · rw [hs.eq]
    have hb : step ⟨ts, .word ps quoted .doubleEscape⟩ ' ' =
        .ok ⟨ts, .word (ps ++ [Piece.lit '\\', Piece.lit ' ']) quoted .double⟩ := rfl
    have hrest : ∀ c ∈ w ++ ' ' :: rest, c ∉ ['\x00', '"', '$', backquote, '\\'] := by
      intro c hc
      exact hdouble c (by rw [hs.eq]; exact List.mem_cons_of_mem _ hc)
    simp [tokensFrom, lex_cons_ok hb, lex_double hrest, finish]

/-- An unquoted word ends at the blank of the tail. -/
theorem next_of_unquoted {suffix w rest : List Char} {F : List (Token Piece)}
    (hs : Tail suffix w rest)
    (h : tokensFrom ⟨ts, .word ps quoted .none⟩ suffix = .ok F) :
    ts ++ [wordToken ps quoted (some ' ')] <+: F := by
  have hb : step ⟨ts, .word ps quoted .none⟩ ' ' =
      .ok ⟨ts ++ [wordToken ps quoted (some ' ')], .blank⟩ := rfl
  rw [hs.eq, ← List.singleton_append,
    tokensFrom_append (lex_cons_ok hb [] : lex _ [' '] = .ok _)] at h
  exact tokensFrom_tokens h

/-- A pending backslash takes the blank and the next word in. -/
theorem next_of_escape {suffix w rest : List Char} {F : List (Token Piece)}
    (hs : Tail suffix w rest)
    (h : tokensFrom ⟨ts, .word ps quoted .escape⟩ suffix = .ok F) :
    ts ++ [Token.word (ps ++ Piece.lit ' ' :: w.map .lit)] <+: F := by
  have hb : step ⟨ts, .word ps quoted .escape⟩ ' ' =
      .ok ⟨ts, .word (ps ++ [Piece.lit ' ']) true .none⟩ := rfl
  have hw : lex ⟨ts, .word ps quoted .escape⟩ (' ' :: (w ++ [' '])) =
      .ok ⟨ts ++ [Token.word (ps ++ Piece.lit ' ' :: w.map .lit)], .blank⟩ := by
    rw [lex_cons_ok hb, lex_append, lex_plain hs.word_plain (Or.inr rfl)]
    simp [lex, step, stepWord, endsWord, isBlank, stepBlank, wordToken]
  have he : suffix = (' ' :: (w ++ [' '])) ++ rest := by simp [hs.eq]
  rw [he, tokensFrom_append hw] at h
  exact tokensFrom_tokens h

/-- A quoting character in a bare name is missing from the word that the name ends up in. -/
theorem not_literal_of_quoting {u suffix w rest : List Char} {F : List (Token Piece)}
    {quoted' : Bool} (hs : Tail suffix w rest) (hp : ps ≠ [])
    (hstep : step ⟨ts, .word ps quoted .none⟩ c = .ok ⟨ts, .word ps quoted' q⟩)
    (hpend : q.pending = 0)
    (h : tokensFrom ⟨ts, .word ps quoted .none⟩ ((c :: u) ++ suffix) = .ok F)
    (hF : ts ++ [Token.word (ps ++ (c :: u).map .lit)] <+: F) : False := by
  cases hl : lex ⟨ts, .word ps quoted .none⟩ (c :: u) with
  | error e =>
    rw [tokensFrom, lex_append, hl] at h
    cases h
  | ok t =>
    rw [tokensFrom_append hl] at h
    have hw : WordWithin ts ps ps.length ⟨ts, .word ps quoted' q⟩ :=
      Or.inl ⟨ps, quoted', q, rfl, List.prefix_refl _, by omega⟩
    have hlex := hl
    rw [lex_cons_ok hstep] at hlex
    rcases hw.lex hp hlex with ⟨ps', quoted'', q', rfl, -, hlen⟩ | ⟨tok, hpre, hlen⟩
    · cases q' with
      | none =>
        have he := eq_of_next (next_of_unquoted hs h) hF
        have := congrArg List.length (eq_of_wordToken he)
        simp only [List.length_append, List.length_map, List.length_cons] at this
        omega
      | escape =>
        have he := Token.word.inj (eq_of_next (next_of_escape hs h) hF)
        have hlast : (c :: u).getLast? = some '\\' := by
          obtain ⟨init, d, hd⟩ : ∃ init d, c :: u = init ++ [d] :=
            ⟨_, _, (List.dropLast_append_getLast (List.cons_ne_nil c u)).symm⟩
          rw [hd, lex_append] at hl
          cases hi : lex ⟨ts, .word ps quoted .none⟩ init with
          | error e => simp [hi] at hl
          | ok v =>
            cases hv : step v d with
            | error e => simp [hi, lex, hv] at hl
            | ok x =>
              obtain rfl : x = _ := by simpa [hi, lex, hv] using hl
              rw [hd, step_escape hv]
              simp
        have hx := congrArg List.getLast? he
        rw [List.getLast?_append, List.getLast?_append, List.getLast?_map, hlast,
          List.getLast?_cons, List.getLast?_map] at hx
        obtain ⟨d, hd⟩ : ∃ d, w.getLast? = some d := by
          cases hg : w.getLast? with
          | none => exact (hs.word_ne_nil (List.getLast?_eq_none_iff.mp hg)).elim
          | some d => exact ⟨d, rfl⟩
        have hdw : d = '\\' := by simpa [hd] using hx
        have := hs.word_plain d (List.mem_of_getLast? hd)
        rw [hdw] at this
        exact absurd this (by decide)
      | single => simp [tokensFrom_quoted hs (Or.inl rfl)] at h
      | double => simp [tokensFrom_quoted hs (Or.inr (Or.inl rfl))] at h
      | doubleEscape => simp [tokensFrom_quoted hs (Or.inr (Or.inr rfl))] at h
    · have he := eq_of_next (hpre.trans (tokensFrom_tokens h)) hF
      have := (hlen _ he).2
      simp only [List.length_append, List.length_map, List.length_cons] at this
      omega

theorem not_plain_cases (h : ¬ Plain c) : endsWord c = true ∨
    (c = '\x00' ∨ c = '$' ∨ c = backquote) ∨ (c = '*' ∨ c = '?' ∨ c = '[') ∨
      (c = '\\' ∨ c = '\'' ∨ c = '"') := by
  simp only [Plain, not_not, List.mem_cons, List.not_mem_nil, or_false] at h
  simp only [endsWord, isBlank, isOperStart, Bool.or_eq_true, beq_iff_eq, decide_eq_true_eq,
    List.mem_cons, List.not_mem_nil, or_false]
  tauto

/-- A character that is not plain keeps a bare name from being read as its own characters. -/
theorem not_literal_of_not_plain {u suffix w rest : List Char} {F : List (Token Piece)}
    (hs : Tail suffix w rest) (hp : ps ≠ []) (hc : ¬ Plain c)
    (h : tokensFrom ⟨ts, .word ps quoted .none⟩ ((c :: u) ++ suffix) = .ok F)
    (hF : ts ++ [Token.word (ps ++ (c :: u).map .lit)] <+: F) : False := by
  rcases not_plain_cases hc with hend | herr | hglob | hquote
  · have hz : c ≠ '\x00' := by
      rintro rfl
      exact absurd hend (by decide)
    have hstep : step ⟨ts, .word ps quoted .none⟩ c =
        stepBlank (ts ++ [wordToken ps quoted (some c)]) c := by
      simp [step, stepWord, hz, hend]
    have hpre : ts ++ [wordToken ps quoted (some c)] <+: F := by
      cases hb : stepBlank (ts ++ [wordToken ps quoted (some c)]) c with
      | error e => simp [tokensFrom, lex, hstep, hb] at h
      | ok t =>
        rw [hb] at hstep
        rw [List.cons_append, tokensFrom, lex_cons_ok hstep] at h
        exact (stepBlank_tokens hb).trans (tokensFrom_tokens h)
    have := congrArg List.length (eq_of_wordToken (eq_of_next hpre hF))
    simp only [List.length_append, List.length_map, List.length_cons] at this
    omega
  · rcases herr with rfl | rfl | rfl <;> cases h
  · have hstep : step ⟨ts, .word ps quoted .none⟩ c =
        .ok ⟨ts, .word (ps ++ [Piece.glob c]) quoted .none⟩ := by
      rcases hglob with rfl | rfl | rfl <;> rfl
    have hw : WordWithin ts (ps ++ [Piece.glob c]) (ps ++ [Piece.glob c]).length
        ⟨ts, .word (ps ++ [Piece.glob c]) quoted .none⟩ :=
      Or.inl ⟨_, _, _, rfl, List.prefix_refl _, by simp [Quote.pending]⟩
    rw [List.cons_append, tokensFrom, lex_cons_ok hstep] at h
    cases hl : lex ⟨ts, .word (ps ++ [Piece.glob c]) quoted .none⟩ (u ++ suffix) with
    | error e => simp [hl] at h
    | ok t =>
      rw [hl] at h
      obtain ⟨tok, hpre, hword⟩ := (hw.lex (by simp) hl).finish h
      have hglob' := hword _ (eq_of_next hpre hF)
      rw [List.prefix_append_right_inj] at hglob'
      simp at hglob'
  · obtain ⟨quoted', q, hstep, hpend⟩ : ∃ quoted' q, step ⟨ts, .word ps quoted .none⟩ c =
        .ok ⟨ts, .word ps quoted' q⟩ ∧ q.pending = 0 := by
      rcases hquote with rfl | rfl | rfl <;> exact ⟨_, _, rfl, rfl⟩
    exact not_literal_of_quoting hs hp hstep hpend h hF

/-- A name that stands bare in a word is read as its own characters only if all are plain. -/
theorem plain_of_bare {u suffix w rest : List Char} {F : List (Token Piece)}
    (hs : Tail suffix w rest) (hp : ps ≠ [])
    (h : tokensFrom ⟨ts, .word ps quoted .none⟩ (u ++ suffix) = .ok F)
    (hF : ts ++ [Token.word (ps ++ u.map .lit)] <+: F) : ∀ c ∈ u, Plain c := by
  induction u generalizing ps with
  | nil => simp
  | cons c u ih =>
    by_cases hc : Plain c
    · have hstep : step ⟨ts, .word ps quoted .none⟩ c =
          .ok ⟨ts, .word (ps ++ [Piece.lit c]) quoted .none⟩ := hc.step (Or.inl hp)
      have hp' : ps ++ [Piece.lit c] ≠ [] := by simp
      rw [List.cons_append, tokensFrom, lex_cons_ok hstep] at h
      have hF' : ts ++ [Token.word (ps ++ [Piece.lit c] ++ u.map .lit)] <+: F := by simpa using hF
      intro d hd
      rcases List.mem_cons.mp hd with rfl | hd
      · exact hc
      · exact ih hp' h hF' d hd
    · exact (not_literal_of_not_plain hs hp hc h hF).elim

/-- With the name bare inside a word and a tail behind it, the names read as written are those of
plain characters. -/
theorem literalUse_bare_iff {before after w after' : List Char} {ts rest : List (Token Piece)}
    {u : List Char} (hb : lex ⟨[], .blank⟩ before = .ok ⟨ts, .word ps false .none⟩) (hp : ps ≠ [])
    (ha : ∀ ps, tokensFrom ⟨ts, .word ps false .none⟩ after = .ok (ts ++ Token.word ps :: rest))
    (ht : Tail after w after') :
    LiteralUse (fun v => before ++ v ++ after) u ↔ ∀ c ∈ u, Plain c := by
  have hfits : Fits (fun v => before ++ v ++ after) (nameShape ts ps [] rest) :=
    fits_bare hb hp ha
  constructor
  · rintro ⟨S, hS, hu⟩
    obtain rfl := hS.unique hfits
    have hu' : tokensFrom ⟨ts, .word ps false .none⟩ (u ++ after) =
        .ok (ts ++ Token.word (ps ++ u.map .lit) :: rest) := by
      rw [← tokensFrom_append hb, ← List.append_assoc]
      simpa [tokenise] using hu
    exact plain_of_bare ht hp hu' ⟨rest, by simp⟩
  · intro hu
    exact hfits.literalUse hu

end Posix

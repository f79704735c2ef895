import SshPanelVpn.Panel.CommandShapes
import SshPanelVpn.Panel.World

/-! What `create_user` and `change_password` give `chpasswd` to read: through the shell, and through
the lines of its standard input. -/
namespace SshPanelVpn.Panel

open Posix PyString

/-! `echo … | chpasswd`. -/

/-- What `echo` takes for options: `-n`, `-e`, `-E` and their combinations. -/
def isEchoOption : Str → Bool
  | '-' :: c :: cs => (c :: cs).all fun d => d ∈ ['n', 'e', 'E']
  | _ => false

/-- The standard input of `chpasswd` in a pipeline of one `echo` with one word, in bash. -/
def chpasswdInput (command : Str) : Option Str :=
  match tokenise command with
  | .ok [echo, word, pipe, chpasswd] =>
    if echo = literalWord "echo" ∧ pipe = .op "|".toList ∧ chpasswd = literalWord "chpasswd" then
      (wordText word).bind fun text => if isEchoOption text then none else some (text ++ ['\n'])
    else none
  | _ => none

/-- The lines of an input; the last need not be ended. -/
def inputLines : Str → List Str
  | [] => []
  | c :: cs =>
    if c = '\n' then [] :: inputLines cs
    else
      match inputLines cs with
      | [] => [[c]]
      | l :: ls => (c :: l) :: ls

/-- The usernames and passwords that `chpasswd` reads; a line without a colon is an error. -/
def chpasswdReads (input : Str) : Option (List (Str × Str)) := (inputLines input).mapM chpasswdEntry

/-- `chpasswd` gets one line, and reads it as the username and the password. -/
def ReadAs (u password : Str) : Prop :=
  ∃ input, chpasswdInput ((Cmd.chpasswd password).text u) = some input ∧
    (inputLines input).length = 1 ∧ chpasswdReads input = some [(u, password)]

/-- Whose passwords a call for `u` sets. -/
def passwordsSet (u password : Str) : List Str :=
  match chpasswdInput ((Cmd.chpasswd password).text u) with
  | none => []
  | some input => ((chpasswdReads input).getD []).map Prod.fst

variable {u password : Str}

section Tokens

variable (ps : List Piece)

theorem lex_echoStart : lex ⟨[], .blank⟩ "echo ".toList = .ok ⟨literalWords ["echo"], .blank⟩ := rfl

theorem lex_colon (ts : List (Token Piece)) : lex ⟨ts, .word ps true .none⟩ ":".toList =
    .ok ⟨ts, .word (ps ++ [Piece.lit ':']) true .none⟩ := by
  refine lex_plain ?_ (.inr rfl)
  intro c hc
  obtain rfl := List.mem_singleton.mp hc
  decide

end Tokens

theorem text_chpasswd (u password : Str) : (Cmd.chpasswd password).text u = "echo ".toList ++
    (singleQuote u ++ (":".toList ++ (singleQuote password ++ " | chpasswd".toList))) := by
  change "echo ".toList ++ singleQuote u ++ ":".toList ++ singleQuote password ++
    " | chpasswd".toList = _
  simp only [List.append_assoc]

/-- The command as the shell reads it. -/
theorem tokenise_chpasswd (hu : '\x00' ∉ u) (hp : '\x00' ∉ password) :
    tokenise ((Cmd.chpasswd password).text u) = .ok [literalWord "echo",
      .word ((u ++ ':' :: password).map .lit), .op "|".toList, literalWord "chpasswd"] := by
  rw [text_chpasswd, tokenise, tokensFrom_append lex_echoStart,
    tokensFrom_append (lex_blank_singleQuote hu), tokensFrom_append (lex_colon _ _),
    tokensFrom_append (lex_singleQuote hp), tokensFrom_pipeChpasswd]
  simp [literalWords]

theorem tokenise_chpasswd_nul (h : '\x00' ∈ u ∨ '\x00' ∈ password) :
    tokenise ((Cmd.chpasswd password).text u) = .error .nul := by
  rw [text_chpasswd, tokenise, tokensFrom_append lex_echoStart]
  by_cases hu : '\x00' ∈ u
  · have hblank : step ⟨literalWords ["echo"], .blank⟩ '\'' =
        step ⟨literalWords ["echo"], .word [] false .none⟩ '\'' := rfl
    have hq : lex ⟨literalWords ["echo"], .blank⟩ (singleQuote u) = .error .nul := by
      rw [← lex_singleQuote_nul hu, singleQuote, List.cons_append, lex, lex, hblank]
    rw [tokensFrom, lex_append, hq]
  · have hp := h.resolve_left hu
    rw [tokensFrom_append (lex_blank_singleQuote hu), tokensFrom_append (lex_colon _ _), tokensFrom,
      lex_append, lex_singleQuote_nul hp]

/-- A word with a colon is no option. -/
theorem isEchoOption_colon (u password : Str) : isEchoOption (u ++ ':' :: password) = false := by
  cases u with
  | nil => rfl
  | cons c cs =>
    by_cases hc : c = '-'
    · subst hc
      cases cs with
      | nil => rfl
      | cons d ds => simp [isEchoOption]
    · rw [List.cons_append, isEchoOption]
      intro d ds heq
      exact (hc (List.cons.inj heq).1).elim

theorem chpasswdInput_eq (hu : '\x00' ∉ u) (hp : '\x00' ∉ password) :
    chpasswdInput ((Cmd.chpasswd password).text u) = some (u ++ ':' :: password ++ ['\n']) := by
  unfold chpasswdInput
  rw [tokenise_chpasswd hu hp]
  simp only [true_and, if_true, wordText_literal, Option.bind_some, isEchoOption_colon]
  rfl

/-! The lines of an input that `echo` ends. -/

theorem inputLines_echo (cs : Str) : inputLines (cs ++ ['\n']) = splitOn '\n' cs := by
  induction cs with
  | nil => rfl
  | cons c cs ih =>
    simp only [List.cons_append, inputLines, splitOn, ih]
    by_cases hc : c = '\n'
    · simp [hc]
    · simp only [hc, if_false]
      cases hs : splitOn '\n' cs <;> rfl

/-- The node's view of the command is what comes out of the shell. -/
theorem chpasswdReads_echo (u password : Str) :
    chpasswdReads (u ++ ':' :: password ++ ['\n']) = chpasswdEntries u password := by
  rw [chpasswdReads, inputLines_echo, chpasswdEntries]
  simp

theorem splitOn_ne_nil (sep : Char) (cs : Str) : splitOn sep cs ≠ [] := by
  cases cs with
  | nil => simp [splitOn]
  | cons c cs =>
    rw [splitOn]
    split
    · simp
    · split <;> simp

theorem length_splitOn_eq_one {sep : Char} {cs : Str} :
    (splitOn sep cs).length = 1 ↔ sep ∉ cs := by
  induction cs with
  | nil => simp [splitOn]
  | cons c cs ih =>
    have hpos := List.length_pos_iff.mpr (splitOn_ne_nil sep cs)
    by_cases hc : c = sep
    · subst hc
      simp only [splitOn, if_true, List.length_cons, List.mem_cons_self, not_true_eq_false,
        iff_false]
      omega
    · have hmem : sep ∈ c :: cs ↔ sep ∈ cs := by
        rw [List.mem_cons]
        exact or_iff_right (Ne.symm hc)
      rw [hmem, ← ih]
      simp only [splitOn, hc, if_false]
      cases hs : splitOn sep cs with
      | nil => exact (splitOn_ne_nil sep cs hs).elim
      | cons w ws => simp

/-- A line is split at its first colon. -/
theorem chpasswdEntry_eq_iff {cs name secret : Str} :
    chpasswdEntry cs = some (name, secret) ↔ cs = name ++ ':' :: secret ∧ ':' ∉ name := by
  induction cs generalizing name with
  | nil => simp [chpasswdEntry]
  | cons c cs ih =>
    rw [chpasswdEntry]
    by_cases hc : c = ':'
    · subst hc
      cases name with
      | nil => simp
      | cons d ds =>
        simp only [if_true, Option.some.injEq, Prod.mk.injEq, List.cons_append, List.cons.injEq,
          List.mem_cons, not_or]
        constructor
        · rintro ⟨hnil, -⟩
          cases hnil
        · rintro ⟨⟨rfl, -⟩, hd, -⟩
          exact (hd rfl).elim
    · simp only [hc, if_false, Option.map_eq_some_iff, Prod.mk.injEq]
      cases name with
      | nil =>
        constructor
        · rintro ⟨e, -, hnil, -⟩
          cases hnil
        · rintro ⟨heq, -⟩
          simp only [List.nil_append, List.cons.injEq] at heq
          exact (hc heq.1).elim
      | cons d ds =>
        constructor
        · rintro ⟨⟨name', secret'⟩, he, hname, rfl⟩
          obtain ⟨rfl, hn⟩ := ih.mp he
          cases hname
          refine ⟨rfl, ?_⟩
          simp only [List.mem_cons, not_or]
          exact ⟨Ne.symm hc, hn⟩
        · rintro ⟨heq, hn⟩
          simp only [List.cons_append, List.cons.injEq] at heq
          obtain ⟨rfl, rfl⟩ := heq
          simp only [List.mem_cons, not_or] at hn
          exact ⟨(ds, secret), ih.mpr ⟨rfl, hn.2⟩, rfl, rfl⟩

theorem chpasswdEntry_colon (u password : Str) :
    chpasswdEntry (u ++ ':' :: password) = some (u, password) ↔ ':' ∉ u := by
  rw [chpasswdEntry_eq_iff]
  exact and_iff_right rfl

/-- `chpasswd` reads the username and the password it is meant to exactly where neither has a newline
and the username no colon; NUL would end the command. And then it sets no other password. -/
theorem readAs_iff (u password : Str) :
    (ReadAs u password ↔ ('\n' ∉ u ∧ ':' ∉ u ∧ '\x00' ∉ u) ∧ '\n' ∉ password ∧ '\x00' ∉ password) ∧
      (ReadAs u password → passwordsSet u password = [u]) := by
  constructor
  · by_cases hnul : '\x00' ∈ u ∨ '\x00' ∈ password
    · refine iff_of_false ?_ ?_
      · rintro ⟨input, hinput, -, -⟩
        rw [chpasswdInput, tokenise_chpasswd_nul hnul] at hinput
        cases hinput
      · rintro ⟨⟨-, -, hu⟩, -, hp⟩
        exact hnul.elim hu hp
    · obtain ⟨hu, hp⟩ := not_or.mp hnul
      have hline : '\n' ∉ u ++ ':' :: password ↔ '\n' ∉ u ∧ '\n' ∉ password := by simp
      constructor
      · rintro ⟨input, hinput, hone, hreads⟩
        rw [chpasswdInput_eq hu hp] at hinput
        cases hinput
        rw [inputLines_echo, length_splitOn_eq_one] at hone
        rw [chpasswdReads, inputLines_echo, splitOn_of_not_mem hone] at hreads
        have hentry : chpasswdEntry (u ++ ':' :: password) = some (u, password) := by
          cases he : chpasswdEntry (u ++ ':' :: password) with
          | none => simp [he] at hreads
          | some e =>
            simp only [List.mapM_cons, he, List.mapM_nil] at hreads
            cases hreads
            rfl
        obtain ⟨hun, hpn⟩ := hline.mp hone
        exact ⟨⟨hun, (chpasswdEntry_colon u password).mp hentry, hu⟩, hpn, hp⟩
      · rintro ⟨⟨hun, huc, -⟩, hpn, -⟩
        have hone := hline.mpr ⟨hun, hpn⟩
        refine ⟨_, chpasswdInput_eq hu hp, ?_, ?_⟩
        · rw [inputLines_echo]
          exact length_splitOn_eq_one.mpr hone
        · rw [chpasswdReads, inputLines_echo, splitOn_of_not_mem hone]
          simp [(chpasswdEntry_colon u password).mpr huc]
  · rintro ⟨input, hinput, -, hreads⟩
    simp [passwordsSet, hinput, hreads]

/-- A password with a newline in it sets the password of root. -/
theorem not_readAs : ¬ ∀ u password : Str, ReadAs u password := by
  intro h
  have hreads := ((readAs_iff "bob".toList "x\nroot:y".toList).1.mp (h _ _)).2.1
  exact hreads (by decide)

example : passwordsSet "bob".toList "x\nroot:y".toList = ["bob".toList, "root".toList] := by
  decide +kernel

end SshPanelVpn.Panel

import SshPanelVpn.Library.PosixText
import SshPanelVpn.Panel.Commands

/-! `_q` in a command, whatever stands before and after it. -/
namespace SshPanelVpn.Panel

open Posix
open Posix.Units (inWord outside)

/-- The shell at the beginning of a command. -/
def commandStart : Scanner := ⟨⟨[], .blank⟩, 0, 0⟩

variable {shell : Units} {before rest after text value password : Str} {t : Scanner}
  {ts : List (Token Piece)} {ps : List Piece} {c : Char}

/-- The text leaves one whole word behind the tokens, at its end or where the next character ends words. -/
def EndsInWord (shell : Units) (text rest : Str) (ts : List (Token Piece)) (ps : List Piece) : Prop :=
  (rest = [] → shell.tokenise text = .ok (ts ++ [Token.word ps])) ∧
    ∀ c after, rest = c :: after → endsWord c = true →
      ∃ v, shell.lex after commandStart (text ++ [c]) = .ok v ∧
        (ts ++ [Token.word ps]) <+: v.lexer.tokens

theorem endsInWord_of_inWord (h : shell.lex rest commandStart text = .ok (inWord ts ps)) :
    EndsInWord shell text rest ts ps := by
  constructor
  · rintro rfl
    have hstart : shell.lex [] ⟨⟨[], .blank⟩, 0, 0⟩ text = .ok (inWord ts ps) := h
    simp [Units.tokenise, hstart, inWord, finish, wordToken]
  · rintro c after rfl hc
    obtain ⟨v, hv, htokens⟩ : ∃ v, shell.step (inWord ts ps) c after = .ok v ∧
        (ts ++ [Token.word ps]) <+: v.lexer.tokens := Units.step_inWord hc
    refine ⟨v, ?_, htokens⟩
    rw [Units.lex_append_ok h, Units.lex_cons_ok hv]
    rfl

/-- After a name, `:` and a second value go on with the word. -/
theorem lex_colon_shellQuote (hpassword : '\x00' ∉ password) :
    shell.lex after (inWord ts ps) (':' :: shellQuote password) =
      .ok (inWord ts (ps ++ (':' :: password).map Piece.lit)) := by
  have hcolon : shell.lex (shellQuote password ++ after) (inWord ts ps) [':'] =
      .ok (inWord ts (ps ++ [Piece.lit ':'])) := Units.lex_plain (by decide)
  rw [← List.singleton_append, Units.lex_append_ok hcolon]
  exact (Units.lex_singleQuote hpassword (Units.outside_inWord _ _)).trans (by simp)

/-- Where a command is outside quotes, `_q` of a value without NUL adds exactly its characters to the
current word, and the shell is outside quotes again; so the name and the password that `chpasswd`
reads are one word. -/
theorem shellQuote_reads_value (shell : Units) {before rest value : Str} {t : Scanner}
    {ts : List (Token Piece)} {ps : List Piece} (hvalue : '\x00' ∉ value)
    (hbefore : shell.lex (shellQuote value ++ rest) commandStart before = .ok t)
    (hout : outside t = some (ts, ps)) :
    shell.lex rest commandStart (before ++ shellQuote value) =
        .ok (inWord ts (ps ++ value.map Piece.lit)) ∧
      EndsInWord shell (before ++ shellQuote value) rest ts (ps ++ value.map Piece.lit) ∧
      ∀ password after, '\x00' ∉ password → rest = ':' :: shellQuote password ++ after →
        EndsInWord shell (before ++ shellQuote value ++ ':' :: shellQuote password) after ts
          (ps ++ (value ++ ':' :: password).map Piece.lit) := by
  have hread : shell.lex rest commandStart (before ++ shellQuote value) =
      .ok (inWord ts (ps ++ value.map Piece.lit)) := by
    rw [Units.lex_append_ok hbefore]
    exact Units.lex_singleQuote hvalue hout
  refine ⟨hread, endsInWord_of_inWord hread, ?_⟩
  rintro password after hpassword rfl
  apply endsInWord_of_inWord
  rw [Units.lex_append_ok hread, lex_colon_shellQuote hpassword]
  simp

/-- The command of `change_password`, read by a shell that knows neither expansions nor here-documents. -/
theorem shellQuote_reads_value_sample :
    (⟨fun _ => 0, fun _ _ => 0⟩ : Units).lex (":'x y'".toList) commandStart
        ("echo ".toList ++ shellQuote "a'b".toList) =
      .ok (inWord [.word ("echo".toList.map Piece.lit)] ("a'b".toList.map Piece.lit)) :=
  (@shellQuote_reads_value ⟨fun _ => 0, fun _ _ => 0⟩ _ _ _ _ _ [] (by decide)
    (Units.lex_of_lex (fun _ _ => rfl) (w := ⟨[.word ("echo".toList.map Piece.lit)], .blank⟩) (by decide))
    rfl).1

end SshPanelVpn.Panel

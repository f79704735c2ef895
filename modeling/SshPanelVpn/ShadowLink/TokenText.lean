import SshPanelVpn.Library.PrefixCodes
import SshPanelVpn.ShadowLink.TokenStore

/-! A text for the token file, laid out as by `json.MarshalIndent`. The escapes are not Go's: one form
stands here for the several ones that it uses. -/
namespace SshPanelVpn.ShadowLink

open Octets PrefixCodes

namespace TokenText

def ascii (s : String) : Bytes := s.toList.map fun c => UInt8.ofNat c.toNat

/-- A character of a token. Those of UUIDs stand for themselves, as in Go. -/
def char (c : Char) : Bytes :=
  if c.toNat < 128 ∧ c.toNat ≠ 0x22 ∧ c.toNat ≠ 0x5c then [UInt8.ofNat c.toNat]
  else 0x5c :: beBytes 4 c.toNat

def natural (n : Nat) : Bytes :=
  if n < 10 then [UInt8.ofNat (48 + n)] else natural (n / 10) ++ [UInt8.ofNat (48 + n % 10)]

def integer : Int → Bytes
  | .ofNat n => natural n
  | .negSucc n => 0x2d :: natural (n + 1)

def boolean : Bool → Bytes
  | true => ascii "true"
  | false => ascii "false"

def tokenInfo (info : TokenInfo) : Bytes :=
  ascii "\x7b\n    \"token\": \"" ++
    ((info.token.flatMap char ++ 0x22 :: ascii ",\n    \"max_conns\": ") ++
      ((integer info.maxConns ++ [0x2c]) ++
        (ascii "\n    \"active\": " ++ (boolean info.active ++ ascii "\n  \x7d"))))

def marshalIndent : List TokenInfo → Bytes
  | [] => ascii "[]"
  | info :: tokens =>
    ascii "[\n  " ++
      (tokenInfo info ++ (tokens.flatMap (fun t => ascii ",\n  " ++ tokenInfo t) ++ 0x0a :: ascii "]"))

/-! The parts are self-delimiting. -/

theorem ofNat_inj {m n : Nat} (hm : m < 256) (hn : n < 256) (h : UInt8.ofNat m = UInt8.ofNat n) :
    m = n := by
  have h' := congrArg UInt8.toNat h
  rwa [UInt8.toNat_ofNat', UInt8.toNat_ofNat', Nat.mod_eq_of_lt hm, Nat.mod_eq_of_lt hn] at h'

theorem toNat_char_inj {c d : Char} (h : c.toNat = d.toNat) : c = d := by
  apply Char.ext
  exact UInt32.toNat_inj.mp h

theorem char_head (c : Char) : ∃ b l, char c = b :: l ∧ b ≠ 0x22 := by
  unfold char
  split
  · next h =>
    refine ⟨_, _, rfl, ?_⟩
    intro hb
    exact h.2.1 (ofNat_inj (by omega) (by decide) hb)
  · exact ⟨_, _, rfl, by decide⟩

theorem selfDelimiting_char : SelfDelimiting char := by
  intro c d r s h
  unfold char at h
  split at h
  · next hc =>
    split at h
    · next hd =>
      obtain ⟨hb, hrs⟩ := List.cons.inj h
      exact ⟨toNat_char_inj (ofNat_inj (by omega) (by omega) hb), hrs⟩
    · obtain ⟨hb, -⟩ := List.cons.inj h
      exact (hc.2.2 (ofNat_inj (by omega) (by decide) hb)).elim
  · split at h
    · next hd =>
      obtain ⟨hb, -⟩ := List.cons.inj h
      exact (hd.2.2 (ofNat_inj (by decide) (by omega) hb).symm).elim
    · obtain ⟨-, hrest⟩ := List.cons.inj h
      obtain ⟨hbytes, hrs⟩ := List.append_inj hrest (by rw [length_beBytes, length_beBytes])
      have hlt : ∀ c : Char, c.toNat < 256 ^ 4 := by
        intro c
        exact c.val.toNat_lt
      have hnat := congrArg beNat hbytes
      rw [beNat_beBytes_of_lt (hlt c), beNat_beBytes_of_lt (hlt d)] at hnat
      exact ⟨toNat_char_inj hnat, hrs⟩

/-- The value of a row of digits. -/
def value (l : Bytes) : Nat := l.foldl (fun v b => 10 * v + (b.toNat - 48)) 0

theorem digit_toNat {d : Nat} (hd : d < 10) : (UInt8.ofNat (48 + d)).toNat = 48 + d := by
  rw [UInt8.toNat_ofNat', Nat.mod_eq_of_lt (by omega)]

theorem value_natural (n : Nat) : value (natural n) = n := by
  induction n using natural.induct with
  | case1 n hn =>
    rw [natural, if_pos hn]
    simp only [value, List.foldl_cons, List.foldl_nil, digit_toNat hn]
    omega
  | case2 n hn ih =>
    rw [natural, if_neg hn]
    have hd : n % 10 < 10 := Nat.mod_lt _ (by decide)
    unfold value at ih ⊢
    rw [List.foldl_append, ih]
    simp only [List.foldl_cons, List.foldl_nil, digit_toNat hd]
    omega

theorem mem_natural {n : Nat} {b : UInt8} (h : b ∈ natural n) : 48 ≤ b.toNat := by
  induction n using natural.induct with
  | case1 n hn =>
    rw [natural, if_pos hn, List.mem_singleton] at h
    rw [h, digit_toNat hn]
    omega
  | case2 n hn ih =>
    rw [natural, if_neg hn, List.mem_append, List.mem_singleton] at h
    rcases h with h | rfl
    · exact ih h
    · rw [digit_toNat (Nat.mod_lt _ (by decide))]
      omega

theorem natural_injective : Function.Injective natural := by
  intro m n h
  rw [← value_natural m, h, value_natural n]

theorem natural_ne_minus {m : Nat} {l : Bytes} : natural m ≠ 0x2d :: l := by
  intro h
  have hmem := mem_natural (n := m) (b := 0x2d) (by rw [h]; exact List.mem_cons_self)
  revert hmem
  decide

theorem integer_injective : Function.Injective integer := by
  intro m n h
  cases m with
  | ofNat m =>
    cases n with
    | ofNat n => rw [natural_injective h]
    | negSucc n => exact (natural_ne_minus h).elim
  | negSucc m =>
    cases n with
    | ofNat n => exact (natural_ne_minus h.symm).elim
    | negSucc n =>
      have hsucc := natural_injective (List.cons.inj h).2
      rw [Nat.succ.inj hsucc]

theorem comma_not_mem_integer (n : Int) : (0x2c : UInt8) ∉ integer n := by
  intro h
  cases n with
  | ofNat n =>
    have hle := mem_natural h
    revert hle
    decide
  | negSucc n =>
    rcases List.mem_cons.mp h with h | h
    · revert h
      decide
    · have hle := mem_natural h
      revert hle
      decide

theorem selfDelimiting_boolean : SelfDelimiting boolean := by
  intro a b r s h
  cases a <;> cases b <;> simp_all [boolean, ascii]

theorem selfDelimiting_tokenInfo : SelfDelimiting tokenInfo := by
  have hchars := selfDelimiting_char.list (ascii ",\n    \"max_conns\": ") char_head
  have hint := selfDelimiting_upTo integer_injective comma_not_mem_integer
  have hbool := (selfDelimiting_boolean.before (ascii "\n  \x7d")).after (ascii "\n    \"active\": ")
  have hall := (hchars.prod (hint.prod hbool)).after (ascii "\x7b\n    \"token\": \"")
  have hinj : Function.Injective fun i : TokenInfo => (i.token, i.maxConns, i.active) := by
    rintro ⟨_, _, _⟩ ⟨_, _, _⟩ h
    cases h
    rfl
  exact hall.comp hinj

theorem selfDelimiting_marshalIndent : SelfDelimiting marshalIndent := by
  have hmore : SelfDelimiting fun tokens : List TokenInfo =>
      tokens.flatMap (fun t => ascii ",\n  " ++ tokenInfo t) ++ 0x0a :: ascii "]" := by
    apply (selfDelimiting_tokenInfo.after (ascii ",\n  ")).list
    intro t
    exact ⟨_, _, rfl, by decide⟩
  have hcons := (selfDelimiting_tokenInfo.prod hmore).after (ascii "[\n  ")
  intro xs ys r s h
  cases xs with
  | nil =>
    cases ys with
    | nil => exact ⟨rfl, List.append_cancel_left h⟩
    | cons y ys => cases h
  | cons x xs =>
    cases ys with
    | nil => cases h
    | cons y ys =>
      obtain ⟨hxy, hrs⟩ := hcons (x, xs) (y, ys) r s h
      cases hxy
      exact ⟨rfl, hrs⟩

end TokenText

/-- The text, read as what it was written of. -/
noncomputable def textJson : TokenJson := ⟨TokenText.marshalIndent, read TokenText.marshalIndent⟩

theorem textJson_lawful : textJson.Lawful where
  unmarshal_marshalIndent := TokenText.selfDelimiting_marshalIndent.read_word
  unmarshal_cut _ _ hp hne := TokenText.selfDelimiting_marshalIndent.read_cut hp hne

end SshPanelVpn.ShadowLink

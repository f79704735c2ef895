import SshPanelVpn.ShadowLink.Handshake

/-! Which timestamps `ParseClientHello` accepts, over all values of the field. -/
namespace SshPanelVpn.ShadowLink

open Octets

namespace Time

/-- The exact number of nanoseconds since 1970. -/
def unixNanos (t : Time) : Int := t.nanos - unixToInternal.toInt * second

/-- The number of seconds comes round at 2^63. -/
theorem nanos_ofUnix (sec : Int64) : (ofUnix sec).nanos =
    if sec.toInt + unixToInternal.toInt < 2 ^ 63 then (sec.toInt + unixToInternal.toInt) * second
    else (sec.toInt + unixToInternal.toInt - 2 ^ 64) * second := by
  have hlow := Int64.le_toInt sec
  have hhigh := Int64.toInt_lt sec
  have hshift : unixToInternal.toInt = 62135596800 := by decide
  have hadd : (ofUnix sec).sec.toInt = (sec.toInt + unixToInternal.toInt).bmod (2 ^ 64) :=
    Int64.toInt_add sec unixToInternal
  have hbmod := Int.bmod_def (sec.toInt + unixToInternal.toInt) (2 ^ 64)
  simp only [nanos, hadd]
  simp only [hshift, second, ofUnix] at hbmod ⊢
  omega

end Time

/-- The first eight bytes as a big-endian number in two's complement. -/
def timestampField (data : Bytes) : Int :=
  if beNat (data.take 8) < 2 ^ 63 then beNat (data.take 8) else beNat (data.take 8) - 2 ^ 64

/-- `ParseClientHello` returns no error. -/
def Accepts (data : Bytes) (now : Time) : Prop := ∃ hello, parseClientHello data now = .ok hello

/-- A whole hello, whose timestamp is at most 30 seconds before or after the current time. -/
def Timely (data : Bytes) (now : Time) : Prop :=
  8 + x25519KeySize ≤ data.length ∧
    now.unixNanos - timestampField data * Time.second ≤ timestampWindow ∧
    timestampField data * Time.second - now.unixNanos ≤ timestampWindow

variable {data : Bytes} {now : Time}

/-- Converting the eight bytes to `int64` reads them in two's complement. -/
theorem toInt_timestamp (h : 8 ≤ data.length) :
    (UInt64.ofNat (beNat (data.take 8))).toInt64.toInt = timestampField data := by
  have hlt : beNat (data.take 8) < 2 ^ 64 := by
    have h' := leNat_lt (data.take 8).reverse
    rw [List.length_reverse, List.length_take, Nat.min_eq_left h] at h'
    exact h'
  have htoInt : (UInt64.ofNat (beNat (data.take 8))).toInt64.toInt =
      (beNat (data.take 8) : Int).bmod (2 ^ 64) := by
    rw [UInt64.toInt64_ofNat']
    exact Int64.toInt_ofNat'
  rw [htoInt, Int.bmod_def, timestampField]
  split <;> split <;> omega

/-- The two saturating subtractions compare the exact times. -/
theorem accepts_iff : Accepts data now ↔ 8 + x25519KeySize ≤ data.length ∧
    now.nanos - (Time.ofUnix (UInt64.ofNat (beNat (data.take 8))).toInt64).nanos ≤ timestampWindow ∧
    (Time.ofUnix (UInt64.ofNat (beNat (data.take 8))).toInt64).nanos - now.nanos ≤ timestampWindow := by
  have h0 : 0 ≤ timestampWindow := by decide
  have h1 : timestampWindow < 2 ^ 63 - 1 := by decide
  rw [← Time.sub_le_iff _ _ h0 h1, ← Time.sub_le_iff _ _ h0 h1, Accepts, parseClientHello]
  by_cases hlen : data.length < 8 + x25519KeySize
  · simp [hlen, failWith]
  · rw [if_neg hlen]
    dsimp only
    split
    · next hout =>
      simp only [failWith, reduceCtorEq, exists_false, false_iff]
      omega
    · next hin =>
      simp only [Except.ok.injEq, exists_eq', true_iff]
      omega

/-- The current time is more than 30 seconds from both ends of the count of seconds: from -2^63 after
1970 and, as Go counts from year 1, from 2^63 after that. -/
def FarFromEnds (now : Time) : Prop :=
  (-2 ^ 63 + 29) * Time.second < now.unixNanos ∧ now.nanos < (2 ^ 63 - 30) * Time.second

theorem accepts_iff_timely_of_far (h : FarFromEnds now) (data : Bytes) :
    Accepts data now ↔ Timely data now := by
  obtain ⟨hlow, hhigh⟩ := h
  rw [accepts_iff, Timely]
  by_cases hlen : 8 + x25519KeySize ≤ data.length
  · have hfield : (UInt64.ofNat (beNat (data.take 8))).toInt64.toInt = timestampField data :=
      toInt_timestamp (by omega)
    have hnanos := Time.nanos_ofUnix (UInt64.ofNat (beNat (data.take 8))).toInt64
    have hlt := Int64.toInt_lt (UInt64.ofNat (beNat (data.take 8))).toInt64
    have hshift : Time.unixToInternal.toInt = 62135596800 := by decide
    rw [hfield] at hnanos hlt
    simp only [hlen, true_and]
    simp only [Time.unixNanos, hshift, Time.second, timestampWindow] at *
    split at hnanos <;> omega
  · simp [hlen]

/-- A hello with this field. -/
def helloAt (field : Nat) : Bytes := beBytes 8 field ++ List.replicate x25519KeySize 0

theorem take_helloAt (field : Nat) : (helloAt field).take 8 = beBytes 8 field :=
  List.take_left' (length_beBytes 8 field)

theorem length_helloAt (field : Nat) : (helloAt field).length = 8 + x25519KeySize := by
  simp [helloAt]

theorem timestampField_helloAt {field : Nat} (h : field < 2 ^ 63) : timestampField (helloAt field) = field := by
  have hvalue : beNat (beBytes 8 field) = field := beNat_beBytes_of_lt (by omega)
  rw [timestampField, take_helloAt, hvalue, if_pos h]

/-- Near the lower end a field near 2^63 comes round to a second before the current time. -/
theorem exists_far_accepted (h : now.unixNanos ≤ (-2 ^ 63 + 29) * Time.second) :
    ∃ data, Accepts data now ∧ ¬ Timely data now := by
  have hshift : Time.unixToInternal.toInt = 62135596800 := by decide
  have hsec := Int64.le_toInt now.sec
  have hnsec := now.nsec_lt
  obtain ⟨field, hfield⟩ : ∃ field : Nat, (field : Int) =
      min now.sec.toInt (-2 ^ 63 + 62135596800 - 1) - 62135596800 + 2 ^ 64 :=
    ⟨_, Int.toNat_of_nonneg (by omega)⟩
  have hlt : field < 2 ^ 63 := by omega
  have hread := @toInt_timestamp (helloAt field) (by rw [length_helloAt]; omega)
  rw [timestampField_helloAt hlt] at hread
  have hnanos := Time.nanos_ofUnix (UInt64.ofNat (beNat ((helloAt field).take 8))).toInt64
  rw [hread, if_neg (by rw [hshift]; omega)] at hnanos
  refine ⟨helloAt field, ?_, ?_⟩
  · rw [accepts_iff, length_helloAt]
    simp only [Time.unixNanos, Time.nanos, hshift, Time.second, timestampWindow] at *
    omega
  · rw [Timely, timestampField_helloAt hlt]
    simp only [Time.unixNanos, hshift, Time.second, timestampWindow] at *
    omega

/-- Near the upper end a field that is a second ahead comes round to the lower end. -/
theorem exists_timely_rejected (h : (2 ^ 63 - 30) * Time.second ≤ now.nanos) :
    ∃ data, ¬ Accepts data now ∧ Timely data now := by
  have hshift : Time.unixToInternal.toInt = 62135596800 := by decide
  have hsec := Int64.toInt_lt now.sec
  have hnsec := now.nsec_lt
  have hlt : 2 ^ 63 - 62135596800 < 2 ^ 63 := by decide
  have hread := @toInt_timestamp (helloAt (2 ^ 63 - 62135596800)) (by rw [length_helloAt]; omega)
  rw [timestampField_helloAt hlt] at hread
  have hnanos := Time.nanos_ofUnix
    (UInt64.ofNat (beNat ((helloAt (2 ^ 63 - 62135596800)).take 8))).toInt64
  rw [hread, if_neg (by rw [hshift]; omega)] at hnanos
  refine ⟨helloAt (2 ^ 63 - 62135596800), ?_, ?_⟩
  · rw [accepts_iff, length_helloAt]
    simp only [Time.nanos, hshift, Time.second, timestampWindow] at *
    omega
  · rw [Timely, timestampField_helloAt hlt, length_helloAt]
    simp only [Time.unixNanos, Time.nanos, hshift, Time.second, timestampWindow] at *
    omega

/-- The hellos that are accepted are those with a timestamp at most 30 seconds off, whatever the field,
exactly as long as the current time is not near the ends of the count of seconds. -/
theorem accepts_iff_timely (now : Time) :
    (∀ data, Accepts data now ↔ Timely data now) ↔ FarFromEnds now := by
  constructor
  · intro h
    constructor
    · by_contra hlow
      obtain ⟨data, haccepts, hfar⟩ := exists_far_accepted (not_lt.mp hlow)
      exact hfar ((h data).mp haccepts)
    · by_contra hhigh
      obtain ⟨data, hrejects, htimely⟩ := exists_timely_rejected (not_lt.mp hhigh)
      exact hrejects ((h data).mpr htimely)
  · exact accepts_iff_timely_of_far

/-- With the clock at -2^63 seconds, the greatest field is accepted: it comes round to one second before.
One second before the end of Go's count, the field of the next second is not. -/
theorem not_accepts_iff_timely :
    (Accepts (helloAt (2 ^ 63 - 1)) (Time.ofUnix Int64.minValue) ∧
      ¬ Timely (helloAt (2 ^ 63 - 1)) (Time.ofUnix Int64.minValue)) ∧
    ¬ Accepts (helloAt (2 ^ 63 - 62135596800)) ⟨Int64.maxValue, 0, by decide⟩ ∧
      Timely (helloAt (2 ^ 63 - 62135596800)) ⟨Int64.maxValue, 0, by decide⟩ := by
  refine ⟨⟨⟨_, rfl⟩, ?_⟩, ?_, ?_⟩
  · rw [Timely]
    decide
  · rw [accepts_iff]
    decide
  · rw [Timely]
    decide

end SshPanelVpn.ShadowLink

import SshPanelVpn.Panel.Model

/-! The date in `strftime("%Y-%m-%d")`, read back as a day. -/
namespace SshPanelVpn.Panel

open PyString

/-! Years, months and days. -/

/-- The number of days since 1970 of a date. -/
def daysOf (year month day : Int) : Int :=
  let y := if month ≤ 2 then year - 1 else year
  let era := y / 400
  let yoe := y - era * 400
  let doy := (153 * (if month ≤ 2 then month + 9 else month - 3) + 2) / 5 + day - 1
  era * 146097 + (yoe * 365 + yoe / 4 - yoe / 100 + doy) - 719468

/-- A day of a 400-year era: its century, the four years in it, the year in them and the day in the
year. Only the last century and the last of four years are a day longer. -/
structure EraDay (doe c q k t : Int) : Prop where
  sum : doe = 36524 * c + 1461 * q + 365 * k + t
  century : 0 ≤ c ∧ c ≤ 3
  fours : 0 ≤ q ∧ q ≤ 24
  year : 0 ≤ k ∧ k ≤ 3
  day : 0 ≤ t ∧ t ≤ 365
  leapYear : k ≤ 2 → t ≤ 364
  leapCentury : c ≤ 2 → 1461 * q + 365 * k + t ≤ 36523

theorem exists_eraDay {doe : Int} (h0 : 0 ≤ doe) (h1 : doe ≤ 146096) :
    ∃ c q k t, EraDay doe c q k t := by
  have hcentury : ∃ c r : Int, doe = 36524 * c + r ∧ (0 ≤ c ∧ c ≤ 3) ∧ (0 ≤ r ∧ r ≤ 36524) ∧
      (c ≤ 2 → r ≤ 36523) := by
    by_cases h : doe = 146096
    · exact ⟨3, 36524, by omega⟩
    · exact ⟨doe / 36524, doe % 36524, by omega⟩
  obtain ⟨c, r, hr, hc, hr0, hlong⟩ := hcentury
  have hyear : ∃ k t : Int, r % 1461 = 365 * k + t ∧ (0 ≤ k ∧ k ≤ 3) ∧ (0 ≤ t ∧ t ≤ 365) ∧
      (k ≤ 2 → t ≤ 364) := by
    by_cases h : r % 1461 = 1460
    · exact ⟨3, 365, by omega⟩
    · exact ⟨r % 1461 / 365, r % 1461 % 365, by omega⟩
  obtain ⟨k, t, hs, hk, ht, hleap⟩ := hyear
  exact ⟨c, r / 1461, k, t, by omega, hc, by omega, hk, ht, hleap, by omega⟩

/-- The year in the era, as `civil` counts it. -/
theorem EraDay.yearOfEra {doe c q k t : Int} (h : EraDay doe c q k t) :
    (doe - doe / 1460 + doe / 36524 - doe / 146096) / 365 = 100 * c + 4 * q + k := by
  rcases h with ⟨hsum, hc, hq, hk, ht, hleap, hlong⟩
  have hcenturies : doe / 36524 - doe / 146096 = c := by
    obtain ⟨r, hr⟩ : ∃ r, r = 1461 * q + 365 * k + t := ⟨_, rfl⟩
    have hsum' : doe = 36524 * c + r := by omega
    have hr' : 0 ≤ r ∧ r ≤ 36524 := by omega
    rw [← hr] at hlong
    clear hsum hr
    by_cases hlast : r = 36524
    · have hc3 : c = 3 := by omega
      subst hc3 hlast
      omega
    · omega
  -- every four years have one day too many, up to the end of the last of them
  have hfours : doe / 1460 = 25 * c + q ∨ doe / 1460 = 25 * c + q + 1 ∧ k = 3 ∧ 1 ≤ t := by omega
  have hfull : t = 365 → doe / 1460 = 25 * c + q + 1 := by omega
  have hdays : doe - doe / 1460 + doe / 36524 - doe / 146096 =
      36525 * c + 1461 * q + 365 * k + t - doe / 1460 := by omega
  rw [hdays]
  rcases hfours with hfours | ⟨hfours, rfl, h1⟩
  · omega
  · omega

theorem EraDay.dayOfYear {doe c q k t : Int} (h : EraDay doe c q k t) :
    doe - (365 * (100 * c + 4 * q + k) + (100 * c + 4 * q + k) / 4 -
      (100 * c + 4 * q + k) / 100) = t := by
  rcases h with ⟨hsum, hc, hq, hk, ht, hleap, hlong⟩
  have hfour : (100 * c + 4 * q + k) / 4 = 25 * c + q := by omega
  have hhundred : (100 * c + 4 * q + k) / 100 = c := by omega
  rw [hfour, hhundred]
  omega

/-- The date of a day has that day. -/
theorem daysOf_civil (n : Int) (y m d : Int) (h : DateTime.civil n = (y, m, d)) :
    daysOf y m d = n ∧ (1 ≤ m ∧ m ≤ 12) ∧ (1 ≤ d ∧ d ≤ 31) ∧ (-719468 ≤ n → 0 ≤ y) := by
  obtain ⟨era, hera⟩ : ∃ era, (n + 719468) / 146097 = era := ⟨_, rfl⟩
  obtain ⟨doe, hdoe⟩ : ∃ doe, n + 719468 - era * 146097 = doe := ⟨_, rfl⟩
  obtain ⟨c, q, k, t, hday⟩ := exists_eraDay (by omega : 0 ≤ doe) (by omega)
  simp only [DateTime.civil, hera, hdoe, hday.yearOfEra, hday.dayOfYear] at h
  have hfour : (100 * c + 4 * q + k) / 4 = 25 * c + q := by
    rcases hday with ⟨-, hc, hq, hk, -⟩
    omega
  have hhundred : (100 * c + 4 * q + k) / 100 = c := by
    rcases hday with ⟨-, hc, hq, hk, -⟩
    omega
  rcases hday with ⟨hsum, hc, hq, hk, ht, hleap, hlong⟩
  cases h
  by_cases hm : (5 * t + 2) / 153 < 10
  · have hnot : ¬ (5 * t + 2) / 153 + 3 ≤ 2 := by omega
    have hyear : (100 * c + 4 * q + k + era * 400) / 400 = era := by omega
    refine ⟨?_, by simp only [hm, if_true]; omega, by omega, ?_⟩
    · simp only [daysOf, hm, hnot, if_true, if_false, Int.add_zero, hyear]
      have hy : 100 * c + 4 * q + k + era * 400 - era * 400 = 100 * c + 4 * q + k := by omega
      rw [hy, hfour, hhundred]
      omega
    · intro hn
      simp only [hm, hnot, if_true, if_false]
      omega
  · have hless : (5 * t + 2) / 153 - 9 ≤ 2 := by omega
    have hyear : (100 * c + 4 * q + k + era * 400 + 1 - 1) / 400 = era := by omega
    refine ⟨?_, by simp only [hm, if_false]; omega, by omega, ?_⟩
    · simp only [daysOf, hm, hless, if_true, if_false, hyear]
      have hy : 100 * c + 4 * q + k + era * 400 + 1 - 1 - era * 400 = 100 * c + 4 * q + k := by omega
      rw [hy, hfour, hhundred]
      omega
    · intro hn
      simp only [hm, hless, if_true, if_false]
      omega

/-! The text. -/

/-- A number of decimal digits. -/
def number (s : Str) : Option Nat :=
  if s ≠ [] ∧ s.all Char.isDigit then some (Nat.ofDigitChars 10 s 0) else none

/-- The day that a `YYYY-MM-DD` date stands for. -/
def dateDay (s : Str) : Option Int :=
  match splitOn '-' s with
  | [year, month, day] =>
    match number year, number month, number day with
    | some y, some m, some d => some (daysOf y m d)
    | _, _, _ => none
  | _ => none

theorem isDigit_decimal {n : Nat} {c : Char} (h : c ∈ decimal n) : c.isDigit = true :=
  Nat.isDigit_of_mem_toDigits (by decide) (by decide) h

theorem number_decimal (n : Nat) : number (decimal n) = some n := by
  have hdigits : (decimal n).all Char.isDigit = true :=
    List.all_eq_true.mpr fun c hc => isDigit_decimal hc
  have hne : decimal n ≠ [] := Nat.toDigits_ne_nil
  rw [number, if_pos ⟨hne, hdigits⟩]
  exact congrArg some Nat.ofDigitChars_ten_toDigits

theorem isDigit_pad2 {n : Nat} {c : Char} (h : c ∈ DateTime.pad2 n) : c.isDigit = true := by
  unfold DateTime.pad2 at h
  split at h
  · rcases List.mem_cons.mp h with rfl | h
    · rfl
    · exact isDigit_decimal h
  · exact isDigit_decimal h

theorem number_pad2 (n : Nat) : number (DateTime.pad2 n) = some n := by
  unfold DateTime.pad2
  split
  · have hdigits : ('0' :: decimal n).all Char.isDigit = true := by
      apply List.all_eq_true.mpr
      intro c hc
      rcases List.mem_cons.mp hc with rfl | hc
      · rfl
      · exact isDigit_decimal hc
    rw [number, if_pos ⟨by simp, hdigits⟩, Nat.ofDigitChars_cons]
    exact congrArg some Nat.ofDigitChars_ten_toDigits
  · exact number_decimal n

theorem splitOn_append {sep : Char} {a b : Str} (h : sep ∉ a) :
    splitOn sep (a ++ sep :: b) = a :: splitOn sep b := by
  induction a with
  | nil => simp [splitOn]
  | cons c cs ih =>
    have hc : c ≠ sep := by
      rintro rfl
      simp at h
    simp [splitOn, hc, ih fun hm => h (List.mem_cons_of_mem _ hm)]

theorem minus_notMem {s : Str} (h : ∀ c ∈ s, c.isDigit = true) : '-' ∉ s := by
  intro hm
  exact absurd (h _ hm) (by decide)

/-- The date that is written is the date of the day. -/
theorem dateDay_isoDate (d : DateTime) : dateDay d.isoDate = some (d.micros / microsPerDay) := by
  generalize hdate : DateTime.civil (d.micros / microsPerDay) = date
  rcases date with ⟨y, m, day⟩
  obtain ⟨hdays, hm, hd, hy⟩ := daysOf_civil _ _ _ _ hdate
  have hyear : 0 ≤ y := by
    apply hy
    have hmin := d.inRange.1
    simp only [minMicros, microsPerDay] at hmin ⊢
    omega
  obtain ⟨y, rfl⟩ := Int.eq_ofNat_of_zero_le hyear
  obtain ⟨m, rfl⟩ := Int.eq_ofNat_of_zero_le (by omega : 0 ≤ m)
  obtain ⟨day, rfl⟩ := Int.eq_ofNat_of_zero_le (by omega : 0 ≤ day)
  have htext : d.isoDate = decimal y ++ '-' :: (DateTime.pad2 m ++ '-' :: DateTime.pad2 day) := by
    simp [DateTime.isoDate, hdate]
  have hparts : splitOn '-' d.isoDate = [decimal y, DateTime.pad2 m, DateTime.pad2 day] := by
    rw [htext, splitOn_append (minus_notMem fun c hc => isDigit_decimal hc),
      splitOn_append (minus_notMem fun c hc => isDigit_pad2 hc),
      splitOn_of_not_mem (minus_notMem fun c hc => isDigit_pad2 hc)]
  simp only [dateDay, hparts, number_decimal, number_pad2]
  exact congrArg some hdays

end SshPanelVpn.Panel

import Mathlib.Algebra.GroupWithZero.Nat
import Mathlib.Data.List.Nodup
import Mathlib.Data.List.Perm.Subperm

/-! Lists as tables: what an entry is after one entry was changed or one was added. -/
namespace Indexed

variable {α : Type} {l : List α} {f : α → α} {a b : α} {i j : Nat}

theorem getElem?_modify_some (h : (l.modify i f)[j]? = some b) :
    ∃ a, l[j]? = some a ∧ b = if i = j then f a else a := by
  rw [List.getElem?_modify] at h
  cases ha : l[j]? with
  | none => simp [ha] at h
  | some a => exact ⟨a, rfl, by simpa [ha] using h.symm⟩

/-- An entry after a change is the changed one or another as it was. -/
theorem getElem?_modify_cases (ha : l[i]? = some a) (h : (l.modify i f)[j]? = some b) :
    (j = i ∧ b = f a) ∨ (j ≠ i ∧ l[j]? = some b) := by
  obtain ⟨a', ha', rfl⟩ := getElem?_modify_some h
  by_cases hij : i = j
  · subst hij
    rw [ha, Option.some.injEq] at ha'
    rw [← ha', if_pos rfl]
    exact .inl ⟨rfl, rfl⟩
  · rw [if_neg hij]
    exact .inr ⟨Ne.symm hij, ha'⟩

theorem getElem?_modify_of_some (h : l[j]? = some a) :
    (l.modify i f)[j]? = some (if i = j then f a else a) := by
  rw [List.getElem?_modify, h]
  rfl

theorem getElem?_modify_self (f : α → α) (h : l[i]? = some a) : (l.modify i f)[i]? = some (f a) := by
  rw [getElem?_modify_of_some h, if_pos rfl]

theorem map_modify {β : Type} {g : α → β} (h : ∀ a, g (f a) = g a) : (l.modify i f).map g = l.map g := by
  induction l generalizing i with
  | nil => simp
  | cons a l ih => cases i <;> simp [h, ih]

theorem getElem?_append_one (h : (l ++ [a])[j]? = some b) :
    l[j]? = some b ∨ (j = l.length ∧ b = a) := by
  rcases Nat.lt_trichotomy j l.length with hj | hj | hj
  · rw [List.getElem?_append_left hj] at h
    exact .inl h
  · subst hj
    exact .inr ⟨rfl, by simpa using h.symm⟩
  · rw [List.getElem?_append_right (Nat.le_of_lt hj)] at h
    have hlen : 1 ≤ j - l.length := by omega
    simp [List.getElem?_eq_none (l := [a]) hlen] at h

theorem getElem?_append_of_some (h : l[j]? = some a) : (l ++ [b])[j]? = some a := by
  obtain ⟨hj, -⟩ := List.getElem?_eq_some_iff.mp h
  rw [List.getElem?_append_left hj, h]

/-- One more entry meets `p` after a change that makes one meet it. -/
theorem countP_modify_succ {p : α → Bool} (ha : l[i]? = some a) (hp : p a = false)
    (hf : p (f a) = true) : (l.modify i f).countP p = l.countP p + 1 := by
  induction l generalizing i with
  | nil => simp at ha
  | cons b l ih =>
    cases i with
    | zero =>
      obtain rfl : b = a := by simpa using ha
      simp [hp, hf]
    | succ i =>
      have htail := ih (i := i) (by simpa using ha)
      simp only [List.modify_succ_cons, List.countP_cons, htail]
      omega

/-- Counting entries by their places, of which there may be more. -/
theorem countP_eq_range {p : α → Bool} {n : Nat} (h : l.length ≤ n) :
    l.countP p = (List.range n).countP fun i => (l[i]?).any p := by
  induction l generalizing n with
  | nil => simp
  | cons a l ih =>
    rw [List.length_cons] at h
    obtain ⟨n, rfl⟩ : ∃ m, n = m + 1 := ⟨n - 1, by omega⟩
    rw [List.countP_cons, ih (Nat.le_of_succ_le_succ h), List.range_succ_eq_map, List.countP_cons,
      List.countP_map]
    simp [Function.comp_def]

/-- A list that follows another one entry by entry stays its beginning. -/
theorem snoc_isPrefix {m : List α} (h : l <+: m) (ha : m[l.length]? = some a) : l ++ [a] <+: m := by
  obtain ⟨rest, rfl⟩ := h
  cases rest with
  | nil => simp at ha
  | cons b rest =>
    obtain rfl : b = a := by simpa using ha
    exact ⟨rest, by simp⟩

/-- Where no two entries have one key and each that meets `p` has its key in the other table, the other
table has as many that meet `q`. -/
theorem countP_le_of_key {β κ : Type} {m : List β} (key : α → κ) (key' : β → κ) {p : α → Bool}
    {q : β → Bool} (hkeys : (l.map key).Nodup)
    (h : ∀ a ∈ l, p a = true → ∃ b ∈ m, q b = true ∧ key' b = key a) : l.countP p ≤ m.countP q := by
  have hnodup : ((l.filter p).map key).Nodup := hkeys.sublist (List.filter_sublist.map key)
  have hsubset : (l.filter p).map key ⊆ (m.filter q).map key' := by
    intro k hk
    obtain ⟨a, ha, rfl⟩ := List.mem_map.mp hk
    obtain ⟨hmem, hp⟩ := List.mem_filter.mp ha
    obtain ⟨b, hb, hq, hkey⟩ := h a hmem hp
    exact List.mem_map.mpr ⟨b, List.mem_filter.mpr ⟨hb, hq⟩, hkey⟩
  have hlength := (hnodup.subperm hsubset).length_le
  rw [List.length_map, List.length_map] at hlength
  rw [List.countP_eq_length_filter, List.countP_eq_length_filter]
  exact hlength

/-- Where no two entries have one key, the entry of a key is found. -/
theorem find?_key_iff {κ : Type} [DecidableEq κ] {key : α → κ} {k : κ} (hkeys : (l.map key).Nodup) :
    l.find? (fun a => key a = k) = some a ↔ a ∈ l ∧ key a = k := by
  constructor
  · intro hfind
    exact ⟨List.mem_of_find?_eq_some hfind, by simpa using List.find?_some hfind⟩
  · rintro ⟨hmem, rfl⟩
    cases hfind : l.find? fun b => decide (key b = key a) with
    | none => simpa using List.find?_eq_none.mp hfind a hmem
    | some b =>
      have hkey : key b = key a := by simpa using List.find?_some hfind
      exact congrArg some (List.inj_on_of_nodup_map hkeys (List.mem_of_find?_eq_some hfind) hmem hkey)

/-- Entries counted key by key. -/
theorem countP_by_key {κ : Type} [DecidableEq κ] (key : α → κ) (p : α → Bool) {ks : List κ}
    (hks : ks.Nodup) : l.countP p =
      (ks.map fun k => l.countP fun a => p a ∧ key a = k).sum + l.countP fun a => p a ∧ key a ∉ ks := by
  induction ks with
  | nil => simp
  | cons k ks ih =>
    obtain ⟨hnot, hks⟩ := List.nodup_cons.mp hks
    have hsplit : (l.countP fun a => decide (p a ∧ key a ∉ ks)) =
        (l.countP fun a => decide (p a ∧ key a = k)) + l.countP fun a => decide (p a ∧ key a ∉ k :: ks) := by
      clear ih
      induction l with
      | nil => rfl
      | cons a l ih =>
        simp only [List.countP_cons, ih]
        by_cases hk : key a = k
        · subst hk
          by_cases hp : p a = true <;> simp [hp, hnot]
          omega
        · by_cases hp : p a = true <;> by_cases hmem : key a ∈ ks <;> simp [hp, hk, hmem]
          omega
    rw [List.map_cons, List.sum_cons, ih hks, hsplit]
    omega

end Indexed

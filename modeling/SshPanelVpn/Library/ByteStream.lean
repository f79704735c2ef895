import SshPanelVpn.Library.Bytes

/-! Readers that hand out a byte stream in pieces of their own choosing, and reading an exact
number of bytes from them. -/
namespace ByteStream

open Octets

variable {σ ε : Type}

/-- A reader with the stream it stands for. A successful read takes its bytes off the front; it
may return fewer than asked, even none, but only finitely often in a row. -/
structure Reader (σ ε : Type) where
  read : σ → Nat → Except ε Bytes × σ
  pending : σ → Bytes
  weight : σ → Nat
  read_ok : ∀ {s n b t}, read s n = (.ok b, t) → pending s = b ++ pending t ∧ b.length ≤ n
  read_weight : ∀ {s n b t}, 0 < n → read s n = (.ok b, t) → weight t < weight s
  read_error : ∀ {s n e t}, read s n = (.error e, t) → pending s = []

namespace Reader

variable (R : Reader σ ε) {s t : σ} {n : Nat} {b : Bytes}

/-- The loop of `io.ReadFull`: `n` bytes are still missing, `got` have been read. The first
argument bounds the number of reads. -/
def readFullLoop : Nat → σ → Nat → Bytes → Except ε Bytes × σ
  | _, s, 0, got => (.ok got, s)
  | 0, s, _ + 1, got => (.ok got, s)
  | fuel + 1, s, n + 1, got =>
    match R.read s (n + 1) with
    | (.error e, t) => (.error e, t)
    | (.ok b, t) => readFullLoop fuel t (n + 1 - b.length) (got ++ b)

/-- `io.ReadFull` into a buffer of `n` bytes. -/
def readFull (s : σ) (n : Nat) : Except ε Bytes × σ := R.readFullLoop (R.weight s + 1) s n []

/-- Enough bytes are pending: the loop returns them and leaves the rest. -/
theorem readFullLoop_ok {fuel : Nat} (got : Bytes) (hf : R.weight s < fuel) (hn : n ≤ (R.pending s).length) :
    ∃ t, R.readFullLoop fuel s n got = (.ok (got ++ (R.pending s).take n), t) ∧
      R.pending t = (R.pending s).drop n ∧ R.weight t ≤ R.weight s := by
  induction fuel generalizing s n got with
  | zero => omega
  | succ fuel ih =>
    cases n with
    | zero => exact ⟨s, by simp [readFullLoop]⟩
    | succ n =>
      rcases h : R.read s (n + 1) with ⟨_ | b, t⟩
      · simp [R.read_error h] at hn
      · obtain ⟨hp, hb⟩ := R.read_ok h
        have hw := R.read_weight (Nat.succ_pos n) h
        have hl : (R.pending s).length = b.length + (R.pending t).length := by simp [hp]
        obtain ⟨u, hu, hpu, hwu⟩ := ih (s := t) (n := n + 1 - b.length) (got ++ b)
          (by omega) (by omega)
        refine ⟨u, ?_, ?_, by omega⟩
        · simp only [readFullLoop, h, hu, hp, List.take_append, List.append_assoc,
            List.take_of_length_le hb]
        · rw [hpu, hp, List.drop_append, List.drop_eq_nil_of_le hb, List.nil_append]

/-- Too few bytes are pending: the loop ends in the reader's error. -/
theorem readFullLoop_error {fuel : Nat} (got : Bytes) (hf : R.weight s < fuel)
    (hn : (R.pending s).length < n) : ∃ e t, R.readFullLoop fuel s n got = (.error e, t) := by
  induction fuel generalizing s n got with
  | zero => omega
  | succ fuel ih =>
    cases n with
    | zero => omega
    | succ n =>
      rcases h : R.read s (n + 1) with ⟨e | b, t⟩
      · exact ⟨e, t, by simp [readFullLoop, h]⟩
      · have hp := (R.read_ok h).1
        have hw := R.read_weight (Nat.succ_pos n) h
        have hl : (R.pending s).length = b.length + (R.pending t).length := by simp [hp]
        obtain ⟨e, u, hu⟩ := ih (s := t) (n := n + 1 - b.length) (got ++ b)
          (by omega) (by omega)
        exact ⟨e, u, by simp only [readFullLoop, h, hu]⟩

/-- However the reader cuts its stream, exactly the next `n` bytes are returned. -/
theorem readFull_ok (hn : n ≤ (R.pending s).length) :
    ∃ t, R.readFull s n = (.ok ((R.pending s).take n), t) ∧
      R.pending t = (R.pending s).drop n ∧ R.weight t ≤ R.weight s := by
  simpa [readFull] using R.readFullLoop_ok [] (Nat.lt_succ_self (R.weight s)) hn

theorem readFull_error (hn : (R.pending s).length < n) :
    ∃ e t, R.readFull s n = (.error e, t) :=
  R.readFullLoop_error [] (Nat.lt_succ_self (R.weight s)) hn

/-- What a successful `readFull` says about the stream. -/
theorem readFull_eq_ok (h : R.readFull s n = (.ok b, t)) :
    R.pending s = b ++ R.pending t ∧ b.length = n ∧ R.weight t ≤ R.weight s := by
  by_cases hn : n ≤ (R.pending s).length
  · obtain ⟨u, hu, hp, hw⟩ := R.readFull_ok hn
    rw [h] at hu
    obtain ⟨rfl, rfl⟩ : b = (R.pending s).take n ∧ t = u := by simpa using hu
    exact ⟨by rw [hp, List.take_append_drop], by simpa using hn, hw⟩
  · obtain ⟨e, u, hu⟩ := R.readFull_error (Nat.lt_of_not_le hn)
    simp [h] at hu

/-- A non-empty read makes the reader lighter, so loops over a reader end. -/
theorem readFull_weight (hn : 0 < n) (h : R.readFull s n = (.ok b, t)) :
    R.weight t < R.weight s := by
  obtain ⟨n, rfl⟩ : ∃ m, n = m + 1 := ⟨n - 1, by omega⟩
  rcases hr : R.read s (n + 1) with ⟨e | c, u⟩
  · simp [readFull, readFullLoop, hr] at h
  · have hw := R.read_weight hn hr
    have hp := (R.read_ok hr).1
    simp only [readFull, readFullLoop, hr] at h
    by_cases hl : n + 1 - c.length ≤ (R.pending u).length
    · obtain ⟨v, hv, _, hwv⟩ := R.readFullLoop_ok ([] ++ c) hw hl
      rw [h] at hv
      obtain ⟨-, rfl⟩ : b = _ ∧ t = v := by simpa using hv
      omega
    · obtain ⟨e, v, hv⟩ := R.readFullLoop_error ([] ++ c) hw (Nat.lt_of_not_le hl)
      rw [h] at hv
      cases hv

end Reader

end ByteStream

import Mathlib.Data.List.Basic
import Mathlib.Tactic.Ring

/-! Byte strings and the fixed-width integer encodings of wire formats. -/
namespace Octets

abbrev Bytes := List UInt8

/-- The low `k` base-256 digits of `n`, least significant first. -/
def leBytes : Nat → Nat → Bytes
  | 0, _ => []
  | k + 1, n => UInt8.ofNat n :: leBytes k (n / 256)

/-- The number a little-endian byte string stands for. -/
def leNat : Bytes → Nat
  | [] => 0
  | b :: bs => b.toNat + 256 * leNat bs

def beBytes (k n : Nat) : Bytes := (leBytes k n).reverse

def beNat (bs : Bytes) : Nat := leNat bs.reverse

@[simp] theorem length_leBytes (k n : Nat) : (leBytes k n).length = k := by
  induction k generalizing n with
  | zero => rfl
  | succ k ih => simp [leBytes, ih]

@[simp] theorem length_beBytes (k n : Nat) : (beBytes k n).length = k := by
  simp [beBytes]

theorem leNat_lt (bs : Bytes) : leNat bs < 256 ^ bs.length := by
  induction bs with
  | nil => simp [leNat]
  | cons b bs ih =>
    have hb := b.toNat_lt
    simp only [leNat, List.length_cons, Nat.pow_succ]
    omega

/-- Decoding keeps exactly the digits that were written. -/
theorem leNat_leBytes (k n : Nat) : leNat (leBytes k n) = n % 256 ^ k := by
  induction k generalizing n with
  | zero => simp [leBytes, leNat, Nat.mod_one]
  | succ k ih =>
    have hd : (UInt8.ofNat n).toNat = n % 256 := by simp
    rw [leBytes, leNat, ih, hd, Nat.pow_succ', Nat.mod_mul]

theorem leNat_leBytes_of_lt {k n : Nat} (h : n < 256 ^ k) : leNat (leBytes k n) = n := by
  rw [leNat_leBytes, Nat.mod_eq_of_lt h]

theorem beNat_beBytes_of_lt {k n : Nat} (h : n < 256 ^ k) : beNat (beBytes k n) = n := by
  simp [beNat, beBytes, leNat_leBytes_of_lt h]

/-- A byte string of `n` bytes drawn from a byte source. -/
def fill (byte : Nat → UInt8) (n : Nat) : Bytes := (List.range n).map byte

@[simp] theorem length_fill (byte : Nat → UInt8) (n : Nat) : (fill byte n).length = n := by
  simp [fill]

end Octets

import SshPanelVpn.Library.Bytes

/-! Authenticated encryption as an interface: sealing, opening, and records of sealing calls. -/
namespace Sealing

open Octets

/-- An AEAD algorithm without associated data. -/
structure AeadAlg where
  sealText : (key nonce plaintext : Bytes) → Bytes
  openText : (key nonce ciphertext : Bytes) → Option Bytes

/-- Opening inverts sealing, and a ciphertext is longer than its plaintext by the tag. -/
structure AeadAlg.Correct (A : AeadAlg) (overhead : Nat) : Prop where
  openText_sealText : ∀ key nonce plaintext,
    A.openText key nonce (A.sealText key nonce plaintext) = some plaintext
  length_sealText : ∀ key nonce plaintext,
    (A.sealText key nonce plaintext).length = plaintext.length + overhead

/-- The algorithm that hides nothing: the plaintext followed by a tag of `overhead` zeros. -/
def nullAead (overhead : Nat) : AeadAlg where
  sealText _ _ plaintext := plaintext ++ List.replicate overhead 0
  openText _ _ ciphertext :=
    let size := ciphertext.length - overhead
    if ciphertext.drop size = List.replicate overhead 0 then some (ciphertext.take size) else none

theorem nullAead_correct (overhead : Nat) : (nullAead overhead).Correct overhead where
  openText_sealText key nonce plaintext := by simp [nullAead]
  length_sealText key nonce plaintext := by simp [nullAead]

/-- One sealing call with everything that went in and came out. -/
structure SealCall where
  key : Bytes
  nonce : Bytes
  plaintext : Bytes
  ciphertext : Bytes
  deriving DecidableEq, Repr

/-- The pair that must never occur twice under one algorithm. -/
def SealCall.site (c : SealCall) : Bytes × Bytes := (c.key, c.nonce)

end Sealing

import SshPanelVpn.Library.Sealing

/-! `internal/protocol/crypto.go`: the session cipher with its two nonce counters. -/
namespace SshPanelVpn.ShadowLink

open Octets Sealing

/-- A Go call that does not return a value: the text of its error, or of its panic. -/
inductive Fault where
  | error (text : String)
  | panic (text : String)
  deriving DecidableEq, Repr

abbrev Result := Except Fault

/-- `errors.New` in the error position of a return. -/
def failWith {α : Type} (text : String) : Result α := .error (.error text)

/-- What `crypto/rand` yields at one place of the code: the number that `rand.Int` reduces below
its bound, and the bytes that `rand.Read` fills a buffer with. -/
structure Draw where
  int : Nat
  byte : Nat → UInt8

abbrev nonceSize : Nat := 12
abbrev keySize : Nat := 32
abbrev aeadOverhead : Nat := 16

/-- `type CipherSuite byte`. -/
abbrev CipherSuite := UInt8

def cipherChaCha20Poly1305 : CipherSuite := 0x01
def cipherAES256GCM : CipherSuite := 0x02

/-- The longest plaintext that `Seal` takes: 2^32 - 2 blocks of 16 bytes under GCM. -/
def sealLimit (suite : CipherSuite) : Nat :=
  if suite = cipherAES256GCM then (2 ^ 32 - 2) * 16 else 2 ^ 38 - 64

/-- The two AEAD algorithms `NewSessionCipher` chooses from. -/
structure AeadSuites where
  chacha20poly1305 : AeadAlg
  aes256gcm : AeadAlg

/-- A `cipher.AEAD` value: an algorithm with its key. -/
structure Aead where
  alg : AeadAlg
  key : Bytes

structure SessionCipher where
  aead : Aead
  sendNonce : UInt64
  recvNonce : UInt64
  suite : CipherSuite
  key_length : aead.key.length = keySize

def newSessionCipher (A : AeadSuites) (key : Bytes) (suite : CipherSuite) :
    Result SessionCipher :=
  if h : key.length = keySize then
    if suite = cipherChaCha20Poly1305 then
      .ok ⟨⟨A.chacha20poly1305, key⟩, 0, 0, suite, h⟩
    else if suite = cipherAES256GCM then
      .ok ⟨⟨A.aes256gcm, key⟩, 0, 0, suite, h⟩
    else
      failWith "unsupported cipher suite"
  else
    failWith "key must be 32 bytes"

/-- The algorithm that hides nothing under both names, for concrete runs. -/
def nullSuites : AeadSuites := ⟨nullAead aeadOverhead, nullAead aeadOverhead⟩

def zeroDraw : Result Draw := .ok ⟨0, fun _ => 0⟩

/-- A fresh cipher over the algorithm that hides nothing. -/
def nullCipher : SessionCipher :=
  ⟨⟨nullAead aeadOverhead, List.replicate 32 0⟩, 0, 0, cipherChaCha20Poly1305, rfl⟩

def detectBestCipher : CipherSuite := cipherChaCha20Poly1305

/-- `binary.LittleEndian.PutUint64` into the first 8 of 12 zero bytes. -/
def nonceBytes (seq : UInt64) : Bytes := leBytes 8 seq.toNat ++ List.replicate 4 0

/-- `binary.LittleEndian.Uint64(nonce[:8])`. -/
def nonceSeq (nonce : Bytes) : UInt64 := UInt64.ofNat (leNat (nonce.take 8))

namespace SessionCipher

/-- The atomic add and the nonce it yields. -/
def nextSendNonce (sc : SessionCipher) : Bytes × SessionCipher :=
  let added := sc.sendNonce + 1
  (nonceBytes (added - 1), { sc with sendNonce := added })

/-- The error of `Encrypt` is always nil. That `Seal` panics beyond its limit is left to the one
caller that puts no bound on its plaintext. -/
def encrypt (sc : SessionCipher) (plaintext : Bytes) : Bytes × SessionCipher :=
  let (nonce, sc) := sc.nextSendNonce
  let ciphertext := sc.aead.alg.sealText sc.aead.key nonce plaintext
  (nonce ++ ciphertext, sc)

/-- The receive counter is stored before `Open` has authenticated the header. -/
def decrypt (sc : SessionCipher) (data : Bytes) : Result Bytes × SessionCipher :=
  if data.length < nonceSize + aeadOverhead then
    (failWith "ciphertext too short", sc)
  else
    let nonce := data.take nonceSize
    let ciphertext := data.drop nonceSize
    let recvSeq := nonceSeq nonce
    let expected := sc.recvNonce
    if recvSeq < expected then
      (failWith "nonce replay detected", sc)
    else
      let sc := { sc with recvNonce := recvSeq + 1 }
      match sc.aead.alg.openText sc.aead.key nonce ciphertext with
      | some plaintext => (.ok plaintext, sc)
      | none => (failWith "chacha20poly1305: message authentication failed", sc)

end SessionCipher

/-! Nonces. -/

@[simp] theorem length_nonceBytes (seq : UInt64) : (nonceBytes seq).length = nonceSize := by
  simp [nonceBytes, nonceSize]

@[simp] theorem nonceSeq_nonceBytes (seq : UInt64) : nonceSeq (nonceBytes seq) = seq := by
  have h : (nonceBytes seq).take 8 = leBytes 8 seq.toNat := by
    rw [nonceBytes, List.take_left' (length_leBytes 8 _)]
  rw [nonceSeq, h, leNat_leBytes_of_lt (by simpa using seq.toNat_lt), UInt64.ofNat_toNat]

theorem nonceBytes_injective : Function.Injective nonceBytes := by
  intro a b h
  rw [← nonceSeq_nonceBytes a, h, nonceSeq_nonceBytes]

theorem nonceSeq_take (data : Bytes) : nonceSeq (data.take nonceSize) = nonceSeq data := by
  simp [nonceSeq, nonceSize, List.take_take]

/-! What the two operations do to a cipher. -/

namespace SessionCipher

variable {sc : SessionCipher} {data : Bytes}

/-- The sealing call that `Encrypt` makes. -/
def sealCall (sc : SessionCipher) (plaintext : Bytes) : SealCall where
  key := sc.aead.key
  nonce := nonceBytes sc.sendNonce
  plaintext := plaintext
  ciphertext := sc.aead.alg.sealText sc.aead.key (nonceBytes sc.sendNonce) plaintext

/-- The cipher after one sealing call. -/
def afterSeal (sc : SessionCipher) : SessionCipher := { sc with sendNonce := sc.sendNonce + 1 }

@[simp] theorem afterSeal_suite : sc.afterSeal.suite = sc.suite := rfl
@[simp] theorem afterSeal_aead : sc.afterSeal.aead = sc.aead := rfl
@[simp] theorem afterSeal_recvNonce : sc.afterSeal.recvNonce = sc.recvNonce := rfl
@[simp] theorem afterSeal_sendNonce : sc.afterSeal.sendNonce = sc.sendNonce + 1 := rfl

theorem encrypt_eq (sc : SessionCipher) (plaintext : Bytes) :
    sc.encrypt plaintext =
      ((sc.sealCall plaintext).nonce ++ (sc.sealCall plaintext).ciphertext, sc.afterSeal) := by
  have hs : sc.sendNonce + 1 - 1 = sc.sendNonce := UInt64.add_sub_cancel _ _
  simp [encrypt, nextSendNonce, sealCall, afterSeal, hs]

/-- The bytes are long enough and not below the receive counter, so `Open` is reached. -/
def ReachesOpen (sc : SessionCipher) (data : Bytes) : Prop :=
  nonceSize + aeadOverhead ≤ data.length ∧ sc.recvNonce ≤ nonceSeq data

instance : Decidable (sc.ReachesOpen data) := inferInstanceAs (Decidable (_ ∧ _))

/-- What `Open` makes of the bytes under the cipher's key. -/
def opened (sc : SessionCipher) (data : Bytes) : Option Bytes :=
  sc.aead.alg.openText sc.aead.key (data.take nonceSize) (data.drop nonceSize)

theorem decrypt_snd (sc : SessionCipher) (data : Bytes) : (sc.decrypt data).2 =
    if sc.ReachesOpen data then { sc with recvNonce := nonceSeq data + 1 } else sc := by
  simp only [decrypt, ReachesOpen, nonceSeq_take, ← Nat.not_lt]
  split
  · simp_all
  · split
    · simp_all
    · split <;> simp_all

theorem decrypt_ok_iff {plaintext : Bytes} : (sc.decrypt data).1 = .ok plaintext ↔
    sc.ReachesOpen data ∧ sc.opened data = some plaintext := by
  simp only [decrypt, ReachesOpen, opened, nonceSeq_take, failWith, ← Nat.not_lt]
  split
  · simp_all
  · split
    · simp_all
    · split <;> simp_all

@[simp] theorem decrypt_aead : (sc.decrypt data).2.aead = sc.aead := by
  rw [decrypt_snd]; split <;> rfl

@[simp] theorem decrypt_suite : (sc.decrypt data).2.suite = sc.suite := by
  rw [decrypt_snd]; split <;> rfl

@[simp] theorem decrypt_sendNonce : (sc.decrypt data).2.sendNonce = sc.sendNonce := by
  rw [decrypt_snd]; split <;> rfl

end SessionCipher

end SshPanelVpn.ShadowLink

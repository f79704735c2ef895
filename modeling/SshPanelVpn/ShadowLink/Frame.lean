import SshPanelVpn.Library.ByteStream
import SshPanelVpn.ShadowLink.Crypto

/-! `internal/protocol/frame.go`: frames, their padded plaintext layout and their length-prefixed
transport. -/
namespace SshPanelVpn.ShadowLink

open Octets Sealing ByteStream

/-- `type FrameType byte`; a decoded frame may carry a type the code gives no name to. -/
abbrev FrameType := UInt8

def frameData : FrameType := 0x01
def frameKeepalive : FrameType := 0x02
def frameControl : FrameType := 0x03
def frameClose : FrameType := 0x04

abbrev frameHeaderSize : Nat := 4
abbrev maxPaddingSize : Nat := 255
abbrev maxPayloadSize : Nat := 65535

/-- The cap of `ReadFrameFrom` on the length prefix. -/
abbrev maxFrameLen : Nat :=
  maxPayloadSize + maxPaddingSize + frameHeaderSize + nonceSize + aeadOverhead + 256

structure Frame where
  type : FrameType
  payload : Bytes
  deriving DecidableEq, Repr

def newDataFrame (payload : Bytes) : Frame := ⟨frameData, payload⟩
def newCloseFrame : Frame := ⟨frameClose, []⟩
def newControlFrame (payload : Bytes) : Frame := ⟨frameControl, payload⟩

/-- `max-min` is taken in 64-bit arithmetic; `rand.Int` panics when the bound is not positive. -/
def randInt (min max : Int) (draw : Result Draw) : Result Int :=
  if max ≤ min then
    .ok min
  else
    let bound := Int.bmod (max - min) (2 ^ 64)
    if bound ≤ 0 then
      .error (.panic "crypto/rand: argument to Int is <= 0")
    else
      match draw with
      | .error e => .error e
      | .ok d => .ok (min + d.int % bound)

/-- The longest slice that `makeslice` does not refuse on a 64-bit machine. -/
abbrev maxAlloc : Int := 2 ^ 48

/-- The padding that `EncodeFrame` draws: its size, then its bytes. -/
def framePadding (minPad maxPad : Int) (draw : Result Draw) : Result Bytes :=
  match randInt minPad maxPad draw with
  | .error e => .error e
  | .ok padSize =>
    if padSize < 0 ∨ maxAlloc < padSize then
      .error (.panic "runtime error: makeslice: len out of range")
    else if padSize = 0 then
      -- `rand.Read` of an empty slice asks the reader for nothing
      .ok []
    else
      match draw with
      | .error e => .error e
      | .ok d => .ok (fill d.byte padSize.toNat)

/-- `type(1) + padLen(1) + dataLen(2) + padding + payload`; both lengths are cut to their fields. -/
def framePlaintext (f : Frame) (padding : Bytes) : Bytes :=
  f.type :: UInt8.ofNat padding.length :: leBytes 2 f.payload.length ++ padding ++ f.payload

/-- What a plaintext of this size makes the second `make` of `EncodeFrame`, or `Seal`, panic with. -/
def plaintextPanic (suite : CipherSuite) (size : Nat) : Option String :=
  if maxAlloc < size then
    some "runtime error: makeslice: len out of range"
  else if sealLimit suite < size then
    some (if suite = cipherAES256GCM then "crypto/cipher: message too large for GCM"
      else "chacha20poly1305: plaintext too large")
  else
    none

/-- No goroutine recovers from a panic, so the counter that `Encrypt` has advanced before one of
`Seal` is not kept. -/
def encodeFrame (f : Frame) (cipher : SessionCipher) (minPad maxPad : Int)
    (draw : Result Draw) : Result Bytes × SessionCipher :=
  if f.payload.length > maxPayloadSize then
    (failWith "payload exceeds maximum size", cipher)
  else
    match framePadding minPad maxPad draw with
    | .error e => (.error e, cipher)
    | .ok padding =>
      match plaintextPanic cipher.suite (frameHeaderSize + padding.length + f.payload.length) with
      | some text => (.error (.panic text), cipher)
      | none =>
        let (data, cipher) := cipher.encrypt (framePlaintext f padding)
        (.ok data, cipher)

/-- The part of `DecodeFrame` after decryption. -/
def parseFrame (plaintext : Bytes) : Result Frame :=
  if plaintext.length < frameHeaderSize then
    failWith "decrypted frame too short"
  else
    let frameType := plaintext.getD 0 0
    let padLen := (plaintext.getD 1 0).toNat
    let dataLen := leNat ((plaintext.drop 2).take 2)
    if plaintext.length < frameHeaderSize + padLen + dataLen then
      failWith "frame data truncated"
    else
      .ok ⟨frameType, (plaintext.drop (frameHeaderSize + padLen)).take dataLen⟩

def decodeFrame (data : Bytes) (cipher : SessionCipher) : Result Frame × SessionCipher :=
  match cipher.decrypt data with
  | (.error e, cipher) => (.error e, cipher)
  | (.ok plaintext, cipher) => (parseFrame plaintext, cipher)

section Reading

variable {σ : Type} (R : Reader σ Fault)

/-- The bytes that `ReadFrameFrom` hands to `DecodeFrame`. -/
def readFrameBuf (r : σ) : Result Bytes × σ :=
  match R.readFull r 4 with
  | (.error e, r) => (.error e, r)
  | (.ok lenBuf, r) =>
    let frameLen := leNat lenBuf
    if frameLen > maxFrameLen then
      (failWith "frame length exceeds maximum", r)
    else
      R.readFull r frameLen

def readFrameFrom (r : σ) (cipher : SessionCipher) : Result Frame × σ × SessionCipher :=
  match readFrameBuf R r with
  | (.error e, r) => (.error e, r, cipher)
  | (.ok frameBuf, r) =>
    let (frame, cipher) := decodeFrame frameBuf cipher
    (frame, r, cipher)

end Reading

/-- An `io.Writer`: one call of `Write`. -/
abbrev Writer (τ : Type) := τ → Bytes → Result Unit × τ

/-- The length prefix and the frame go out in one write. -/
def writeFrameTo {τ : Type} (write : Writer τ) (w : τ) (f : Frame) (cipher : SessionCipher)
    (minPad maxPad : Int) (draw : Result Draw) : Result Unit × τ × SessionCipher :=
  match encodeFrame f cipher minPad maxPad draw with
  | (.error e, cipher) => (.error e, w, cipher)
  | (.ok data, cipher) =>
    let (err, w) := write w (leBytes 4 data.length ++ data)
    (err, w, cipher)

/-! The limits on a plaintext. -/

theorem plaintextPanic_eq_none {suite : CipherSuite} {size : Nat} :
    plaintextPanic suite size = none ↔ size ≤ sealLimit suite := by
  unfold plaintextPanic sealLimit
  simp only [maxAlloc]
  split_ifs <;> simp <;> omega

/-- Everything up to the lower limit, of GCM, passes under either suite. -/
theorem le_sealLimit (suite : CipherSuite) {size : Nat} (h : size ≤ 2 ^ 36 - 32) :
    size ≤ sealLimit suite := by
  unfold sealLimit
  split <;> omega

theorem sealLimit_le (suite : CipherSuite) : sealLimit suite ≤ 2 ^ 38 - 64 := by
  unfold sealLimit
  split <;> omega

/-! The plaintext layout round trip. -/

theorem length_framePlaintext (f : Frame) (padding : Bytes) :
    (framePlaintext f padding).length = frameHeaderSize + padding.length + f.payload.length := by
  simp [framePlaintext, frameHeaderSize]
  omega

theorem parseFrame_framePlaintext {f : Frame} {padding : Bytes}
    (hpad : padding.length ≤ maxPaddingSize) (hpay : f.payload.length ≤ maxPayloadSize) :
    parseFrame (framePlaintext f padding) = .ok f := by
  have hlen := length_framePlaintext f padding
  have hpadLen : ((framePlaintext f padding).getD 1 0).toNat = padding.length := by
    simp only [framePlaintext, List.cons_append, List.getD_cons_succ, List.getD_cons_zero]
    rw [UInt8.toNat_ofNat', Nat.mod_eq_of_lt (by simp only [maxPaddingSize] at hpad; omega)]
  have hdata : leNat (((framePlaintext f padding).drop 2).take 2) = f.payload.length := by
    have ht : ((framePlaintext f padding).drop 2).take 2 = leBytes 2 f.payload.length := by
      simp [framePlaintext, List.take_left' (length_leBytes 2 _)]
    rw [ht, leNat_leBytes_of_lt (by simp only [maxPayloadSize] at hpay; omega)]
  have hdrop : (framePlaintext f padding).drop (frameHeaderSize + padding.length) = f.payload := by
    apply List.drop_left'
    simp [frameHeaderSize]
    omega
  have htype : (framePlaintext f padding).getD 0 0 = f.type := rfl
  have hlong : ¬ (framePlaintext f padding).length < frameHeaderSize := by omega
  have hfits : ¬ (framePlaintext f padding).length <
      frameHeaderSize + padding.length + f.payload.length := by omega
  simp only [parseFrame, hpadLen, hdata, hdrop, htype, hlong, hfits, if_false,
    List.take_of_length_le le_rfl]

end SshPanelVpn.ShadowLink

import SshPanelVpn.ShadowLink.FrameStream

/-! The `WriteFrameTo` calls of `internal/proxy` and `internal/obfuscation`. -/
namespace SshPanelVpn.ShadowLink

open Octets

structure PaddingConfig where
  minBytes : Int
  maxBytes : Int
  enabled : Bool
  deriving DecidableEq, Repr

def randomPaddingSize (cfg : PaddingConfig) (draw : Result Draw) : Result Int :=
  if cfg.enabled = false then
    .ok 0
  else
    let diff := Int.bmod (cfg.maxBytes - cfg.minBytes) (2 ^ 64)
    if diff ≤ 0 then
      .ok cfg.minBytes
    else
      match draw with
      | .error e => .error e
      | .ok d => .ok (cfg.minBytes + d.int % diff)

def generatePadding (size : Int) (draw : Result Draw) : Result Bytes :=
  if size ≤ 0 then
    .ok []
  else if maxAlloc < size then
    .error (.panic "runtime error: makeslice: len out of range")
  else
    match draw with
    | .error e => .error e
    | .ok d => .ok (fill d.byte size.toNat)

/-- A tick of a shaper that has not been stopped. -/
def sendFakeFrame (cfg : PaddingConfig) (sizeDraw bytesDraw draw : Result Draw) :
    Option WriteCall :=
  match randomPaddingSize cfg sizeDraw with
  | .error _ => none
  | .ok padSize =>
    match generatePadding padSize bytesDraw with
    | .error _ => none
    | .ok padding => some ⟨⟨frameKeepalive, padding⟩, cfg.minBytes, cfg.maxBytes, draw⟩

def encodeStreamID (id : UInt32) : Bytes := beBytes 4 id.toNat

/-- Its callers hand over at least four bytes. -/
def decodeStreamID (b : Bytes) : UInt32 := UInt32.ofNat (beNat (b.take 4))

/-- The `|` between network and address in a control frame. -/
def connectSeparator : UInt8 := 0x7c

def dialThroughTunnelWrite (cfg : PaddingConfig) (id : UInt32) (network addr : Bytes)
    (draw : Result Draw) : WriteCall :=
  ⟨⟨frameControl, encodeStreamID id ++ (network ++ connectSeparator :: addr)⟩,
    cfg.minBytes, cfg.maxBytes, draw⟩

def tunnelConnWrite (cfg : PaddingConfig) (id : UInt32) (p : Bytes) (draw : Result Draw) :
    Option WriteCall :=
  if p.length = 0 then
    none
  else
    some ⟨newDataFrame (encodeStreamID id ++ p), cfg.minBytes, cfg.maxBytes, draw⟩

def tunnelConnCloseWrite (id : UInt32) (draw : Result Draw) : WriteCall :=
  ⟨⟨frameClose, encodeStreamID id⟩, 0, 16, draw⟩

def clientCloseWrite (draw : Result Draw) : WriteCall := ⟨newCloseFrame, 0, 16, draw⟩

abbrev relayBufSize : Nat := 32 * 1024

/-- One turn of the `relayUpstream` loop: `upstream.Read` fills the buffer from what is there. -/
def relayUpstreamWrite (cfg : PaddingConfig) (id : UInt32) (available : Bytes)
    (draw : Result Draw) : Option WriteCall :=
  let buf := available.take relayBufSize
  if 0 < buf.length then
    some ⟨newDataFrame (encodeStreamID id ++ buf), cfg.minBytes, cfg.maxBytes, draw⟩
  else
    none

@[simp] theorem length_encodeStreamID (id : UInt32) : (encodeStreamID id).length = 4 := by
  simp [encodeStreamID]

theorem decodeStreamID_encodeStreamID (id : UInt32) (rest : Bytes) :
    decodeStreamID (encodeStreamID id ++ rest) = id := by
  rw [decodeStreamID, List.take_left' (length_encodeStreamID id), encodeStreamID,
    beNat_beBytes_of_lt (by simpa using id.toNat_lt), UInt32.ofNat_toNat]

/-! What a `WriteFrameTo` call seals. -/

/-- The plaintext that `EncodeFrame` seals under the suite of every session, if it gets that far. -/
def WriteCall.plaintext (c : WriteCall) : Option Bytes :=
  if c.frame.payload.length > maxPayloadSize then
    none
  else
    match framePadding c.minPad c.maxPad c.draw with
    | .error _ => none
    | .ok padding =>
      match plaintextPanic detectBestCipher
        (frameHeaderSize + padding.length + c.frame.payload.length) with
      | some _ => none
      | none => some (framePlaintext c.frame padding)

/-- `EncodeFrame` with the arguments of the call. -/
def WriteCall.encode (c : WriteCall) (cipher : SessionCipher) : Result Bytes × SessionCipher :=
  encodeFrame c.frame cipher c.minPad c.maxPad c.draw

theorem WriteCall.eq_of_plaintext {c : WriteCall} {p : Bytes} (h : c.plaintext = some p) :
    c.frame.payload.length ≤ maxPayloadSize ∧ ∃ padding,
      framePadding c.minPad c.maxPad c.draw = .ok padding ∧ framePlaintext c.frame padding = p ∧
        frameHeaderSize + padding.length + c.frame.payload.length ≤ sealLimit detectBestCipher := by
  unfold WriteCall.plaintext at h
  split at h
  · cases h
  · next hpay =>
    refine ⟨Nat.not_lt.mp hpay, ?_⟩
    cases hpad : framePadding c.minPad c.maxPad c.draw with
    | error e => simp [hpad] at h
    | ok padding =>
      simp only [hpad] at h
      split at h
      · cases h
      · next hsize => exact ⟨padding, rfl, Option.some.inj h, plaintextPanic_eq_none.mp hsize⟩

theorem WriteCall.encode_of_some {c : WriteCall} {p : Bytes} (h : c.plaintext = some p)
    {cipher : SessionCipher} (hs : cipher.suite = detectBestCipher) : c.encode cipher =
      (.ok ((cipher.sealCall p).nonce ++ (cipher.sealCall p).ciphertext), cipher.afterSeal) := by
  obtain ⟨hpay, padding, hpad, rfl, hsize⟩ := WriteCall.eq_of_plaintext h
  rw [WriteCall.encode, encodeFrame_of_padding hpay hpad (by rw [hs]; exact hsize), sealedFrame]

/-- Under any suite a call seals its plaintext, or fails with the counter where it was. -/
theorem WriteCall.encode_cases (c : WriteCall) (cipher : SessionCipher) :
    (∃ e, c.encode cipher = (.error e, cipher)) ∨ ∃ p, c.plaintext = some p ∧ c.encode cipher =
      (.ok ((cipher.sealCall p).nonce ++ (cipher.sealCall p).ciphertext), cipher.afterSeal) := by
  by_cases hpay : c.frame.payload.length > maxPayloadSize
  · exact .inl ⟨_, by rw [WriteCall.encode, encodeFrame, if_pos hpay]; rfl⟩
  · cases hpad : framePadding c.minPad c.maxPad c.draw with
    | error e => exact .inl ⟨e, by rw [WriteCall.encode, encodeFrame, if_neg hpay, hpad]⟩
    | ok padding =>
      cases hsize : plaintextPanic cipher.suite
          (frameHeaderSize + padding.length + c.frame.payload.length) with
      | some text =>
        exact .inl ⟨.panic text, by simp only [WriteCall.encode, encodeFrame, if_neg hpay, hpad, hsize]⟩
      | none =>
        have hle := plaintextPanic_eq_none.mp hsize
        -- the suite of a session has the higher limit
        have hbest : plaintextPanic detectBestCipher
            (frameHeaderSize + padding.length + c.frame.payload.length) = none :=
          plaintextPanic_eq_none.mpr (hle.trans (sealLimit_le _))
        refine .inr ⟨framePlaintext c.frame padding, ?_, ?_⟩
        · simp only [WriteCall.plaintext, if_neg hpay, hpad, hbest]
        · rw [WriteCall.encode, encodeFrame_of_padding (Nat.not_lt.mp hpay) hpad hle, sealedFrame]

theorem WriteCall.encode_of_none {c : WriteCall} (h : c.plaintext = none)
    (cipher : SessionCipher) : ∃ e, c.encode cipher = (.error e, cipher) := by
  rcases c.encode_cases cipher with he | ⟨p, hp, -⟩
  · exact he
  · rw [h] at hp
    cases hp

end SshPanelVpn.ShadowLink

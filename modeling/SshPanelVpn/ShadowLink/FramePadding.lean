import SshPanelVpn.ShadowLink.FrameStream

/-! Frames with any padding that a configuration can ask for. -/
namespace SshPanelVpn.ShadowLink

open Octets Sealing

namespace Frame

/-- What `EncodeFrame` makes of a frame `DecodeFrame` turns back into it; an error is fine, a panic is
not. `crypto/rand` yields a draw, or the text of the error of a call that is made and fails. -/
def ReadsBack (f : Frame) (sc rc : SessionCipher) (minPad maxPad : Int64)
    (draw : Except String Draw) : Prop :=
  match (encodeFrame f sc minPad.toInt maxPad.toInt (draw.mapError .error)).1 with
  | .ok data => (decodeFrame data rc).1 = .ok f
  | .error (.error _) => True
  | .error (.panic _) => False

/-- The size of the padding is one that `make` and `Seal` take, and either fits into its byte or leaves
the same bytes where the decoder takes the payload from. -/
def PaddingFits (f : Frame) (suite : CipherSuite) (minPad maxPad : Int64)
    (draw : Except String Draw) : Prop :=
  let min := minPad.toInt
  let max := maxPad.toInt
  max - min < 2 ^ 63 ∧
    match draw with
    | .error _ => min < max ∨ 0 ≤ min ∧ min ≤ maxAlloc
    | .ok d =>
      let size := if max ≤ min then min else min + d.int % (max - min)
      0 ≤ size ∧ frameHeaderSize + size + f.payload.length ≤ sealLimit suite ∧
        (size ≤ maxPaddingSize ∨
          ((fill d.byte size.toNat ++ f.payload).drop (size.toNat % 256)).take f.payload.length =
            f.payload)

end Frame

/-- The decoder skips the padding modulo 256. -/
theorem parseFrame_wrapped {f : Frame} (padding : Bytes) (hpay : f.payload.length ≤ maxPayloadSize) :
    parseFrame (framePlaintext f padding) =
      .ok ⟨f.type, ((padding ++ f.payload).drop (padding.length % 256)).take f.payload.length⟩ := by
  have hlen := length_framePlaintext f padding
  have hpadLen : ((framePlaintext f padding).getD 1 0).toNat = padding.length % 256 := by
    simp only [framePlaintext, List.cons_append, List.getD_cons_succ, List.getD_cons_zero]
    rw [UInt8.toNat_ofNat']
  have hdata : leNat (((framePlaintext f padding).drop 2).take 2) = f.payload.length := by
    have ht : ((framePlaintext f padding).drop 2).take 2 = leBytes 2 f.payload.length := by
      simp [framePlaintext, List.take_left' (length_leBytes 2 _)]
    rw [ht, leNat_leBytes_of_lt (by simp only [maxPayloadSize] at hpay; omega)]
  have hdrop : (framePlaintext f padding).drop (frameHeaderSize + padding.length % 256) =
      (padding ++ f.payload).drop (padding.length % 256) := by
    have hhead : (framePlaintext f padding).drop frameHeaderSize = padding ++ f.payload := by
      rw [framePlaintext, List.append_assoc]
      apply List.drop_left'
      simp
    rw [← List.drop_drop, hhead]
  have hmod := Nat.mod_le padding.length 256
  have hlong : ¬ (framePlaintext f padding).length < frameHeaderSize := by omega
  have hfits : ¬ (framePlaintext f padding).length <
      frameHeaderSize + padding.length % 256 + f.payload.length := by omega
  have htype : (framePlaintext f padding).getD 0 0 = f.type := rfl
  simp only [parseFrame, hpadLen, hdata, hdrop, htype, hlong, hfits, if_false]

/-- The bound of `rand.Int`, in 64-bit arithmetic. -/
theorem bmod_bound (minPad maxPad : Int64) (h : minPad.toInt < maxPad.toInt) :
    (maxPad.toInt - minPad.toInt < 2 ^ 63 ∧
      Int.bmod (maxPad.toInt - minPad.toInt) (2 ^ 64) = maxPad.toInt - minPad.toInt) ∨
    (¬ maxPad.toInt - minPad.toInt < 2 ^ 63 ∧
      Int.bmod (maxPad.toInt - minPad.toInt) (2 ^ 64) ≤ 0) := by
  have hmin := minPad.le_toInt
  have hmax := maxPad.toInt_lt
  by_cases hsmall : maxPad.toInt - minPad.toInt < 2 ^ 63
  · refine .inl ⟨hsmall, Int.bmod_eq_of_le_mul_two ?_ ?_⟩ <;> omega
  · refine .inr ⟨hsmall, ?_⟩
    rw [Int.bmod_def]
    omega

section Encoding

variable {f : Frame} {sc rc : SessionCipher} {minPad maxPad : Int64} {draw : Except String Draw}

/-- A frame that is sealed comes back with the bytes behind the skipped padding. -/
theorem readsBack_of_padding {padding : Bytes} (hpay : f.payload.length ≤ maxPayloadSize)
    (hA : sc.aead.alg.Correct aeadOverhead) (hk : rc.aead = sc.aead)
    (hn : rc.recvNonce = sc.sendNonce)
    (h : framePadding minPad.toInt maxPad.toInt (draw.mapError .error) = .ok padding)
    (hsize : frameHeaderSize + padding.length + f.payload.length ≤ sealLimit sc.suite) :
    f.ReadsBack sc rc minPad maxPad draw ↔
      ((padding ++ f.payload).drop (padding.length % 256)).take f.payload.length = f.payload := by
  have hdecode : (decodeFrame (sealedFrame sc f padding) rc).1 =
      .ok ⟨f.type, ((padding ++ f.payload).drop (padding.length % 256)).take f.payload.length⟩ := by
    rw [decodeFrame, decrypt_sealedFrame hA hk hn]
    exact parseFrame_wrapped padding hpay
  rw [Frame.ReadsBack, encodeFrame_of_padding hpay h hsize]
  dsimp only
  rw [hdecode]
  obtain ⟨type, payload⟩ := f
  simp

theorem readsBack_of_error {text : String} (hpay : f.payload.length ≤ maxPayloadSize)
    (h : framePadding minPad.toInt maxPad.toInt (draw.mapError .error) = .error (.error text)) :
    f.ReadsBack sc rc minPad maxPad draw := by
  simp [Frame.ReadsBack, encodeFrame, Nat.not_lt.mpr hpay, h]

theorem not_readsBack_of_panic {text : String} (hpay : f.payload.length ≤ maxPayloadSize)
    (h : framePadding minPad.toInt maxPad.toInt (draw.mapError .error) = .error (.panic text)) :
    ¬ f.ReadsBack sc rc minPad maxPad draw := by
  simp [Frame.ReadsBack, encodeFrame, Nat.not_lt.mpr hpay, h]

/-- Padding that `make` grants, and with which the plaintext is beyond its limit or that of `Seal`. -/
theorem not_readsBack_of_long {padding : Bytes} (hpay : f.payload.length ≤ maxPayloadSize)
    (h : framePadding minPad.toInt maxPad.toInt (draw.mapError .error) = .ok padding)
    (hsize : sealLimit sc.suite < frameHeaderSize + padding.length + f.payload.length) :
    ¬ f.ReadsBack sc rc minPad maxPad draw := by
  cases hp : plaintextPanic sc.suite (frameHeaderSize + padding.length + f.payload.length) with
  | none =>
    have hle := plaintextPanic_eq_none.mp hp
    omega
  | some text =>
    intro hr
    simp only [Frame.ReadsBack, encodeFrame, if_neg (Nat.not_lt.mpr hpay), h, hp] at hr

/-- A frame with padding of a size that has been chosen. -/
theorem readsBack_of_size {d : Draw} {size : Int} (hpay : f.payload.length ≤ maxPayloadSize)
    (hA : sc.aead.alg.Correct aeadOverhead) (hk : rc.aead = sc.aead)
    (hn : rc.recvNonce = sc.sendNonce)
    (h : randInt minPad.toInt maxPad.toInt (.ok d) = .ok size) :
    f.ReadsBack sc rc minPad maxPad (.ok d) ↔ 0 ≤ size ∧
      frameHeaderSize + size + f.payload.length ≤ sealLimit sc.suite ∧
      (size ≤ maxPaddingSize ∨
        ((fill d.byte size.toNat ++ f.payload).drop (size.toNat % 256)).take f.payload.length =
          f.payload) := by
  have hlimit := sealLimit_le sc.suite
  by_cases hsize : size < 0 ∨ maxAlloc < size
  · have hpanic : framePadding minPad.toInt maxPad.toInt ((.ok d : Except String Draw).mapError .error) =
        .error (.panic "runtime error: makeslice: len out of range") := by
      simp only [framePadding, Except.mapError, h, if_pos hsize]
    refine iff_of_false (not_readsBack_of_panic hpay hpanic) ?_
    rintro ⟨h0, h1, -⟩
    simp only [maxAlloc] at hsize
    omega
  · have hpadding : framePadding minPad.toInt maxPad.toInt
        ((.ok d : Except String Draw).mapError .error) = .ok (fill d.byte size.toNat) := by
      simp only [framePadding, Except.mapError, h, if_neg hsize]
      split
      · next hzero =>
        rw [hzero]
        rfl
      · rfl
    have hlen : ((fill d.byte size.toNat).length : Int) = size := by
      rw [length_fill]
      omega
    by_cases hlong : sealLimit sc.suite <
        frameHeaderSize + (fill d.byte size.toNat).length + f.payload.length
    · refine iff_of_false (not_readsBack_of_long hpay hpadding hlong) ?_
      rintro ⟨-, h1, -⟩
      omega
    · rw [readsBack_of_padding hpay hA hk hn hpadding (by omega), length_fill]
      have hrange : 0 ≤ size ∧ frameHeaderSize + size + f.payload.length ≤ sealLimit sc.suite := by
        omega
      simp only [hrange, true_and]
      refine ⟨.inr, ?_⟩
      rintro (hsmall | hsame)
      · have hmod : size.toNat % 256 = size.toNat := by
          apply Nat.mod_eq_of_lt
          simp only [maxPaddingSize] at hsmall
          omega
        rw [hmod, List.drop_left' (length_fill _ _), List.take_length]
      · exact hsame

/-- What `EncodeFrame` seals is read back, or it fails, exactly where the padding fits. -/
theorem readsBack_iff (hpay : f.payload.length ≤ maxPayloadSize)
    (hA : sc.aead.alg.Correct aeadOverhead) (hk : rc.aead = sc.aead)
    (hn : rc.recvNonce = sc.sendNonce) :
    f.ReadsBack sc rc minPad maxPad draw ↔ f.PaddingFits sc.suite minPad maxPad draw := by
  unfold Frame.PaddingFits
  dsimp only
  by_cases hle : maxPad.toInt ≤ minPad.toInt
  · have hsmall : maxPad.toInt - minPad.toInt < 2 ^ 63 := by omega
    have hnot : ¬ minPad.toInt < maxPad.toInt := by omega
    have hrand : ∀ r, randInt minPad.toInt maxPad.toInt r = .ok minPad.toInt := by
      intro r
      rw [randInt, if_pos hle]
    simp only [hsmall, true_and]
    cases draw with
    | ok d =>
      simp only [if_pos hle]
      exact readsBack_of_size hpay hA hk hn (hrand _)
    | error text =>
      simp only [hnot, false_or]
      by_cases hsize : minPad.toInt < 0 ∨ maxAlloc < minPad.toInt
      · have hpanic : framePadding minPad.toInt maxPad.toInt
            ((.error text : Except String Draw).mapError .error) =
              .error (.panic "runtime error: makeslice: len out of range") := by
          simp only [framePadding, hrand, if_pos hsize]
        refine iff_of_false (not_readsBack_of_panic hpay hpanic) ?_
        omega
      · have hfits : 0 ≤ minPad.toInt ∧ minPad.toInt ≤ maxAlloc := by omega
        refine iff_of_true ?_ hfits
        by_cases hzero : minPad.toInt = 0
        · -- no padding, and nothing is read for it
          have hnone : framePadding minPad.toInt maxPad.toInt
              ((.error text : Except String Draw).mapError .error) = .ok [] := by
            simp only [framePadding, hrand, if_neg hsize, if_pos hzero]
          have hlimit : frameHeaderSize + ([] : Bytes).length + f.payload.length ≤ sealLimit sc.suite :=
            plaintext_le_sealLimit sc.suite hpay (by simp)
          rw [readsBack_of_padding hpay hA hk hn hnone hlimit]
          simp
        · have herror : framePadding minPad.toInt maxPad.toInt
              ((.error text : Except String Draw).mapError .error) = .error (.error text) := by
            simp only [framePadding, hrand, if_neg hsize, if_neg hzero, Except.mapError]
          exact readsBack_of_error hpay herror
  · have hlt : minPad.toInt < maxPad.toInt := by omega
    rcases bmod_bound minPad maxPad hlt with ⟨hsmall, hbound⟩ | ⟨hlarge, hbound⟩
    · have hpos : ¬ maxPad.toInt - minPad.toInt ≤ 0 := by omega
      simp only [hsmall, true_and]
      cases draw with
      | ok d =>
        simp only [if_neg hle]
        refine readsBack_of_size hpay hA hk hn ?_
        simp only [randInt, if_neg hle, hbound, if_neg hpos]
      | error text =>
        have herror : framePadding minPad.toInt maxPad.toInt
            ((.error text : Except String Draw).mapError .error) = .error (.error text) := by
          simp only [framePadding, randInt, if_neg hle, hbound, if_neg hpos, Except.mapError]
        exact iff_of_true (readsBack_of_error hpay herror) (.inl hlt)
    · have hpanic : framePadding minPad.toInt maxPad.toInt (draw.mapError .error) =
          .error (.panic "crypto/rand: argument to Int is <= 0") := by
        simp only [framePadding, randInt, if_neg hle, if_pos hbound]
      refine iff_of_false (not_readsBack_of_panic hpay hpanic) ?_
      exact fun h => hlarge h.1

end Encoding

/-- Between 64 and 512 bytes of padding are drawn, here 64. -/
theorem readsBack_shaped : (newDataFrame [1, 2, 3]).ReadsBack nullCipher nullCipher 64 512
    (.ok ⟨0, fun _ => 7⟩) :=
  (readsBack_iff (by decide) (nullAead_correct _) rfl rfl).mpr
    ⟨by decide, by decide, by decide, .inl (by decide)⟩

/-- Here 320: the decoder skips 64 bytes, and takes the next three of the padding for the payload. -/
theorem not_readsBack : ¬ ∀ (f : Frame) (sc rc : SessionCipher) (minPad maxPad : Int64)
    (draw : Except String Draw), f.payload.length ≤ maxPayloadSize →
      sc.aead.alg.Correct aeadOverhead → rc.aead = sc.aead → rc.recvNonce = sc.sendNonce →
        f.ReadsBack sc rc minPad maxPad draw := by
  intro h
  obtain ⟨d, hd⟩ : ∃ d : Draw, d = ⟨256, fun _ => 7⟩ := ⟨_, rfl⟩
  have hreads := h (newDataFrame [1, 2, 3]) nullCipher nullCipher 64 512 (.ok d) (by decide)
    (nullAead_correct _) rfl rfl
  have hrand : randInt (64 : Int64).toInt (512 : Int64).toInt (.ok d) = .ok 320 := by
    rw [hd]
    decide
  obtain ⟨-, -, hsize | hsame⟩ :=
    (readsBack_of_size (by decide) (nullAead_correct _) rfl rfl hrand).mp hreads
  · revert hsize
    decide
  · rw [hd] at hsame
    revert hsame
    decide

end SshPanelVpn.ShadowLink

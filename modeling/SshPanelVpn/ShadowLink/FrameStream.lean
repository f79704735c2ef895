import SshPanelVpn.Library.Runs
import SshPanelVpn.ShadowLink.Frame
import SshPanelVpn.ShadowLink.Transport

/-! Frames written by concurrent goroutines over one cipher and read back by the peer. -/
namespace SshPanelVpn.ShadowLink

open Octets Sealing ByteStream Runs

/-! One frame through both ends. -/

section OneFrame

variable {sc rc : SessionCipher} {f : Frame} {padding data : Bytes}

/-- The encrypted form of a frame whose padding has been drawn. -/
def sealedFrame (sc : SessionCipher) (f : Frame) (padding : Bytes) : Bytes :=
  (sc.sealCall (framePlaintext f padding)).nonce ++
    (sc.sealCall (framePlaintext f padding)).ciphertext

theorem encodeFrame_of_padding {minPad maxPad : Int} {draw : Result Draw}
    (hpay : f.payload.length ≤ maxPayloadSize) (hpad : framePadding minPad maxPad draw = .ok padding)
    (hsize : frameHeaderSize + padding.length + f.payload.length ≤ sealLimit sc.suite) :
    encodeFrame f sc minPad maxPad draw = (.ok (sealedFrame sc f padding), sc.afterSeal) := by
  simp [encodeFrame, Nat.not_lt.mpr hpay, hpad, plaintextPanic_eq_none.mpr hsize,
    SessionCipher.encrypt_eq, sealedFrame]

/-- Payload and padding that fit their fields are far below the limits. -/
theorem plaintext_le_sealLimit (suite : CipherSuite) (hpay : f.payload.length ≤ maxPayloadSize)
    (hpad : padding.length ≤ maxPaddingSize) :
    frameHeaderSize + padding.length + f.payload.length ≤ sealLimit suite := by
  apply le_sealLimit
  simp only [frameHeaderSize, maxPayloadSize, maxPaddingSize] at *
  omega

theorem length_sealedFrame (sc : SessionCipher) (f : Frame) (padding : Bytes)
    (hA : sc.aead.alg.Correct aeadOverhead) :
    (sealedFrame sc f padding).length =
      nonceSize + (frameHeaderSize + padding.length + f.payload.length + aeadOverhead) := by
  simp [sealedFrame, SessionCipher.sealCall, hA.length_sealText, length_framePlaintext]

/-- The longest encrypted frame, below the cap of the reader. -/
theorem sealedFrame_le (hA : sc.aead.alg.Correct aeadOverhead)
    (hpay : f.payload.length ≤ maxPayloadSize) (hpad : padding.length ≤ maxPaddingSize) :
    (sealedFrame sc f padding).length ≤ 65822 := by
  have h := length_sealedFrame sc f padding hA
  simp only [nonceSize, frameHeaderSize, aeadOverhead, maxPayloadSize, maxPaddingSize] at h hpay hpad
  omega

/-- With the counters in step, `Decrypt` returns the plaintext and the counters stay in step. -/
theorem decrypt_sealedFrame (hA : sc.aead.alg.Correct aeadOverhead) (hk : rc.aead = sc.aead)
    (hn : rc.recvNonce = sc.sendNonce) :
    rc.decrypt (sealedFrame sc f padding) =
      (.ok (framePlaintext f padding), { rc with recvNonce := sc.sendNonce + 1 }) := by
  have hlen := length_sealedFrame sc f padding hA
  have htake : (sealedFrame sc f padding).take nonceSize = nonceBytes sc.sendNonce :=
    List.take_left' (length_nonceBytes _)
  have hdrop : (sealedFrame sc f padding).drop nonceSize =
      (sc.sealCall (framePlaintext f padding)).ciphertext :=
    List.drop_left' (length_nonceBytes _)
  have hseq : nonceSeq (sealedFrame sc f padding) = sc.sendNonce := by
    rw [← nonceSeq_take, htake, nonceSeq_nonceBytes]
  have hreach : rc.ReachesOpen (sealedFrame sc f padding) := by
    refine ⟨by omega, ?_⟩
    rw [hseq, hn]
    exact UInt64.le_refl _
  have hopen : rc.opened (sealedFrame sc f padding) = some (framePlaintext f padding) := by
    rw [SessionCipher.opened, htake, hdrop, hk]
    exact hA.openText_sealText _ _ _
  ext1
  · exact SessionCipher.decrypt_ok_iff.mpr ⟨hreach, hopen⟩
  · rw [SessionCipher.decrypt_snd, if_pos hreach, hseq]

theorem decodeFrame_sealedFrame (hA : sc.aead.alg.Correct aeadOverhead) (hk : rc.aead = sc.aead)
    (hn : rc.recvNonce = sc.sendNonce) (hpay : f.payload.length ≤ maxPayloadSize)
    (hpad : padding.length ≤ maxPaddingSize) :
    decodeFrame (sealedFrame sc f padding) rc =
      (.ok f, { rc with recvNonce := sc.sendNonce + 1 }) := by
  simp [decodeFrame, decrypt_sealedFrame hA hk hn, parseFrame_framePlaintext hpad hpay]

/-- The two `ReadFull` calls take the length prefix and the frame, however the reader cuts them. -/
theorem readFrameBuf_ok {σ : Type} (R : Reader σ Fault) {r : σ} {rest : Bytes}
    (hlen : data.length ≤ maxFrameLen)
    (hr : R.pending r = leBytes 4 data.length ++ data ++ rest) :
    ∃ r', readFrameBuf R r = (.ok data, r') ∧ R.pending r' = rest := by
  have h4 : (leBytes 4 data.length).length = 4 := length_leBytes 4 _
  obtain ⟨t, ht, hpt, -⟩ := R.readFull_ok (s := r) (n := 4) (by simp [hr])
  have hp : (R.pending r).take 4 = leBytes 4 data.length := by
    rw [hr, List.append_assoc, List.take_left' h4]
  have hd : R.pending t = data ++ rest := by
    rw [hpt, hr, List.append_assoc, List.drop_left' h4]
  obtain ⟨u, hu, hpu, -⟩ := R.readFull_ok (s := t) (n := data.length) (by simp [hd])
  have hnat : leNat (leBytes 4 data.length) = data.length := by
    apply leNat_leBytes_of_lt
    have : maxFrameLen = 66078 := rfl
    omega
  refine ⟨u, ?_, ?_⟩
  · simp only [readFrameBuf, ht, hp, hnat, Nat.not_lt.mpr hlen, if_false, hu, hd,
      List.take_left' rfl]
  · rw [hpu, hd, List.drop_left' rfl]

theorem readFrameFrom_sealedFrame {σ : Type} (R : Reader σ Fault) {r : σ} {rest : Bytes}
    (hA : sc.aead.alg.Correct aeadOverhead) (hk : rc.aead = sc.aead)
    (hn : rc.recvNonce = sc.sendNonce) (hpay : f.payload.length ≤ maxPayloadSize)
    (hpad : padding.length ≤ maxPaddingSize)
    (hr : R.pending r = leBytes 4 (sealedFrame sc f padding).length ++
      sealedFrame sc f padding ++ rest) :
    ∃ r', readFrameFrom R r rc = (.ok f, r', { rc with recvNonce := sc.sendNonce + 1 }) ∧
      R.pending r' = rest := by
  have hlen : (sealedFrame sc f padding).length ≤ maxFrameLen :=
    (sealedFrame_le hA hpay hpad).trans (by decide)
  obtain ⟨r', hbuf, hp⟩ := readFrameBuf_ok R hlen hr
  refine ⟨r', ?_, hp⟩
  simp [readFrameFrom, hbuf, decodeFrame_sealedFrame hA hk hn hpay hpad]

end OneFrame

/-! Many goroutines writing through one cipher. `WriteMu` makes each call one step. -/

/-- The arguments of one `WriteFrameTo` call and what its padding draw yields. -/
structure WriteCall where
  frame : Frame
  minPad : Int
  maxPad : Int
  draw : Result Draw

/-- The payload fits and the padding drawn is at most 255 bytes. -/
def WriteCall.Admissible (c : WriteCall) : Prop :=
  c.frame.payload.length ≤ maxPayloadSize ∧
    ∃ padding, framePadding c.minPad c.maxPad c.draw = .ok padding ∧
      padding.length ≤ maxPaddingSize

/-- `link` holds the WebSocket messages written so far, `written` the frames with their encrypted
bytes, `todo i` the calls goroutine `i` has still to make. -/
structure Writers (ι : Type) where
  todo : ι → List WriteCall
  cipher : SessionCipher
  link : List Bytes
  written : List (Frame × Bytes)

/-- One `Write` of a connection that delivers in order is one message on the link. -/
def linkWriter : Writer (List Bytes) := fun link msg => (.ok (), link ++ [msg])

section Writers

variable {ι : Type} [DecidableEq ι]

/-- A fresh link: nothing written, every call still to be made. -/
def Writers.start (cipher : SessionCipher) (todo : ι → List WriteCall) : Writers ι :=
  ⟨todo, cipher, [], []⟩

def Writers.perform (s : Writers ι) (i : ι) (c : WriteCall) (rest : List WriteCall) : Writers ι :=
  let (_, link, cipher) :=
    writeFrameTo linkWriter s.link c.frame s.cipher c.minPad c.maxPad c.draw
  { todo := Function.update s.todo i rest
    cipher := cipher
    link := link
    written := match encodeFrame c.frame s.cipher c.minPad c.maxPad c.draw with
      | (.ok data, _) => s.written ++ [(c.frame, data)]
      | (.error _, _) => s.written }

/-- Any goroutine with a call left may make it next. -/
inductive WriteStep : Writers ι → ι × WriteCall → Writers ι → Prop where
  | write {s : Writers ι} (i : ι) (c : WriteCall) (rest : List WriteCall) :
      s.todo i = c :: rest → WriteStep s (i, c) (s.perform i c rest)

/-- The frames and encrypted bytes that successive calls on one cipher put on the wire. -/
def emitted : SessionCipher → List WriteCall → List (Frame × Bytes)
  | _, [] => []
  | cipher, c :: calls =>
    match encodeFrame c.frame cipher c.minPad c.maxPad c.draw with
    | (.ok data, cipher) => (c.frame, data) :: emitted cipher calls
    | (.error _, cipher) => emitted cipher calls

/-- The WebSocket message that carries one frame. -/
def wireMessage (fd : Frame × Bytes) : Bytes := leBytes 4 fd.2.length ++ fd.2

variable {s t : Writers ι} {cs : List (ι × WriteCall)} {sc rc : SessionCipher} {c : WriteCall}
  {calls : List WriteCall}

/-- Whatever the interleaving, the link carries the calls of the run in their order. -/
theorem run_written (h : Run WriteStep s cs t) :
    t.written = s.written ++ emitted s.cipher (cs.map Prod.snd) ∧
      t.link = s.link ++ (emitted s.cipher (cs.map Prod.snd)).map wireMessage := by
  induction h with
  | refl => simp [emitted]
  | @step s _ _ _ _ hst _ ih =>
    cases hst with
    | write i c rest htodo =>
      obtain ⟨ihw, ihl⟩ := ih
      rw [ihw, ihl]
      rcases he : encodeFrame c.frame s.cipher c.minPad c.maxPad c.draw with ⟨_ | data, cipher⟩ <;>
        simp [Writers.perform, writeFrameTo, linkWriter, emitted, he, wireMessage]

/-- The calls of a run come from the goroutines' lists. -/
theorem run_calls (h : Run WriteStep s cs t) : ∀ ic ∈ cs, ic.2 ∈ s.todo ic.1 := by
  induction h with
  | refl => simp
  | @step s _ _ _ _ hst _ ih =>
    cases hst with
    | write i c rest htodo =>
      intro ic hic
      rcases List.mem_cons.mp hic with rfl | hic
      · simp [htodo]
      · have hm := ih ic hic
        by_cases hi : ic.1 = i
        · have : ic.2 ∈ rest := by simpa [Writers.perform, hi] using hm
          simp [hi, htodo, this]
        · simpa [Writers.perform, hi] using hm

theorem emitted_cons_of_admissible (sc : SessionCipher) (calls : List WriteCall)
    (hc : c.Admissible) : ∃ padding, padding.length ≤ maxPaddingSize ∧ emitted sc (c :: calls) =
      (c.frame, sealedFrame sc c.frame padding) :: emitted sc.afterSeal calls := by
  obtain ⟨hpay, padding, hpad, hl⟩ := hc
  have he : encodeFrame c.frame sc c.minPad c.maxPad c.draw =
      (.ok (sealedFrame sc c.frame padding), sc.afterSeal) :=
    encodeFrame_of_padding hpay hpad (plaintext_le_sealLimit _ hpay hl)
  exact ⟨padding, hl, by simp [emitted, he]⟩

theorem emitted_frames (hc : ∀ c ∈ calls, c.Admissible) :
    (emitted sc calls).map Prod.fst = calls.map WriteCall.frame := by
  induction calls generalizing sc with
  | nil => rfl
  | cons c calls ih =>
    obtain ⟨padding, -, he⟩ := emitted_cons_of_admissible sc calls (hc c (by simp))
    simp [he, ih fun c hm => hc c (List.mem_cons_of_mem _ hm)]

end Writers

/-! The peer reads frame after frame. -/

section Reading

variable {σ : Type} (R : Reader σ Fault)

/-- `n` successive `ReadFrameFrom` calls: what each returns and how many bytes it takes. -/
def readFrames : Nat → σ → SessionCipher → List (Result Frame × Nat)
  | 0, _, _ => []
  | n + 1, r, cipher =>
    match readFrameFrom R r cipher with
    | (frame, r', cipher) =>
      (frame, (R.pending r).length - (R.pending r').length) :: readFrames n r' cipher

variable {calls : List WriteCall} {sc rc : SessionCipher} {r : σ} {rest : Bytes}

theorem readFrames_emitted (hA : sc.aead.alg.Correct aeadOverhead) (hk : rc.aead = sc.aead)
    (hn : rc.recvNonce = sc.sendNonce) (hc : ∀ c ∈ calls, c.Admissible)
    (hr : R.pending r = ((emitted sc calls).map wireMessage).flatten ++ rest) :
    readFrames R calls.length r rc =
      (emitted sc calls).map fun fd => (.ok fd.1, 4 + fd.2.length) := by
  induction calls generalizing sc rc r with
  | nil => rfl
  | cons c calls ih =>
    obtain ⟨padding, hpad, he⟩ := emitted_cons_of_admissible sc calls (hc c (by simp))
    have hpay := (hc c (by simp)).1
    rw [he] at hr ⊢
    simp only [List.map_cons, List.flatten_cons, wireMessage] at hr
    rw [List.append_assoc] at hr
    obtain ⟨r', hread, hp⟩ := readFrameFrom_sealedFrame R hA hk hn hpay hpad hr
    have hrest : readFrames R calls.length r' { rc with recvNonce := sc.sendNonce + 1 } =
        (emitted sc.afterSeal calls).map fun fd => (.ok fd.1, 4 + fd.2.length) :=
      ih hA hk rfl (fun c hm => hc c (List.mem_cons_of_mem _ hm)) hp
    have htaken : (R.pending r).length - (R.pending r').length =
        4 + (sealedFrame sc c.frame padding).length := by
      rw [hr, hp]
      simp
      omega
    simp only [List.length_cons, readFrames, hread, htaken, hrest, List.map_cons]

/-- Every frame of an admissible call is a WebSocket message below the read limit. -/
theorem wireMessage_le (hA : sc.aead.alg.Correct aeadOverhead)
    (hc : ∀ c ∈ calls, c.Admissible) :
    ∀ msg ∈ (emitted sc calls).map wireMessage, msg.length ≤ maxMessageSize := by
  induction calls generalizing sc with
  | nil => simp [emitted]
  | cons c calls ih =>
    obtain ⟨padding, hpad, he⟩ := emitted_cons_of_admissible sc calls (hc c (by simp))
    have hpay := (hc c (by simp)).1
    have hlen := sealedFrame_le hA hpay hpad
    intro msg hm
    rw [he, List.map_cons, List.mem_cons] at hm
    rcases hm with rfl | hm
    · simp only [wireMessage, List.length_append, length_leBytes, maxMessageSize]
      omega
    · exact ih (show sc.afterSeal.aead.alg.Correct aeadOverhead from hA)
        (fun c hm => hc c (List.mem_cons_of_mem _ hm)) msg hm

/-- Frames come back in write order with their types and payloads, each call taking exactly the
length prefix and the encrypted frame, from the peer's connection as from any other reader of the
same bytes. -/
theorem frames_read_back {ι : Type} [DecidableEq ι] {cipher : SessionCipher}
    {todo : ι → List WriteCall} {cs : List (ι × WriteCall)} {t : Writers ι}
    (hrun : Run WriteStep (Writers.start cipher todo) cs t)
    (hA : cipher.aead.alg.Correct aeadOverhead)
    (hc : ∀ i, ∀ c ∈ todo i, c.Admissible)
    (hk : rc.aead = cipher.aead) (hn : rc.recvNonce = cipher.sendNonce) :
    t.written.map Prod.fst = cs.map (fun ic => ic.2.frame) ∧
      (∀ {σ : Type} (R : Reader σ Fault) (r : σ), R.pending r = t.link.flatten →
        readFrames R cs.length r rc = t.written.map fun fd => (.ok fd.1, 4 + fd.2.length)) ∧
      ∀ limit, limit = 0 ∨ limit = maxMessageSize →
        readFrames WSConn.reader cs.length ⟨[], t.link, limit⟩ rc =
          t.written.map fun fd => (.ok fd.1, 4 + fd.2.length) := by
  obtain ⟨hw, hl⟩ := run_written hrun
  simp only [Writers.start, List.nil_append] at hw hl
  have hadm : ∀ c ∈ cs.map Prod.snd, c.Admissible := by
    intro c hm
    obtain ⟨ic, hic, rfl⟩ := List.mem_map.mp hm
    exact hc ic.1 ic.2 (run_calls hrun ic hic)
  have hread : ∀ {σ : Type} (R : Reader σ Fault) (r : σ), R.pending r = t.link.flatten →
      readFrames R cs.length r rc = t.written.map fun fd => (.ok fd.1, 4 + fd.2.length) := by
    intro σ R r hr
    have hp : R.pending r = ((emitted cipher (cs.map Prod.snd)).map wireMessage).flatten ++ [] := by
      rw [hr, hl, List.append_nil]
    have h := readFrames_emitted R hA hk hn hadm hp
    rwa [List.length_map, ← hw] at h
  refine ⟨?_, hread, ?_⟩
  · rw [hw, emitted_frames hadm, List.map_map]
    rfl
  · intro limit hlim
    apply hread WSConn.reader
    apply WSConn.pending_of_accepts
    intro msg hm
    rw [hl] at hm
    rcases hlim with rfl | rfl
    · exact Or.inl rfl
    · exact Or.inr (wireMessage_le hA hadm msg hm)

/-- A call writing `payload` as a data frame with one byte of padding. -/
def smallCall (payload : Bytes) : WriteCall := ⟨newDataFrame payload, 1, 1, .ok ⟨0, fun _ => 7⟩⟩

theorem smallCall_admissible {payload : Bytes} (h : payload.length ≤ maxPayloadSize) :
    (smallCall payload).Admissible :=
  ⟨h, [7], rfl, by decide⟩

/-- Two goroutines, the second writing first. -/
def twoWriters (b : Bool) : List WriteCall := if b then [smallCall [1, 2]] else [smallCall [3]]

theorem frames_read_back_twoWriters :
    let s := Writers.start nullCipher twoWriters
    let t := (s.perform true (smallCall [1, 2]) []).perform false (smallCall [3]) []
    t.written.map Prod.fst = [newDataFrame [1, 2], newDataFrame [3]] ∧
      readFrames WSConn.reader 2 ⟨[], t.link, 0⟩ nullCipher =
        t.written.map fun fd => (.ok fd.1, 4 + fd.2.length) := by
  have hadm : ∀ b, ∀ c ∈ twoWriters b, c.Admissible := by
    intro b c hc
    cases b <;> simp only [twoWriters, List.mem_singleton, if_true, Bool.false_eq_true, if_false]
      at hc <;> subst hc <;> exact smallCall_admissible (by decide)
  have h := frames_read_back
    (.step (.write true (smallCall [1, 2]) [] rfl)
      (.step (.write false (smallCall [3]) [] rfl) (.refl _)))
    (nullAead_correct aeadOverhead) hadm (show nullCipher.aead = nullCipher.aead from rfl) rfl
  exact ⟨h.1, h.2.2 0 (Or.inl rfl)⟩

end Reading

end SshPanelVpn.ShadowLink

import SshPanelVpn.ShadowLink.Tunnel

/-! `ServerRelay.relayLoop` and `Client.readLoop`: frames taken from a stream until one is
rejected or ends the loop. -/
namespace SshPanelVpn.ShadowLink

open Octets Sealing ByteStream Runs

/-- What a loop does with a frame: act on it, go on without acting, or return. -/
inductive Turn (α : Type) where
  | act (action : α)
  | skip
  | stop
  deriving DecidableEq, Repr

inductive RelayAction where
  | writeStream (id : UInt32) (data : Bytes)
  | connect (id : UInt32) (network addr : Bytes)
  | closeStream (id : UInt32)
  deriving DecidableEq, Repr

/-- `strings.SplitN(connectInfo, "|", 2)`, which must give two parts. -/
def splitConnectInfo (connectInfo : Bytes) : Option (Bytes × Bytes) :=
  match connectInfo.dropWhile (· != connectSeparator) with
  | [] => none
  | _ :: addr => some (connectInfo.takeWhile (· != connectSeparator), addr)

def handleDataFrame (frame : Frame) : Turn RelayAction :=
  if frame.payload.length < 4 then
    .skip
  else
    .act (.writeStream (decodeStreamID (frame.payload.take 4)) (frame.payload.drop 4))

def handleControlFrame (frame : Frame) : Turn RelayAction :=
  if frame.payload.length < 4 then
    .skip
  else
    match splitConnectInfo (frame.payload.drop 4) with
    | none => .skip
    | some (network, addr) =>
      .act (.connect (decodeStreamID (frame.payload.take 4)) network addr)

/-- The `switch` of `relayLoop`. -/
def relaySwitch (frame : Frame) : Turn RelayAction :=
  if frame.type = frameData then
    handleDataFrame frame
  else if frame.type = frameControl then
    handleControlFrame frame
  else if frame.type = frameKeepalive then
    .skip
  else if frame.type = frameClose then
    if 4 ≤ frame.payload.length then
      .act (.closeStream (decodeStreamID (frame.payload.take 4)))
    else
      .stop
  else
    .skip

/-- A write to the pipe of one SOCKS5 stream. -/
structure ClientAction where
  stream : UInt32
  data : Bytes
  deriving DecidableEq, Repr

/-- The `switch` of `readLoop`. -/
def readSwitch (frame : Frame) : Turn ClientAction :=
  if frame.type = frameData then
    if frame.payload.length < 4 then
      .skip
    else
      .act ⟨decodeStreamID (frame.payload.take 4), frame.payload.drop 4⟩
  else if frame.type = frameKeepalive then
    .skip
  else if frame.type = frameClose then
    .stop
  else
    .skip

/-- One turn of a loop, with the encrypted frame that the turn came from. -/
inductive LoopEvent (α : Type) where
  | took (frameBuf : Bytes) (turn : Turn α)
  | rejected (e : Fault)
  deriving DecidableEq, Repr

section Loop

variable {σ α : Type} (R : Reader σ Fault) (switch : Frame → Turn α)

/-- The shape of both loops; `ReadFrameFrom` stands in its two parts so that an event can name
the bytes it came from. The first argument bounds the number of turns. -/
def frameLoop : Nat → σ → SessionCipher → List (LoopEvent α)
  | 0, _, _ => []
  | fuel + 1, r, cipher =>
    match readFrameBuf R r with
    | (.error e, _) => [.rejected e]
    | (.ok frameBuf, r) =>
      match decodeFrame frameBuf cipher with
      | (.error e, _) => [.rejected e]
      | (.ok frame, cipher) =>
        match switch frame with
        | .stop => [.took frameBuf .stop]
        | turn => .took frameBuf turn :: frameLoop fuel r cipher

/-- Every frame takes at least its length prefix, so the reader's weight bounds the turns. -/
def relayLoop (r : σ) (cipher : SessionCipher) : List (LoopEvent RelayAction) :=
  frameLoop R relaySwitch (R.weight r + 1) r cipher

def readLoop (r : σ) (cipher : SessionCipher) : List (LoopEvent ClientAction) :=
  frameLoop R readSwitch (R.weight r + 1) r cipher

variable {R} {switch} {r r' : σ} {cipher : SessionCipher} {frameBuf : Bytes}

theorem readFrameBuf_weight (h : readFrameBuf R r = (.ok frameBuf, r')) :
    R.weight r' < R.weight r := by
  unfold readFrameBuf at h
  rcases h4 : R.readFull r 4 with ⟨e | lenBuf, t⟩
  · simp [h4] at h
  · have hw := R.readFull_weight (by decide) h4
    simp only [h4] at h
    split at h
    · simp [failWith] at h
    · have hr := (R.readFull_eq_ok h).2.2
      omega

/-- More fuel than the weight of the reader changes nothing: the loop has returned by then. -/
theorem frameLoop_fuel {m n : Nat} (hm : R.weight r < m) (hn : R.weight r < n) :
    frameLoop R switch m r cipher = frameLoop R switch n r cipher := by
  induction m generalizing n r cipher with
  | zero => omega
  | succ m ih =>
    cases n with
    | zero => omega
    | succ n =>
      rcases hb : readFrameBuf R r with ⟨e | frameBuf, r'⟩
      · simp [frameLoop, hb]
      · have hw := readFrameBuf_weight hb
        rcases hd : decodeFrame frameBuf cipher with ⟨e | frame, cipher'⟩
        · simp [frameLoop, hb, hd]
        · have hi : frameLoop R switch m r' cipher' = frameLoop R switch n r' cipher' :=
            ih (by omega) (by omega)
          simp only [frameLoop, hb, hd, hi]

/-- A decoded frame moves the receive counter past its header. -/
theorem decodeFrame_ok {frame : Frame} {cipher' : SessionCipher}
    (h : decodeFrame frameBuf cipher = (.ok frame, cipher')) :
    cipher.ReachesOpen frameBuf ∧ (cipher.opened frameBuf).isSome ∧
      cipher' = { cipher with recvNonce := nonceSeq frameBuf + 1 } := by
  unfold decodeFrame at h
  rcases hd : cipher.decrypt frameBuf with ⟨e | p, c⟩
  · simp [hd] at h
  · have hok : (cipher.decrypt frameBuf).1 = .ok p := by rw [hd]
    obtain ⟨hreach, ho⟩ := SessionCipher.decrypt_ok_iff.mp hok
    have hs := SessionCipher.decrypt_snd cipher frameBuf
    rw [if_pos hreach, hd] at hs
    simp only [hd, Prod.mk.injEq] at h
    exact ⟨hreach, by rw [ho]; rfl, by rw [← h.2, ← hs]⟩

/-- The sequence numbers of the frames that the loop takes up, in order. -/
def takenSeqs (events : List (LoopEvent α)) : List UInt64 :=
  events.filterMap fun
    | .took frameBuf _ => some (nonceSeq frameBuf)
    | .rejected _ => none

@[simp] theorem takenSeqs_took (frameBuf : Bytes) (turn : Turn α) (events : List (LoopEvent α)) :
    takenSeqs (.took frameBuf turn :: events) = nonceSeq frameBuf :: takenSeqs events := rfl

@[simp] theorem takenSeqs_rejected (e : Fault) (events : List (LoopEvent α)) :
    takenSeqs (.rejected e :: events) = takenSeqs events := rfl

@[simp] theorem takenSeqs_nil : takenSeqs ([] : List (LoopEvent α)) = [] := rfl

/-- The bytes of every frame that the loop takes up have been sealed. -/
def TookSealed (sealed : List SealCall) (events : List (LoopEvent α)) : Prop :=
  ∀ frameBuf turn, LoopEvent.took frameBuf turn ∈ events → ∃ c ∈ sealed, sealedMessage c = frameBuf

/-- Every frame that the loop takes up has a header whose successor does not wrap to zero. -/
def TakesBelowLast (events : List (LoopEvent α)) : Prop :=
  ∀ frameBuf turn, LoopEvent.took frameBuf turn ∈ events →
    (nonceSeq frameBuf + 1).toNat = (nonceSeq frameBuf).toNat + 1

theorem TakesBelowLast.tail {event : LoopEvent α} {events : List (LoopEvent α)}
    (h : TakesBelowLast (event :: events)) : TakesBelowLast events :=
  fun frameBuf turn hm => h frameBuf turn (List.mem_cons_of_mem _ hm)

/-- The counter carries the order: everything still to be taken is at or above it. -/
theorem frameLoop_taken (fuel : Nat) (r : σ) (cipher : SessionCipher)
    (hc : TakesBelowLast (frameLoop R switch fuel r cipher)) :
    (takenSeqs (frameLoop R switch fuel r cipher)).Pairwise (· < ·) ∧
      ∀ n ∈ takenSeqs (frameLoop R switch fuel r cipher), cipher.recvNonce ≤ n := by
  induction fuel generalizing r cipher with
  | zero => simp [frameLoop]
  | succ fuel ih =>
    rcases hb : readFrameBuf R r with ⟨e | frameBuf, r'⟩
    · simp [frameLoop, hb]
    · rcases hd : decodeFrame frameBuf cipher with ⟨e | frame, cipher'⟩
      · simp [frameLoop, hb, hd]
      · obtain ⟨hreach, -, rfl⟩ := decodeFrame_ok hd
        -- a turn that goes on: the rest of the loop starts above this header
        have hgo : ∀ turn, switch frame = turn → turn ≠ .stop →
            (takenSeqs (frameLoop R switch (fuel + 1) r cipher)).Pairwise (· < ·) ∧
              ∀ n ∈ takenSeqs (frameLoop R switch (fuel + 1) r cipher), cipher.recvNonce ≤ n := by
          intro turn ht hne
          have hloop : frameLoop R switch (fuel + 1) r cipher = .took frameBuf turn ::
              frameLoop R switch fuel r' { cipher with recvNonce := nonceSeq frameBuf + 1 } := by
            cases turn <;> simp_all [frameLoop]
          rw [hloop] at hc ⊢
          have hnext := hc frameBuf turn List.mem_cons_self
          obtain ⟨hp, hge⟩ := ih r' _ hc.tail
          have hlt : ∀ n ∈ takenSeqs (frameLoop R switch fuel r'
              { cipher with recvNonce := nonceSeq frameBuf + 1 }), nonceSeq frameBuf < n := by
            intro n hn
            have hle := UInt64.le_iff_toNat_le.mp (hge n hn)
            apply UInt64.lt_iff_toNat_lt.mpr
            simp only at hle
            omega
          have hrest : ∀ n ∈ takenSeqs (frameLoop R switch fuel r'
              { cipher with recvNonce := nonceSeq frameBuf + 1 }), cipher.recvNonce ≤ n := by
            intro n hn
            exact UInt64.le_of_lt (UInt64.lt_of_le_of_lt hreach.2 (hlt n hn))
          simp only [takenSeqs_took, List.pairwise_cons, List.mem_cons, forall_eq_or_imp]
          exact ⟨⟨hlt, hp⟩, hreach.2, hrest⟩
        cases ht : switch frame with
        | stop => simp [frameLoop, hb, hd, ht, hreach.2]
        | skip => exact hgo _ ht (by simp)
        | act action => exact hgo _ ht (by simp)

/-- A rejected frame is the last event of the loop. -/
theorem frameLoop_rejected (fuel : Nat) (r : σ) (cipher : SessionCipher)
    {before after : List (LoopEvent α)} {e : Fault}
    (h : frameLoop R switch fuel r cipher = before ++ LoopEvent.rejected e :: after) : after = [] := by
  induction fuel generalizing r cipher before with
  | zero => simp [frameLoop] at h
  | succ fuel ih =>
    rcases hb : readFrameBuf R r with ⟨e' | frameBuf, r'⟩
    · cases before <;> simp_all [frameLoop]
    · rcases hd : decodeFrame frameBuf cipher with ⟨e' | frame, cipher'⟩
      · cases before <;> simp_all [frameLoop]
      · cases before with
        | nil => cases ht : switch frame <;> simp [frameLoop, hb, hd, ht] at h
        | cons event before =>
          cases ht : switch frame with
          | stop => simp [frameLoop, hb, hd, ht] at h
          | skip =>
            simp only [frameLoop, hb, hd, ht, List.cons_append, List.cons.injEq] at h
            exact ih r' cipher' h.2
          | act action =>
            simp only [frameLoop, hb, hd, ht, List.cons_append, List.cons.injEq] at h
            exact ih r' cipher' h.2

/-- Sequence numbers rise from frame to frame, and nothing follows a rejected frame. -/
structure TakesInOrder (events : List (LoopEvent α)) : Prop where
  increasing : (takenSeqs events).Pairwise (· < ·)
  rejected_last : ∀ before e after, events = before ++ LoopEvent.rejected e :: after → after = []

theorem frameLoop_takesInOrder (fuel : Nat) (r : σ) (cipher : SessionCipher)
    (hc : TakesBelowLast (frameLoop R switch fuel r cipher)) :
    TakesInOrder (frameLoop R switch fuel r cipher) where
  increasing := (frameLoop_taken fuel r cipher hc).1
  rejected_last _ _ _ h := frameLoop_rejected fuel r cipher h

/-- Sealed headers are counter values that the senders reached. -/
theorem takesBelowLast_of_sealed {A : AeadSuites} {sessionKey : Bytes} {s : Tunnel}
    {cfg : TunnelConfig} {ops : List SendOp} {events : List (LoopEvent α)}
    (h : establish A sessionKey = .ok s) (hlt : ∀ e, sealCount cfg e ops < 2 ^ 64 - 1)
    (hs : TookSealed ((after (Tunnel.send cfg) s ops).sealed.map Prod.snd) events) :
    TakesBelowLast events := by
  intro frameBuf turn hm
  obtain ⟨c, hc, rfl⟩ := hs frameBuf turn hm
  obtain ⟨ec, hec, rfl⟩ := List.mem_map.mp hc
  obtain ⟨-, k, hk, hn⟩ := Tunnel.mem_sealed_after h hec
  have hseq : nonceSeq (sealedMessage ec.2) = UInt64.ofNat k := by
    rw [← nonceSeq_take, sealedMessage, hn, List.take_left' (length_nonceBytes _), nonceSeq_nonceBytes]
  have hlast := hlt ec.1
  have h1 : (1 : UInt64).toNat = 1 := rfl
  rw [hseq, UInt64.toNat_add, UInt64.toNat_ofNat', h1]
  omega

/-- Over any bytes that reach it, either loop of a session takes up frames in the order of their
nonces, each at most once, and nothing after the first frame it rejects, where no frame it takes
up is forged. -/
theorem loops_takeInOrder {A : AeadSuites} {sessionKey : Bytes} {s : Tunnel} {cfg : TunnelConfig}
    {ops : List SendOp} (h : establish A sessionKey = .ok s)
    (hlt : ∀ e, sealCount cfg e ops < 2 ^ 64 - 1) (R : Reader σ Fault) (r : σ)
    (sendNonce : UInt64) :
    let sealed := (after (Tunnel.send cfg) s ops).sealed.map Prod.snd
    let relay := relayLoop R r { s.cipher .server with sendNonce := sendNonce }
    let read := readLoop R r { s.cipher .client with sendNonce := sendNonce }
    (TookSealed sealed relay → TakesInOrder relay) ∧ (TookSealed sealed read → TakesInOrder read) := by
  constructor
  · intro hs
    exact frameLoop_takesInOrder _ r _ (takesBelowLast_of_sealed h hlt hs)
  · intro hs
    exact frameLoop_takesInOrder _ r _ (takesBelowLast_of_sealed h hlt hs)

end Loop

/-- A stream opened, and one byte written to it. -/
def openAndWrite : List SendOp := [dialOp, .tunnelConnWrite 0 [7] zeroDraw]

/-- The messages of `openAndWrite`, then all of them again. -/
def replayedLink : WSConn :=
  let sent := (after (Tunnel.send defaultTunnelConfig) nullTunnel openAndWrite).sealed.map
    fun c => wireMessage (newControlFrame [], sealedMessage c.2)
  ⟨[], sent ++ sent, 0⟩

theorem relayLoop_replayedLink : ∃ c d turn turn' e,
    (after (Tunnel.send defaultTunnelConfig) nullTunnel openAndWrite).sealed.map Prod.snd = [c, d] ∧
      relayLoop WSConn.reader replayedLink nullCipher =
        [LoopEvent.took (sealedMessage c) turn, LoopEvent.took (sealedMessage d) turn',
          LoopEvent.rejected e] :=
  ⟨_, _, _, _, _, rfl, rfl⟩

theorem loops_takeInOrder_replayed :
    TakesInOrder (relayLoop WSConn.reader replayedLink nullCipher) := by
  have hlt : ∀ e, sealCount defaultTunnelConfig e openAndWrite < 2 ^ 64 - 1 := by
    intro e
    exact lt_of_le_of_lt List.countP_le_length (by decide)
  apply (loops_takeInOrder establish_nullSuites hlt WSConn.reader replayedLink 0).1
  obtain ⟨c, d, turn, turn', e, hs, hr⟩ := relayLoop_replayedLink
  intro frameBuf turn'' hm
  rw [hs]
  have hm' : LoopEvent.took frameBuf turn'' ∈ [LoopEvent.took (sealedMessage c) turn,
      LoopEvent.took (sealedMessage d) turn', LoopEvent.rejected e] := hr ▸ hm
  simp only [List.mem_cons, LoopEvent.took.injEq, List.not_mem_nil, reduceCtorEq, or_false] at hm'
  rcases hm' with ⟨rfl, -⟩ | ⟨rfl, -⟩
  · exact ⟨c, by simp, rfl⟩
  · exact ⟨d, by simp, rfl⟩

end SshPanelVpn.ShadowLink

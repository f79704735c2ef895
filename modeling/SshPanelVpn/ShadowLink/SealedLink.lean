import SshPanelVpn.ShadowLink.CoverTraffic
import SshPanelVpn.ShadowLink.HandshakeRun
import SshPanelVpn.ShadowLink.Link

/-! A `Link` down to its bytes: frames sealed by two ciphers, in the messages of a WebSocket. -/
namespace SshPanelVpn.ShadowLink

open Octets Sealing ByteStream Runs

/-- The link with the cipher of each end and the connection that each end reads. -/
structure SealedLink where
  link : Link
  clientCipher : SessionCipher
  serverCipher : SessionCipher
  clientConn : WSConn
  serverConn : WSConn

/-- `WSConn.Write`: the other end gets the message, or it fails. -/
def wsWriter (up : Bool) : Writer WSConn := fun conn msg =>
  if up then (.ok (), conn.deliver msg) else (failWith "websocket: close sent", conn)

/-- The `WriteFrameTo` call of a goroutine of the client at that step. -/
inductive ClientWrites (cfg : TunnelConfig) (c : Client) : ClientAct → WriteCall → Prop where
  | control {k : Nat} {ok : Bool} {s : TunnelStream} {draw : Result Draw} (hs : c.streams[k]? = some s) :
      ClientWrites cfg c (.control k ok)
        (dialThroughTunnelWrite cfg.clientPadding s.id s.network s.addr draw)
  | data {k : Nat} {ok : Bool} {s : TunnelStream} {p : Bytes} {draw : Result Draw} {call : WriteCall}
      (hs : c.streams[k]? = some s) (hp : s.writing = some p)
      (hcall : tunnelConnWrite cfg.clientPadding s.id p draw = some call) :
      ClientWrites cfg c (.data k ok) call
  | announce {k : Nat} {ok : Bool} {s : TunnelStream} {draw : Result Draw}
      (hs : c.streams[k]? = some s) :
      ClientWrites cfg c (.announce k ok) (tunnelConnCloseWrite s.id draw)
  | keepalive {ok : Bool} {sizeDraw bytesDraw draw : Result Draw} {call : WriteCall}
      (hcall : sendFakeFrame cfg.trafficShape sizeDraw bytesDraw draw = some call) :
      ClientWrites cfg c (.keepalive call.frame.payload ok) call
  | shutdown {ok : Bool} {draw : Result Draw} : ClientWrites cfg c (.shutdown ok) (clientCloseWrite draw)

/-- The `WriteFrameTo` call of a `relayUpstream` goroutine. -/
inductive RelayWrites (cfg : TunnelConfig) (rs : RelaySession) : RelayAct → WriteCall → Prop where
  | send {i : Nat} {ok : Bool} {c : Upstream} {buf : Bytes} {ended : Bool} {draw : Result Draw}
      (hc : rs.conns[i]? = some c) (hpc : c.pc = .sending buf ended) :
      RelayWrites cfg rs (.send i ok) ⟨newDataFrame (encodeStreamID c.streamID ++ buf),
        cfg.serverPadding.minBytes, cfg.serverPadding.maxBytes, draw⟩

/-- The step calls `WriteFrameTo`. -/
@[simp] def ClientAct.writes : ClientAct → Bool
  | .control .. | .data .. | .announce .. | .keepalive .. | .shutdown .. => true
  | _ => false

/-- The step calls `WriteFrameTo` and it succeeds. -/
@[simp] def RelayAct.sends : RelayAct → Bool
  | .send _ ok => ok
  | _ => false

/-- The step is one on the tunnel. -/
@[simp] def RelayAct.onTunnel : RelayAct → Bool
  | .send .. | .frame _ => true
  | _ => false

/-- One access of one goroutine of either end. `WriteMu` makes sealing and writing one step. A read
may fail at any time, with its own side of the connection closed. -/
inductive SealedStep (cfg : TunnelConfig) (me : SessionId) : SealedLink → LinkAct → SealedLink → Prop where
  | client {w : SealedLink} {a : ClientAct} {c : Client} (h : ClientStep w.link.client a c)
      (hwrites : a.writes = false) (hframe : ∀ f, a ≠ .frame (some f)) :
      SealedStep cfg me w (.client a) { w with link := ⟨c, w.link.server⟩ }
  | clientWrite {w : SealedLink} {a : ClientAct} {c : Client} {call : WriteCall} {up : Bool}
      {r : Result Unit} {conn : WSConn} {cipher : SessionCipher} (h : ClientStep w.link.client a c)
      (hcall : ClientWrites cfg w.link.client a call)
      (hwrite : writeFrameTo (wsWriter up) w.serverConn call.frame w.clientCipher call.minPad
        call.maxPad call.draw = (r, conn, cipher)) (hok : a.sends = r.isOk) :
      SealedStep cfg me w (.client a)
        { w with link := ⟨c, w.link.server⟩, clientCipher := cipher, serverConn := conn }
  | clientRead {w : SealedLink} {c : Client} {r : Result Frame} {conn : WSConn} {cipher : SessionCipher}
      (hread : readFrameFrom WSConn.reader w.clientConn w.clientCipher = (r, conn, cipher))
      (h : ClientStep w.link.client (.frame r.toOption) c) :
      SealedStep cfg me w (.client (.frame r.toOption))
        { w with link := ⟨c, w.link.server⟩, clientCipher := cipher, clientConn := conn }
  | server {w : SealedLink} {sid : SessionId} {a : RelayAct} {sr : ServerRelay}
      (h : RelayStep w.link.server (sid, a) sr)
      (htunnel : sid = me → a.onTunnel = true → a = .frame none) :
      SealedStep cfg me w (.server sid a) { w with link := ⟨w.link.client, sr⟩ }
  | serverWrite {w : SealedLink} {a : RelayAct} {sr : ServerRelay} {call : WriteCall} {up : Bool}
      {r : Result Unit} {conn : WSConn} {cipher : SessionCipher}
      (h : RelayStep w.link.server (me, a) sr)
      (hcall : RelayWrites cfg (w.link.server.sessions me) a call)
      (hwrite : writeFrameTo (wsWriter up) w.clientConn call.frame w.serverCipher call.minPad
        call.maxPad call.draw = (r, conn, cipher)) (hok : a.sends = r.isOk) :
      SealedStep cfg me w (.server me a)
        { w with link := ⟨w.link.client, sr⟩, serverCipher := cipher, clientConn := conn }
  | serverRead {w : SealedLink} {sr : ServerRelay} {r : Result Frame} {conn : WSConn}
      {cipher : SessionCipher}
      (hread : readFrameFrom WSConn.reader w.serverConn w.serverCipher = (r, conn, cipher))
      (h : RelayStep w.link.server (me, .frame r.toOption) sr) :
      SealedStep cfg me w (.server me (.frame r.toOption))
        { w with link := ⟨w.link.client, sr⟩, serverCipher := cipher, serverConn := conn }

/-! One message at a connection. -/

/-- The message in which a plaintext goes out under that counter. -/
def sealedMessageAt (aead : Aead) (m : UInt64 × Bytes) : Bytes :=
  leBytes 4 (sealedAt aead m.1 m.2).length ++ sealedAt aead m.1 m.2

section Messages

variable {msg buf data p : Bytes} {inbox : List Bytes} {limit n : Nat} {rc : SessionCipher} {f : Frame}
  {m : UInt64 × Bytes} {aead : Aead}

variable (inbox) in
theorem readFull_message (hw : withinLimit limit msg = true) (hn : n + 1 ≤ msg.length) :
    WSConn.reader.readFull ⟨[], msg :: inbox, limit⟩ (n + 1) =
      (.ok (msg.take (n + 1)), ⟨msg.drop (n + 1), inbox, limit⟩) := by
  have hread : WSConn.reader.read ⟨[], msg :: inbox, limit⟩ (n + 1) =
      (.ok (msg.take (n + 1)), ⟨msg.drop (n + 1), inbox, limit⟩) := by
    change WSConn.read ⟨[], msg :: inbox, limit⟩ (n + 1) = _
    simp [WSConn.read, hw]
  have hleft : n + 1 - (msg.take (n + 1)).length = 0 := by
    rw [List.length_take]
    omega
  simp only [Reader.readFull, Reader.readFullLoop, hread, hleft, List.nil_append]

theorem readFull_rest (hbuf : buf ≠ []) :
    WSConn.reader.readFull ⟨buf, inbox, limit⟩ buf.length = (.ok buf, ⟨[], inbox, limit⟩) := by
  obtain ⟨b, bs, rfl⟩ := List.exists_cons_of_ne_nil hbuf
  have hread : WSConn.reader.read ⟨b :: bs, inbox, limit⟩ (b :: bs).length =
      (.ok (b :: bs), ⟨[], inbox, limit⟩) := by
    change WSConn.read ⟨b :: bs, inbox, limit⟩ (b :: bs).length = _
    simp [WSConn.read]
  simp only [List.length_cons] at hread ⊢
  simp only [Reader.readFull, Reader.readFullLoop, hread, List.length_cons, Nat.sub_self, List.nil_append]

variable (inbox) in
theorem readFrameBuf_message (h0 : data ≠ []) (hlen : data.length ≤ maxFrameLen)
    (hw : withinLimit limit (leBytes 4 data.length ++ data) = true) :
    readFrameBuf WSConn.reader ⟨[], (leBytes 4 data.length ++ data) :: inbox, limit⟩ =
      (.ok data, ⟨[], inbox, limit⟩) := by
  have h4 : (leBytes 4 data.length).length = 4 := length_leBytes 4 _
  have hfirst := readFull_message (n := 3) inbox hw (by simp [h4])
  rw [List.take_left' h4, List.drop_left' h4] at hfirst
  have hnat : leNat (leBytes 4 data.length) = data.length := by
    apply leNat_leBytes_of_lt
    have : maxFrameLen = 66078 := rfl
    omega
  simp only [readFrameBuf, hfirst, hnat, Nat.not_lt.mpr hlen, if_false, readFull_rest h0]

/-- The two reads of `ReadFrameFrom` take exactly one message. -/
theorem readFrameFrom_message (hA : aead.alg.Correct aeadOverhead) (hk : rc.aead = aead)
    (hn : rc.recvNonce ≤ m.1) (hp : parseFrame m.2 = .ok f)
    (hlen : nonceSize + (m.2.length + aeadOverhead) ≤ maxFrameLen)
    (hlimit : limit = 0 ∨ limit = maxMessageSize) :
    readFrameFrom WSConn.reader ⟨[], sealedMessageAt aead m :: inbox, limit⟩ rc =
      (.ok f, ⟨[], inbox, limit⟩, { rc with recvNonce := m.1 + 1 }) := by
  have hsealed := length_sealedAt (p := m.2) hA m.1
  have hdata : sealedAt aead m.1 m.2 ≠ [] := by
    intro he
    have hnonce : nonceSize = 12 := rfl
    rw [he, List.length_nil] at hsealed
    omega
  have hw : withinLimit limit (leBytes 4 (sealedAt aead m.1 m.2).length ++ sealedAt aead m.1 m.2) = true := by
    rcases hlimit with rfl | rfl
    · rfl
    · have : maxFrameLen = 66078 := rfl
      have : maxMessageSize = 131072 := rfl
      simp only [withinLimit, List.length_append, length_leBytes, Bool.or_eq_true, decide_eq_true_eq]
      omega
  have hbuf := readFrameBuf_message inbox hdata (by omega) hw
  simp only [readFrameFrom, sealedMessageAt, hbuf, decodeFrame, decrypt_sealedAt hA hk hn, hp]

/-- Without a message the connection has ended. -/
theorem readFrameFrom_nil (rc : SessionCipher) (limit : Nat) :
    ∃ e, readFrameFrom WSConn.reader ⟨[], [], limit⟩ rc = (.error e, ⟨[], [], limit⟩, rc) :=
  ⟨_, rfl⟩

end Messages

/-! The frames that wait at a connection. -/

/-- The messages that wait for the receiver are these frames as it will read them, sealed in the order
of the counters. -/
structure Conveys (sc rc : SessionCipher) (conn : WSConn) (fs : List Frame) : Prop where
  keyed : rc.aead = sc.aead
  between : rc.recvNonce ≤ sc.sendNonce
  boundary : conn.readBuf = []
  limit : conn.readLimit = 0 ∨ conn.readLimit = maxMessageSize
  waiting : ∃ ms : List (UInt64 × Bytes), conn.inbox = ms.map (sealedMessageAt sc.aead) ∧
    ms.Pairwise (fun m m' => m.1 < m'.1) ∧ (∀ m ∈ ms, rc.recvNonce ≤ m.1 ∧ m.1 < sc.sendNonce) ∧
    List.Forall₂ (fun m f => parseFrame m.2 = .ok f ∧
      nonceSize + (m.2.length + aeadOverhead) ≤ maxFrameLen) ms fs

namespace Conveys

variable {sc rc sc' rc' : SessionCipher} {conn conn' : WSConn} {fs : List Frame} {f : Frame}

/-- What the two ends do in the other direction does not matter. -/
theorem congr (h : Conveys sc rc conn fs) (hsender : sc'.aead = sc.aead)
    (hsent : sc'.sendNonce = sc.sendNonce) (hreceiver : rc'.aead = rc.aead)
    (hreceived : rc'.recvNonce = rc.recvNonce) : Conveys sc' rc' conn fs := by
  obtain ⟨hkeyed, hbetween, hboundary, hlimit, hwaiting⟩ := h
  refine ⟨?_, ?_, hboundary, hlimit, ?_⟩
  · rw [hreceiver, hsender, hkeyed]
  · rw [hreceived, hsent]
    exact hbetween
  · rw [hreceived, hsent, hsender]
    exact hwaiting

theorem start (hkeyed : rc.aead = sc.aead) (hbetween : rc.recvNonce ≤ sc.sendNonce) {limit : Nat}
    (hlimit : limit = 0 ∨ limit = maxMessageSize) : Conveys sc rc ⟨[], [], limit⟩ [] :=
  ⟨hkeyed, hbetween, rfl, hlimit, [], rfl, .nil, by simp, .nil⟩

theorem eq_nil (h : Conveys sc rc conn []) : conn = ⟨[], [], conn.readLimit⟩ := by
  obtain ⟨-, -, hboundary, -, ms, hinbox, -, -, hframes⟩ := h
  obtain ⟨readBuf, inbox, limit⟩ := conn
  cases hframes
  obtain rfl : readBuf = [] := hboundary
  obtain rfl : inbox = [] := hinbox
  rfl

/-- The next read gives the first of the frames. -/
theorem read (h : Conveys sc rc conn (f :: fs)) (hA : sc.aead.alg.Correct aeadOverhead) :
    ∃ conn' seq, readFrameFrom WSConn.reader conn rc = (.ok f, conn', { rc with recvNonce := seq }) ∧
      Conveys sc { rc with recvNonce := seq } conn' fs := by
  obtain ⟨hkeyed, -, hboundary, hlimit, ms, hinbox, hordered, hcounters, hframes⟩ := h
  obtain ⟨readBuf, inbox, limit⟩ := conn
  obtain rfl : readBuf = [] := hboundary
  cases hframes with
  | @cons m _ ms _ hm hrest =>
    obtain rfl : inbox = _ := hinbox
    obtain ⟨hle, hlt⟩ := hcounters m (by simp)
    obtain ⟨hfirst, hlater⟩ := List.pairwise_cons.mp hordered
    refine ⟨_, _, readFrameFrom_message hA hkeyed hle hm.1 hm.2 hlimit, hkeyed, ?_, rfl, hlimit, ms, rfl,
      hlater, ?_, hrest⟩
    · exact succ_le_of_lt hlt
    · intro m' hm'
      exact ⟨succ_le_of_lt (hfirst m' hm'), (hcounters m' (List.mem_cons_of_mem _ hm')).2⟩

/-- One more frame is sealed and arrives. -/
theorem deliver (h : Conveys sc rc conn fs) {p : Bytes} (hp : parseFrame p = .ok f)
    (hlen : nonceSize + (p.length + aeadOverhead) ≤ maxFrameLen)
    (hlt : sc.sendNonce.toNat + 1 < 2 ^ 64) :
    Conveys sc.afterSeal rc (conn.deliver (sealedMessageAt sc.aead (sc.sendNonce, p))) (fs ++ [f]) := by
  obtain ⟨hkeyed, hbetween, hboundary, hlimit, ms, hinbox, hordered, hcounters, hframes⟩ := h
  have hnext := Shaping.lt_afterSeal hlt
  refine ⟨hkeyed, UInt64.le_of_lt (UInt64.lt_of_le_of_lt hbetween hnext), hboundary, hlimit,
    ms ++ [(sc.sendNonce, p)], ?_, ?_, ?_, ?_⟩
  · simp [WSConn.deliver, hinbox]
  · rw [List.pairwise_append]
    refine ⟨hordered, List.pairwise_singleton _ _, ?_⟩
    intro m hm m' hm'
    obtain rfl := List.mem_singleton.mp hm'
    exact (hcounters m hm).2
  · intro m hm
    rcases List.mem_append.mp hm with hm | hm
    · exact ⟨(hcounters m hm).1, UInt64.lt_trans (hcounters m hm).2 hnext⟩
    · obtain rfl := List.mem_singleton.mp hm
      exact ⟨hbetween, hnext⟩
  · exact List.rel_append hframes (.cons ⟨hp, hlen⟩ .nil)

/-- A frame is sealed and lost. -/
theorem lose (h : Conveys sc rc conn fs) (hlt : sc.sendNonce.toNat + 1 < 2 ^ 64) :
    Conveys sc.afterSeal rc conn fs := by
  obtain ⟨hkeyed, hbetween, hboundary, hlimit, ms, hinbox, hordered, hcounters, hframes⟩ := h
  have hnext := Shaping.lt_afterSeal hlt
  refine ⟨hkeyed, UInt64.le_of_lt (UInt64.lt_of_le_of_lt hbetween hnext), hboundary, hlimit, ms, hinbox,
    hordered, ?_, hframes⟩
  intro m hm
  exact ⟨(hcounters m hm).1, UInt64.lt_trans (hcounters m hm).2 hnext⟩

/-- A whole `WriteFrameTo` call whose frame the peer reads as `f`. -/
theorem write (h : Conveys sc rc conn fs) {call : WriteCall} {up : Bool} {r : Result Unit}
    {cipher : SessionCipher}
    (hf : ∀ p, call.plaintext = some p →
      parseFrame p = .ok f ∧ nonceSize + (p.length + aeadOverhead) ≤ maxFrameLen)
    (hlt : sc.sendNonce.toNat + 1 < 2 ^ 64)
    (hwrite : writeFrameTo (wsWriter up) conn call.frame sc call.minPad call.maxPad call.draw =
      (r, conn', cipher)) :
    (cipher = sc ∨ cipher = sc.afterSeal) ∧
      Conveys cipher rc conn' (if r.isOk then fs ++ [f] else fs) := by
  rcases call.encode_cases sc with ⟨e, he⟩ | ⟨p, hp, he⟩
  · rw [WriteCall.encode] at he
    simp only [writeFrameTo, he] at hwrite
    cases hwrite
    exact ⟨.inl rfl, h⟩
  · rw [WriteCall.encode] at he
    simp only [writeFrameTo, he] at hwrite
    obtain ⟨hparse, hlen⟩ := hf p hp
    cases up with
    | false =>
      cases hwrite
      exact ⟨.inr rfl, h.lose hlt⟩
    | true =>
      cases hwrite
      exact ⟨.inr rfl, h.deliver hparse hlen hlt⟩

end Conveys

/-! What the peer reads of a `WriteFrameTo` call. -/

/-- Every padding drawn between the bounds has a length that fits into its byte. -/
structure PaddingConfig.Short (cfg : PaddingConfig) : Prop where
  min_nonneg : 0 ≤ cfg.minBytes
  min_le : cfg.minBytes ≤ 255
  max_le : cfg.maxBytes ≤ 256

/-- The shaper's padding may be longer, as `DefaultTrafficShapeConfig` has it. -/
structure TunnelConfig.Fits (cfg : TunnelConfig) : Prop where
  client : cfg.clientPadding.Short
  server : cfg.serverPadding.Short
  shape : cfg.trafficShape.Small

section Calls

variable {cfg : TunnelConfig} {call : WriteCall} {p : Bytes} {f : Frame} {a : ClientAct} {c c' : Client}
  {fs : List Frame}

theorem parseFrame_payload_le (h : parseFrame p = .ok f) : f.payload.length ≤ maxPayloadSize := by
  unfold parseFrame at h
  split at h
  · cases h
  · dsimp only at h
    split at h
    · cases h
    · cases h
      have hlt := leNat_lt ((p.drop 2).take 2)
      have hlen : ((p.drop 2).take 2).length ≤ 2 := List.length_take_le 2 _
      have hpow : 256 ^ ((p.drop 2).take 2).length ≤ 256 ^ 2 := Nat.pow_le_pow_right (by decide) hlen
      have htake := List.length_take_le (leNat ((p.drop 2).take 2))
        (p.drop (frameHeaderSize + (p.getD 1 0).toNat))
      have hmax : maxPayloadSize = 65535 := rfl
      dsimp only
      omega

/-- With a short padding the peer reads the frame that was written. -/
theorem parseFrame_call (h0 : 0 ≤ call.minPad) (h1 : call.minPad ≤ 255) (h2 : call.maxPad ≤ 256)
    (hp : call.plaintext = some p) :
    parseFrame p = .ok call.frame ∧ nonceSize + (p.length + aeadOverhead) ≤ maxFrameLen := by
  obtain ⟨hpay, padding, hpad, rfl, -⟩ := WriteCall.eq_of_plaintext hp
  have hlen := length_framePadding h0 h1 h2 (by decide) hpad
  have hshort : padding.length ≤ maxPaddingSize := by
    have : maxPaddingSize = 255 := rfl
    omega
  refine ⟨parseFrame_framePlaintext hshort hpay, ?_⟩
  rw [length_framePlaintext]
  simp only [nonceSize, aeadOverhead, frameHeaderSize, maxFrameLen, maxPayloadSize,
    maxPaddingSize] at hpay hshort ⊢
  omega

/-- The frame that the peer reads: the one written, or some keepalive for one of the shaper. -/
def ReadAs (a : ClientAct) (call : WriteCall) (f : Frame) : Prop :=
  f = call.frame ∨ ∃ padding ok payload, a = .keepalive padding ok ∧ payload.length ≤ maxPayloadSize ∧
    f = ⟨frameKeepalive, payload⟩

theorem ClientWrites.readAs (hcfg : cfg.Fits) (h : ClientWrites cfg c a call) :
    ∃ f, ReadAs a call f ∧ ∀ p, call.plaintext = some p →
      parseFrame p = .ok f ∧ nonceSize + (p.length + aeadOverhead) ≤ maxFrameLen := by
  have hshort : 0 ≤ call.minPad → call.minPad ≤ 255 → call.maxPad ≤ 256 →
      ∃ f, ReadAs a call f ∧ ∀ p, call.plaintext = some p →
        parseFrame p = .ok f ∧ nonceSize + (p.length + aeadOverhead) ≤ maxFrameLen :=
    fun h0 h1 h2 => ⟨call.frame, .inl rfl, fun _ hp => parseFrame_call h0 h1 h2 hp⟩
  obtain ⟨h0, h1, h2⟩ := hcfg.client
  cases h with
  | control => exact hshort h0 h1 h2
  | data hs hp hcall =>
    unfold tunnelConnWrite at hcall
    split at hcall
    · cases hcall
    · cases hcall
      exact hshort h0 h1 h2
  | announce => exact hshort (Int.le_refl 0) (by simp [tunnelConnCloseWrite]) (by simp [tunnelConnCloseWrite])
  | shutdown => exact hshort (Int.le_refl 0) (by simp [clientCloseWrite]) (by simp [clientCloseWrite])
  | keepalive hcall =>
    cases hp : call.plaintext with
    | none =>
      refine ⟨call.frame, .inl rfl, ?_⟩
      rintro p ⟨⟩
    | some p =>
      obtain ⟨⟨payload, hpayload⟩, hlen⟩ := sendFakeFrame_plaintext hcfg.shape hcall hp
      refine ⟨⟨frameKeepalive, payload⟩, .inr ⟨_, _, payload, rfl, parseFrame_payload_le hpayload, rfl⟩, ?_⟩
      rintro p ⟨⟩
      exact ⟨hpayload, hlen⟩

theorem sendFakeFrame_frame {shape : PaddingConfig} {sizeDraw bytesDraw draw : Result Draw}
    (h : sendFakeFrame shape sizeDraw bytesDraw draw = some call) :
    ∃ payload, call.frame = ⟨frameKeepalive, payload⟩ := by
  unfold sendFakeFrame at h
  split at h
  · cases h
  · split at h
    · cases h
    · cases h
      exact ⟨_, rfl⟩

/-- The client with another history. -/
@[simps] def Client.withSent (c : Client) (fs : List Frame) : Client := { c with sent := fs }

/-- No step looks at what has been sent. -/
theorem Client.withSent_step (h : ClientStep c a c') (ha : a.sends = false) (fs : List Frame) :
    ClientStep (c.withSent fs) a (c'.withSent fs) := by
  cases h with
  | dial => exact .dial
  | control hs hpc hok =>
    obtain rfl : _ = false := ha
    exact .control hs hpc (by simp)
  | write hs hpc hidle hp => exact .write hs hpc hidle hp
  | data hs hp hok =>
    obtain rfl : _ = false := ha
    exact .data hs hp (by simp)
  | delete hs hpc => exact .delete hs hpc
  | announce hs hpc hok =>
    obtain rfl : _ = false := ha
    exact .announce hs hpc (by simp)
  | closeReader hs hpc => exact .closeReader hs hpc
  | @frame f hpc => cases f <;> exact .frame hpc
  | lookup hpc => exact .lookup hpc
  | read hpc hs hopen hn => exact .read hpc hs hopen hn
  | refused hpc hs hclosed => exact .refused hpc hs hclosed
  | keepalive hok =>
    obtain rfl : _ = false := ha
    exact .keepalive (by simp)
  | shutdown hok =>
    obtain rfl : _ = false := ha
    exact .shutdown (by simp)
  | hangUp hpc => exact .hangUp hpc

/-- A frame that is sent, as the peer reads it. -/
theorem Client.withSent_sends (h : ClientStep c a c') (ha : a.sends = true)
    (hcall : ClientWrites cfg c a call) (hf : ReadAs a call f) (fs : List Frame) :
    ∃ b : ClientAct, b.sends = true ∧
      ClientStep (c.withSent fs) b (c'.withSent (fs ++ [f])) := by
  cases h with
  | control hs hpc hok =>
    obtain rfl : _ = true := ha
    cases hcall with
    | control hs' =>
      obtain rfl := Option.some.inj (hs.symm.trans hs')
      rcases hf with rfl | ⟨_, _, _, he, -⟩
      · have hstep : ClientStep (c.withSent fs) (.control _ true) _ := .control hs hpc fun _ => hok rfl
        exact ⟨_, rfl, hstep⟩
      · cases he
  | data hs hp hok =>
    obtain rfl : _ = true := ha
    cases hcall with
    | data hs' hp' hcall =>
      obtain rfl := Option.some.inj (hs.symm.trans hs')
      obtain rfl := Option.some.inj (hp.symm.trans hp')
      unfold tunnelConnWrite at hcall
      split at hcall
      · cases hcall
      · cases hcall
        rcases hf with rfl | ⟨_, _, _, he, -⟩
        · have hstep : ClientStep (c.withSent fs) (.data _ true) _ := .data hs hp fun _ => hok rfl
          exact ⟨_, rfl, hstep⟩
        · cases he
  | announce hs hpc hok =>
    obtain rfl : _ = true := ha
    cases hcall with
    | announce hs' =>
      obtain rfl := Option.some.inj (hs.symm.trans hs')
      rcases hf with rfl | ⟨_, _, _, he, -⟩
      · have hstep : ClientStep (c.withSent fs) (.announce _ true) _ := .announce hs hpc fun _ => hok rfl
        exact ⟨_, rfl, hstep⟩
      · cases he
  | keepalive hok =>
    obtain rfl : _ = true := ha
    cases hcall with
    | keepalive hcall =>
      rcases hf with rfl | ⟨_, _, payload, -, hlen, rfl⟩
      · obtain ⟨payload, he⟩ := sendFakeFrame_frame hcall
        rw [he]
        rw [he] at hok
        exact ⟨.keepalive payload true, rfl, .keepalive fun _ => hok rfl⟩
      · exact ⟨.keepalive payload true, rfl, .keepalive fun _ => ⟨(hok rfl).1, hlen⟩⟩
  | shutdown hok =>
    obtain rfl : _ = true := ha
    cases hcall with
    | shutdown =>
      rcases hf with rfl | ⟨_, _, _, he, -⟩
      · have hstep : ClientStep (c.withSent fs) (.shutdown true) _ := .shutdown fun _ => hok rfl
        exact ⟨_, rfl, hstep⟩
      · cases he
  | _ => cases ha

end Calls

/-! The frames that a session of the server has received and sent. -/

namespace ServerRelay

variable {sr sr' : ServerRelay} {sid me : SessionId} {act : RelayAct}

def history (sr : ServerRelay) (me : SessionId) : List Frame × List Frame :=
  ((sr.sessions me).received, (sr.sessions me).sent)

theorem history_modify {f : RelaySession → RelaySession}
    (hf : me = sid → (f (sr.sessions sid)).received = (sr.sessions sid).received ∧
      (f (sr.sessions sid)).sent = (sr.sessions sid).sent) :
    (sr.modify sid f).history me = sr.history me := by
  unfold history modify
  by_cases hme : me = sid
  · subst hme
    obtain ⟨hreceived, hsent⟩ := hf rfl
    simp [hreceived, hsent]
  · simp [hme]

@[simp] theorem history_setStreams (streams : Option StreamMap) :
    (sr.setStreams sid streams).history me = sr.history me := rfl

theorem history_closeConn (conn : ConnRef) : (sr.closeConn conn).history me = sr.history me :=
  history_modify fun _ => ⟨rfl, rfl⟩

theorem history_closeStream (id : UInt32) : (sr.closeStream sid id).history me = sr.history me := by
  unfold closeStream
  split
  · rfl
  · split
    · rfl
    · exact history_closeConn _

theorem history_closeAll (order : List ConnRef) :
    (order.foldl closeConn sr).history me = sr.history me := by
  induction order generalizing sr with
  | nil => rfl
  | cons conn order ih => exact ih.trans (history_closeConn conn)

/-- Only the session's own reads and writes on the tunnel add to it. -/
theorem history_step (h : RelayStep sr (sid, act) sr')
    (htunnel : sid = me → act.onTunnel = true → act = .frame none) :
    sr'.history me = sr.history me := by
  have hkeep : ∀ {sr : ServerRelay} {sid : SessionId} {f : RelaySession → RelaySession},
      (∀ rs, (f rs).received = rs.received ∧ (f rs).sent = rs.sent) →
        (sr.modify sid f).history me = sr.history me :=
    fun hf => history_modify fun _ => hf _
  cases h with
  | establish hpc => exact hkeep fun _ => ⟨rfl, rfl⟩
  | @frame _ f hpc =>
    refine history_modify fun hme => ?_
    obtain rfl : f = none := RelayAct.frame.inj (htunnel hme.symm rfl)
    exact ⟨rfl, rfl⟩
  | @dial _ id network addr ok hpc =>
    refine hkeep fun rs => ?_
    cases ok <;> exact ⟨rfl, rfl⟩
  | insert hpc =>
    refine Eq.trans (hkeep ?_) (Eq.trans (hkeep ?_) (history_setStreams _))
    · exact fun _ => ⟨rfl, rfl⟩
    · exact fun _ => ⟨rfl, rfl⟩
  | lookup hpc => exact hkeep fun _ => ⟨rfl, rfl⟩
  | write hpc hc hn hclosed =>
    refine Eq.trans (hkeep ?_) (hkeep ?_)
    · exact fun _ => ⟨rfl, rfl⟩
    · exact fun _ => ⟨rfl, rfl⟩
  | close hpc =>
    refine Eq.trans (hkeep ?_) (history_closeStream _)
    exact fun _ => ⟨rfl, rfl⟩
  | cleanup hpc horder =>
    refine Eq.trans (hkeep ?_) (Eq.trans (history_setStreams _) (history_closeAll _))
    exact fun _ => ⟨rfl, rfl⟩
  | read hc hpc hn hclosed => exact hkeep fun _ => ⟨rfl, rfl⟩
  | send hc hpc =>
    refine history_modify fun hme => ?_
    cases htunnel hme.symm rfl
  | finish hc hpc =>
    refine Eq.trans (hkeep ?_) (history_closeStream _)
    exact fun _ => ⟨rfl, rfl⟩

theorem history_frame {f : Frame} (h : RelayStep sr (me, .frame (some f)) sr') :
    sr'.history me = ((sr.history me).1 ++ [f], (sr.history me).2) := by
  cases h with
  | frame hpc => simp [history, modify, RelaySession.receive]

end ServerRelay

theorem RelayWrites.readAs {cfg : TunnelConfig} (hcfg : cfg.Fits) {rs : RelaySession} {act : RelayAct}
    {call : WriteCall} (h : RelayWrites cfg rs act call) {p : Bytes} (hp : call.plaintext = some p) :
    parseFrame p = .ok call.frame ∧ nonceSize + (p.length + aeadOverhead) ≤ maxFrameLen := by
  obtain ⟨h0, h1, h2⟩ := hcfg.server
  cases h with
  | send hc hpc => exact parseFrame_call h0 h1 h2 hp

theorem RelayWrites.history {cfg : TunnelConfig} {sr sr' : ServerRelay} {me : SessionId}
    {act : RelayAct} {call : WriteCall} (h : RelayStep sr (me, act) sr')
    (hcall : RelayWrites cfg (sr.sessions me) act call) :
    sr'.history me = ((sr.history me).1,
      if act.sends then (sr.history me).2 ++ [call.frame] else (sr.history me).2) := by
  cases hcall with
  | @send i ok c buf ended draw hc hpc =>
    cases h with
    | send hc' hpc' =>
      obtain rfl := Option.some.inj (hc.symm.trans hc')
      obtain ⟨rfl, rfl⟩ := UpstreamPc.sending.inj (hpc.symm.trans hpc')
      cases ok <;> simp [ServerRelay.history, ServerRelay.modify, RelaySession.send]

/-! The bytes stand for the frames. -/

namespace SealedLink

variable {cfg : TunnelConfig} {me sid : SessionId} {w w' : SealedLink} {sent : List Frame} {a : ClientAct}
  {act : RelayAct} {c : Client} {sr : ServerRelay} {call : WriteCall} {up : Bool} {conn : WSConn}
  {cipher : SessionCipher}

/-- The link, where the client remembers what it has sent as the server reads it. -/
def asRead (w : SealedLink) (sent : List Frame) : Link := ⟨w.link.client.withSent sent, w.link.server⟩

/-- What has been sent and not yet received waits at the other end. -/
structure Stands (me : SessionId) (w : SealedLink) (sent : List Frame) : Prop where
  correct : w.clientCipher.aead.alg.Correct aeadOverhead
  up : ∃ fs, sent = (w.link.server.history me).1 ++ fs ∧
    Conveys w.clientCipher w.serverCipher w.serverConn fs
  down : ∃ fs, (w.link.server.history me).2 = w.link.client.received ++ fs ∧
    Conveys w.serverCipher w.clientCipher w.clientConn fs

theorem Stands.correct_server (h : Stands me w sent) : w.serverCipher.aead.alg.Correct aeadOverhead := by
  obtain ⟨fs, -, hconveys⟩ := h.up
  rw [hconveys.keyed]
  exact h.correct

theorem sends_of_writes (h : a.writes = false) : a.sends = false := by
  cases a <;> first | rfl | cases h

theorem stands_client (h : Stands me w sent) (hs : ClientStep w.link.client a c) (hwrites : a.writes = false)
    (hframe : ∀ f, a ≠ .frame (some f)) :
    LinkStep me (w.asRead sent) (.client a) (asRead { w with link := ⟨c, w.link.server⟩ } sent) ∧
      Stands me { w with link := ⟨c, w.link.server⟩ } sent := by
  obtain ⟨hcorrect, hup, fs, hsent, hconveys⟩ := h
  have hreceived : c.received = w.link.client.received := by
    rcases Client.received_step hs with ⟨f, rfl, -⟩ | hr
    · exact (hframe f rfl).elim
    · exact hr
  refine ⟨.client (Client.withSent_step hs (sends_of_writes hwrites) sent) ?_, hcorrect, hup, fs, ?_, hconveys⟩
  · intro f hf
    exact (hframe f hf).elim
  · dsimp only
    rw [hreceived]
    exact hsent

theorem sendNonce_of_write {sc : SessionCipher} (h : cipher = sc ∨ cipher = sc.afterSeal) :
    cipher.aead = sc.aead ∧ cipher.recvNonce = sc.recvNonce ∧
      cipher.sendNonce.toNat ≤ sc.sendNonce.toNat + 1 := by
  rcases h with rfl | rfl
  · exact ⟨rfl, rfl, Nat.le_succ _⟩
  · refine ⟨rfl, rfl, ?_⟩
    have h1 : (1 : UInt64).toNat = 1 := rfl
    rw [SessionCipher.afterSeal_sendNonce, UInt64.toNat_add]
    omega

theorem stands_clientWrite (hcfg : cfg.Fits) {r : Result Unit} (h : Stands me w sent)
    (hs : ClientStep w.link.client a c) (hcall : ClientWrites cfg w.link.client a call)
    (hwrite : writeFrameTo (wsWriter up) w.serverConn call.frame w.clientCipher call.minPad call.maxPad
      call.draw = (r, conn, cipher)) (hok : a.sends = r.isOk)
    (hlt : w.clientCipher.sendNonce.toNat + 1 < 2 ^ 64) :
    (∃ (b : ClientAct) (sent' : List Frame), b.sends = a.sends ∧
      LinkStep me (w.asRead sent) (.client b)
        (asRead { w with link := ⟨c, w.link.server⟩, clientCipher := cipher, serverConn := conn } sent') ∧
      Stands me { w with link := ⟨c, w.link.server⟩, clientCipher := cipher, serverConn := conn } sent') ∧
      cipher.sendNonce.toNat ≤ w.clientCipher.sendNonce.toNat + 1 := by
  obtain ⟨hcorrect, ⟨fs, hsent, hup⟩, gs, hreceived, hdown⟩ := h
  obtain ⟨f, hread, hparse⟩ := hcall.readAs hcfg
  obtain ⟨hcipher, hconveys⟩ := hup.write hparse hlt hwrite
  obtain ⟨haead, hrecv, hle⟩ := sendNonce_of_write hcipher
  have hback : (w.link.server.history me).2 = c.received ++ gs := by
    rcases Client.received_step hs with ⟨f, rfl, -⟩ | hr
    · cases hcall
    · rw [hr]
      exact hreceived
  have hdown' : Conveys w.serverCipher cipher w.clientConn gs := hdown.congr rfl rfl haead hrecv
  refine ⟨?_, hle⟩
  cases hr : r.isOk with
  | false =>
    rw [hr] at hok hconveys
    refine ⟨a, sent, rfl, .client (Client.withSent_step hs hok sent) ?_, haead ▸ hcorrect,
      ⟨fs, hsent, hconveys⟩, gs, hback, hdown'⟩
    rintro f rfl
    cases hcall
  | true =>
    rw [hr] at hok hconveys
    obtain ⟨b, hb, hstep⟩ := Client.withSent_sends hs hok hcall hread sent
    refine ⟨b, sent ++ [f], hb.trans hok.symm, .client hstep ?_, haead ▸ hcorrect, ⟨fs ++ [f], ?_, hconveys⟩,
      gs, hback, hdown'⟩
    · rintro f rfl
      cases hb
    · rw [hsent, List.append_assoc]

theorem stands_clientRead {r : Result Frame} (h : Stands me w sent)
    (hread : readFrameFrom WSConn.reader w.clientConn w.clientCipher = (r, conn, cipher))
    (hs : ClientStep w.link.client (.frame r.toOption) c) :
    LinkStep me (w.asRead sent) (.client (.frame r.toOption))
        (asRead { w with link := ⟨c, w.link.server⟩, clientCipher := cipher, clientConn := conn } sent) ∧
      Stands me { w with link := ⟨c, w.link.server⟩, clientCipher := cipher, clientConn := conn } sent ∧
      cipher.sendNonce = w.clientCipher.sendNonce := by
  have hserver := h.correct_server
  obtain ⟨hcorrect, ⟨fs, hsent, hup⟩, gs, hreceived, hdown⟩ := h
  have hstep := Client.withSent_step hs rfl sent
  cases gs with
  | nil =>
    obtain ⟨e, he⟩ := readFrameFrom_nil w.clientCipher w.clientConn.readLimit
    rw [← hdown.eq_nil, hread] at he
    cases he
    have hsame : c.received = w.link.client.received := by
      cases hs
      rfl
    refine ⟨.client hstep ?_, ⟨hcorrect, ⟨fs, hsent, hup⟩, [], ?_, hdown⟩, rfl⟩
    · rintro f ⟨⟩
    · dsimp only
      rw [hsame]
      exact hreceived
  | cons f gs =>
    obtain ⟨conn', seq, hf, hrest⟩ := hdown.read hserver
    rw [hread] at hf
    cases hf
    have hnext : c.received = w.link.client.received ++ [f] := by
      cases hs
      rfl
    refine ⟨.client hstep ?_, ⟨hcorrect, ⟨fs, hsent, hup.congr rfl rfl rfl rfl⟩, gs, ?_, hrest⟩, rfl⟩
    · rintro f' ⟨⟩
      change (w.link.server.history me).2[w.link.client.received.length]? = some f
      rw [hreceived]
      simp
    · dsimp only
      rw [hnext, hreceived, List.append_assoc]
      rfl

theorem stands_server (h : Stands me w sent) (hs : RelayStep w.link.server (sid, act) sr)
    (htunnel : sid = me → act.onTunnel = true → act = .frame none) :
    LinkStep me (w.asRead sent) (.server sid act) (asRead { w with link := ⟨w.link.client, sr⟩ } sent) ∧
      Stands me { w with link := ⟨w.link.client, sr⟩ } sent := by
  obtain ⟨hcorrect, ⟨fs, hsent, hup⟩, gs, hreceived, hdown⟩ := h
  have hhistory := ServerRelay.history_step hs htunnel
  refine ⟨.server hs ?_, hcorrect, ⟨fs, ?_, hup⟩, gs, ?_, hdown⟩
  · rintro f hme rfl
    cases htunnel hme rfl
  · dsimp only
    rw [hhistory]
    exact hsent
  · dsimp only
    rw [hhistory]
    exact hreceived

theorem stands_serverWrite (hcfg : cfg.Fits) {r : Result Unit} (h : Stands me w sent)
    (hs : RelayStep w.link.server (me, act) sr)
    (hcall : RelayWrites cfg (w.link.server.sessions me) act call)
    (hwrite : writeFrameTo (wsWriter up) w.clientConn call.frame w.serverCipher call.minPad call.maxPad
      call.draw = (r, conn, cipher)) (hok : act.sends = r.isOk)
    (hlt : w.serverCipher.sendNonce.toNat + 1 < 2 ^ 64) :
    LinkStep me (w.asRead sent) (.server me act)
        (asRead { w with link := ⟨w.link.client, sr⟩, serverCipher := cipher, clientConn := conn } sent) ∧
      Stands me { w with link := ⟨w.link.client, sr⟩, serverCipher := cipher, clientConn := conn } sent ∧
      cipher.sendNonce.toNat ≤ w.serverCipher.sendNonce.toNat + 1 := by
  obtain ⟨hcorrect, ⟨fs, hsent, hup⟩, gs, hreceived, hdown⟩ := h
  obtain ⟨hcipher, hconveys⟩ := hdown.write (fun p hp => hcall.readAs hcfg hp) hlt hwrite
  obtain ⟨haead, hrecv, hle⟩ := sendNonce_of_write hcipher
  have hhistory := hcall.history hs
  refine ⟨.server hs ?_, ⟨hcorrect, ⟨fs, ?_, hup.congr rfl rfl haead hrecv⟩, _, ?_, hconveys⟩, hle⟩
  · rintro f - rfl
    cases hcall
  · dsimp only
    rw [hhistory]
    exact hsent
  · dsimp only
    rw [hhistory, hok, hreceived]
    cases r.isOk with
    | false => rfl
    | true => exact List.append_assoc _ _ _

theorem stands_serverRead {r : Result Frame} (h : Stands me w sent)
    (hread : readFrameFrom WSConn.reader w.serverConn w.serverCipher = (r, conn, cipher))
    (hs : RelayStep w.link.server (me, .frame r.toOption) sr) :
    LinkStep me (w.asRead sent) (.server me (.frame r.toOption))
        (asRead { w with link := ⟨w.link.client, sr⟩, serverCipher := cipher, serverConn := conn } sent) ∧
      Stands me { w with link := ⟨w.link.client, sr⟩, serverCipher := cipher, serverConn := conn } sent ∧
      cipher.sendNonce = w.serverCipher.sendNonce := by
  obtain ⟨hcorrect, ⟨fs, hsent, hup⟩, gs, hreceived, hdown⟩ := h
  cases fs with
  | nil =>
    obtain ⟨e, he⟩ := readFrameFrom_nil w.serverCipher w.serverConn.readLimit
    rw [← hup.eq_nil, hread] at he
    cases he
    have hsame : sr.history me = w.link.server.history me := ServerRelay.history_step hs fun _ _ => rfl
    refine ⟨.server hs ?_, ⟨hcorrect, ⟨[], ?_, hup⟩, gs, ?_, hdown⟩, rfl⟩
    · rintro f - ⟨⟩
    · dsimp only
      rw [hsame]
      exact hsent
    · dsimp only
      rw [hsame]
      exact hreceived
  | cons f fs =>
    obtain ⟨conn', seq, hf, hrest⟩ := hup.read hcorrect
    rw [hread] at hf
    cases hf
    have hnext := ServerRelay.history_frame hs
    refine ⟨.server hs ?_, ⟨hcorrect, ⟨fs, ?_, hrest⟩, gs, ?_, hdown.congr rfl rfl rfl rfl⟩, rfl⟩
    · rintro f' - ⟨⟩
      change sent[(w.link.server.history me).1.length]? = some f
      rw [hsent]
      simp
    · dsimp only
      rw [hnext, hsent, List.append_assoc]
      rfl
    · dsimp only
      rw [hnext]
      exact hreceived

/-- The counters of both ends stay below their last value for that many steps. -/
def Below (n : Nat) (w : SealedLink) : Prop :=
  w.clientCipher.sendNonce.toNat + n < 2 ^ 64 ∧ w.serverCipher.sendNonce.toNat + n < 2 ^ 64

/-- A step on the bytes is a step on the frames, with the same failures. -/
theorem stands_step {n : Nat} {label : LinkAct} (hcfg : cfg.Fits) (hs : SealedStep cfg me w label w')
    (h : Stands me w sent) (hlt : Below (n + 1) w) :
    ∃ label' sent', LinkStep me (w.asRead sent) label' (w'.asRead sent') ∧ Stands me w' sent' ∧ Below n w' ∧
      (w.link.FailsForGood me label → (w.asRead sent).FailsForGood me label') := by
  obtain ⟨hclient, hserver⟩ := hlt
  cases hs with
  | client hs hwrites hframe =>
    obtain ⟨hstep, hstands⟩ := stands_client h hs hwrites hframe
    exact ⟨_, _, hstep, hstands, ⟨by dsimp only; omega, by dsimp only; omega⟩, id⟩
  | clientWrite hs hcall hwrite hok =>
    obtain ⟨⟨b, sent', hb, hstep, hstands⟩, hle⟩ :=
      stands_clientWrite hcfg h hs hcall hwrite hok (by omega)
    refine ⟨_, _, hstep, hstands, ⟨by dsimp only; omega, by dsimp only; omega⟩, ?_⟩
    intro hfails hsends
    exact hfails (hb.symm.trans hsends)
  | clientRead hread hs =>
    obtain ⟨hstep, hstands, he⟩ := stands_clientRead h hread hs
    exact ⟨_, _, hstep, hstands, ⟨by dsimp only; rw [he]; omega, by dsimp only; omega⟩, id⟩
  | server hs htunnel =>
    obtain ⟨hstep, hstands⟩ := stands_server h hs htunnel
    exact ⟨_, _, hstep, hstands, ⟨by dsimp only; omega, by dsimp only; omega⟩, id⟩
  | serverWrite hs hcall hwrite hok =>
    obtain ⟨hstep, hstands, hle⟩ := stands_serverWrite hcfg h hs hcall hwrite hok (by omega)
    exact ⟨_, _, hstep, hstands, ⟨by dsimp only; omega, by dsimp only; omega⟩, id⟩
  | serverRead hread hs =>
    obtain ⟨hstep, hstands, he⟩ := stands_serverRead h hread hs
    exact ⟨_, _, hstep, hstands, ⟨by dsimp only; omega, by dsimp only; rw [he]; omega⟩, id⟩

/-- Both ends with fresh ciphers of one key. -/
def start (cipher : SessionCipher) : SealedLink :=
  ⟨.initial, cipher, cipher, ⟨[], [], maxMessageSize⟩, ⟨[], [], 0⟩⟩

theorem stands_start (hA : cipher.aead.alg.Correct aeadOverhead) (hn : cipher.recvNonce ≤ cipher.sendNonce) :
    Stands me (start cipher) [] where
  correct := hA
  up := ⟨[], rfl, .start rfl hn (.inl rfl)⟩
  down := ⟨[], rfl, .start rfl hn (.inr rfl)⟩

/-- Nothing that waits at a connection is refused. -/
theorem inbox_of_error {sc rc : SessionCipher} {fs : List Frame} {e : Fault} (h : Conveys sc rc conn fs)
    (hA : sc.aead.alg.Correct aeadOverhead) (he : (readFrameFrom WSConn.reader conn rc).1 = .error e) :
    conn.inbox = [] := by
  cases fs with
  | nil => rw [h.eq_nil]
  | cons f fs =>
    obtain ⟨conn', seq, hf, -⟩ := h.read hA
    rw [hf] at he
    cases he

/-- The states belong together, with that many steps still to come. -/
def StandsFor (me : SessionId) (n : Nat) (w : SealedLink) (l : Link) : Prop :=
  ∃ sent, l = w.asRead sent ∧ Stands me w sent ∧ Below n w

/-- A run on the bytes is one on the frames with the same client, but for its memory of keepalives, and
the same server; and no read of a frame fails while a message is there. -/
theorem sealed_refines (hcfg : cfg.Fits) (hA : cipher.aead.alg.Correct aeadOverhead)
    (hn : cipher.recvNonce ≤ cipher.sendNonce) {acts : List LinkAct}
    (h : Run (SealedStep cfg me) (start cipher) acts w)
    (hlt : cipher.sendNonce.toNat + acts.length < 2 ^ 64) :
    (∃ acts' sent, Run (LinkStep me) Link.initial acts' (w.asRead sent)) ∧
      (∀ e, (readFrameFrom WSConn.reader w.serverConn w.serverCipher).1 = .error e →
        w.serverConn.inbox = []) ∧
      ∀ e, (readFrameFrom WSConn.reader w.clientConn w.clientCipher).1 = .error e →
        w.clientConn.inbox = [] := by
  have hrun : ∃ acts' l, Run (LinkStep me) Link.initial acts' l ∧ StandsFor me 0 w l := by
    refine h.simulated (R := StandsFor me) ?_ ⟨[], rfl, stands_start hA hn, hlt, hlt⟩
    rintro n w a w' l hstep ⟨sent, rfl, hstands, hbelow⟩
    obtain ⟨b, sent', hlink, hstands', hbelow', -⟩ := stands_step hcfg hstep hstands hbelow
    exact ⟨b, _, hlink, sent', rfl, hstands', hbelow'⟩
  obtain ⟨acts', _, hrun, sent, rfl, hstands, -⟩ := hrun
  refine ⟨⟨acts', sent, hrun⟩, ?_, ?_⟩
  · intro e he
    obtain ⟨fs, -, hup⟩ := hstands.up
    exact inbox_of_error hup hstands.correct he
  · intro e he
    obtain ⟨fs, -, hdown⟩ := hstands.down
    exact inbox_of_error hdown hstands.correct_server he

/-- With `DefaultPaddingConfig` and `DefaultTrafficShapeConfig`. -/
theorem defaultTunnelConfig_fits : defaultTunnelConfig.Fits where
  client := ⟨by decide, by decide, by decide⟩
  server := ⟨by decide, by decide, by decide⟩
  shape := ⟨by decide, by decide, by decide, by decide⟩

/-- The control frame of one stream, on its way. -/
def dialActs : List LinkAct := [.client (.dial [0x74] [0x68]), .client (.control 0 true)]

theorem run_dialActs : ∃ w, Run (SealedStep defaultTunnelConfig []) (start nullCipher) dialActs w := by
  let dialed : SealedLink :=
    { start nullCipher with link := ⟨Client.initial.dial [0x74] [0x68], .initial⟩ }
  let call := dialThroughTunnelWrite ⟨16, 128, true⟩ 0 [0x74] [0x68] zeroDraw
  have hdial : SealedStep defaultTunnelConfig [] (start nullCipher) (.client (.dial [0x74] [0x68])) dialed :=
    .client .dial rfl (by simp)
  have hcontrol : ClientStep dialed.link.client (.control 0 true) _ :=
    .control rfl rfl fun _ => ⟨rfl, by decide⟩
  have hwrites : ClientWrites defaultTunnelConfig dialed.link.client (.control 0 true) call :=
    .control (s := ⟨0, [0x74], [0x68], .dialing, none, [], []⟩) rfl
  have hok : (writeFrameTo (wsWriter true) dialed.serverConn call.frame dialed.clientCipher call.minPad
      call.maxPad call.draw).1.isOk = true := by decide +kernel
  rcases hwrite : writeFrameTo (wsWriter true) dialed.serverConn call.frame dialed.clientCipher call.minPad
      call.maxPad call.draw with ⟨r, conn, cipher⟩
  rw [hwrite] at hok
  exact ⟨_, .step hdial (.step (.clientWrite hcontrol hwrites hwrite hok.symm) (.refl _))⟩

theorem sealed_refines_dialActs : ∃ w acts' sent,
    Run (SealedStep defaultTunnelConfig []) (start nullCipher) dialActs w ∧
      Run (LinkStep []) Link.initial acts' (w.asRead sent) := by
  obtain ⟨w, hw⟩ := run_dialActs
  obtain ⟨⟨acts', sent, hrun⟩, -⟩ := sealed_refines defaultTunnelConfig_fits
    (nullAead_correct aeadOverhead) (UInt64.le_refl _) hw (by decide)
  exact ⟨w, acts', sent, hw, hrun⟩

/-- Failures for good on the bytes are such on the frames. -/
theorem run_joined (hcfg : cfg.Fits) (hA : cipher.aead.alg.Correct aeadOverhead)
    (hn : cipher.recvNonce ≤ cipher.sendNonce) {acts : List LinkAct}
    (h : Run (Guarded (SealedStep cfg me) fun w a => w.link.FailsForGood me a) (start cipher) acts w)
    (hlt : cipher.sendNonce.toNat + acts.length < 2 ^ 64) (hfew : w.link.client.streams.length < 2 ^ 32) :
    ∃ sent, Link.Joined me (w.asRead sent) := by
  have hrun : ∃ acts' l, Run (Guarded (LinkStep me) (Link.FailsForGood me)) Link.initial acts' l ∧
      StandsFor me 0 w l := by
    refine h.simulated (R := StandsFor me) ?_ ⟨[], rfl, stands_start hA hn, hlt, hlt⟩
    rintro n w a w' l ⟨hfails, hstep⟩ ⟨sent, rfl, hstands, hbelow⟩
    obtain ⟨b, sent', hlink, hstands', hbelow', hguard⟩ := stands_step hcfg hstep hstands hbelow
    exact ⟨b, _, ⟨hguard hfails, hlink⟩, sent', rfl, hstands', hbelow'⟩
  obtain ⟨acts', _, hrun, sent, rfl, -⟩ := hrun
  exact ⟨sent, hrun.invariant Link.joined_stable (fun _ => Link.joined_initial) hfew⟩

/-! From the handshake on. -/

/-- Both ends have returned from the handshake with the cipher. -/
def ofHandshake (n : HandshakeNet) (cipher : SessionCipher) : SealedLink :=
  ⟨.initial, cipher, cipher, n.client.conn, n.server.conn⟩

theorem ofHandshake_acceptedEnd {token auth : Bytes} (h : auth.length ≤ 4096) :
    ofHandshake (acceptedEnd cipher token auth) cipher = start cipher := by
  rw [ofHandshake, acceptedEnd, start, List.drop_eq_nil_of_le h]

/-- Unless the server refuses the token, every handshake ends with one cipher at both ends, and however
the goroutines run from there over its connection, what is written upstream for a stream was passed to
its `Write`, and what its `Read` gave was read from that upstream, byte for byte and in order. -/
theorem handshake_carries {P : Primitives} {x : ClientSide} {y : ServerSide} (hP : P.Lawful)
    (hA : P.suites.chacha20poly1305.Correct aeadOverhead) (hx : x.DrawsOk) (hy : y.DrawsOk)
    (hw : InWindow x.ts y.now) (ht : x.authToken.length ≤ 255) (hd : y.denies x.authToken = false)
    (hcfg : cfg.Fits) {es : List Endpoint} {n : HandshakeNet}
    (hn : Run Net.Step (handshakeStart P x y) es n) (hs : Stopped Net.Step n) :
    ∃ cipher, n.client.prog = .ret cipher ∧ n.server.prog = .ret (cipher, x.authToken) ∧
      ∀ acts w, acts.length < 2 ^ 64 →
        Run (Guarded (SealedStep cfg me) fun w a => w.link.FailsForGood me a) (ofHandshake n cipher) acts w →
        w.link.client.streams.length < 2 ^ 32 → Link.Carried me w.link := by
  obtain ⟨⟨dk, hkd⟩, ⟨dh, hhp⟩, da, hap⟩ := hx
  obtain ⟨⟨ek, hyk⟩, ⟨ec, hyc⟩, ep, hyp⟩ := hy
  obtain ⟨ckp, skp, hello, challenge, serverHello, sessionKey, ho⟩ :=
    exists_opening hP hkd hhp hyk hyc hyp hw
  obtain ⟨auth, ha⟩ := exists_answer hP hap challenge sessionKey
  have hc := newSessionCipher_ok P.suites ho.sessionKey_length
  have hle : auth.length ≤ 4096 := by
    have := ha.clientAuth_le
    omega
  have htok : x.authToken.take (x.authToken.length % 256) = x.authToken := by
    rw [Nat.mod_eq_of_lt (by omega), List.take_length]
  rw [← htok] at hd
  obtain ⟨⟨es', hrest⟩, -⟩ := returned_of_accepted ho ha hc hd hn
  rw [htok] at hrest
  cases hrest with
  | step hst _ => exact (hs _ _ hst).elim
  | refl =>
    refine ⟨_, rfl, rfl, fun acts w hlen hrun hfew => ?_⟩
    rw [ofHandshake_acceptedEnd hle] at hrun
    obtain ⟨sent, hjoined⟩ := run_joined hcfg hA (UInt64.le_refl _) hrun (by simpa using hlen) hfew
    obtain ⟨hforward, hback, hundialed, howner, hstream, hconn⟩ := hjoined.carried hfew
    exact ⟨hforward, hback, hundialed, howner, hstream, hconn⟩

theorem handshake_carries_open : ∃ es n,
    Run Net.Step (handshakeStart plainPrimitives (plainClient [1, 2]) (plainServer none)) es n ∧
      ∃ cipher, n.client.prog = .ret cipher ∧ n.server.prog = .ret (cipher, [1, 2]) ∧
        ∀ acts w, acts.length < 2 ^ 64 →
          Run (Guarded (SealedStep defaultTunnelConfig []) fun w a => w.link.FailsForGood [] a)
            (ofHandshake n cipher) acts w →
          w.link.client.streams.length < 2 ^ 32 → Link.Carried [] w.link := by
  obtain ⟨es, n, hn, hs, -⟩ := exists_end plainPrimitives_lawful (plainClient [1, 2]) (plainServer none)
  refine ⟨es, n, hn, ?_⟩
  exact handshake_carries plainPrimitives_lawful (nullAead_correct aeadOverhead)
    (plainClient_drawsOk [1, 2]) (plainServer_drawsOk none) (by decide) (by decide) rfl
    defaultTunnelConfig_fits hn hs

end SealedLink

end SshPanelVpn.ShadowLink

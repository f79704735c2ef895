import SshPanelVpn.ShadowLink.SocksConnection

/-! From the bytes of a SOCKS5 dialogue to the server's dial. -/
namespace SshPanelVpn.ShadowLink

open Octets

namespace SocksConn

/-- The greeting is read within the bytes of this read. -/
theorem acceptsGreeting_eq (data stale : Bytes) :
    acceptsGreeting (data ++ stale) data.length = .ok (decide (2 ≤ data.length ∧ data[0]? = some 0x05)) := by
  rcases data with _ | ⟨v, _ | ⟨m, data⟩⟩
  · rfl
  · simp [acceptsGreeting]
  · have hindex : index (v :: m :: data ++ stale) 0 = .ok v := rfl
    rw [acceptsGreeting, if_neg (by simp), hindex]
    simp [bind, Except.bind, pure, Except.pure]

/-- What the two reads lead to, as a function of their bytes. -/
theorem afterReads_pc (first second : Bytes) :
    (afterReads (some first) (some second)).pc =
      if 2 ≤ first.length ∧ first[0]? = some 0x05 then
        match requestTurn second with
        | .refuse _ => .returned
        | .giveUp => .returned
        | .connect target => .connecting target
      else .returned := by
  have hask : ∀ c : SocksConn, (c.ask (some second)).pc =
      match requestTurn second with
      | .refuse _ => .returned
      | .giveUp => .returned
      | .connect target => .connecting target := by
    intro c
    simp only [ask, readInto, parseRequest_eq]
    cases requestTurn second <;> rfl
  simp only [afterReads, greet, readInto, acceptsGreeting_eq]
  by_cases h : 2 ≤ first.length ∧ first[0]? = some 0x05
  · simp only [h]
    exact hask _
  · simp only [h, if_false, decide_false]
    rfl

theorem afterReads_connecting_iff {first second target : Bytes} :
    (afterReads (some first) (some second)).pc = .connecting target ↔
      (2 ≤ first.length ∧ first[0]? = some 0x05) ∧
        ∃ (q : SocksRequest) (reserved : UInt8), q.target = target ∧ q.bytes reserved <+: second := by
  rw [afterReads_pc, ← requestTurn_connect_iff]
  split
  · next h =>
    rw [and_iff_right h]
    cases requestTurn second <;> simp
  · next h => exact iff_of_false (by simp) fun hc => h hc.1

end SocksConn

/-! The control frame. -/

theorem splitConnectInfo_append {network : Bytes} (h : connectSeparator ∉ network) (addr : Bytes) :
    splitConnectInfo (network ++ connectSeparator :: addr) = some (network, addr) := by
  have hall : ∀ b ∈ network, (b != connectSeparator) = true := by
    intro b hb
    exact bne_iff_ne.mpr fun he => h (he ▸ hb)
  rw [splitConnectInfo, List.dropWhile_append_of_pos hall, List.takeWhile_append_of_pos hall]
  simp

/-- The server dials what the control frame names, whatever the address is. -/
theorem TunnelStream.relaySwitch_controlFrame (s : TunnelStream) (h : connectSeparator ∉ s.network) :
    relaySwitch s.controlFrame = .act (.connect s.id s.network s.addr) := by
  obtain ⟨hlen, hid, hdrop⟩ := payload_streamID s.id (s.network ++ connectSeparator :: s.addr)
  rw [relaySwitch_control rfl, handleControlFrame]
  simp only [controlFrame, newControlFrame, hlen, if_false, hid, hdrop, splitConnectInfo_append h]

/-- Whatever the two reads return: the code looks only at their bytes, so that in a buffer with no
others it does the same and no index panics; and the server dials the host and the port of the
request, for the stream that the client has opened for it. -/
theorem socks_dialsExactly (first second stale : Bytes) :
    (∃ accepted, acceptsGreeting first first.length = .ok accepted ∧
      acceptsGreeting (first ++ stale) first.length = .ok accepted) ∧
    (∃ turn, parseRequest second second.length = .ok turn ∧
      parseRequest (second ++ stale) second.length = .ok turn) ∧
    ∀ target, (SocksConn.afterReads (some first) (some second)).pc = .connecting target →
      (∃ (q : SocksRequest) (reserved : UInt8), q.bytes reserved <+: second) ∧
      ∀ (q : SocksRequest) (reserved : UInt8), q.bytes reserved <+: second →
        ∀ c : Client, ∃ stream, (c.dial tcp target).streams[c.streams.length]? = some stream ∧
          relaySwitch stream.controlFrame =
            .act (.connect c.nextID tcp (joinHostPort q.address.host (itoa (beNat q.port)))) := by
  have hgreeting := fun stale => SocksConn.acceptsGreeting_eq first stale
  have hrequest := fun stale => parseRequest_eq second stale
  refine ⟨⟨_, by simpa using hgreeting [], hgreeting stale⟩, ⟨_, by simpa using hrequest [], hrequest stale⟩,
    ?_⟩
  intro target htarget
  obtain ⟨-, q, reserved, hq, hbytes⟩ := SocksConn.afterReads_connecting_iff.mp htarget
  refine ⟨⟨q, reserved, hbytes⟩, ?_⟩
  intro q' reserved' hbytes' c
  have hsame : q'.target = target := by
    have hturn := requestTurn_connect_iff.mpr ⟨q, reserved, hq, hbytes⟩
    rw [requestTurn_connect_iff.mpr ⟨q', reserved', rfl, hbytes'⟩] at hturn
    exact RequestTurn.connect.inj hturn
  refine ⟨⟨c.nextID, tcp, target, .dialing, none, [], []⟩, by simp [Client.dial], ?_⟩
  rw [TunnelStream.relaySwitch_controlFrame _ (show connectSeparator ∉ tcp by decide), ← hsame]
  rfl

/-! Segmentation. -/

/-- A greeting with at least one method, and a request; a domain has at least one byte. -/
structure SocksDialogue where
  methods : Bytes
  hmethods : 0 < methods.length ∧ methods.length < 256
  request : SocksRequest
  hdomain : ∀ name h, request.address = .domain name h → name ≠ []

namespace SocksDialogue

def greeting (d : SocksDialogue) : Bytes := 0x05 :: UInt8.ofNat d.methods.length :: d.methods

def bytes (d : SocksDialogue) : Bytes := d.greeting ++ d.request.bytes 0x00

/-- The handler comes to `dialThroughTunnel` with the target of the request. -/
def Reaches (d : SocksDialogue) (reads : List Bytes) : Prop :=
  (SocksConn.afterReads reads[0]? reads[1]?).pc = .connecting d.request.target

end SocksDialogue

/-- What `conn.Read(buf)` returns, one call after the other, while the application sends `sent`. -/
structure Segments (reads : List Bytes) (sent : Bytes) : Prop where
  flatten : reads.flatten = sent
  nonempty : ∀ r ∈ reads, r ≠ []
  size : ∀ r ∈ reads, r.length ≤ socksBufSize

/-- The second read gives a whole request for the target, behind a first read of some bytes. -/
def Served (target : Bytes) (reads : List Bytes) : Prop :=
  ∃ first second more, reads = first :: second :: more ∧ 2 ≤ first.length ∧
    ∃ (q : SocksRequest) (reserved : UInt8), q.target = target ∧ q.bytes reserved <+: second

/-- Where the bytes end that begin a request. -/
def requestLength : Bytes → Nat
  | _ :: _ :: _ :: t :: len :: _ => if t = 0x01 then 10 else if t = 0x03 then len.toNat + 7 else 22
  | _ => 0

theorem SocksRequest.length_eq {q : SocksRequest} {reserved : UInt8} {data : Bytes}
    (h : q.bytes reserved <+: data) : (q.bytes reserved).length = requestLength data := by
  obtain ⟨more, rfl⟩ := h
  obtain ⟨address, port, hport⟩ := q
  cases address with
  | ipv4 ip h =>
    obtain ⟨b, ip, rfl⟩ := List.exists_cons_of_length_eq_add_one h
    simp [SocksRequest.bytes, SocksAddress.type, SocksAddress.bytes, requestLength, hport]
    simpa using h
  | domain name h =>
    have hlen : (UInt8.ofNat name.length).toNat = name.length := by
      rw [UInt8.toNat_ofNat', Nat.mod_eq_of_lt h]
    simp [SocksRequest.bytes, SocksAddress.type, SocksAddress.bytes, requestLength, hport, hlen]
  | ipv6 ip h =>
    obtain ⟨b, ip, rfl⟩ := List.exists_cons_of_length_eq_add_one h
    simp [SocksRequest.bytes, SocksAddress.type, SocksAddress.bytes, requestLength, hport]
    simpa using h

/-- Without a second read there is no dial. -/
theorem SocksConn.afterReads_none (first : Option Bytes) (target : Bytes) :
    (afterReads first none).pc ≠ .connecting target := by
  have hgreet : (initial.greet first).pc ≠ .connecting target := by
    cases first with
    | none => simp [greet]
    | some data =>
      simp only [greet]
      split <;> simp
  unfold afterReads
  dsimp only
  split
  · simp [ask]
  · exact hgreet

/-- The target is reached just where the second read gives a request for it. -/
theorem reaches_iff (d : SocksDialogue) (rest : Bytes) (reads : List Bytes)
    (h : Segments reads (d.bytes ++ rest)) : d.Reaches reads ↔ Served d.request.target reads := by
  rcases reads with _ | ⟨first, _ | ⟨second, more⟩⟩
  · have hflatten := h.flatten
    cases hflatten
  · refine iff_of_false (SocksConn.afterReads_none _ _) ?_
    rintro ⟨_, _, _, heq, -⟩
    cases heq
  · have hversion : first[0]? = some 0x05 := by
      obtain ⟨b, first, rfl⟩ := List.exists_cons_of_ne_nil (h.nonempty first List.mem_cons_self)
      have hflatten := h.flatten
      obtain ⟨rfl, -⟩ := List.cons.inj hflatten
      rfl
    refine SocksConn.afterReads_connecting_iff.trans ?_
    constructor
    · rintro ⟨⟨hlen, -⟩, q, reserved, htarget, hbytes⟩
      exact ⟨first, second, more, rfl, hlen, q, reserved, htarget, hbytes⟩
    · rintro ⟨_, _, _, heq, hlen, hrequest⟩
      cases heq
      exact ⟨⟨hlen, hversion⟩, hrequest⟩

/-- After a first read of the greeting alone, the second must give the whole request. -/
theorem served_greeting_iff (d : SocksDialogue) (rest second : Bytes) (more : List Bytes)
    (h : Segments (d.greeting :: second :: more) (d.bytes ++ rest)) :
    Served d.request.target (d.greeting :: second :: more) ↔ d.request.bytes 0x00 <+: second := by
  have hsent : d.request.bytes 0x00 ++ rest = second ++ more.flatten := by
    have hflatten := h.flatten
    rw [List.flatten_cons, List.flatten_cons, SocksDialogue.bytes, List.append_assoc] at hflatten
    exact (List.append_cancel_left hflatten).symm
  constructor
  · rintro ⟨_, _, _, heq, -, q, reserved, -, hbytes⟩
    cases heq
    have hq : q.bytes reserved <+: d.request.bytes 0x00 ++ rest :=
      hbytes.trans (hsent ▸ List.prefix_append _ _)
    have hlen : (d.request.bytes 0x00).length = (q.bytes reserved).length :=
      (SocksRequest.length_eq (List.prefix_append _ rest)).trans (SocksRequest.length_eq hq).symm
    exact List.prefix_of_prefix_length_le (List.prefix_append _ rest) (hsent ▸ List.prefix_append _ _)
      (hlen ▸ hbytes.length_le)
  · intro hbytes
    exact ⟨_, _, _, rfl, by simp [SocksDialogue.greeting], d.request, 0x00, rfl, hbytes⟩

/-- An application that asks for port 443 of 10.0.0.1. -/
def sampleDialogue : SocksDialogue :=
  ⟨[0x00], by decide, ⟨.ipv4 [10, 0, 0, 1] rfl, [1, 187], rfl⟩, fun _ _ h => by cases h⟩

theorem reaches_iff_sample :
    sampleDialogue.Reaches [sampleDialogue.greeting, sampleDialogue.request.bytes 0x00] ↔
      Served sampleDialogue.request.target
        [sampleDialogue.greeting, sampleDialogue.request.bytes 0x00] :=
  reaches_iff sampleDialogue [] _ ⟨by decide, by decide, by decide⟩

/-- Both messages in one segment are taken for the greeting. -/
theorem not_reaches : ¬ ∀ (d : SocksDialogue) (reads : List Bytes), Segments reads d.bytes →
    d.Reaches reads := by
  intro h
  have hreaches := h sampleDialogue [sampleDialogue.bytes] ⟨by decide, by decide, by decide⟩
  exact SocksConn.afterReads_none _ _ hreaches

end SshPanelVpn.ShadowLink

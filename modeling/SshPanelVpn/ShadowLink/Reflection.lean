import SshPanelVpn.ShadowLink.Tunnel

/-! A session whose transport belongs to an attacker: who sealed the frames that an endpoint
accepts. -/
namespace SshPanelVpn.ShadowLink

open Octets Sealing ByteStream Runs

/-- `accepted` records the frames that `ReadFrameFrom` returned, with the reading endpoint and the
encrypted bytes each came from. -/
structure Wire where
  tunnel : Tunnel
  conn : Endpoint → WSConn
  accepted : List (Endpoint × Bytes × Frame)

/-- The attacker gives any message to either endpoint; the endpoints send and read. -/
inductive WireOp where
  | send (op : SendOp)
  | deliver (dest : Endpoint) (msg : Bytes)
  | read (reader : Endpoint)

namespace Wire

/-- Only the dialling side sets a read limit. -/
def start (tunnel : Tunnel) : Wire where
  tunnel := tunnel
  conn
    | .client => ⟨[], [], maxMessageSize⟩
    | .server => ⟨[], [], 0⟩
  accepted := []

/-- `ReadFrameFrom` at one endpoint. -/
def readFrame (w : Wire) (e : Endpoint) : Result Frame × WSConn × SessionCipher :=
  readFrameFrom WSConn.reader (w.conn e) (w.tunnel.cipher e)

/-- The encrypted bytes that the next `ReadFrameFrom` of an endpoint takes. -/
def nextBuf (w : Wire) (e : Endpoint) : Result Bytes := (readFrameBuf WSConn.reader (w.conn e)).1

def perform (cfg : TunnelConfig) (w : Wire) : WireOp → Wire
  | .send op => { w with tunnel := w.tunnel.send cfg op }
  | .deliver dest msg =>
    { w with conn := Function.update w.conn dest ((w.conn dest).deliver msg) }
  | .read e =>
    let (frame, conn, cipher) := w.readFrame e
    { tunnel := { w.tunnel with cipher := Function.update w.tunnel.cipher e cipher }
      conn := Function.update w.conn e conn
      accepted := match frame, w.nextBuf e with
        | .ok frame, .ok frameBuf => w.accepted ++ [(e, frameBuf, frame)]
        | _, _ => w.accepted }

/-- What opens at a read is a message that has been sealed before it. -/
def Unforged (w : Wire) : WireOp → Prop
  | .read e => ∀ frameBuf, w.nextBuf e = .ok frameBuf →
      ((w.tunnel.cipher e).opened frameBuf).isSome →
        ∃ c ∈ w.tunnel.sealed, sealedMessage c.2 = frameBuf
  | _ => True

/-- Someone other than endpoint `e` has sealed the bytes. -/
def SealedByPeer (w : Wire) (e : Endpoint) (frameBuf : Bytes) : Prop :=
  ∃ c ∈ w.tunnel.sealed, c.1 ≠ e ∧ sealedMessage c.2 = frameBuf

def AcceptedFromPeer (w : Wire) : Prop :=
  ∀ a ∈ w.accepted, w.SealedByPeer a.1 a.2.1

/-- An endpoint is not given a well-formed frame that it alone has sealed, at or above its
receive counter. -/
def NotReflected (w : Wire) : WireOp → Prop
  | .read e => ∀ frameBuf, w.nextBuf e = .ok frameBuf → ∀ c ∈ w.tunnel.sealed, c.1 = e →
      sealedMessage c.2 = frameBuf → (w.tunnel.cipher e).recvNonce ≤ nonceSeq frameBuf →
        (parseFrame c.2.plaintext).isOk → w.SealedByPeer e frameBuf
  | _ => True

/-- Both ciphers are over one algorithm and key and of the agreed suite, and the record holds what `Seal`
returned. -/
structure Keyed (aead : Aead) (w : Wire) : Prop where
  cipher : ∀ e, (w.tunnel.cipher e).aead = aead
  suite : w.tunnel.BestSuite
  sealed : ∀ c ∈ w.tunnel.sealed, c.2.nonce.length = nonceSize ∧
    c.2.ciphertext = aead.alg.sealText aead.key c.2.nonce c.2.plaintext

variable {cfg : TunnelConfig} {w : Wire} {op : WireOp} {e : Endpoint} {aead : Aead}
  {frameBuf : Bytes}

@[simp] theorem perform_send (w : Wire) (op : SendOp) :
    w.perform cfg (.send op) = { w with tunnel := w.tunnel.send cfg op } := rfl

/-- The two results of `ReadFrameFrom` in terms of the bytes it takes. -/
theorem readFrame_cases (w : Wire) (e : Endpoint) :
    (∃ err, w.nextBuf e = .error err ∧ (w.readFrame e).1 = .error err ∧
      (w.readFrame e).2.2 = w.tunnel.cipher e) ∨
    (∃ frameBuf, w.nextBuf e = .ok frameBuf ∧
      (w.readFrame e).1 = (decodeFrame frameBuf (w.tunnel.cipher e)).1 ∧
      (w.readFrame e).2.2 = (decodeFrame frameBuf (w.tunnel.cipher e)).2) := by
  unfold nextBuf readFrame readFrameFrom
  rcases readFrameBuf WSConn.reader (w.conn e) with ⟨err | frameBuf, conn⟩
  · exact Or.inl ⟨err, rfl, rfl, rfl⟩
  · exact Or.inr ⟨frameBuf, rfl, rfl, rfl⟩

theorem decodeFrame_snd (frameBuf : Bytes) (cipher : SessionCipher) :
    (decodeFrame frameBuf cipher).2 = (cipher.decrypt frameBuf).2 := by
  unfold decodeFrame
  rcases cipher.decrypt frameBuf with ⟨_ | p, c⟩ <;> rfl

theorem keyed_send (h : w.Keyed aead) (op : SendOp) : (w.perform cfg (.send op)).Keyed aead := by
  rw [perform_send]
  cases hp : op.plaintext cfg with
  | none =>
    rw [Tunnel.send_of_none hp]
    exact h
  | some p =>
    have hsuite : (w.tunnel.send cfg op).BestSuite := h.suite.send op
    rw [Tunnel.send_of_some h.suite hp] at hsuite ⊢
    refine ⟨?_, hsuite, ?_⟩
    · intro e
      by_cases he : e = op.endpoint
      · subst he
        simpa using h.cipher op.endpoint
      · simpa [Function.update_of_ne he] using h.cipher e
    · intro c hc
      rcases List.mem_append.mp hc with hc | hc
      · exact h.sealed c hc
      · rw [List.mem_singleton] at hc
        subst hc
        simp [SessionCipher.sealCall, h.cipher op.endpoint]

theorem keyed_read (h : w.Keyed aead) (e : Endpoint) : (w.perform cfg (.read e)).Keyed aead := by
  have hkeeps : (w.readFrame e).2.2.aead = aead ∧ (w.readFrame e).2.2.suite = detectBestCipher := by
    rcases w.readFrame_cases e with ⟨err, -, -, hc⟩ | ⟨frameBuf, -, -, hc⟩
    · rw [hc]
      exact ⟨h.cipher e, h.suite e⟩
    · rw [hc, decodeFrame_snd, SessionCipher.decrypt_aead, SessionCipher.decrypt_suite]
      exact ⟨h.cipher e, h.suite e⟩
  refine ⟨?_, ?_, h.sealed⟩ <;> intro e' <;> by_cases he : e' = e
  · subst he
    simpa only [perform, Function.update_self] using hkeeps.1
  · simpa only [perform, Function.update_of_ne he] using h.cipher e'
  · subst he
    simpa only [perform, Function.update_self] using hkeeps.2
  · simpa only [perform, Function.update_of_ne he] using h.suite e'

theorem keyed_perform (h : w.Keyed aead) : (w.perform cfg op).Keyed aead := by
  cases op with
  | send op => exact keyed_send h op
  | deliver dest msg => exact ⟨h.cipher, h.suite, h.sealed⟩
  | read e => exact keyed_read h e

/-- A recorded message opens to its plaintext at either endpoint. -/
theorem opened_sealedMessage (hA : aead.alg.Correct aeadOverhead) (h : w.Keyed aead)
    {c : Endpoint × SealCall} (hc : c ∈ w.tunnel.sealed) (e : Endpoint) :
    (w.tunnel.cipher e).opened (sealedMessage c.2) = some c.2.plaintext ∧
      nonceSize + aeadOverhead ≤ (sealedMessage c.2).length := by
  obtain ⟨hn, hct⟩ := h.sealed c hc
  constructor
  · rw [SessionCipher.opened, sealedMessage, List.take_left' hn, List.drop_left' hn, h.cipher, hct,
      hA.openText_sealText]
  · rw [sealedMessage, List.length_append, hn, hct, hA.length_sealText]
    omega

/-- Acceptance of a recorded message is decided by the counter and the frame layout alone. -/
theorem decodeFrame_sealedMessage (hA : aead.alg.Correct aeadOverhead) (h : w.Keyed aead)
    {c : Endpoint × SealCall} (hc : c ∈ w.tunnel.sealed) (e : Endpoint) :
    (decodeFrame (sealedMessage c.2) (w.tunnel.cipher e)).1.isOk ↔
      (w.tunnel.cipher e).recvNonce ≤ nonceSeq (sealedMessage c.2) ∧
        (parseFrame c.2.plaintext).isOk := by
  obtain ⟨ho, hl⟩ := opened_sealedMessage hA h hc e
  unfold decodeFrame
  by_cases hr : (w.tunnel.cipher e).recvNonce ≤ nonceSeq (sealedMessage c.2)
  · have hok := SessionCipher.decrypt_ok_iff.mpr ⟨⟨hl, hr⟩, ho⟩
    rcases hd : (w.tunnel.cipher e).decrypt (sealedMessage c.2) with ⟨err | p, cipher⟩
    · simp [hd] at hok
    · obtain rfl : p = c.2.plaintext := by simpa [hd] using hok
      simp [hr]
  · rcases hd : (w.tunnel.cipher e).decrypt (sealedMessage c.2) with ⟨err | p, cipher⟩
    · simp [hr, Except.isOk, Except.toBool]
    · have hok := SessionCipher.decrypt_ok_iff.mp (show (SessionCipher.decrypt _ _).1 = .ok p by
        rw [hd])
      exact (hr hok.1.2).elim

/-- The record of accepted frames after a read. -/
theorem mem_accepted_read {a : Endpoint × Bytes × Frame} :
    a ∈ (w.perform cfg (.read e)).accepted ↔ a ∈ w.accepted ∨
      (w.nextBuf e = .ok a.2.1 ∧ a.1 = e ∧
        (decodeFrame a.2.1 (w.tunnel.cipher e)).1 = .ok a.2.2) := by
  rcases a with ⟨ea, buf, frame⟩
  rcases w.readFrame_cases e with ⟨err, hb, hf, -⟩ | ⟨frameBuf, hb, hf, -⟩
  · simp [perform, hb, hf]
  · cases hd : (decodeFrame frameBuf (w.tunnel.cipher e)).1 with
    | error err =>
      rw [hd] at hf
      simp only [perform, hf, hb, Except.ok.injEq]
      constructor
      · exact Or.inl
      · rintro (h | ⟨rfl, -, h⟩)
        · exact h
        · simp [hd] at h
    | ok f =>
      rw [hd] at hf
      simp only [perform, hf, hb, List.mem_append, List.mem_singleton, Prod.mk.injEq,
        Except.ok.injEq]
      constructor
      · rintro (h | ⟨rfl, rfl, rfl⟩)
        · exact Or.inl h
        · exact Or.inr ⟨rfl, rfl, hd⟩
      · rintro (h | ⟨rfl, rfl, h⟩)
        · exact Or.inl h
        · rw [hd] at h
          cases h
          exact Or.inr ⟨rfl, rfl, rfl⟩

theorem sealed_mono (w : Wire) (op : WireOp) {c : Endpoint × SealCall}
    (hc : c ∈ w.tunnel.sealed) : c ∈ (w.perform cfg op).tunnel.sealed := by
  cases op with
  | send op =>
    rw [perform_send, Tunnel.send]
    split
    · exact hc
    · exact List.mem_append_left _ hc
  | deliver dest msg => exact hc
  | read e => exact hc

/-- One step: the accepted frames stay the peer's exactly if no reflected frame is read. -/
theorem acceptedFromPeer_step (hA : aead.alg.Correct aeadOverhead) (hk : w.Keyed aead)
    (hu : w.Unforged op) (hp : w.AcceptedFromPeer) :
    (w.perform cfg op).AcceptedFromPeer ↔ w.NotReflected op := by
  cases op with
  | send op =>
    refine iff_of_true ?_ trivial
    intro a ha
    obtain ⟨c, hc, hne, hm⟩ := hp a ha
    exact ⟨c, w.sealed_mono (.send op) hc, hne, hm⟩
  | deliver dest msg => exact iff_of_true hp trivial
  | read e =>
    constructor
    · intro h frameBuf hb c hc hce hm hr hparse
      subst hm
      have hok := (decodeFrame_sealedMessage hA hk hc e).mpr ⟨hr, hparse⟩
      cases hd : (decodeFrame (sealedMessage c.2) (w.tunnel.cipher e)).1 with
      | error err => simp [hd, Except.isOk, Except.toBool] at hok
      | ok frame =>
        exact h (e, sealedMessage c.2, frame) (mem_accepted_read.mpr (Or.inr ⟨hb, rfl, hd⟩))
    · rintro h ⟨ea, frameBuf, frame⟩ ha
      rcases mem_accepted_read.mp ha with ha | ⟨hb, rfl, hd⟩
      · exact hp _ ha
      · have hopen : ((w.tunnel.cipher ea).opened frameBuf).isSome := by
          rcases hdec : (w.tunnel.cipher ea).decrypt frameBuf with ⟨err | p, cipher⟩
          · simp [decodeFrame, hdec] at hd
          · have hok : ((w.tunnel.cipher ea).decrypt frameBuf).1 = .ok p := by rw [hdec]
            rw [(SessionCipher.decrypt_ok_iff.mp hok).2]
            rfl
        obtain ⟨c, hc, hm⟩ := hu frameBuf hb hopen
        by_cases hce : c.1 = ea
        · subst hm
          have hacc := (decodeFrame_sealedMessage hA hk hc ea).mp (by rw [hd]; rfl)
          exact h _ hb c hc hce rfl hacc.1 hacc.2
        · exact ⟨c, hc, hce, hm⟩

/-- Along a run in which nothing is forged, the accepted frames are the peer's in every state
exactly if no endpoint is ever given back a frame of its own that its counter lets through. -/
theorem acceptedFromPeer_iff {A : AeadSuites} {sessionKey : Bytes} {s : Tunnel}
    (cfg : TunnelConfig) (ops : List WireOp) (hA : A.chacha20poly1305.Correct aeadOverhead)
    (h : establish A sessionKey = .ok s) (hu : Along (perform cfg) Unforged (start s) ops) :
    Along (perform cfg) (fun w op => (w.perform cfg op).AcceptedFromPeer) (start s) ops ↔
      Along (perform cfg) NotReflected (start s) ops := by
  have hstart : (start s).Keyed ⟨A.chacha20poly1305, sessionKey⟩ := by
    obtain ⟨hs, hc⟩ := Tunnel.establish_eq_ok h
    refine ⟨fun e => (hc e).1, fun e => (hc e).2.2.2, ?_⟩
    simp [start, hs]
  have hp : (start s).AcceptedFromPeer := by simp [AcceptedFromPeer, start]
  generalize start s = w at hu hstart hp
  induction ops generalizing w with
  | nil => exact Iff.rfl
  | cons op ops ih =>
    have hstep : (w.perform cfg op).AcceptedFromPeer ↔ w.NotReflected op :=
      acceptedFromPeer_step hA hstart hu.1 hp
    constructor
    · rintro ⟨hq, hrest⟩
      exact ⟨hstep.mp hq, (ih _ hu.2 (keyed_perform hstart) hq).mp hrest⟩
    · rintro ⟨hn, hrest⟩
      have hq := hstep.mpr hn
      exact ⟨hq, (ih _ hu.2 (keyed_perform hstart) hq).mpr hrest⟩

/-- The client's first frame is handed back to the client, which has not read anything yet. -/
def reflectDial : List WireOp := [.send dialOp, .deliver .client dialMessage, .read .client]

/-- The same frame handed to the server, as the client meant it. -/
def forwardDial : List WireOp := [.send dialOp, .deliver .server dialMessage, .read .server]

/-- After the send of `dialOp`, its message is what either endpoint reads if it is delivered. -/
theorem nextBuf_dialMessage (e : Endpoint) :
    let w := after (perform defaultTunnelConfig) (start nullTunnel)
      [.send dialOp, .deliver e dialMessage]
    ∃ c, w.tunnel.sealed = [(.client, c)] ∧ w.nextBuf e = .ok (sealedMessage c) := by
  cases e <;> exact ⟨_, rfl, rfl⟩

theorem unforged_dialMessage (e : Endpoint) :
    Along (perform defaultTunnelConfig) Unforged (start nullTunnel)
      [.send dialOp, .deliver e dialMessage, .read e] := by
  obtain ⟨c, hs, hb⟩ := nextBuf_dialMessage e
  refine ⟨trivial, trivial, ?_, trivial⟩
  intro frameBuf hf _
  refine ⟨(.client, c), ?_, ?_⟩
  · exact hs ▸ List.mem_singleton_self _
  · exact Except.ok.inj (hb.symm.trans hf)

theorem reflectDial_accepted : ∃ s, establish nullSuites zeroKey = .ok s ∧
    Along (perform defaultTunnelConfig) Unforged (start s) reflectDial ∧
      ¬ (after (perform defaultTunnelConfig) (start s) reflectDial).AcceptedFromPeer := by
  refine ⟨nullTunnel, establish_nullSuites, unforged_dialMessage .client, ?_⟩
  intro h
  obtain ⟨frameBuf, frame, ha⟩ : ∃ frameBuf frame, (Endpoint.client, frameBuf, frame) ∈
      (after (perform defaultTunnelConfig) (start nullTunnel) reflectDial).accepted :=
    ⟨_, _, List.mem_singleton_self _⟩
  obtain ⟨c, hc, hne, -⟩ := h _ ha
  obtain ⟨c', hs, -⟩ := nextBuf_dialMessage .client
  have hm : c ∈ [(Endpoint.client, c')] := hs ▸ hc
  rw [List.mem_singleton] at hm
  exact hne (by rw [hm])

theorem acceptedFromPeer_forwardDial : Along (perform defaultTunnelConfig)
    (fun w op => (w.perform defaultTunnelConfig op).AcceptedFromPeer) (start nullTunnel)
    forwardDial := by
  apply (acceptedFromPeer_iff defaultTunnelConfig forwardDial (A := nullSuites)
    (nullAead_correct aeadOverhead) establish_nullSuites (unforged_dialMessage .server)).mpr
  obtain ⟨c', hs, -⟩ := nextBuf_dialMessage .server
  refine ⟨trivial, trivial, ?_, trivial⟩
  intro frameBuf _ c hc hce
  have hm : c ∈ [(Endpoint.client, c')] := hs ▸ hc
  rw [List.mem_singleton] at hm
  rw [hm] at hce
  cases hce

end Wire

end SshPanelVpn.ShadowLink

import Mathlib.Data.List.Nodup
import SshPanelVpn.ShadowLink.Net
import SshPanelVpn.ShadowLink.Proxy

/-! An established session: two ciphers built from one session key, and everything they seal. -/
namespace SshPanelVpn.ShadowLink

open Octets Sealing Runs

/-- The encrypted frame of a `Seal` call, as it stands after the length prefix. -/
def sealedMessage (c : SealCall) : Bytes := c.nonce ++ c.ciphertext

/-- `ClientConfig.Padding`, `ClientConfig.TrafficShape.PaddingConfig` and `ServerRelay.padConfig`. -/
structure TunnelConfig where
  clientPadding : PaddingConfig
  trafficShape : PaddingConfig
  serverPadding : PaddingConfig

/-- The places of the code that call `WriteFrameTo` on a session cipher. -/
inductive SendOp where
  | dialThroughTunnel (id : UInt32) (network addr : Bytes) (draw : Result Draw)
  | tunnelConnWrite (id : UInt32) (p : Bytes) (draw : Result Draw)
  | tunnelConnClose (id : UInt32) (draw : Result Draw)
  | clientClose (draw : Result Draw)
  | sendFakeFrame (sizeDraw bytesDraw draw : Result Draw)
  | relayUpstream (id : UInt32) (available : Bytes) (draw : Result Draw)

namespace SendOp

def endpoint : SendOp → Endpoint
  | relayUpstream .. => .server
  | _ => .client

def writeCall (cfg : TunnelConfig) : SendOp → Option WriteCall
  | dialThroughTunnel id network addr draw =>
    some (dialThroughTunnelWrite cfg.clientPadding id network addr draw)
  | tunnelConnWrite id p draw => ShadowLink.tunnelConnWrite cfg.clientPadding id p draw
  | tunnelConnClose id draw => some (tunnelConnCloseWrite id draw)
  | clientClose draw => some (clientCloseWrite draw)
  | sendFakeFrame sizeDraw bytesDraw draw =>
    ShadowLink.sendFakeFrame cfg.trafficShape sizeDraw bytesDraw draw
  | relayUpstream id available draw => relayUpstreamWrite cfg.serverPadding id available draw

/-- The plaintext that the operation seals, if it gets as far as `Encrypt`. -/
def plaintext (cfg : TunnelConfig) (op : SendOp) : Option Bytes :=
  (op.writeCall cfg).bind WriteCall.plaintext

/-- The operation is one of endpoint `e` and seals a frame. -/
def SealsAt (cfg : TunnelConfig) (e : Endpoint) (op : SendOp) : Prop :=
  op.endpoint = e ∧ (op.plaintext cfg).isSome

instance (cfg : TunnelConfig) (e : Endpoint) : DecidablePred (SealsAt cfg e) := fun _ =>
  inferInstanceAs (Decidable (_ ∧ _))

end SendOp

/-- How many of the operations seal a frame at endpoint `e`. -/
def sealCount (cfg : TunnelConfig) (e : Endpoint) (ops : List SendOp) : Nat :=
  ops.countP fun op => decide (op.SealsAt cfg e)

/-- `sealed` records every `Seal` call with the endpoint that made it, in order. -/
structure Tunnel where
  cipher : Endpoint → SessionCipher
  sealed : List (Endpoint × SealCall)

/-- Client and server each call `NewSessionCipher` on the agreed key. -/
def establish (A : AeadSuites) (sessionKey : Bytes) : Result Tunnel :=
  match newSessionCipher A sessionKey detectBestCipher,
    newSessionCipher A sessionKey detectBestCipher with
  | .ok client, .ok server => .ok ⟨fun | .client => client | .server => server, []⟩
  | .error e, _ => .error e
  | _, .error e => .error e

/-! A concrete session over the algorithm that hides nothing. -/

def zeroKey : Bytes := List.replicate 32 0

def nullTunnel : Tunnel := ⟨fun _ => nullCipher, []⟩

theorem establish_nullSuites : establish nullSuites zeroKey = .ok nullTunnel := by
  have hn : newSessionCipher nullSuites zeroKey detectBestCipher = .ok nullCipher := rfl
  have hc : (fun e : Endpoint => match e with
      | .client => nullCipher
      | .server => nullCipher) = fun _ => nullCipher := by
    funext e
    cases e <;> rfl
  simp only [establish, hn]
  rw [hc, nullTunnel]

/-- `DefaultPaddingConfig` on both sides and `DefaultTrafficShapeConfig`. -/
def defaultTunnelConfig : TunnelConfig := ⟨⟨16, 128, true⟩, ⟨64, 512, true⟩, ⟨16, 128, true⟩⟩

/-- `dialThroughTunnel` for `tcp|a:1`. -/
def dialOp : SendOp :=
  .dialThroughTunnel 0 [0x74, 0x63, 0x70] [0x61, 0x3a, 0x31] zeroDraw

/-- A stream opened, and one byte of the upstream sent back. -/
def openAndAnswer : List SendOp := [dialOp, .relayUpstream 0 [7] zeroDraw]

/-- The WebSocket message of `dialOp` as the first send of `nullTunnel`. -/
def dialMessage : Bytes :=
  match (dialOp.plaintext defaultTunnelConfig).map fun p => nullCipher.sealCall p with
  | none => []
  | some c => wireMessage (newControlFrame [], sealedMessage c)

namespace Tunnel

/-- `WriteMu` makes each operation's sealing one step. -/
def send (cfg : TunnelConfig) (s : Tunnel) (op : SendOp) : Tunnel :=
  match op.writeCall cfg with
  | none => s
  | some c =>
    let e := op.endpoint
    { cipher := Function.update s.cipher e (c.encode (s.cipher e)).2
      sealed := s.sealed ++ (c.plaintext.toList.map fun p => (e, (s.cipher e).sealCall p)) }

/-- Both ciphers are of the suite that every session agrees on. -/
def BestSuite (s : Tunnel) : Prop := ∀ e, (s.cipher e).suite = detectBestCipher

/-- The key and nonce of the calls that one endpoint has made. -/
def sites (s : Tunnel) (e : Endpoint) : List (Bytes × Bytes) :=
  (s.sealed.filter fun c => c.1 = e).map fun c => c.2.site

variable {cfg : TunnelConfig} {s t : Tunnel} {op : SendOp} {ops : List SendOp} {e : Endpoint}
  {p : Bytes} {A : AeadSuites} {sessionKey : Bytes}

theorem send_of_some (hb : s.BestSuite) (h : op.plaintext cfg = some p) : s.send cfg op =
    ⟨Function.update s.cipher op.endpoint (s.cipher op.endpoint).afterSeal,
      s.sealed ++ [(op.endpoint, (s.cipher op.endpoint).sealCall p)]⟩ := by
  unfold SendOp.plaintext at h
  obtain ⟨c, hc, hp⟩ := Option.bind_eq_some_iff.mp h
  simp [send, hc, hp, WriteCall.encode_of_some hp (hb _)]

theorem send_of_none (h : op.plaintext cfg = none) : s.send cfg op = s := by
  unfold SendOp.plaintext at h
  unfold send
  cases hc : op.writeCall cfg with
  | none => rfl
  | some c =>
    rw [hc, Option.bind_some] at h
    obtain ⟨e, he⟩ := WriteCall.encode_of_none h (s.cipher op.endpoint)
    simp [he, h]

theorem BestSuite.send (hb : s.BestSuite) (op : SendOp) : (s.send cfg op).BestSuite := by
  intro e
  cases h : op.plaintext cfg with
  | none => rw [send_of_none h, hb]
  | some p =>
    rw [send_of_some hb h]
    by_cases he : e = op.endpoint
    · subst he
      simp [hb op.endpoint]
    · simp [Function.update_of_ne he, hb e]

/-- The nonces of `n` successive sealing calls of a cipher. -/
def nextSites (sc : SessionCipher) (n : Nat) : List (Bytes × Bytes) :=
  (List.range n).map fun k => (sc.aead.key, nonceBytes (sc.sendNonce + UInt64.ofNat k))

theorem nextSites_succ (sc : SessionCipher) (n : Nat) :
    nextSites sc (n + 1) = (sc.aead.key, nonceBytes sc.sendNonce) :: nextSites sc.afterSeal n := by
  have h : ∀ k, sc.sendNonce + (UInt64.ofNat k + 1) = sc.sendNonce + 1 + UInt64.ofNat k := by
    intro k
    rw [UInt64.add_assoc, UInt64.add_comm 1]
  simp [nextSites, List.range_succ_eq_map, Function.comp_def, h]

/-- Each endpoint walks its own counter, whatever the other does in between. -/
theorem sites_after (hb : s.BestSuite) (ops : List SendOp) (e : Endpoint) :
    (after (send cfg) s ops).sites e =
      s.sites e ++ nextSites (s.cipher e) (sealCount cfg e ops) := by
  induction ops generalizing s with
  | nil => simp [sealCount, nextSites]
  | cons op ops ih =>
    rw [after_cons, ih (hb.send op)]
    cases hp : op.plaintext cfg with
    | none =>
      have hc : sealCount cfg e (op :: ops) = sealCount cfg e ops := by
        simp [sealCount, SendOp.SealsAt, hp]
      rw [send_of_none hp, hc]
    | some p =>
      rw [send_of_some hb hp]
      by_cases he : op.endpoint = e
      · have hc : sealCount cfg e (op :: ops) = sealCount cfg e ops + 1 := by
          simp [sealCount, SendOp.SealsAt, hp, he]
        rw [hc, nextSites_succ]
        subst he
        simp [sites, SealCall.site, SessionCipher.sealCall]
      · have hc : sealCount cfg e (op :: ops) = sealCount cfg e ops := by
          simp [sealCount, SendOp.SealsAt, he]
        rw [hc]
        simp [sites, he, Function.update_of_ne (Ne.symm he)]

/-- Both ciphers of a fresh session are the same: one key, both counters at zero. -/
theorem establish_eq_ok (h : establish A sessionKey = .ok s) :
    s.sealed = [] ∧ ∀ e, (s.cipher e).aead = ⟨A.chacha20poly1305, sessionKey⟩ ∧
      (s.cipher e).sendNonce = 0 ∧ (s.cipher e).recvNonce = 0 ∧
        (s.cipher e).suite = detectBestCipher := by
  unfold establish newSessionCipher at h
  by_cases hk : sessionKey.length = keySize
  · simp only [hk, dif_pos, detectBestCipher, if_true] at h
    cases h
    refine ⟨rfl, ?_⟩
    intro e
    cases e <;> exact ⟨rfl, rfl, rfl, rfl⟩
  · simp [hk, failWith] at h

theorem bestSuite_of_establish (h : establish A sessionKey = .ok s) : s.BestSuite :=
  fun e => ((establish_eq_ok h).2 e).2.2.2

theorem sites_of_establish (cfg : TunnelConfig) (ops : List SendOp) (e : Endpoint)
    (h : establish A sessionKey = .ok s) :
    (after (send cfg) s ops).sites e = nextSites (s.cipher e) (sealCount cfg e ops) := by
  rw [sites_after (bestSuite_of_establish h)]
  simp [sites, (establish_eq_ok h).1]

/-- A recorded call carries the session key and a counter value below its endpoint's count. -/
theorem mem_sealed_after {c : Endpoint × SealCall} (h : establish A sessionKey = .ok s)
    (hc : c ∈ (after (send cfg) s ops).sealed) :
    c.2.key = sessionKey ∧
      ∃ k < sealCount cfg c.1 ops, c.2.nonce = nonceBytes (UInt64.ofNat k) := by
  have hm : c.2.site ∈ (after (send cfg) s ops).sites c.1 :=
    List.mem_map.mpr ⟨c, List.mem_filter.mpr ⟨hc, by simp⟩, rfl⟩
  obtain ⟨haead, hsend, -⟩ := (establish_eq_ok h).2 c.1
  rw [sites_of_establish cfg ops c.1 h, nextSites, haead, hsend] at hm
  obtain ⟨k, hk, he⟩ := List.mem_map.mp hm
  obtain ⟨hkey, hnonce⟩ := Prod.mk.inj he
  refine ⟨hkey.symm, k, List.mem_range.mp hk, ?_⟩
  rw [← hnonce, UInt64.zero_add]

/-- The counter of one endpoint repeats a nonce exactly after it has wrapped. -/
theorem nodup_nextSites (sc : SessionCipher) (n : Nat) :
    (nextSites sc n).Nodup ↔ n ≤ 2 ^ 64 := by
  have hinj : ∀ j k, (sc.aead.key, nonceBytes (sc.sendNonce + UInt64.ofNat j)) =
      (sc.aead.key, nonceBytes (sc.sendNonce + UInt64.ofNat k)) ↔ j % 2 ^ 64 = k % 2 ^ 64 := by
    intro j k
    rw [Prod.mk.injEq, nonceBytes_injective.eq_iff, UInt64.add_right_inj, ← UInt64.toNat_inj]
    simp
  constructor
  · intro h
    by_contra hn
    have h0 : (0 : Nat) ∈ List.range n := List.mem_range.mpr (by omega)
    have h1 : (2 ^ 64 : Nat) ∈ List.range n := List.mem_range.mpr (by omega)
    have he := List.inj_on_of_nodup_map h h0 h1 ((hinj _ _).mpr (by decide))
    exact absurd he (by decide)
  · intro hn
    refine List.Nodup.map_on ?_ List.nodup_range
    intro j hj k hk he
    have hm := (hinj j k).mp he
    have hj := List.mem_range.mp hj
    have hk := List.mem_range.mp hk
    rwa [Nat.mod_eq_of_lt (by omega), Nat.mod_eq_of_lt (by omega)] at hm

/-- Two endpoints that have both sealed something have both used nonce zero. -/
theorem disjoint_nextSites {sc rc : SessionCipher} (hk : sc.aead.key = rc.aead.key)
    (hn : sc.sendNonce = rc.sendNonce) (m n : Nat) :
    (nextSites sc m).Disjoint (nextSites rc n) ↔ m = 0 ∨ n = 0 := by
  constructor
  · intro h
    by_contra hmn
    have hm : (sc.aead.key, nonceBytes sc.sendNonce) ∈ nextSites sc m := by
      obtain ⟨m, rfl⟩ : ∃ k, m = k + 1 := ⟨m - 1, by omega⟩
      simp [nextSites_succ]
    have hr : (sc.aead.key, nonceBytes sc.sendNonce) ∈ nextSites rc n := by
      obtain ⟨n, rfl⟩ : ∃ k, n = k + 1 := ⟨n - 1, by omega⟩
      simp [nextSites_succ, hk, hn]
    exact h hm hr
  · rintro (rfl | rfl) <;> simp [nextSites]

/-- The calls of a session are those of its two endpoints, interleaved. -/
theorem sealed_perm (s : Tunnel) :
    (s.sealed.map fun c => c.2.site).Perm (s.sites .client ++ s.sites .server) := by
  have hf : (s.sealed.filter fun c => c.1 = Endpoint.server) =
      s.sealed.filter fun c => !decide (c.1 = Endpoint.client) := by
    apply List.filter_congr
    rintro ⟨e, c⟩ -
    cases e <;> rfl
  rw [sites, sites, hf, ← List.map_append]
  exact ((List.filter_append_perm _ _).map _).symm

/-- No pair of key and nonce is used twice over exactly the runs in which only one endpoint seals
frames, and that one no more than its counter has values. -/
theorem sites_nodup_iff (cfg : TunnelConfig) (ops : List SendOp)
    (h : establish A sessionKey = .ok s) :
    ((after (send cfg) s ops).sealed.map fun c => c.2.site).Nodup ↔
      (sealCount cfg .client ops = 0 ∨ sealCount cfg .server ops = 0) ∧
        ∀ e, sealCount cfg e ops ≤ 2 ^ 64 := by
  have hc := (establish_eq_ok h).2
  have hsites := fun e => sites_of_establish cfg ops e h
  have hk : (s.cipher .client).aead.key = (s.cipher .server).aead.key := by
    rw [(hc .client).1, (hc .server).1]
  have hn : (s.cipher .client).sendNonce = (s.cipher .server).sendNonce := by
    rw [(hc .client).2.1, (hc .server).2.1]
  rw [(sealed_perm _).nodup_iff, List.nodup_append', hsites, hsites, nodup_nextSites,
    nodup_nextSites, disjoint_nextSites hk hn]
  constructor
  · rintro ⟨hcl, hsv, hd⟩
    refine ⟨hd, ?_⟩
    intro e
    cases e
    · exact hcl
    · exact hsv
  · rintro ⟨hd, hle⟩
    exact ⟨hle .client, hle .server, hd⟩

theorem sites_repeat : ∃ s, establish nullSuites zeroKey = .ok s ∧
    ¬ ((after (send defaultTunnelConfig) s openAndAnswer).sealed.map fun c => c.2.site).Nodup := by
  refine ⟨nullTunnel, establish_nullSuites, ?_⟩
  have hs : ((after (send defaultTunnelConfig) nullTunnel openAndAnswer).sealed.map
      fun c => c.2.site) = [(zeroKey, nonceBytes 0), (zeroKey, nonceBytes 0)] := rfl
  simp [hs]

/-- A session in which only the client sends. -/
theorem sites_nodup_dialOnly :
    ((after (send defaultTunnelConfig) nullTunnel [dialOp]).sealed.map
      fun c => c.2.site).Nodup := by
  refine (sites_nodup_iff defaultTunnelConfig _ establish_nullSuites).mpr ⟨Or.inr rfl, ?_⟩
  intro e
  exact List.countP_le_length.trans (by decide)

end Tunnel

end SshPanelVpn.ShadowLink

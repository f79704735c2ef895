import SshPanelVpn.Panel.AccountIdentity
import SshPanelVpn.Panel.ShadowLinkAccounts
import SshPanelVpn.ShadowLink.HandshakeRun

/-! `shadowlink_client_config`: the config behind a link, and the server that a client with it meets. -/
namespace SshPanelVpn.Panel

open Octets Runs ShadowLink

/-- The columns of a server that only its client configs are made of. -/
structure ShadowLinkEndpoint where
  port : Nat
  wsPath : Str
  domain : Str
  deriving DecidableEq, Repr

structure ClientSection where
  listenAddr : Str
  serverAddr : Str
  serverSni : Str
  wsPath : Str
  authToken : Str
  useTls : Bool
  insecure : Bool
  deriving DecidableEq, Repr

structure CdnSection where
  enabled : Bool
  cdnAddress : Str
  domain : Str
  wsPath : Str
  deriving DecidableEq, Repr

structure PaddingSection where
  enabled : Bool
  minBytes : Nat
  maxBytes : Nat
  deriving DecidableEq, Repr

structure TimingSection where
  enabled : Bool
  minDelay : Str
  maxDelay : Str
  deriving DecidableEq, Repr

structure TrafficShapeSection where
  enabled : Bool
  idleInterval : Str
  deriving DecidableEq, Repr

structure ObfuscationSection where
  padding : PaddingSection
  timing : TimingSection
  trafficShape : TrafficShapeSection
  deriving DecidableEq, Repr

structure ClientConfig where
  client : ClientSection
  cdn : CdnSection
  obfuscation : ObfuscationSection
  deriving DecidableEq, Repr

/-- `generate_client_config`. -/
def generateClientConfig (account : Account) (server : Server) (endpoint : ShadowLinkEndpoint) :
    ClientConfig :=
  let domain := if endpoint.domain = [] then server.ipAddress else endpoint.domain
  { client :=
      { listenAddr := "127.0.0.1:1080".toList
        serverAddr := domain ++ ":".toList ++ decimal endpoint.port
        serverSni := domain
        wsPath := endpoint.wsPath
        authToken := account.authToken
        useTls := true
        insecure := endpoint.domain = [] }
    cdn := ⟨false, [], domain, endpoint.wsPath⟩
    obfuscation :=
      { padding := ⟨true, 16, 128⟩
        timing := ⟨true, "0ms".toList, "50ms".toList⟩
        trafficShape := ⟨true, "5s".toList⟩ } }

/-- Of the account, a config has the token. -/
theorem generateClientConfig_congr {a b : Account} (h : a.authToken = b.authToken) (server : Server)
    (endpoint : ShadowLinkEndpoint) :
    generateClientConfig a server endpoint = generateClientConfig b server endpoint := by
  unfold generateClientConfig
  rw [h]

/-- The answers to a link. -/
inductive ConfigResponse where
  | notFound
  | notActive
  | config (c : ClientConfig)
  deriving DecidableEq, Repr

/-- `shadowlink_client_config`, where the endpoints are known by the keys of their servers. -/
def shadowlinkClientConfig (endpoints : Nat → ShadowLinkEndpoint) (db : Db) (token : Str) :
    ConfigResponse :=
  match db.accounts.rows.find? fun a => a.authToken = token ∧ a.protocolType = .shadowlink with
  | none => .notFound
  | some account =>
    if account.status ≠ .active then .notActive
    else
      match db.getServer account.server with
      | none => .notFound
      | some server => .config (generateClientConfig account server (endpoints server.id))

/-- `loadConfig` of the client, once the file is unmarshalled. -/
def loadClientConfig (cfg : ClientConfig) : ClientConfig :=
  { cfg with
    client :=
      { cfg.client with
        listenAddr :=
          if cfg.client.listenAddr = [] then "127.0.0.1:1080".toList else cfg.client.listenAddr
        wsPath := if cfg.client.wsPath = [] then "/ws".toList else cfg.client.wsPath } }

/-! Tokens as text and as bytes. -/

/-- The text of a UUID is such a token. -/
def AsciiToken (token : Str) : Prop := token.length ≤ 255 ∧ ∀ c ∈ token, c.toNat < 128

def tokenBytes (token : Str) : Bytes := token.map fun c => UInt8.ofNat c.toNat

/-- `bridge.AuthenticateToken` as the relay's `authFunc`. -/
def Node.authFunc (n : Node) (authToken : Bytes) : Bool × Int :=
  n.bridge.authenticateToken (goString authToken).toList

theorem goString_tokenBytes {token : Str} (h : AsciiToken token) :
    (goString (tokenBytes token)).toList = token := by
  unfold goString tokenBytes
  rw [String.toList_ofList, List.map_map]
  conv_rhs => rw [← List.map_id token]
  refine List.map_congr_left ?_
  intro c hc
  have hlt := h.2 c hc
  have hbyte : (UInt8.ofNat c.toNat).toNat = c.toNat := by
    rw [UInt8.toNat_ofNat', Nat.mod_eq_of_lt (by omega)]
  simp only [Function.comp_apply, hbyte, id_eq]
  exact Char.ofNat_toNat c

/-! The link and the accounts. -/

section Link

variable {endpoints : Nat → ShadowLinkEndpoint} {db : Db} {token : Str} {a : Account} {c : ClientConfig}

theorem find_authToken (ha : a ∈ db.accounts) (hp : a.protocolType = .shadowlink) :
    db.accounts.rows.find? (fun b => b.authToken = a.authToken ∧ b.protocolType = .shadowlink) =
      some a := by
  cases hfind : db.accounts.rows.find? fun b =>
      b.authToken = a.authToken ∧ b.protocolType = .shadowlink with
  | none =>
    have hnone := List.find?_eq_none.mp hfind a ha
    simp [hp] at hnone
  | some b =>
    have hb := List.find?_some hfind
    simp only [decide_eq_true_eq] at hb
    rw [AccountTable.eq_of_authToken (List.mem_of_find?_eq_some hfind) ha hb.1]

variable (endpoints) in
/-- The link of an account whose server has its row. -/
theorem shadowlinkClientConfig_of_mem {server : Server} (ha : a ∈ db.accounts)
    (hp : a.protocolType = .shadowlink) (hs : db.getServer a.server = some server) :
    shadowlinkClientConfig endpoints db a.authToken =
      if a.status = .active then .config (generateClientConfig a server (endpoints server.id))
      else .notActive := by
  unfold shadowlinkClientConfig
  rw [find_authToken ha hp]
  by_cases hactive : a.status = .active
  · simp [hactive, hs]
  · simp [hactive]

/-- A config is given out for an ACTIVE account with the token. -/
theorem of_config (h : shadowlinkClientConfig endpoints db token = .config c) :
    ∃ a ∈ db.accounts, ∃ server, a.authToken = token ∧ a.protocolType = .shadowlink ∧
      a.status = .active ∧ db.getServer a.server = some server ∧
      c = generateClientConfig a server (endpoints server.id) := by
  unfold shadowlinkClientConfig at h
  split at h
  · cases h
  · next a hfind =>
    have hfound := List.find?_some hfind
    simp only [decide_eq_true_eq] at hfound
    split at h
    · cases h
    · next hactive =>
      split at h
      · cases h
      · next server hs =>
        cases h
        exact ⟨a, List.mem_of_find?_eq_some hfind, server, hfound.1, hfound.2, not_not.mp hactive, hs,
          rfl⟩

end Link

/-! Both outcomes of a handshake. -/

section Handshake

variable {P : Primitives} {x : ClientSide} {y : ServerSide}

/-- The server has refused the token, wherever it stands. -/
theorem not_returned_of_denied {cipher : SessionCipher} {token auth : Bytes} {es : List Endpoint}
    {n : HandshakeNet} (hr : Run Net.Step n es (deniedEnd cipher token auth)) : ¬ Returned n.server := by
  rintro ⟨a, ha⟩
  obtain ⟨hp, -⟩ := Net.server_returned_run hr ha
  cases hp

theorem denies_of_authFunc {f : Bytes → Bool × Int} (h : y.authFunc = some f) (token : Bytes) :
    y.denies token = !(f token).1 := by
  unfold ServerSide.denies
  rw [h]

/-- Where no draw fails and the clocks agree, the server's `authFunc` decides. -/
theorem handshake_decided (hP : P.Lawful) (hx : x.DrawsOk) (hy : y.DrawsOk) (hw : InWindow x.ts y.now)
    (ht : x.authToken.length ≤ 255) :
    (y.denies x.authToken = false → ∃ cipher auth, ∀ es n, Run Net.Step (handshakeStart P x y) es n →
      ∃ es', Run Net.Step n es' (acceptedEnd cipher x.authToken auth)) ∧
    (y.denies x.authToken = true → ∀ es n, Run Net.Step (handshakeStart P x y) es n →
      ¬ Returned n.server) := by
  obtain ⟨⟨dk, hkd⟩, ⟨dh, hhp⟩, da, hap⟩ := hx
  obtain ⟨⟨ek, hyk⟩, ⟨ec, hyc⟩, ep, hyp⟩ := hy
  obtain ⟨ckp, skp, hello, challenge, serverHello, sessionKey, ho⟩ :=
    exists_opening hP hkd hhp hyk hyc hyp hw
  obtain ⟨auth, ha⟩ := exists_answer hP hap challenge sessionKey
  obtain ⟨cipher, hc⟩ : ∃ cipher, newSessionCipher P.suites sessionKey detectBestCipher = .ok cipher :=
    ⟨_, newSessionCipher_ok P.suites ho.sessionKey_length⟩
  have htok : x.authToken.take (x.authToken.length % 256) = x.authToken := by
    rw [Nat.mod_eq_of_lt (by omega), List.take_length]
  constructor
  · intro hd
    rw [← htok] at hd
    refine ⟨cipher, auth, ?_⟩
    intro es n hn
    have h := (returned_of_accepted ho ha hc hd hn).1
    rwa [htok] at h
  · intro hd es n hn
    rw [← htok] at hd
    obtain ⟨es', hr, -⟩ :=
      Net.commuting.run_extends (run_denied ho ha hc hd) (stopped_deniedEnd _ _ _) hn
    exact not_returned_of_denied hr

end Handshake

/-! Downloads over runs of the panel. -/

namespace World

theorem run_eq_actAll (w : World) (xs : List (Op × Env)) :
    w.run xs = w.actAll (xs.map fun x => (AccountOp.op x.1, fun _ => x.2)) := by
  induction xs generalizing w with
  | nil => rfl
  | cons x xs ih => exact ih (w.step x)

/-- An account that is there stays with its token, its protocol, its server and the server's row. -/
theorem run_keeps (w : World) (xs : List (Op × Env)) {a : Account} (ha : a ∈ w.db.accounts) :
    ∃ b ∈ (w.run xs).db.accounts, a.SameOrigin b ∧ b.server = a.server ∧
      (w.run xs).db.servers = w.db.servers := by
  rw [run_eq_actAll]
  have hkeeps := actAll_keeps w (xs.map fun x => (AccountOp.op x.1, fun _ => x.2))
  have hstays := actAll_keepsServers w (xs.map fun x => (AccountOp.op x.1, fun _ => x.2)) (by
    intro x hx
    obtain ⟨y, -, rfl⟩ := List.mem_map.mp hx
    rfl)
  obtain ⟨b, hb, hab⟩ := hkeeps.rows a ha
  obtain ⟨c, hc, hid, hserver⟩ := hstays a ha
  refine ⟨b, hb, hab, ?_, hkeeps.servers⟩
  rw [AccountTable.eq_of_id hb hc (hab.id.trans hid.symm), hserver]

theorem run_mirrored {w : World} (h₀ : w.db.accounts.rows = []) {xs : List (Op × Env)}
    (hg : Along World.step (fun w x => KeepsTokens x.2 (registry.view w) x.1) w xs)
    (hok : ∀ e ∈ (w.run xs).log, e.bridgeFailed = false) : mirrored (registry.view (w.run xs)) := by
  have hmirrored : registry.Good mirrored w := by
    intro _ a ha
    have ha' : a ∈ w.db.accounts.rows := ha
    simp [h₀] at ha'
  exact hg.invariant step_mirrored hmirrored hok

/-- What the relay of its server is told of a ShadowLink account, at the end of such a run. -/
theorem authFunc_mirrored {w : World} (h₀ : w.db.accounts.rows = []) {xs : List (Op × Env)}
    (hg : Along World.step (fun w x => KeepsTokens x.2 (registry.view w) x.1) w xs)
    (hok : ∀ e ∈ (w.run xs).log, e.bridgeFailed = false) {a : Account}
    (ha : a ∈ (w.run xs).db.accounts) (hp : a.protocolType = .shadowlink)
    (htoken : AsciiToken a.authToken) :
    ((w.run xs).nodes a.server).authFunc (tokenBytes a.authToken) = expectedAnswer a := by
  have hanswer := run_mirrored h₀ hg hok a ha hp
  rw [Node.authFunc, goString_tokenBytes htoken, BridgeServer.authenticateToken_eq, ← hanswer]
  rfl

/-- A config that has once been downloaded, in a run that keeps the bridges like the rows: as long as
the account is ACTIVE its link gives out the same config, and a client with it and its server come to
one cipher and the account's token; otherwise the link refuses, and so does the server. -/
theorem download_connects {w : World} (h₀ : w.db.accounts.rows = []) {ys zs : List (Op × Env)}
    (hg : Along World.step (fun w x => KeepsTokens x.2 (registry.view w) x.1) w (ys ++ zs))
    (hok : ∀ e ∈ (w.run (ys ++ zs)).log, e.bridgeFailed = false)
    {endpoints : Nat → ShadowLinkEndpoint} {token : Str} {c : ClientConfig}
    (hc : shadowlinkClientConfig endpoints (w.run ys).db token = .config c) (htoken : AsciiToken token) :
    ∃ a ∈ (w.run (ys ++ zs)).db.accounts, a.authToken = token ∧
      ∀ {P : Primitives} {x : ClientSide} {y : ServerSide}, P.Lawful →
        x.authToken = tokenBytes (loadClientConfig c).client.authToken →
        y.authFunc = some ((w.run (ys ++ zs)).nodes a.server).authFunc →
        x.DrawsOk → y.DrawsOk → InWindow x.ts y.now →
        (a.status = .active ∧
          shadowlinkClientConfig endpoints (w.run (ys ++ zs)).db token = .config c ∧
          ∃ cipher auth, ∀ es n, Run Net.Step (handshakeStart P x y) es n →
            ∃ es', Run Net.Step n es' (acceptedEnd cipher (tokenBytes token) auth)) ∨
        (a.status ≠ .active ∧
          shadowlinkClientConfig endpoints (w.run (ys ++ zs)).db token = .notActive ∧
          ∀ es n, Run Net.Step (handshakeStart P x y) es n → ¬ Returned n.server) := by
  obtain ⟨a₀, ha₀, server, rfl, hp₀, -, hserver, rfl⟩ := of_config hc
  have hrun : w.run (ys ++ zs) = (w.run ys).run zs := after_append w ys zs
  obtain ⟨a, ha, horigin, hserverId, hservers⟩ := run_keeps (w.run ys) zs ha₀
  rw [← hrun] at ha hservers
  have hp : a.protocolType = .shadowlink := horigin.protocolType.trans hp₀
  have hgetServer : (w.run (ys ++ zs)).db.getServer a.server = some server := by
    rw [Db.getServer, hservers, hserverId]
    exact hserver
  refine ⟨a, ha, horigin.authToken, ?_⟩
  intro P x y hP hxtoken hauth hx hy hw
  have hxtoken : x.authToken = tokenBytes a₀.authToken := hxtoken
  have hlength : x.authToken.length ≤ 255 := by
    rw [hxtoken, tokenBytes, List.length_map]
    exact htoken.1
  obtain ⟨haccepts, hrefuses⟩ := handshake_decided hP hx hy hw hlength
  have hdenies : y.denies x.authToken = !decide (a.status = .active) := by
    have hask := authFunc_mirrored h₀ hg hok ha hp (horigin.authToken ▸ htoken)
    rw [horigin.authToken, ← hxtoken] at hask
    rw [denies_of_authFunc hauth, hask, expectedAnswer]
    by_cases hactive : a.status = .active <;> simp [hactive]
  have hlink := shadowlinkClientConfig_of_mem endpoints ha hp hgetServer
  rw [horigin.authToken, generateClientConfig_congr horigin.authToken] at hlink
  rw [hlink]
  by_cases hactive : a.status = .active
  · refine .inl ⟨hactive, if_pos hactive, ?_⟩
    rw [← hxtoken]
    exact haccepts (by simp [hdenies, hactive])
  · exact .inr ⟨hactive, if_neg hactive, hrefuses (by simp [hdenies, hactive])⟩

def sampleEndpoints (_ : Nat) : ShadowLinkEndpoint := ⟨443, "/ws".toList, []⟩

/-- The config of an account whose note is patched after the download. -/
theorem download_connects_patched :
    ∃ c, shadowlinkClientConfig sampleEndpoints
        (sampleWorld.run [(.create (sampleRequest "alice" .shadowlink), sampleEnv 0)]).db
        "auth".toList = .config c ∧
      ∃ f cipher auth, ∀ es n,
        Run Net.Step (handshakeStart plainPrimitives
          (plainClient (tokenBytes (loadClientConfig c).client.authToken)) (plainServer (some f))) es n →
        ∃ es', Run Net.Step n es' (acceptedEnd cipher (tokenBytes "auth".toList) auth) := by
  let ys : List (Op × Env) := [(.create (sampleRequest "alice" .shadowlink), sampleEnv 0)]
  let zs : List (Op × Env) := [(.patch 1 ⟨none, none, none, none, some "late".toList⟩, sampleEnv 1)]
  have hlive : ∀ a ∈ (sampleWorld.run (ys ++ zs)).db.accounts.rows, a.status = .active := by
    decide +kernel
  obtain ⟨c, hlink⟩ : ∃ c, shadowlinkClientConfig sampleEndpoints (sampleWorld.run ys).db
      "auth".toList = .config c := by
    cases h : shadowlinkClientConfig sampleEndpoints (sampleWorld.run ys).db "auth".toList with
    | config c => exact ⟨c, rfl⟩
    | notFound => exact absurd h (by decide +kernel)
    | notActive => exact absurd h (by decide +kernel)
  refine ⟨c, hlink, ?_⟩
  have hwindow : InWindow (Time.ofUnix 0) (Time.ofUnix 0) := by decide
  have hascii : ∀ c ∈ "auth".toList, c.toNat < 128 := by
    have hall : "auth".toList.all (fun c => decide (c.toNat < 128)) = true := by decide
    intro c hc
    exact of_decide_eq_true (List.all_eq_true.mp hall c hc)
  have hkeeps : Along World.step (fun w x => KeepsTokens x.2 (registry.view w) x.1) sampleWorld
      (ys ++ zs) :=
    ⟨trivial, fun _ _ _ _ => Or.inl rfl, trivial⟩
  obtain ⟨a, ha, -, hconnects⟩ :=
    download_connects rfl hkeeps (by decide +kernel) hlink ⟨by decide, hascii⟩
  have h := hconnects plainPrimitives_lawful
    (x := plainClient (tokenBytes (loadClientConfig c).client.authToken)) rfl
    (y := plainServer (some ((sampleWorld.run (ys ++ zs)).nodes a.server).authFunc)) rfl
    (plainClient_drawsOk _) (plainServer_drawsOk _) hwindow
  rcases h with ⟨-, -, cipher, auth, h⟩ | ⟨hn, -⟩
  · exact ⟨_, cipher, auth, h⟩
  · exact absurd (hlive a ha) hn

end World

end SshPanelVpn.Panel

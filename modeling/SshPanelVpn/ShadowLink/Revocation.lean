import SshPanelVpn.ShadowLink.MainServer
import SshPanelVpn.ShadowLink.RelayIsolation

/-! What a token that is taken away means for the connections of the server. -/
namespace SshPanelVpn.ShadowLink

open Runs

namespace BridgeRequest

/-- `deregisterToken` or `suspendToken` for the token. -/
def Revokes (r : BridgeRequest) (token : List Char) : Prop :=
  r.method = "POST" ∧ (r.path = "/api/tokens/delete" ∨ r.path = "/api/tokens/suspend") ∧
    ∃ req, r.body = some req ∧ req.token = token

/-- `registerToken` or `activateToken` for the token. -/
def Restores (r : BridgeRequest) (token : List Char) : Prop :=
  r.method = "POST" ∧ (r.path = "/api/tokens" ∨ r.path = "/api/tokens/activate") ∧
    ∃ req, r.body = some req ∧ req.token = token

end BridgeRequest

namespace BridgeServer

variable {bs : BridgeServer} {r : BridgeRequest} {token : List Char}

/-- `AuthenticateToken` does not accept the token. -/
def Refuses (bs : BridgeServer) (token : List Char) : Prop := (bs.authenticateToken token).1 = false

theorem refuses_iff : bs.Refuses token ↔ ∀ maxConns, bs.held token ≠ some (maxConns, true) := by
  rw [Refuses, authenticateToken_eq]
  cases bs.held token with
  | none => simp [answer]
  | some info =>
    obtain ⟨maxConns, active⟩ := info
    cases active <;> simp [answer]

/-- A request leaves the registry alone, or is one of the four with a body, let in and answered. -/
theorem serveHTTP_cases (bs : BridgeServer) (r : BridgeRequest) :
    (bs.serveHTTP r).2 = bs ∨ r.method = "POST" ∧ (bs.serveHTTP r).1.status = 200 ∧
      ∃ req, r.body = some req ∧
        (bs.serveHTTP r).2.held = change bs.held req.token (requestEffect r.path req) := by
  obtain ⟨method, path, apiKey, body⟩ := r
  by_cases hkey : bs.apiKey ≠ [] ∧ apiKey ≠ bs.apiKey
  · simp [serveHTTP, hkey]
  · by_cases hm : method = "POST"
    · subst hm
      cases body with
      | none =>
        left
        simp only [serveHTTP, hkey, if_false, registerToken, deregisterToken, suspendToken,
          activateToken, postOnly, withBody, if_true]
        repeat' split
        all_goals rfl
      | some req =>
        by_cases hok : (bs.serveHTTP ⟨"POST", path, apiKey, some req⟩).1.status = 200
        · exact .inr ⟨rfl, hok, req, rfl, held_serveHTTP (by rw [hok]; decide)⟩
        · left
          revert hok
          simp only [serveHTTP, hkey, if_false, registerToken, deregisterToken, suspendToken,
            activateToken, postOnly, withBody, if_true]
          repeat' split
          all_goals simp
    · left
      simp only [serveHTTP, hkey, if_false, hm, postOnly, methodNotAllowed, listTokens]
      repeat' split
      all_goals rfl

theorem requestEffect_delete (req : TokenRequest) (i : Option (Int × Bool)) :
    requestEffect "/api/tokens/delete" req i = none := rfl

theorem requestEffect_suspend (req : TokenRequest) (i : Option (Int × Bool)) :
    requestEffect "/api/tokens/suspend" req i = i.map fun i => (i.1, false) := rfl

theorem refuses_of_revokes (hr : r.Revokes token) (hok : (bs.serveHTTP r).1.status = 200) :
    (bs.serveHTTP r).2.Refuses token := by
  obtain ⟨method, path, apiKey, body⟩ := r
  obtain ⟨rfl, hpath, req, rfl, rfl⟩ := hr
  have hheld := held_serveHTTP (lt_of_eq_of_lt hok (show 200 < 400 by decide))
  rw [refuses_iff, hheld]
  intro maxConns
  rw [change, Function.update_self]
  rcases hpath with rfl | rfl
  · rw [requestEffect_delete]
    simp
  · rw [requestEffect_suspend]
    cases bs.held req.token <;> simp

/-- Only the two other requests bring it back. -/
theorem refuses_serveHTTP (hs : bs.Refuses token)
    (hr : r.Restores token → (bs.serveHTTP r).1.status ≠ 200) :
    (bs.serveHTTP r).2.Refuses token := by
  rcases serveHTTP_cases bs r with hsame | ⟨hm, hok, req, hbody, hheld⟩
  · rwa [hsame]
  · rw [refuses_iff] at hs ⊢
    rw [hheld]
    intro maxConns
    by_cases ht : token = req.token
    · subst ht
      rw [change, Function.update_self, requestEffect]
      have hnot : ∀ {path : String}, r.path = path →
          (path = "/api/tokens" ∨ path = "/api/tokens/activate") → False := by
        rintro path hp hor
        exact hr ⟨hm, hp ▸ hor, req, hbody, rfl⟩ hok
      split
      · next hp => exact (hnot hp (.inl rfl)).elim
      · split
        · simp
        · split
          · cases bs.held req.token <;> simp
          · split
            · next hp => exact (hnot hp (.inr rfl)).elim
            · exact hs maxConns
    · rw [change, Function.update_of_ne ht]
      exact hs maxConns

end BridgeServer

/-- What the relay does on upstream connections because of a frame. -/
def RelayAct.OnUpstream (act : RelayAct) : Prop :=
  (∃ ok, act = .dial ok) ∨ ∃ n, act = .write n

/-- The loop of a session is past the handshake and before its end. -/
def LoopPc.Working (pc : LoopPc) : Prop := pc ≠ .handshaking ∧ pc ≠ .ended

namespace SessionView

variable {sid : SessionId} {v v' : SessionView} {act : RelayAct}

theorem working_step (h : SessionStep sid v act v') (hact : act ≠ .establish)
    (hw : v'.loop.Working) : v.loop.Working := by
  cases h with
  | establish => exact (hact rfl).elim
  | frame hpc => simp [LoopPc.Working, hpc]
  | dial hpc => simp [LoopPc.Working, hpc]
  | insert hpc => simp [LoopPc.Working, hpc]
  | lookup hpc => simp [LoopPc.Working, hpc]
  | write hpc => simp [LoopPc.Working, hpc]
  | close hpc => simp [LoopPc.Working, hpc]
  | cleanup hpc => simp [LoopPc.Working, hpc]
  | read => exact hw
  | send => simpa using hw
  | finish => simpa using hw

theorem not_working_cleanup {order : List ConnRef} (h : SessionStep sid v (.cleanup order) v') :
    ¬ v'.loop.Working := by
  cases h
  rintro ⟨-, hended⟩
  exact hended rfl

theorem working_of_onUpstream (h : SessionStep sid v act v') (hact : act.OnUpstream) :
    v.loop.Working := by
  rcases hact with ⟨ok, rfl⟩ | ⟨n, rfl⟩
  · cases h with
    | dial hpc => simp [LoopPc.Working, hpc]
  · cases h with
    | write hpc => simp [LoopPc.Working, hpc]

end SessionView

namespace RelayInstance

/-- The session was authenticated with the token and is being relayed. -/
def Serves (ri : RelayInstance) (id : SessionId) (token : List Char) : Prop :=
  ∃ c, ri.conns id = some c ∧ c.pc = .relaying token

/-- Streams are kept apart by session, and only established sessions are relayed. -/
structure Sound (ri : RelayInstance) : Prop where
  own : ri.relay.OwnRefs
  serves : ∀ id, (ri.relay.view id).loop.Working → ∃ token, ri.Serves id token

variable {authFunc : List Char → Bool × Int} {ri ri' : RelayInstance} {act : InstanceAct}
  {token : List Char}

theorem sound_new : new.Sound := by
  refine ⟨ServerRelay.ownRefs_initial, ?_⟩
  rintro id ⟨hnot, -⟩
  exact (hnot rfl).elim

/-- A connection that is not relayed can be changed. -/
theorem Sound.setConn (hs : ri.Sound) {id : SessionId} {c : Connection}
    (hnot : ∀ token, ¬ ri.Serves id token) : (ri.setConn id c).Sound := by
  refine ⟨hs.own, ?_⟩
  intro id' hw
  obtain ⟨token, c', hc', hpc⟩ := hs.serves id' hw
  rcases setConn_cases ri id c id' with hsame | ⟨rfl, -⟩
  · exact ⟨token, c', hsame.trans hc', hpc⟩
  · exact (hnot token ⟨c', hc', hpc⟩).elim

theorem not_serves_of_pc {id : SessionId} {c : Connection} (hc : ri.conns id = some c)
    (hpc : ∀ token, c.pc ≠ .relaying token) (token : List Char) : ¬ ri.Serves id token := by
  rintro ⟨c', hc', hpc'⟩
  obtain rfl : c = c' := Option.some.inj (hc.symm.trans hc')
  exact hpc token hpc'

/-- A step of the relay itself, with what becomes of its session. -/
theorem Sound.relay {id : SessionId} {ract : RelayAct} {relay : ServerRelay}
    {conns : SessionId → Option Connection} {manager : SessionManager} (hs : ri.Sound)
    (hrelay : RelayStep ri.relay (id, ract) relay)
    (hother : ∀ id', id' ≠ id → conns id' = ri.conns id')
    (hself : (relay.view id).loop.Working → ∃ c token, conns id = some c ∧ c.pc = .relaying token) :
    Sound ⟨manager, relay, conns⟩ := by
  refine ⟨ServerRelay.ownRefs_stable _ _ _ hrelay hs.own, ?_⟩
  intro id' hw
  by_cases hid : id' = id
  · subst hid
    obtain ⟨c, token, hc, hpc⟩ := hself hw
    exact ⟨token, c, hc, hpc⟩
  · change (relay.view id').loop.Working at hw
    rw [ServerRelay.step_other hs.own hrelay hid] at hw
    obtain ⟨token, c, hc, hpc⟩ := hs.serves id' hw
    exact ⟨token, c, (hother id' hid).trans hc, hpc⟩

theorem Sound.step (hs : ri.Sound) (h : InstanceStep authFunc ri act ri') : ri'.Sound := by
  cases h with
  | accept hnew =>
    apply hs.setConn
    rintro token ⟨c, hc, -⟩
    rw [hnew] at hc
    cases hc
  | authenticate hc hpc => exact hs.setConn (not_serves_of_pc hc (by simp [hpc]))
  | fail hc hpc =>
    apply hs.setConn (not_serves_of_pc hc _)
    intro token
    rcases hpc with hpc | ⟨token', maxConns, hpc⟩ <;> simp [hpc]
  | @establish id c token maxConns relay hc hpc hrelay =>
    apply hs.relay hrelay (fun id' hid => setConn_of_ne hid _)
    intro _
    exact ⟨_, token, setConn_self .., rfl⟩
  | @relay id ract relay hact hrelay =>
    apply hs.relay hrelay (fun _ _ => rfl)
    intro hw
    obtain ⟨token, c, hc, hpc⟩ :=
      hs.serves id (SessionView.working_step (ServerRelay.step_view hs.own hrelay) hact.1 hw)
    exact ⟨c, token, hc, hpc⟩
  | @cleanup id c token order relay hc hpc hrelay =>
    apply hs.relay hrelay (fun id' hid => setConn_of_ne hid _)
    intro hw
    exact (SessionView.not_working_cleanup (ServerRelay.step_view hs.own hrelay) hw).elim

theorem Sound.serves_of_onUpstream (hs : ri.Sound) {id : SessionId} {ract : RelayAct}
    (h : InstanceStep authFunc ri (.relay id ract) ri') (hact : ract.OnUpstream) :
    ∃ token, ri.Serves id token := by
  cases h with
  | relay _ hrelay =>
    exact hs.serves id (SessionView.working_of_onUpstream (ServerRelay.step_view hs.own hrelay) hact)

/-- A token that is refused is granted to nobody new. -/
theorem granted_step (h : InstanceStep authFunc ri act ri') (hno : (authFunc token).1 = false)
    {id : SessionId} (hg : ri'.Granted id token) : ri.Granted id token := by
  obtain ⟨c', hc', hpc'⟩ := hg
  rcases conns_step h id with hsame | ⟨c, hc, hchange⟩
  · exact ⟨c', hsame.symm.trans hc', hpc'⟩
  · obtain rfl : c = c' := Option.some.inj (hc.symm.trans hc')
    generalize hbefore : ri.conns id = before at hchange
    cases hchange with
    | accepted => rcases hpc' with hpc' | ⟨maxConns, hpc'⟩ <;> cases hpc'
    | @granted c token' hok =>
      rcases hpc' with hpc' | ⟨maxConns, hpc'⟩
      · cases hpc'
      · cases hpc'
        rw [hok] at hno
        cases hno
    | ended => rcases hpc' with hpc' | ⟨maxConns, hpc'⟩ <;> cases hpc'
    | @established c token' maxConns hpc =>
      rcases hpc' with hpc' | ⟨maxConns, hpc'⟩
      · cases hpc'
        exact ⟨c, hbefore, .inr ⟨maxConns, hpc⟩⟩
      · cases hpc'
    | closed => rcases hpc' with hpc' | ⟨maxConns, hpc'⟩ <;> cases hpc'

end RelayInstance

namespace MainServer

variable {bridge : BridgeServer} {s u v : MainServer} {r : BridgeRequest} {token : List Char}
  {before after : List MainAct} {act : MainAct}

/-- The server with what a request leaves of the registry. -/
def afterRequest (s : MainServer) (r : BridgeRequest) : MainServer :=
  { s with bridge := (s.bridge.serveHTTP r).2 }

/-- The step is not a request that is let in and brings the token back. -/
def NotRestored (token : List Char) (s : MainServer) (act : MainAct) : Prop :=
  ∀ r, act = .bridge r → r.Restores token → (s.bridge.serveHTTP r).1.status ≠ 200

theorem sound_run (h : Run MainStep s before u) (hs : s.authRelay.Sound) : u.authRelay.Sound := by
  apply h.invariant (I := fun s => s.authRelay.Sound) _ hs
  intro s a t hst hs
  cases hst with
  | connection h => exact hs.step h
  | bridge => exact hs

theorem refuses_step (h : MainStep s act u) (hact : NotRestored token s act)
    (hs : s.bridge.Refuses token) : u.bridge.Refuses token := by
  cases h with
  | connection h => exact hs
  | bridge => exact BridgeServer.refuses_serveHTTP hs (hact _ rfl)

/-- As long as the token is not brought back, nobody new is let in with it. -/
theorem granted_run (h : Run (Guarded MainStep (NotRestored token)) s after u)
    (hs : s.bridge.Refuses token) :
    ∀ id, u.authRelay.Granted id token → s.authRelay.Granted id token := by
  induction h with
  | refl => exact fun _ hg => hg
  | step hst _ ih =>
    obtain ⟨hact, hst⟩ := hst
    intro id hg
    have hmid := ih (refuses_step hst hact hs) id hg
    cases hst with
    | connection h => exact RelayInstance.granted_step h hs hmid
    | bridge => exact hmid

/-- From the answer to a request that takes the token away until one brings it back, nobody is let
in with the token, and what is dialed and written upstream is for sessions of other tokens or for
connections that the token had been accepted for before. -/
theorem revoked_run (hbefore : Run MainStep (initial bridge) before s) (hr : r.Revokes token)
    (hok : (s.bridge.serveHTTP r).1.status = 200)
    (hafter : Run (Guarded MainStep (NotRestored token)) (s.afterRequest r) after u) :
    (∀ id, u.authRelay.Granted id token → s.authRelay.Granted id token) ∧
    ∀ id ract v, MainStep u (.connection (.relay id ract)) v → ract.OnUpstream →
      ∃ token', u.authRelay.Serves id token' ∧
        (token' = token → s.authRelay.Granted id token) := by
  have hgranted : ∀ id, u.authRelay.Granted id token → s.authRelay.Granted id token :=
    granted_run (s := s.afterRequest r) hafter (BridgeServer.refuses_of_revokes hr hok)
  have hsound₀ : s.authRelay.Sound :=
    sound_run (s := initial bridge) hbefore RelayInstance.sound_new
  have hsound : u.authRelay.Sound := sound_run (s := s.afterRequest r) hafter.of_guarded hsound₀
  refine ⟨hgranted, ?_⟩
  intro id ract v hst hact
  cases hst with
  | connection h =>
    obtain ⟨token', c, hc, hpc⟩ := hsound.serves_of_onUpstream h hact
    refine ⟨token', ⟨c, hc, hpc⟩, ?_⟩
    rintro rfl
    exact hgranted id ⟨c, hc, .inl hpc⟩

/-- A client is connected with the token `t`, which is then suspended. -/
def connected : List MainAct :=
  [.connection (.accept []), .connection (.authenticate [] ['t']), .connection (.establish [])]

def suspendT : BridgeRequest := ⟨"POST", "/api/tokens/suspend", [], some ⟨['t'], 0⟩⟩

theorem suspendT_revokes : suspendT.Revokes ['t'] := ⟨rfl, .inr rfl, _, rfl, rfl⟩

/-- It asks for a connection afterwards. -/
theorem run_connected : ∃ s u, Run MainStep (initial Server.oneConn) connected s ∧
    (s.bridge.serveHTTP suspendT).1.status = 200 ∧
    Run (Guarded MainStep (NotRestored ['t'])) (s.afterRequest suspendT)
      [.connection (.relay [] (.frame (some ServerRelay.controlFive)))] u ∧
    u.authRelay.Serves [] ['t'] ∧
    ∃ v, MainStep u (.connection (.relay [] (.dial true))) v := by
  refine ⟨_, _, .step (.connection (.accept rfl)) <|
    .step (.connection (.authenticate rfl rfl)) <|
    .step (.connection (.establish rfl rfl (.establish rfl))) <| .refl _, rfl,
    .step ⟨?_, .connection (.relay ⟨by simp, by simp⟩ (.frame rfl))⟩ <| .refl _,
    ⟨_, rfl, rfl⟩, _, .connection (.relay ⟨by simp, by simp⟩ (.dial rfl))⟩
  rintro r hr
  cases hr

theorem revoked_run_connected : ∃ s u, Run MainStep (initial Server.oneConn) connected s ∧
    Run (Guarded MainStep (NotRestored ['t'])) (s.afterRequest suspendT)
      [.connection (.relay [] (.frame (some ServerRelay.controlFive)))] u ∧
    ∀ id, u.authRelay.Granted id ['t'] → s.authRelay.Granted id ['t'] := by
  obtain ⟨s, u, hbefore, hok, hafter, -, -⟩ := run_connected
  exact ⟨s, u, hbefore, hafter, (revoked_run hbefore suspendT_revokes hok hafter).1⟩

/-- The session goes on dialing for the suspended token. -/
theorem not_cut_off : ¬ ∀ (bridge : BridgeServer) (before after : List MainAct) (s u v : MainServer)
    (r : BridgeRequest) (token : List Char) (id : SessionId) (ract : RelayAct),
    Run MainStep (initial bridge) before s → r.Revokes token →
      (s.bridge.serveHTTP r).1.status = 200 →
      Run (Guarded MainStep (NotRestored token)) (s.afterRequest r) after u →
      u.authRelay.Serves id token → MainStep u (.connection (.relay id ract)) v →
        ¬ ract.OnUpstream := by
  intro h
  obtain ⟨s, u, hbefore, hok, hafter, hserves, v, hst⟩ := run_connected
  exact h _ _ _ s u v suspendT ['t'] [] (.dial true) hbefore suspendT_revokes hok hafter hserves hst
    (.inl ⟨true, rfl⟩)

end MainServer

end SshPanelVpn.ShadowLink

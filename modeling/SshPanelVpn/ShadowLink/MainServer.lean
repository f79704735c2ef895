import SshPanelVpn.ShadowLink.Admission

/-! `cmd/server/main.go`: the bridge, the relay it was made with, and the relay that serves the
connections. -/
namespace SshPanelVpn.ShadowLink

open Runs

/-- `SessionInfo`, without the address and the times. -/
structure SessionInfo where
  id : SessionId
  authToken : List Char
  state : SessionState
  streamCount : Nat
  deriving DecidableEq, Repr

/-- The fields of a `ServerRelay`, with the `HandleConnection` calls that are on it. -/
structure RelayInstance where
  manager : SessionManager
  relay : ServerRelay
  conns : SessionId → Option Connection

inductive InstanceAct where
  | accept (id : SessionId)
  | authenticate (id : SessionId) (token : List Char)
  | fail (id : SessionId)
  | establish (id : SessionId)
  | relay (id : SessionId) (act : RelayAct)
  | cleanup (id : SessionId) (order : List ConnRef)
  deriving DecidableEq, Repr

namespace RelayInstance

/-- `NewServerRelay`. -/
def new : RelayInstance := ⟨.new 0, .initial, fun _ => none⟩

def setConn (ri : RelayInstance) (id : SessionId) (c : Connection) : RelayInstance :=
  { ri with conns := Function.update ri.conns id (some c) }

/-- `len(sr.streams[s.ID])`. -/
def streamCount (ri : RelayInstance) (id : SessionId) : Nat :=
  ((ri.relay.streams id).getD ∅).entries.length

/-- `s.GetState()`; a session is made for each connection. -/
def sessionState (ri : RelayInstance) (id : SessionId) : SessionState :=
  match ri.conns id with
  | none => .new
  | some c => c.session.state

/-- `GetActiveSessions`: what the manager knows. -/
def getActiveSessions (ri : RelayInstance) : List SessionInfo :=
  ri.manager.sessions.entries.map fun s => ⟨s.1, s.2, ri.sessionState s.1, ri.streamCount s.1⟩

/-- The handshake has succeeded, and `cleanupSession` has not run. -/
def Live (ri : RelayInstance) (id : SessionId) : Prop :=
  ∃ c token, ri.conns id = some c ∧ c.pc = .relaying token

/-- `AuthenticateToken` has accepted the token for this connection, which has not ended since. -/
def Granted (ri : RelayInstance) (id : SessionId) (token : List Char) : Prop :=
  ∃ c, ri.conns id = some c ∧ (c.pc = .relaying token ∨ ∃ maxConns, c.pc = .validated token maxConns)

@[simp] theorem setConn_self (ri : RelayInstance) (id : SessionId) (c : Connection) :
    (ri.setConn id c).conns id = some c := Function.update_self ..

theorem setConn_of_ne {ri : RelayInstance} {id id' : SessionId} (h : id' ≠ id) (c : Connection) :
    (ri.setConn id c).conns id' = ri.conns id' := Function.update_of_ne h ..

end RelayInstance

/-- One access of `HandleConnection` or of an upstream goroutine, under what `authFunc` says now. -/
inductive InstanceStep (authFunc : List Char → Bool × Int) :
    RelayInstance → InstanceAct → RelayInstance → Prop where
  | accept {ri : RelayInstance} {id : SessionId} (hnew : ri.conns id = none) :
      InstanceStep authFunc ri (.accept id) (ri.setConn id (.accepted id))
  | authenticate {ri : RelayInstance} {id : SessionId} {token : List Char} {c : Connection}
      (hc : ri.conns id = some c) (hpc : c.pc = .handshaking) :
      InstanceStep authFunc ri (.authenticate id token)
        (ri.setConn id (c.goto
          (if (authFunc token).1 then .validated token (authFunc token).2 else .ended)))
  | fail {ri : RelayInstance} {id : SessionId} {c : Connection} (hc : ri.conns id = some c)
      (hpc : c.pc = .handshaking ∨ ∃ token maxConns, c.pc = .validated token maxConns) :
      InstanceStep authFunc ri (.fail id) (ri.setConn id (c.goto .ended))
  | establish {ri : RelayInstance} {id : SessionId} {c : Connection} {token : List Char}
      {maxConns : Int} {relay : ServerRelay} (hc : ri.conns id = some c)
      (hpc : c.pc = .validated token maxConns)
      (hrelay : RelayStep ri.relay (id, .establish) relay) :
      InstanceStep authFunc ri (.establish id)
        { ri.setConn id (c.established token) with relay := relay }
  | relay {ri : RelayInstance} {id : SessionId} {act : RelayAct} {relay : ServerRelay}
      (hact : act ≠ .establish ∧ ∀ order, act ≠ .cleanup order)
      (hrelay : RelayStep ri.relay (id, act) relay) :
      InstanceStep authFunc ri (.relay id act) { ri with relay := relay }
  | cleanup {ri : RelayInstance} {id : SessionId} {c : Connection} {token : List Char}
      {order : List ConnRef} {relay : ServerRelay} (hc : ri.conns id = some c)
      (hpc : c.pc = .relaying token) (hrelay : RelayStep ri.relay (id, .cleanup order) relay) :
      InstanceStep authFunc ri (.cleanup id order)
        { ri.setConn id c.closed with relay := relay, manager := ri.manager.remove id }

/-- What one access can do to the connection `id`. -/
inductive ConnChange (authFunc : List Char → Bool × Int) (id : SessionId) :
    InstanceAct → Option Connection → Connection → Prop where
  | accepted : ConnChange authFunc id (.accept id) none (.accepted id)
  | granted {c : Connection} {token : List Char} (hok : (authFunc token).1 = true) :
      ConnChange authFunc id (.authenticate id token) (some c)
        (c.goto (.validated token (authFunc token).2))
  | ended {act : InstanceAct} {c : Connection} : ConnChange authFunc id act (some c) (c.goto .ended)
  | established {c : Connection} {token : List Char} {maxConns : Int}
      (hpc : c.pc = .validated token maxConns) :
      ConnChange authFunc id (.establish id) (some c) (c.established token)
  | closed {act : InstanceAct} {c : Connection} : ConnChange authFunc id act (some c) c.closed

namespace RelayInstance

variable {authFunc : List Char → Bool × Int} {ri ri' : RelayInstance} {act : InstanceAct}

theorem setConn_cases (ri : RelayInstance) (id' : SessionId) (c : Connection) (id : SessionId) :
    (ri.setConn id' c).conns id = ri.conns id ∨ id = id' ∧ (ri.setConn id' c).conns id = some c := by
  by_cases hid : id = id'
  · subst hid
    exact .inr ⟨rfl, setConn_self ri id c⟩
  · exact .inl (setConn_of_ne hid c)

theorem conns_step (h : InstanceStep authFunc ri act ri') (id : SessionId) :
    ri'.conns id = ri.conns id ∨
      ∃ c, ri'.conns id = some c ∧ ConnChange authFunc id act (ri.conns id) c := by
  cases h with
  | @accept id' hnew =>
    rcases setConn_cases ri id' (.accepted id') id with hid | ⟨rfl, hid⟩
    · exact .inl hid
    · exact .inr ⟨_, hid, hnew ▸ .accepted⟩
  | @authenticate id' token c hc hpc =>
    rcases setConn_cases ri id' _ id with hid | ⟨rfl, hid⟩
    · exact .inl hid
    · refine .inr ⟨_, hid, ?_⟩
      rw [hc]
      split
      · next hok => exact .granted hok
      · exact .ended
  | @fail id' c hc hpc =>
    rcases setConn_cases ri id' (c.goto .ended) id with hid | ⟨rfl, hid⟩
    · exact .inl hid
    · exact .inr ⟨_, hid, hc ▸ .ended⟩
  | @establish id' c token maxConns relay hc hpc hrelay =>
    rcases setConn_cases ri id' (c.established token) id with hid | ⟨rfl, hid⟩
    · exact .inl hid
    · exact .inr ⟨_, hid, hc ▸ .established hpc⟩
  | relay hact hrelay => exact .inl rfl
  | @cleanup id' c token order relay hc hpc hrelay =>
    rcases setConn_cases ri id' c.closed id with hid | ⟨rfl, hid⟩
    · exact .inl hid
    · exact .inr ⟨_, hid, hc ▸ .closed⟩

end RelayInstance

structure MainServer where
  bridge : BridgeServer
  /-- `relay`, which the bridge was made with -/
  relay : RelayInstance
  authRelay : RelayInstance

inductive MainAct where
  | connection (act : InstanceAct)
  | bridge (request : BridgeRequest)
  deriving DecidableEq, Repr

/-- The handler of `WSPath` calls `HandleConnection` on `authRelay`; nobody calls it on `relay`. -/
inductive MainStep : MainServer → MainAct → MainServer → Prop where
  | connection {s : MainServer} {act : InstanceAct} {ri : RelayInstance}
      (h : InstanceStep s.bridge.authenticateToken s.authRelay act ri) :
      MainStep s (.connection act) { s with authRelay := ri }
  | bridge {s : MainServer} {r : BridgeRequest} :
      MainStep s (.bridge r) { s with bridge := (s.bridge.serveHTTP r).2 }

/-- The answer to `/api/status`. -/
structure StatusReport where
  totalTokens : Nat
  activeTokens : Nat
  activeSessions : List SessionInfo
  deriving DecidableEq, Repr

namespace MainServer

/-- `main`, with what `loadTokens` found. -/
def initial (bridge : BridgeServer) : MainServer := ⟨bridge, .new, .new⟩

def activeSessions (s : MainServer) : List SessionInfo := s.relay.getActiveSessions

def serverStatus (s : MainServer) : StatusReport where
  totalTokens := s.bridge.tokens.entries.length
  activeTokens := s.bridge.tokens.entries.countP fun t => t.2.active
  activeSessions := s.relay.getActiveSessions

variable {s t : MainServer} {act : MainAct} {acts : List MainAct} {bridge : BridgeServer}

/-- The relay of the bridge stays as it was made. -/
theorem relay_step (h : MainStep s act t) : t.relay = s.relay := by
  cases h <;> rfl

theorem relay_run (h : Run MainStep s acts t) : t.relay = s.relay := by
  induction h with
  | refl => rfl
  | step hst _ ih => exact ih.trans (relay_step hst)

end MainServer

end SshPanelVpn.ShadowLink

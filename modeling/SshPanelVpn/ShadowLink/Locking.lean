import SshPanelVpn.Library.LockOrder

/-! The mutexes of a ShadowLink process: which ones each function takes, and inside which others. A write
or a read of a socket or a file while a mutex is held counts as one that comes back. -/
namespace SshPanelVpn.ShadowLink

open LockOrder Runs

/-- The mutexes. Relays, sessions, connections and clients are numbered. -/
inductive Mu where
  /-- `BridgeServer.mu` -/
  | bridge
  /-- `ServerRelay.mu` -/
  | relay (r : Nat)
  /-- `SessionManager.mu` -/
  | manager (r : Nat)
  /-- `Session.mu` -/
  | session (id : Nat)
  /-- `TrafficShaper.mu` -/
  | shaper (c : Nat)
  /-- `SessionCipher.WriteMu` -/
  | cipherWrite (c : Nat)
  /-- `WSConn.writeMu` -/
  | wsWrite (c : Nat)
  /-- `WSConn.readMu` -/
  | wsRead (c : Nat)
  /-- `Client.mu` -/
  | client (c : Nat)
  deriving DecidableEq, Repr

/-- What a function does to the mutexes. -/
abbrev Locking := List (LockOp Mu)

/-- `mu.Lock()`, the body, `mu.Unlock()`. -/
def locked (mu : Mu) (body : Locking) : Locking := within mu .write body

/-- `mu.RLock()`, the body, `mu.RUnlock()`. -/
def rlocked (mu : Mu) (body : Locking) : Locking := within mu .read body

/-! `session.go`. -/

namespace Locking

def setCipher (id : Nat) : Locking := locked (.session id) []
def setState (id : Nat) : Locking := locked (.session id) []
def touch (id : Nat) : Locking := locked (.session id) []
def getState (id : Nat) : Locking := rlocked (.session id) []
def isExpired (id : Nat) : Locking := rlocked (.session id) []

/-- `existing` are the sessions of the token whose state is asked for. -/
def add (r : Nat) (existing : List Nat) : Locking := locked (.manager r) (existing.map getState).flatten

def remove (r : Nat) : Locking := locked (.manager r) []
def get (r : Nat) : Locking := rlocked (.manager r) []
def countByToken (r : Nat) (ids : List Nat) : Locking := rlocked (.manager r) (ids.map getState).flatten
def totalActive (r : Nat) (ids : List Nat) : Locking := rlocked (.manager r) (ids.map getState).flatten

def cleanExpired (r : Nat) (ids expired : List Nat) : Locking :=
  locked (.manager r) ((ids.map isExpired).flatten ++ (expired.map setState).flatten)

def allSessions (r : Nat) : Locking := rlocked (.manager r) []

/-! `ws.go` and `frame.go`. -/

def wsRead (c : Nat) : Locking := locked (.wsRead c) []
def wsWrite (c : Nat) : Locking := locked (.wsWrite c) []
def writeFrameTo (c : Nat) : Locking := locked (.cipherWrite c) (wsWrite c)

/-- `io.ReadFull` may take several reads. -/
def readFrameFrom (c reads : Nat) : Locking := (List.replicate reads (wsRead c)).flatten

/-! `bridge.go`. -/

/-- `registerToken`, `deregisterToken`, `suspendToken` and `activateToken`, with `saveTokens` inside. -/
def writeTokens : Locking := locked .bridge []

def listTokens : Locking := rlocked .bridge []
def authenticateToken : Locking := rlocked .bridge []

def getActiveSessions (r : Nat) (ids : List Nat) : Locking :=
  allSessions r ++ (ids.map fun id => rlocked (.relay r) [] ++ getState id).flatten

def serverStatus (r : Nat) (ids : List Nat) : Locking := rlocked .bridge [] ++ getActiveSessions r ids

/-! `relay.go`. -/

def closeStream (r : Nat) : Locking := locked (.relay r) []

def cleanupSession (r id : Nat) : Locking := locked (.relay r) (setState id ++ remove r)

/-- How far `performServerHandshake` gets: two reads and a write, the check of the token, and the answer. -/
def performServerHandshake (c steps : Nat) : Locking :=
  ([wsRead c, wsWrite c, wsRead c, authenticateToken, wsWrite c].take steps).flatten

/-- The frames that `relayLoop` tells apart. -/
inductive Received where
  | data
  /-- A control frame, and whether its stream was dialed. -/
  | control (dialed : Bool)
  | keepalive
  | closeStream
  deriving DecidableEq, Repr

def handleFrame (r : Nat) : Received → Locking
  | .data => rlocked (.relay r) []
  | .control true => locked (.relay r) []
  | .control false => []
  | .keepalive => []
  | .closeStream => closeStream r

/-- The reads of a frame, the frame, and the reads of the frame that could not be read at the end. -/
def relayLoop (r id c : Nat) (frames : List (Nat × Received)) (last : Nat) : Locking :=
  (frames.map fun f => readFrameFrom c f.1 ++ touch id ++ handleFrame r f.2).flatten ++
    readFrameFrom c last

def handleConnection (r id c steps : Nat) (established : Bool) (frames : List (Nat × Received)) (last : Nat) :
    Locking :=
  setState id ++ performServerHandshake c steps ++
    if established then
      setCipher id ++ setState id ++ locked (.relay r) [] ++ relayLoop r id c frames last ++ cleanupSession r id
    else []

def relayUpstream (r c frames : Nat) : Locking :=
  (List.replicate frames (writeFrameTo c)).flatten ++ closeStream r

/-! `traffic_shape.go` and `socks5.go`. -/

/-- `written` is whether the shaper is not stopped and its draws succeed. -/
def sendFakeFrame (c : Nat) (written : Bool) : Locking :=
  locked (.shaper c) (if written then writeFrameTo c else [])

def stop (c : Nat) : Locking := locked (.shaper c) []

def dialThroughTunnel (c : Nat) : Locking := locked (.client c) [] ++ writeFrameTo c

def tunnelClose (c : Nat) : Locking := locked (.client c) [] ++ writeFrameTo c

/-- The dialogue may end before the dial, and the dial may fail. -/
def handleSOCKS5 (c : Nat) (asked dialed : Bool) : Locking :=
  (if asked then dialThroughTunnel c else []) ++ if dialed then tunnelClose c else []

/-- `io.Copy(tunnel, conn)`. -/
def copyToTunnel (c frames : Nat) : Locking := (List.replicate frames (writeFrameTo c)).flatten

/-- The frames of the client's `readLoop`, each with its reads and whether it looks for a stream. -/
def clientReadLoop (c : Nat) (frames : List (Nat × Bool)) (last : Nat) : Locking :=
  (frames.map fun f => readFrameFrom c f.1 ++ if f.2 then locked (.client c) [] else []).flatten ++
    readFrameFrom c last

def performHandshake (c steps : Nat) : Locking :=
  ([wsWrite c, wsRead c, wsWrite c, wsRead c].take steps).flatten

def clientClose (c : Nat) : Locking := stop c ++ writeFrameTo c

end Locking

/-- What a goroutine of the process can be at: a request to the bridge, a connection, a stream's
upstream, the shaper, a SOCKS5 connection, the client's own calls, or a call of the session manager. -/
inductive Task where
  | writeTokens
  | listTokens
  | serverStatus (r : Nat) (ids : List Nat)
  | activeSessions (r : Nat) (ids : List Nat)
  | handleConnection (r id c steps : Nat) (established : Bool) (frames : List (Nat × Locking.Received))
      (last : Nat)
  | relayUpstream (r c frames : Nat)
  | sendFakeFrame (c : Nat) (written : Bool)
  | handleSOCKS5 (c : Nat) (asked dialed : Bool)
  | copyToTunnel (c frames : Nat)
  | clientReadLoop (c : Nat) (frames : List (Nat × Bool)) (last : Nat)
  | performHandshake (c steps : Nat)
  | clientClose (c : Nat)
  | add (r : Nat) (existing : List Nat)
  | get (r : Nat)
  | countByToken (r : Nat) (ids : List Nat)
  | totalActive (r : Nat) (ids : List Nat)
  | cleanExpired (r : Nat) (ids expired : List Nat)

def Task.locking : Task → Locking
  | writeTokens => Locking.writeTokens
  | listTokens => Locking.listTokens
  | serverStatus r ids => Locking.serverStatus r ids
  | activeSessions r ids => Locking.getActiveSessions r ids
  | handleConnection r id c steps established frames last =>
    Locking.handleConnection r id c steps established frames last
  | relayUpstream r c frames => Locking.relayUpstream r c frames
  | sendFakeFrame c written => Locking.sendFakeFrame c written
  | handleSOCKS5 c asked dialed => Locking.handleSOCKS5 c asked dialed
  | copyToTunnel c frames => Locking.copyToTunnel c frames
  | clientReadLoop c frames last => Locking.clientReadLoop c frames last
  | performHandshake c steps => Locking.performHandshake c steps
  | clientClose c => Locking.clientClose c
  | add r existing => Locking.add r existing
  | get r => Locking.get r
  | countByToken r ids => Locking.countByToken r ids
  | totalActive r ids => Locking.totalActive r ids
  | cleanExpired r ids expired => Locking.cleanExpired r ids expired

/-! The order of the mutexes. -/

/-- The relay's mutex is taken before the manager's and that before a session's; the shaper's before the
cipher's and that before the connection's. The others are taken alone. -/
def Mu.rank : Mu → Nat
  | bridge => 0
  | relay _ => 0
  | manager _ => 1
  | session _ => 2
  | shaper _ => 0
  | cipherWrite _ => 1
  | wsWrite _ => 2
  | wsRead _ => 0
  | client _ => 0

theorem Mu.rank_le (mu : Mu) : mu.rank ≤ 2 := by
  cases mu <;> simp [rank]

namespace Locking

/-- The function can run where the mutexes that are held rank below `low`. -/
abbrev Nests (low : Nat) (ops : Locking) : Prop := Nested Mu.rank low ops

variable {low r id c reads steps : Nat} {body : Locking} {ids : List Nat} {mu : Mu}

theorem nests_locked (hlow : low ≤ mu.rank) (h : Nests (mu.rank + 1) body) : Nests low (locked mu body) :=
  h.within hlow

theorem nests_rlocked (hlow : low ≤ mu.rank) (h : Nests (mu.rank + 1) body) : Nests low (rlocked mu body) :=
  h.within hlow

theorem nests_alone (hlow : low ≤ mu.rank) : Nests low (locked mu []) := nests_locked hlow .nil

theorem nests_read (hlow : low ≤ mu.rank) : Nests low (rlocked mu []) := nests_rlocked hlow .nil

theorem nests_map {α : Type} {f : α → Locking} (h : ∀ a, Nests low (f a)) (as : List α) :
    Nests low (as.map f).flatten := by
  refine .flatten ?_
  intro ops hops
  obtain ⟨a, -, rfl⟩ := List.mem_map.mp hops
  exact h a

theorem nests_replicate {ops : Locking} (h : Nests low ops) (n : Nat) :
    Nests low (List.replicate n ops).flatten := by
  refine .flatten ?_
  intro ops' hops
  rwa [List.eq_of_mem_replicate hops]

theorem nests_take {bodies : List Locking} (h : ∀ ops ∈ bodies, Nests low ops) (n : Nat) :
    Nests low (bodies.take n).flatten :=
  .flatten fun ops hops => h ops (List.mem_of_mem_take hops)

theorem nests_setState : Nests 2 (setState id) := nests_alone (Nat.le_refl 2)
theorem nests_getState : Nests 2 (getState id) := nests_read (Nat.le_refl 2)
theorem nests_allSessions : Nests 1 (allSessions r) := nests_read (Nat.le_refl 1)
theorem nests_wsRead : Nests 0 (wsRead c) := nests_alone (Nat.le_refl 0)
theorem nests_wsWrite : Nests 2 (wsWrite c) := nests_alone (Nat.le_refl 2)

theorem nests_writeFrameTo : Nests 1 (writeFrameTo c) := nests_locked (Nat.le_refl 1) nests_wsWrite

theorem nests_readFrameFrom : Nests 0 (readFrameFrom c reads) := nests_replicate nests_wsRead _

theorem nests_getActiveSessions : Nests 0 (getActiveSessions r ids) :=
  (nests_allSessions.mono (Nat.zero_le _)).append
    (nests_map (fun _ => (nests_read (Nat.le_refl 0)).append (nests_getState.mono (Nat.zero_le _))) ids)

theorem nests_cleanupSession : Nests 0 (cleanupSession r id) :=
  nests_locked (Nat.le_refl 0) ((nests_setState.mono (Nat.le_succ 1)).append (nests_alone (Nat.le_refl 1)))

theorem nests_performServerHandshake : Nests 0 (performServerHandshake c steps) := by
  refine nests_take ?_ steps
  intro ops hops
  simp only [List.mem_cons, List.not_mem_nil, or_false] at hops
  rcases hops with rfl | rfl | rfl | rfl | rfl
  · exact nests_wsRead
  · exact nests_wsWrite.mono (Nat.zero_le _)
  · exact nests_wsRead
  · exact nests_read (Nat.le_refl 0)
  · exact nests_wsWrite.mono (Nat.zero_le _)

theorem nests_handleFrame (frame : Received) : Nests 0 (handleFrame r frame) := by
  cases frame with
  | data => exact nests_read (Nat.le_refl 0)
  | control dialed =>
    cases dialed with
    | true => exact nests_alone (Nat.le_refl 0)
    | false => exact .nil
  | keepalive => exact .nil
  | closeStream => exact nests_alone (Nat.le_refl 0)

theorem nests_relayLoop (frames : List (Nat × Received)) (last : Nat) :
    Nests 0 (relayLoop r id c frames last) := by
  refine (nests_map (fun f => ?_) frames).append nests_readFrameFrom
  exact (nests_readFrameFrom.append (nests_setState.mono (Nat.zero_le _))).append (nests_handleFrame f.2)

theorem nests_handleConnection (established : Bool) (frames : List (Nat × Received)) (last : Nat) :
    Nests 0 (handleConnection r id c steps established frames last) := by
  have hstate : Nests 0 (setState id) := nests_setState.mono (Nat.zero_le _)
  have hrelay : Nests 0 (locked (.relay r) []) := nests_alone (Nat.le_refl 0)
  refine (hstate.append nests_performServerHandshake).append ?_
  split
  · exact (((hstate.append hstate).append hrelay).append (nests_relayLoop frames last)).append
      nests_cleanupSession
  · exact .nil

theorem nests_sendFakeFrame (written : Bool) : Nests 0 (sendFakeFrame c written) := by
  refine nests_locked (Nat.le_refl 0) ?_
  cases written with
  | true => exact nests_writeFrameTo
  | false => exact .nil

theorem nests_clientReadLoop (frames : List (Nat × Bool)) (last : Nat) :
    Nests 0 (clientReadLoop c frames last) := by
  refine (nests_map (fun f => nests_readFrameFrom.append ?_) frames).append nests_readFrameFrom
  split
  · exact nests_alone (Nat.le_refl 0)
  · exact .nil

theorem nests_performHandshake : Nests 0 (performHandshake c steps) := by
  refine nests_take ?_ steps
  intro ops hops
  simp only [List.mem_cons, List.not_mem_nil, or_false] at hops
  rcases hops with rfl | rfl | rfl | rfl
  · exact nests_wsWrite.mono (Nat.zero_le _)
  · exact nests_wsRead
  · exact nests_wsWrite.mono (Nat.zero_le _)
  · exact nests_wsRead

/-- Every task takes its mutexes in their order. -/
theorem nests_task (task : Task) : Nests 0 task.locking := by
  have hclient : ∀ c, Nests 0 (locked (.client c) []) := fun _ => nests_alone (Nat.le_refl 0)
  have hwrite : ∀ c, Nests 0 (writeFrameTo c) := fun _ => nests_writeFrameTo.mono (Nat.zero_le _)
  have hstates : ∀ ids : List Nat, Nests 2 (ids.map getState).flatten := nests_map fun _ => nests_getState
  cases task with
  | writeTokens => exact nests_alone (Nat.le_refl 0)
  | listTokens => exact nests_read (Nat.le_refl 0)
  | serverStatus r ids => exact (nests_read (Nat.le_refl 0)).append nests_getActiveSessions
  | activeSessions r ids => exact nests_getActiveSessions
  | handleConnection r id c steps established frames last =>
    exact nests_handleConnection established frames last
  | relayUpstream r c frames => exact (nests_replicate (hwrite c) frames).append (nests_alone (Nat.le_refl 0))
  | sendFakeFrame c written => exact nests_sendFakeFrame written
  | handleSOCKS5 c asked dialed =>
    have hcall : Nests 0 (locked (.client c) [] ++ writeFrameTo c) := (hclient c).append (hwrite c)
    refine Nested.append ?_ ?_
    · cases asked with
      | true => exact hcall
      | false => exact .nil
    · cases dialed with
      | true => exact hcall
      | false => exact .nil
  | copyToTunnel c frames => exact nests_replicate (hwrite c) frames
  | clientReadLoop c frames last => exact nests_clientReadLoop frames last
  | performHandshake c steps => exact nests_performHandshake
  | clientClose c => exact (nests_alone (Nat.le_refl 0)).append (hwrite c)
  | add r existing => exact nests_locked (Nat.zero_le _) (hstates existing)
  | get r => exact nests_read (Nat.zero_le _)
  | countByToken r ids => exact nests_rlocked (Nat.zero_le _) (hstates ids)
  | totalActive r ids => exact nests_rlocked (Nat.zero_le _) (hstates ids)
  | cleanExpired r ids expired =>
    exact nests_locked (Nat.zero_le _) ((hstates ids).append (nests_map (fun _ => nests_setState) expired))

end Locking

/-- Goroutines that are at their tasks one after the other. -/
def working {Γ : Type} (tasks : Γ → List Task) : Locks Γ Mu where
  rest g := ((tasks g).map Task.locking).flatten
  held _ := []
  waiting _ := none

theorem inOrder_working {Γ : Type} (tasks : Γ → List Task) : InOrder Mu.rank (working tasks) := by
  refine ⟨fun g => ?_, fun _ _ h => by cases h⟩
  exact (Locking.nests_map Locking.nests_task (tasks g)).ordered

/-- However many goroutines are at whatever tasks and however they are interleaved, their mutexes never
keep them from going on: they take a bounded number of steps, and when none can take one every task is
done and every mutex is free. -/
theorem tasks_return {Γ : Type} [DecidableEq Γ] [Fintype Γ] (tasks : Γ → List Task) {gs : List Γ}
    {t : Locks Γ Mu} (h : Run LockStep (working tasks) gs t) :
    gs.length ≤ ∑ g, 2 * ((tasks g).map Task.locking).flatten.length ∧
      ((∀ g u, ¬ LockStep t g u) → ∀ g, t.rest g = [] ∧ t.held g = []) :=
  (inOrder_working tasks).runs_end Mu.rank_le h

/-- A count of a token's sessions, a clean-up and an addition under one manager. -/
def crowd : Fin 3 → List Task
  | 0 => [.countByToken 0 [5]]
  | 1 => [.cleanExpired 0 [5, 6] [5]]
  | 2 => [.add 0 [6], .get 0]

/-- While the count is at a session, the clean-up gets in line for the manager. -/
theorem run_crowd : ∃ t, Run LockStep (working crowd) [0, 1, 0] t ∧
    t.waiting (.manager 0) = some 1 ∧ t.rest 0 ≠ [] := by
  refine ⟨_, .step (.read rfl rfl (by simp [working])) (.step (.announce rfl rfl ?_)
    (.step (.read rfl rfl ?_) (.refl _))), rfl, ?_⟩
  · intro g
    by_cases hg : g = 0 <;> simp [working, Function.update_apply, hg]
  · intro g
    by_cases hg : g = 0 <;> simp [working, Function.update_apply, hg]
  · simp [working, Locking.getState, rlocked, within]

/-- There the addition has to wait as well, and still somebody can go on. -/
theorem tasks_return_crowd : ∃ t, Run LockStep (working crowd) [0, 1, 0] t ∧
    t.waiting (.manager 0) = some 1 ∧ ∃ g u, LockStep t g u := by
  obtain ⟨t, h, hwaiting, hrest⟩ := run_crowd
  refine ⟨t, h, hwaiting, ?_⟩
  by_contra hstuck
  have hdone := (tasks_return crowd h).2 (fun g u hst => hstuck ⟨g, u, hst⟩) 0
  exact hrest hdone.1

end SshPanelVpn.ShadowLink

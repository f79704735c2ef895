import SshPanelVpn.Library.Indexed
import SshPanelVpn.Library.Runs
import SshPanelVpn.ShadowLink.Bridge
import SshPanelVpn.ShadowLink.Relay

/-! `internal/protocol/session.go` and the sessions of a running server: what `HandleConnection`
asks of the bridge, and what becomes of the answer. -/
namespace SshPanelVpn.ShadowLink

open Runs Indexed

inductive SessionState where
  | new
  | handshaking
  | active
  | closed
  deriving DecidableEq, Repr

structure Session where
  id : SessionId
  authToken : List Char
  state : SessionState
  deriving DecidableEq, Repr

/-- Sessions are kept by id with their token, and by token; their states are read when asked for. -/
structure SessionManager where
  sessions : AList fun _ : SessionId => List Char
  tokenSessions : AList fun _ : List Char => List SessionId
  maxPerToken : Int

namespace SessionManager

def new (maxPerToken : Int) : SessionManager := ⟨∅, ∅, maxPerToken⟩

def countByToken (sm : SessionManager) (state : SessionId → SessionState) (token : List Char) :
    Nat :=
  ((sm.tokenSessions.lookup token).getD []).countP fun id => state id = .active

def add (sm : SessionManager) (state : SessionId → SessionState) (s : Session) :
    Except String SessionManager :=
  if s.authToken ≠ [] ∧ 0 < sm.maxPerToken ∧
      sm.maxPerToken ≤ sm.countByToken state s.authToken then
    .error "max concurrent sessions exceeded for this token"
  else
    .ok { sm with
      sessions := sm.sessions.insert s.id s.authToken
      tokenSessions :=
        if s.authToken ≠ [] then
          sm.tokenSessions.insert s.authToken
            (((sm.tokenSessions.lookup s.authToken).getD []) ++ [s.id])
        else sm.tokenSessions }

def remove (sm : SessionManager) (id : SessionId) : SessionManager :=
  match sm.sessions.lookup id with
  | none => sm
  | some token =>
    let filtered := ((sm.tokenSessions.lookup token).getD []).filter (· ≠ id)
    { sm with
      sessions := sm.sessions.erase id
      tokenSessions :=
        if token = [] then sm.tokenSessions
        else if filtered = [] then sm.tokenSessions.erase token
        else sm.tokenSessions.insert token filtered }

/-- A manager with a limit keeps a token within it. -/
theorem countByToken_of_add {sm sm' : SessionManager} {state : SessionId → SessionState}
    {s : Session} (h : sm.add state s = .ok sm') (hmax : 0 < sm.maxPerToken)
    (htoken : s.authToken ≠ []) :
    (sm'.countByToken state s.authToken : Int) ≤ sm'.maxPerToken := by
  unfold add at h
  split at h
  · cases h
  · next hlimit =>
    cases h
    have hbelow : (sm.countByToken state s.authToken : Int) < sm.maxPerToken := by
      by_contra hge
      exact hlimit ⟨htoken, hmax, Int.not_lt.mp hge⟩
    have hone : ([s.id].countP fun id => decide (state id = .active)) ≤ 1 := List.countP_le_length
    simp only [countByToken] at hbelow
    simp only [countByToken, AList.lookup_insert, Option.getD_some,
      List.countP_append, Nat.cast_add]
    omega

theorem remove_new (maxPerToken : Int) (id : SessionId) :
    (new maxPerToken).remove id = new maxPerToken := rfl

end SessionManager

/-- Where the handshake of a connection stands: the token that `AuthenticateToken` accepted comes
with its number of connections. -/
inductive ConnectionPc where
  | handshaking
  | validated (token : List Char) (maxConns : Int)
  | relaying (token : List Char)
  | ended
  deriving DecidableEq, Repr

structure Connection where
  session : Session
  pc : ConnectionPc
  deriving DecidableEq, Repr

/-- A session that became active: its token, what `AuthenticateToken` had returned for it, and how
many sessions of the token were active then, itself included. -/
structure Admission where
  token : List Char
  maxConns : Int
  active : Nat
  deriving DecidableEq, Repr

/-- `main`: the relay that serves connections, with the bridge it authenticates them by. -/
structure Server where
  bridge : BridgeServer
  sessions : SessionManager
  conns : List Connection
  admissions : List Admission

inductive ServerAct where
  | accept (id : SessionId)
  | authenticate (conn : Nat) (token : List Char)
  | establish (conn : Nat)
  | fail (conn : Nat)
  | close (conn : Nat)
  | bridge (request : BridgeRequest)
  deriving DecidableEq, Repr

namespace Server

/-- `NewServerRelay` makes a manager without a limit. -/
def initial (bridge : BridgeServer) : Server := ⟨bridge, .new 0, [], []⟩

def update (s : Server) (conn : Nat) (f : Connection → Connection) : Server :=
  { s with conns := s.conns.modify conn f }

/-- The active sessions that were established with `token`. -/
def active (s : Server) (token : List Char) : Nat :=
  s.conns.countP fun c => c.session.state = .active ∧ c.session.authToken = token

/-- The connections that clients have open with `token`, past their handshake. -/
def opened (s : Server) (token : List Char) : Nat :=
  s.conns.countP fun c => c.pc = .relaying token

end Server

namespace Connection

/-- `NewSession` and `SetState(SessionStateHandshaking)`. -/
def accepted (id : SessionId) : Connection := ⟨⟨id, [], .handshaking⟩, .handshaking⟩

def goto (c : Connection) (pc : ConnectionPc) : Connection := { c with pc := pc }

/-- `session.AuthToken = authToken` and `SetState(SessionStateActive)`. -/
def established (c : Connection) (token : List Char) : Connection :=
  ⟨{ c.session with authToken := token, state := .active }, .relaying token⟩

/-- `cleanupSession`. -/
def closed (c : Connection) : Connection :=
  ⟨{ c.session with state := .closed }, .ended⟩

end Connection

/-- `performServerHandshake` looks at the first part of what `AuthenticateToken` returns. -/
inductive ServerStep : Server → ServerAct → Server → Prop where
  | accept {s : Server} {id : SessionId} :
      ServerStep s (.accept id) { s with conns := s.conns ++ [Connection.accepted id] }
  | authenticate {s : Server} {i : Nat} {token : List Char} {c : Connection}
      (hc : s.conns[i]? = some c) (hpc : c.pc = .handshaking) :
      ServerStep s (.authenticate i token)
        (s.update i (·.goto
          (if (s.bridge.authenticateToken token).1 then
            .validated token (s.bridge.authenticateToken token).2
          else .ended)))
  | establish {s : Server} {i : Nat} {token : List Char} {maxConns : Int} {c : Connection}
      (hc : s.conns[i]? = some c) (hpc : c.pc = .validated token maxConns) :
      ServerStep s (.establish i)
        { s.update i (·.established token) with
          admissions := s.admissions ++
            [⟨token, maxConns, (s.update i (·.established token)).active token⟩] }
  | fail {s : Server} {i : Nat} {c : Connection} (hc : s.conns[i]? = some c)
      (hpc : c.pc = .handshaking ∨ ∃ token maxConns, c.pc = .validated token maxConns) :
      ServerStep s (.fail i) (s.update i (·.goto .ended))
  | close {s : Server} {i : Nat} {token : List Char} {c : Connection}
      (hc : s.conns[i]? = some c) (hpc : c.pc = .relaying token) :
      ServerStep s (.close i)
        { s.update i Connection.closed with sessions := s.sessions.remove c.session.id }
  | bridge {s : Server} {r : BridgeRequest} :
      ServerStep s (.bridge r) { s with bridge := (s.bridge.serveHTTP r).2 }

namespace Server

variable {s s' : Server} {act : ServerAct} {acts : List ServerAct} {bs : BridgeServer} {i : Nat}
  {c : Connection} {token : List Char} {maxConns : Int}

/-- No session ever got past a positive limit. -/
def Within (s : Server) : Prop :=
  ∀ a ∈ s.admissions, 0 < a.maxConns → (a.active : Int) ≤ a.maxConns

/-- The handshake that completes is of a client that has fewer connections open with the token than
the token was registered for. -/
def HasRoom (s : Server) (act : ServerAct) : Prop :=
  ∀ i c token maxConns, act = .establish i → s.conns[i]? = some c →
    c.pc = .validated token maxConns → 0 < maxConns → (s.opened token : Int) < maxConns

/-- The state of a session follows its connection. -/
def Follows (c : Connection) : Prop :=
  ∀ token, c.pc = .relaying token ↔ c.session.state = .active ∧ c.session.authToken = token

theorem follows_modify {f : Connection → Connection} {l : List Connection}
    (hl : ∀ c ∈ l, Follows c) (hc : l[i]? = some c) (hf : Follows (f c)) :
    ∀ d ∈ l.modify i f, Follows d := by
  intro d hd
  obtain ⟨j, hj⟩ := List.mem_iff_getElem?.mp hd
  rcases getElem?_modify_cases hc hj with ⟨-, rfl⟩ | ⟨-, hj⟩
  · exact hf
  · exact hl d (List.mem_of_getElem? hj)

/-- A connection that is not relaying has no active session. -/
theorem Follows.not_active (h : Follows c) (hpc : ∀ token, c.pc ≠ .relaying token) :
    c.session.state ≠ .active := by
  intro hactive
  exact hpc _ ((h c.session.authToken).mpr ⟨hactive, rfl⟩)

theorem follows_goto {pc : ConnectionPc} (h : Follows c) (hpc : ∀ token, c.pc ≠ .relaying token)
    (hpc' : ∀ token, pc ≠ .relaying token) : Follows (c.goto pc) := by
  intro token
  constructor
  · intro hr
    exact (hpc' token hr).elim
  · rintro ⟨hactive, -⟩
    exact (h.not_active hpc hactive).elim

theorem follows_step (h : ServerStep s act s') (hs : ∀ c ∈ s.conns, Follows c) :
    ∀ c ∈ s'.conns, Follows c := by
  cases h with
  | @accept id =>
    intro c hc
    rcases List.mem_append.mp hc with hc | hc
    · exact hs c hc
    · rw [List.mem_singleton.mp hc]
      intro token
      simp [Connection.accepted]
  | @authenticate i token c hc hpc =>
    refine follows_modify hs hc (follows_goto (hs c (List.mem_of_getElem? hc)) (by simp [hpc]) ?_)
    intro token'
    split <;> simp
  | establish hc hpc =>
    refine follows_modify hs hc fun token' => ?_
    simp [Connection.established]
  | @fail i c hc hpc =>
    refine follows_modify hs hc (follows_goto (hs c (List.mem_of_getElem? hc)) ?_ (by simp))
    rcases hpc with hpc | ⟨token, maxConns, hpc⟩ <;> simp [hpc]
  | close hc hpc =>
    refine follows_modify hs hc fun token' => ?_
    simp [Connection.closed]
  | bridge => exact hs

/-- Open connections are active sessions. -/
theorem opened_eq_active (token : List Char) (hs : ∀ c ∈ s.conns, Follows c) :
    s.opened token = s.active token := by
  refine List.countP_congr fun c hc => ?_
  simpa using hs c hc token

/-- The session that becomes active is one more. -/
theorem active_established (hs : ∀ c ∈ s.conns, Follows c) (hc : s.conns[i]? = some c)
    (hpc : c.pc = .validated token maxConns) :
    (s.update i (·.established token)).active token = s.active token + 1 := by
  have hnot := (hs c (List.mem_of_getElem? hc)).not_active (by simp [hpc])
  refine countP_modify_succ hc ?_ ?_
  · simp [hnot]
  · simp [Connection.established]

theorem admissions_step (h : ServerStep s act s') : s.admissions <+: s'.admissions := by
  cases h with
  | establish => exact List.prefix_append _ _
  | _ => exact List.prefix_rfl

theorem admissions_run (h : Run ServerStep s acts s') : s.admissions <+: s'.admissions := by
  induction h with
  | refl => exact List.prefix_rfl
  | step hst _ ih => exact (admissions_step hst).trans ih

theorem within_mono (h : s.admissions <+: s'.admissions) (hw : Within s') : Within s :=
  fun a ha => hw a (h.subset ha)

/-- With room for it, the session is within the limit, and without room it is not. -/
theorem within_step_iff (h : ServerStep s act s') (hs : ∀ c ∈ s.conns, Follows c) (hw : Within s) :
    Within s' ↔ s.HasRoom act := by
  cases h with
  | @establish i token maxConns c hc hpc =>
    have hcount := active_established hs hc hpc
    have hopened := opened_eq_active token hs
    constructor
    · intro hw' i' c' token' maxConns' hact hc' hpc' hpos
      obtain rfl : i = i' := ServerAct.establish.inj hact
      obtain rfl : c = c' := Option.some.inj (hc.symm.trans hc')
      obtain ⟨rfl, rfl⟩ := ConnectionPc.validated.inj (hpc.symm.trans hpc')
      have hlast := hw' _ (List.mem_append_right _ (List.mem_singleton.mpr rfl)) hpos
      simp only [hcount] at hlast
      omega
    · intro hroom a ha hpos
      rcases List.mem_append.mp ha with ha | ha
      · exact hw a ha hpos
      · rw [List.mem_singleton.mp ha] at hpos ⊢
        have := hroom i c token maxConns rfl hc hpc hpos
        simp only [hcount]
        omega
  | _ => exact ⟨fun _ => nofun, fun _ => hw⟩

/-- From a state within the limit, one step after the other. -/
theorem within_run_iff (h : Run ServerStep s acts s') (hs : ∀ c ∈ s.conns, Follows c) (hw : Within s) :
    Within s' ↔ Run (Guarded ServerStep HasRoom) s acts s' := by
  induction h with
  | refl s => exact ⟨fun _ => .refl s, fun _ => hw⟩
  | @step s t s' a acts hst hrest ih =>
    have hfollows := follows_step hst hs
    have hiff := within_step_iff hst hs hw
    constructor
    · intro hend
      have hw' : Within t := within_mono (admissions_run hrest) hend
      exact .step ⟨hiff.mp hw', hst⟩ ((ih hfollows hw').mp hend)
    · intro hrun
      have hinv : Stable (Guarded ServerStep HasRoom)
          fun s => (∀ c ∈ s.conns, Follows c) ∧ Within s := by
        rintro s a t ⟨hroom, hst⟩ ⟨hf, hw⟩
        exact ⟨follows_step hst hf, (within_step_iff hst hf hw).mpr hroom⟩
      exact (hrun.invariant hinv ⟨hs, hw⟩).2

/-- The limit is kept in exactly the runs in which the clients keep it themselves. -/
theorem within_iff (h : Run ServerStep (initial bs) acts s) :
    Within s ↔ Run (Guarded ServerStep HasRoom) (initial bs) acts s :=
  within_run_iff h (fun c hc => by simp [initial] at hc) (fun a ha => by simp [initial] at ha)

/-! The same limit by what the clients do alone. -/

/-- What the acts of a run say of one connection: the token that it asked with, and the one it is open
with. -/
structure Ledger where
  asked : Option (List Char)
  opened : Option (List Char)

def Ledger.record (conn : Nat) (r : Ledger) : ServerAct → Ledger
  | .authenticate i token => if i = conn then { r with asked := some token } else r
  | .establish i => if i = conn then { r with opened := r.asked } else r
  | .close i => if i = conn then { r with opened := none } else r
  | _ => r

def ledger (acts : List ServerAct) (conn : Nat) : Ledger := after (Ledger.record conn) ⟨none, none⟩ acts

/-- The connections that the acts have established with the token and not closed. -/
def connected (acts : List ServerAct) (token : List Char) : Nat :=
  (List.range acts.length).countP fun conn => (ledger acts conn).opened = some token

/-- The ledger knows the token of a validated connection, and which ones are relaying. -/
def Ledger.Tells (r : Ledger) : Option Connection → Prop
  | none => r.opened = none
  | some c => (∀ token, c.pc = .relaying token ↔ r.opened = some token) ∧
      ∀ token maxConns, c.pc = .validated token maxConns → r.asked = some token

/-- Another pc for a connection that is not open and does not get open. -/
theorem Ledger.Tells.goto {r : Ledger} {pc : ConnectionPc} (h : r.Tells (some c))
    (hpc : ∀ token, c.pc ≠ .relaying token) (hpc' : ∀ token, pc ≠ .relaying token) {asked : Option (List Char)}
    (hasked : ∀ token maxConns, pc = .validated token maxConns → asked = some token) :
    Ledger.Tells ⟨asked, r.opened⟩ (some (c.goto pc)) := by
  refine ⟨fun token => ?_, hasked⟩
  refine iff_of_false (hpc' token) fun ho => ?_
  exact hpc token ((h.1 token).mpr ho)

theorem tells_step {r : Nat → Ledger} (h : ServerStep s act s') (hs : ∀ i, (r i).Tells s.conns[i]?) (j : Nat) :
    ((r j).record j act).Tells s'.conns[j]? := by
  have hother : ∀ {i : Nat} {f : Connection → Connection}, i ≠ j →
      (r j).Tells (s.update i f).conns[j]? := by
    intro i f hij
    rw [update, List.getElem?_modify]
    simpa [hij] using hs j
  have hself : ∀ {c : Connection} {f : Connection → Connection}, s.conns[j]? = some c →
      (s.update j f).conns[j]? = some (f c) := fun hc => getElem?_modify_self _ hc
  cases h with
  | accept =>
    change (r j).Tells (s.conns ++ [_])[j]?
    cases hc : s.conns[j]? with
    | some c =>
      rw [getElem?_append_of_some hc, ← hc]
      exact hs j
    | none =>
      have hnone : (r j).opened = none := by
        have hj := hs j
        rwa [hc] at hj
      cases hnew : (s.conns ++ [_])[j]? with
      | none => exact hnone
      | some c =>
        rcases getElem?_append_one hnew with hold | ⟨-, rfl⟩
        · rw [hc] at hold
          cases hold
        · refine ⟨fun token => ?_, fun token maxConns hpc => by cases hpc⟩
          simp [Connection.accepted, hnone]
  | @authenticate i token c hc hpc =>
    by_cases hij : i = j
    · subst hij
      have hi := hs i
      rw [hc] at hi
      rw [hself hc, Ledger.record, if_pos rfl]
      refine hi.goto (by simp [hpc]) (by intro token'; split <;> simp) ?_
      intro token' maxConns hpc'
      split at hpc'
      · cases hpc'
        rfl
      · cases hpc'
    · rw [Ledger.record, if_neg hij]
      exact hother hij
  | @establish i token maxConns c hc hpc =>
    by_cases hij : i = j
    · subst hij
      have hi := hs i
      rw [hc] at hi
      have hasked := hi.2 token maxConns hpc
      change Ledger.Tells _ (s.update i _).conns[i]?
      rw [hself hc, Ledger.record, if_pos rfl]
      refine ⟨fun token' => ?_, fun token' maxConns' hpc' => by cases hpc'⟩
      simp [Connection.established, hasked]
    · rw [Ledger.record, if_neg hij]
      exact hother hij
  | @fail i c hc hpc =>
    by_cases hij : i = j
    · subst hij
      have hi := hs i
      rw [hc] at hi
      rw [hself hc]
      refine hi.goto ?_ (by simp) (by simp)
      rcases hpc with hpc | ⟨token, maxConns, hpc⟩ <;> simp [hpc]
    · exact hother hij
  | @close i token c hc hpc =>
    by_cases hij : i = j
    · subst hij
      change Ledger.Tells _ (s.update i _).conns[i]?
      rw [hself hc, Ledger.record, if_pos rfl]
      refine ⟨fun token' => ?_, fun token' maxConns' hpc' => by cases hpc'⟩
      simp [Connection.closed]
    · rw [Ledger.record, if_neg hij]
      exact hother hij
  | bridge => exact hs j

theorem tells_run {r : Nat → Ledger} (h : Run ServerStep s acts s')
    (hs : ∀ i, (r i).Tells s.conns[i]?) (j : Nat) :
    (after (Ledger.record j) (r j) acts).Tells s'.conns[j]? := by
  induction h generalizing r with
  | refl => exact hs j
  | @step s t s' a acts hst _ ih => exact ih (r := fun i => (r i).record i a) (tells_step hst hs)

theorem length_conns_run (h : Run ServerStep s acts s') : s'.conns.length ≤ s.conns.length + acts.length := by
  induction h with
  | refl => simp
  | @step s t s' a acts hst _ ih =>
    have hstep : t.conns.length ≤ s.conns.length + 1 := by
      cases hst <;> simp [update]
    rw [List.length_cons]
    omega

/-- The connections that are open with a token are those of the acts. -/
theorem opened_eq_connected (h : Run ServerStep (initial bs) acts s) (token : List Char) :
    s.opened token = connected acts token := by
  have hlen : s.conns.length ≤ acts.length := by
    have hle := length_conns_run h
    simpa [initial] using hle
  have htells := tells_run (r := fun _ => ⟨none, none⟩) h fun _ => rfl
  rw [opened, countP_eq_range hlen, connected]
  refine List.countP_congr fun i _ => ?_
  have hi : (ledger acts i).Tells s.conns[i]? := htells i
  cases hc : s.conns[i]? with
  | none =>
    rw [hc] at hi
    have hnone : (ledger acts i).opened = none := hi
    simp [hnone]
  | some c =>
    rw [hc] at hi
    simpa using hi.1 token

theorem serverStep_unique (s : Server) (act : ServerAct) (t u : Server) (h : ServerStep s act t)
    (h' : ServerStep s act u) : t = u := by
  cases h with
  | @establish i token maxConns c hc hpc =>
    cases h' with
    | @establish _ token' maxConns' c' hc' hpc' =>
      obtain rfl := Option.some.inj (hc.symm.trans hc')
      obtain ⟨rfl, rfl⟩ := ConnectionPc.validated.inj (hpc.symm.trans hpc')
      rfl
  | @close i token c hc hpc =>
    cases h' with
    | @close _ token' c' hc' hpc' =>
      obtain rfl := Option.some.inj (hc.symm.trans hc')
      rfl
  | _ =>
    cases h'
    rfl

/-- The limit is kept if and only if whenever a handshake completes, fewer connections have been
established with its token and not closed than `AuthenticateToken` answered. -/
theorem within_iff_connected (h : Run ServerStep (initial bs) acts s) :
    Within s ↔ ∀ earlier i later t, acts = earlier ++ ServerAct.establish i :: later →
      Run ServerStep (initial bs) earlier t → ∀ c token maxConns, t.conns[i]? = some c →
        c.pc = .validated token maxConns → 0 < maxConns → (connected earlier token : Int) < maxConns := by
  rw [within_run_iff h (fun c hc => by simp [initial] at hc) (fun a ha => by simp [initial] at ha),
    h.guarded_iff serverStep_unique]
  constructor
  · intro hall earlier i later t hacts ht c token maxConns hc hpc hpos
    have hroom := hall earlier _ later t hacts ht i c token maxConns rfl hc hpc hpos
    rwa [opened_eq_connected ht] at hroom
  · intro hall earlier act later t hacts ht i c token maxConns hact hc hpc hpos
    subst hact
    rw [opened_eq_connected ht]
    exact hall earlier i later t hacts ht c token maxConns hc hpc hpos

/-- Nothing is ever added to the manager, which could have kept the limit. -/
theorem sessions_run (h : Run ServerStep (initial bs) acts s) : s.sessions = .new 0 := by
  refine h.invariant (I := fun s => s.sessions = .new 0) ?_ rfl
  intro s a t hst hs
  cases hst with
  | close => simp only [hs, SessionManager.remove_new]
  | _ => exact hs

/-- One token, registered for one connection. -/
def oneConn : BridgeServer := ⟨AList.singleton ['t'] ⟨['t'], 1, true⟩, []⟩

/-- Two clients connect with it. -/
def twoClients : List ServerAct :=
  [.accept ['a'], .accept ['b'], .authenticate 0 ['t'], .authenticate 1 ['t'], .establish 0,
    .establish 1]

theorem within_iff_twoClients : ∃ s, Run ServerStep (initial oneConn) twoClients s ∧
    (Within s ↔ Run (Guarded ServerStep HasRoom) (initial oneConn) twoClients s) := by
  have hrun : ∃ s, Run ServerStep (initial oneConn) twoClients s :=
    ⟨_, .step .accept <| .step .accept <| .step (.authenticate rfl rfl) <|
      .step (.authenticate rfl rfl) <| .step (.establish rfl rfl) <| .step (.establish rfl rfl) <|
      .refl _⟩
  obtain ⟨s, hs⟩ := hrun
  exact ⟨s, hs, within_iff hs⟩

/-- Both get in. -/
theorem not_within_twoClients :
    ∃ s, Run ServerStep (initial oneConn) twoClients s ∧ ¬ Within s := by
  refine ⟨_, .step .accept <| .step .accept <| .step (.authenticate rfl rfl) <|
    .step (.authenticate rfl rfl) <| .step (.establish rfl rfl) <| .step (.establish rfl rfl) <|
    .refl _, fun h => ?_⟩
  have hlast := h ⟨['t'], 1, 2⟩ (.tail _ (.head _)) (by decide)
  revert hlast
  decide

end Server

end SshPanelVpn.ShadowLink

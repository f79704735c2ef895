import SshPanelVpn.ShadowLink.Admission
import SshPanelVpn.ShadowLink.GoTime

/-! `internal/protocol/session.go`: sessions as objects that the manager shares with its callers. -/
namespace SshPanelVpn.ShadowLink.Protocol

/-- A `*Session`. -/
abbrev SessionRef := Nat

structure Session where
  id : SessionId
  authToken : List Char
  state : SessionState
  lastActive : Time

namespace Session

def setState (s : Session) (state : SessionState) : Session := { s with state := state }

/-- `LastActive = time.Now()`. -/
def touch (s : Session) (now : Time) : Session := { s with lastActive := now }

/-- `time.Since(LastActive) > timeout`. -/
def isExpired (s : Session) (now : Time) (timeout : Int) : Bool := timeout < now.sub s.lastActive

end Session

/-- The sessions behind the pointers. -/
abbrev Heap := SessionRef → Session

namespace Heap

def modify (heap : Heap) (r : SessionRef) (f : Session → Session) : Heap :=
  Function.update heap r (f (heap r))

def isActive (heap : Heap) (r : SessionRef) : Bool := (heap r).state = .active

end Heap

/-- `sessions` by id, `tokenSessions` by token. -/
structure SessionManager where
  sessions : AList fun _ : SessionId => SessionRef
  tokenSessions : AList fun _ : List Char => List SessionRef
  maxPerToken : Int

namespace SessionManager

/-- `NewSessionManager`. -/
def new (maxPerToken : Int) : SessionManager := ⟨∅, ∅, maxPerToken⟩

/-- `sm.tokenSessions[token]`, nil where the key is missing. -/
def forToken (sm : SessionManager) (token : List Char) : List SessionRef :=
  (sm.tokenSessions.lookup token).getD []

def countByToken (sm : SessionManager) (heap : Heap) (token : List Char) : Nat :=
  (sm.forToken token).countP heap.isActive

/-- The values of `sm.sessions`. -/
def allSessions (sm : SessionManager) : List SessionRef := sm.sessions.entries.map Sigma.snd

def totalActive (sm : SessionManager) (heap : Heap) : Nat := sm.allSessions.countP heap.isActive

def get (sm : SessionManager) (id : SessionId) : Option SessionRef := sm.sessions.lookup id

/-- `Add` after its check. -/
def insert (sm : SessionManager) (heap : Heap) (r : SessionRef) : SessionManager :=
  { sm with
    sessions := sm.sessions.insert (heap r).id r
    tokenSessions :=
      if (heap r).authToken ≠ [] then
        sm.tokenSessions.insert (heap r).authToken (sm.forToken (heap r).authToken ++ [r])
      else sm.tokenSessions }

def add (sm : SessionManager) (heap : Heap) (r : SessionRef) : Except String SessionManager :=
  if (heap r).authToken ≠ [] ∧ 0 < sm.maxPerToken ∧
      sm.maxPerToken ≤ sm.countByToken heap (heap r).authToken then
    .error "max concurrent sessions exceeded for this token"
  else
    .ok (sm.insert heap r)

/-- The key with these sessions, or without the key where there are none. -/
def setSessions (m : AList fun _ : List Char => List SessionRef) (token : List Char)
    (sessions : List SessionRef) : AList fun _ : List Char => List SessionRef :=
  if sessions = [] then m.erase token else m.insert token sessions

/-- The session `r` is found under `id` and taken out of both maps. -/
def drop (sm : SessionManager) (heap : Heap) (id : SessionId) (r : SessionRef) : SessionManager :=
  { sm with
    sessions := sm.sessions.erase id
    tokenSessions :=
      if (heap r).authToken ≠ [] then
        setSessions sm.tokenSessions (heap r).authToken
          ((sm.forToken (heap r).authToken).filter fun es => (heap es).id ≠ id)
      else sm.tokenSessions }

def remove (sm : SessionManager) (heap : Heap) (id : SessionId) : SessionManager :=
  match sm.sessions.lookup id with
  | none => sm
  | some r => sm.drop heap id r

/-- The first loop of `CleanExpired`, over the ids in some order; each reading has its own clock. -/
def expired (sm : SessionManager) (heap : Heap) (order : List SessionId) (now : SessionId → Time)
    (timeout : Int) : List SessionId :=
  order.filter fun id =>
    match sm.sessions.lookup id with
    | none => false
    | some r => (heap r).isExpired (now id) timeout

/-- A round of the second loop. -/
def expire (s : SessionManager × Heap) (id : SessionId) : SessionManager × Heap :=
  match s.1.sessions.lookup id with
  | none => s
  | some r => (s.1.drop s.2 id r, s.2.modify r (·.setState .closed))

def cleanExpired (sm : SessionManager) (heap : Heap) (order : List SessionId) (now : SessionId → Time)
    (timeout : Int) : Nat × SessionManager × Heap :=
  let ids := sm.expired heap order now timeout
  (ids.length, ids.foldl expire (sm, heap))

/-! What the maps hold afterwards. -/

variable {sm : SessionManager} {heap : Heap} {id : SessionId} {r : SessionRef} {token : List Char}
  {l : List SessionRef}

/-- What is kept under a key: never an empty list. -/
def listed (l : List SessionRef) : Option (List SessionRef) := if l = [] then none else some l

@[simp] theorem getD_listed (l : List SessionRef) : (listed l).getD [] = l := by
  unfold listed
  split
  · next h => exact h.symm
  · rfl

theorem lookup_setSessions (m : AList fun _ : List Char => List SessionRef) (t : List Char) :
    (setSessions m token l).lookup t = if t = token then listed l else m.lookup t := by
  unfold setSessions listed
  by_cases ht : t = token
  · subst ht
    split <;> simp
  · split <;> simp [ht]

theorem lookup_insert_sessions (id : SessionId) : (sm.insert heap r).sessions.lookup id =
    if id = (heap r).id then some r else sm.sessions.lookup id := by
  by_cases h : id = (heap r).id
  · subst h
    simp [insert]
  · simp [insert, h]

theorem lookup_insert_tokens (t : List Char) : (sm.insert heap r).tokenSessions.lookup t =
    if t = (heap r).authToken ∧ t ≠ [] then some (sm.forToken t ++ [r])
    else sm.tokenSessions.lookup t := by
  unfold insert
  by_cases ht : t = (heap r).authToken
  · subst ht
    by_cases hnil : (heap r).authToken = []
    · simp [hnil]
    · simp [hnil]
  · by_cases hnil : (heap r).authToken = [] <;> simp [ht, hnil]

theorem lookup_drop_sessions (i : SessionId) : (sm.drop heap id r).sessions.lookup i =
    if i = id then none else sm.sessions.lookup i := by
  by_cases h : i = id
  · subst h
    simp [drop]
  · simp [drop, h]

theorem lookup_drop_tokens (t : List Char) : (sm.drop heap id r).tokenSessions.lookup t =
    if t = (heap r).authToken ∧ t ≠ [] then
      listed ((sm.forToken t).filter fun es => (heap es).id ≠ id)
    else sm.tokenSessions.lookup t := by
  unfold drop
  by_cases hnil : (heap r).authToken = []
  · by_cases ht : t = (heap r).authToken <;> simp [hnil, ht]
  · by_cases ht : t = (heap r).authToken
    · subst ht
      simp [hnil, lookup_setSessions]
    · simp [hnil, lookup_setSessions, ht]

theorem forToken_insert (t : List Char) : (sm.insert heap r).forToken t =
    if t = (heap r).authToken ∧ t ≠ [] then sm.forToken t ++ [r] else sm.forToken t := by
  rw [forToken, lookup_insert_tokens]
  split
  · rfl
  · rfl

theorem countByToken_insert (t : List Char) : (sm.insert heap r).countByToken heap t =
    sm.countByToken heap t +
      if t = (heap r).authToken ∧ t ≠ [] ∧ heap.isActive r = true then 1 else 0 := by
  rw [countByToken, forToken_insert, countByToken]
  by_cases ht : t = (heap r).authToken ∧ t ≠ []
  · rw [if_pos ht, List.countP_append]
    by_cases hactive : heap.isActive r = true
    · rw [if_pos ⟨ht.1, ht.2, hactive⟩]
      simp [hactive]
    · rw [if_neg fun h => hactive h.2.2]
      simp [hactive]
  · rw [if_neg ht, if_neg fun h => ht ⟨h.1, h.2.1⟩, Nat.add_zero]

theorem forToken_drop (t : List Char) : (sm.drop heap id r).forToken t =
    if t = (heap r).authToken ∧ t ≠ [] then (sm.forToken t).filter fun es => (heap es).id ≠ id
    else sm.forToken t := by
  rw [forToken, lookup_drop_tokens]
  split
  · exact getD_listed _
  · rfl

/-! The manager of the relay, which has the ids for the sessions. -/

/-- The same by ids: the tokens of the sessions, and the ids of each token. -/
structure ById (heap : Heap) (sm : SessionManager) (n : ShadowLink.SessionManager) : Prop where
  sessions : ∀ id, n.sessions.lookup id = (sm.sessions.lookup id).map fun r => (heap r).authToken
  tokens : ∀ t, n.tokenSessions.lookup t =
    (sm.tokenSessions.lookup t).map (List.map fun r => (heap r).id)
  maxPerToken : n.maxPerToken = sm.maxPerToken

variable {n : ShadowLink.SessionManager} {state : SessionId → SessionState}

theorem ById.ids (h : ById heap sm n) (t : List Char) :
    (n.tokenSessions.lookup t).getD [] = (sm.forToken t).map fun r => (heap r).id := by
  rw [h.tokens, forToken]
  cases sm.tokenSessions.lookup t <;> rfl

theorem ById.countByToken (h : ById heap sm n)
    (hstate : ∀ r ∈ sm.forToken token, state (heap r).id = (heap r).state) :
    n.countByToken state token = sm.countByToken heap token := by
  rw [ShadowLink.SessionManager.countByToken, h.ids, SessionManager.countByToken, List.countP_map]
  refine List.countP_congr fun r hr => ?_
  simp [Heap.isActive, hstate r hr]

theorem ById.drop (h : ById heap sm n) (hr : sm.sessions.lookup id = some r) :
    ById heap (sm.drop heap id r) (n.remove id) := by
  have hlookup : n.sessions.lookup id = some (heap r).authToken := by
    rw [h.sessions, hr]
    rfl
  have hfiltered : ((n.tokenSessions.lookup (heap r).authToken).getD []).filter (fun i => decide (i ≠ id)) =
      ((sm.forToken (heap r).authToken).filter fun es => decide ((heap es).id ≠ id)).map
        fun r => (heap r).id := by
    rw [h.ids, List.filter_map]
    rfl
  have hremove : n.remove id = { n with
      sessions := n.sessions.erase id
      tokenSessions :=
        if (heap r).authToken = [] then n.tokenSessions
        else if ((sm.forToken (heap r).authToken).filter fun es => decide ((heap es).id ≠ id)) = [] then
          n.tokenSessions.erase (heap r).authToken
        else n.tokenSessions.insert (heap r).authToken
          (((sm.forToken (heap r).authToken).filter fun es => decide ((heap es).id ≠ id)).map
            fun r => (heap r).id) } := by
    simp only [ShadowLink.SessionManager.remove, hlookup, hfiltered, List.map_eq_nil_iff]
  rw [hremove]
  refine ⟨?_, ?_, h.maxPerToken⟩
  · intro i
    rw [lookup_drop_sessions]
    by_cases hi : i = id
    · subst hi
      simp
    · simp [hi, h.sessions]
  · intro t
    rw [lookup_drop_tokens]
    by_cases ht : t = (heap r).authToken
    · subst ht
      generalize (sm.forToken (heap r).authToken).filter (fun es => decide ((heap es).id ≠ id)) = l
      by_cases hnil : (heap r).authToken = []
      · simp [hnil, h.tokens]
      · by_cases hl : l = [] <;> simp [hnil, hl, listed]
    · generalize (sm.forToken (heap r).authToken).filter (fun es => decide ((heap es).id ≠ id)) = l
      by_cases hnil : (heap r).authToken = []
      · simp [hnil, h.tokens]
      · by_cases hl : l = [] <;> simp [hnil, hl, ht, h.tokens]

/-- Removing by ids is removing the object. -/
theorem ById.remove (h : ById heap sm n) (id : SessionId) :
    ById heap (sm.remove heap id) (n.remove id) := by
  cases hr : sm.sessions.lookup id with
  | none =>
    have hlookup : n.sessions.lookup id = none := by
      rw [h.sessions, hr]
      rfl
    simpa [SessionManager.remove, ShadowLink.SessionManager.remove, hr, hlookup] using h
  | some r =>
    rw [SessionManager.remove, hr]
    exact h.drop hr

/-- Adding by ids is adding the object, where the states that are read are those of the objects. -/
theorem ById.add (h : ById heap sm n)
    (hstate : ∀ es ∈ sm.forToken (heap r).authToken, state (heap es).id = (heap es).state) :
    match sm.add heap r, n.add state ⟨(heap r).id, (heap r).authToken, (heap r).state⟩ with
    | .error _, .error _ => True
    | .ok sm', .ok n' => ById heap sm' n'
    | _, _ => False := by
  have hcount := h.countByToken hstate
  by_cases hlimit : (heap r).authToken ≠ [] ∧ 0 < sm.maxPerToken ∧
      sm.maxPerToken ≤ sm.countByToken heap (heap r).authToken
  · have hlimit' : (heap r).authToken ≠ [] ∧ 0 < n.maxPerToken ∧
        n.maxPerToken ≤ n.countByToken state (heap r).authToken := by
      rwa [hcount, h.maxPerToken]
    simp only [SessionManager.add, ShadowLink.SessionManager.add, if_pos hlimit, if_pos hlimit']
  · have hlimit' : ¬ ((heap r).authToken ≠ [] ∧ 0 < n.maxPerToken ∧
        n.maxPerToken ≤ n.countByToken state (heap r).authToken) := by
      rwa [hcount, h.maxPerToken]
    simp only [SessionManager.add, ShadowLink.SessionManager.add, if_neg hlimit, if_neg hlimit']
    refine ⟨?_, ?_, h.maxPerToken⟩
    · intro i
      rw [lookup_insert_sessions]
      by_cases hi : i = (heap r).id
      · subst hi
        simp
      · simp [hi, h.sessions]
    · intro t
      rw [lookup_insert_tokens]
      by_cases hnil : (heap r).authToken = []
      · by_cases ht : t = (heap r).authToken <;> simp [hnil, ht, h.tokens]
      · by_cases ht : t = (heap r).authToken
        · subst ht
          have hids := h.ids (heap r).authToken
          simp [hnil, hids]
        · simp [hnil, ht, h.tokens]

end SessionManager

end SshPanelVpn.ShadowLink.Protocol

import SshPanelVpn.Library.Runs
import SshPanelVpn.ShadowLink.SessionObjects

/-! The two maps of the session manager as views of one list: the sessions in order of addition. -/
namespace SshPanelVpn.ShadowLink.Protocol

open Runs

namespace Heap

/-- The same ids and tokens; the states and the times may differ. -/
def SameNames (heap heap' : Heap) : Prop :=
  ∀ r, (heap' r).id = (heap r).id ∧ (heap' r).authToken = (heap r).authToken

variable {heap heap' heap'' : Heap} {r : SessionRef}

theorem SameNames.refl (heap : Heap) : heap.SameNames heap := fun _ => ⟨rfl, rfl⟩

theorem SameNames.trans (h : heap.SameNames heap') (h' : heap'.SameNames heap'') :
    heap.SameNames heap'' :=
  fun r => ⟨(h' r).1.trans (h r).1, (h' r).2.trans (h r).2⟩

theorem sameNames_modify {f : Session → Session} (hid : (f (heap r)).id = (heap r).id)
    (htoken : (f (heap r)).authToken = (heap r).authToken) : heap.SameNames (heap.modify r f) := by
  intro r'
  by_cases hr : r' = r
  · subst hr
    simp [modify, hid, htoken]
  · simp [modify, hr]

end Heap

/-! The roster: the sessions of the manager in order of addition. -/

/-- The maps are those of the roster. -/
structure Agrees (heap : Heap) (sm : SessionManager) (roster : List SessionRef) : Prop where
  ids : (roster.map fun r => (heap r).id).Nodup
  sessions : ∀ id, sm.sessions.lookup id = roster.find? fun r => (heap r).id = id
  tokens : ∀ t, sm.tokenSessions.lookup t =
    if t = [] then none else SessionManager.listed (roster.filter fun r => (heap r).authToken = t)

namespace Agrees

variable {heap heap' : Heap} {sm sm' : SessionManager} {roster : List SessionRef} {r r' : SessionRef}
  {id : SessionId} {token : List Char}

theorem new (heap : Heap) (maxPerToken : Int) : Agrees heap (.new maxPerToken) [] :=
  ⟨List.nodup_nil, fun _ => rfl, fun _ => by split <;> rfl⟩

/-- A session is found under its id. -/
theorem lookup_iff (h : Agrees heap sm roster) :
    sm.sessions.lookup id = some r ↔ r ∈ roster ∧ (heap r).id = id := by
  rw [h.sessions]
  exact Indexed.find?_key_iff h.ids

theorem lookup_none_iff (h : Agrees heap sm roster) :
    sm.sessions.lookup id = none ↔ ∀ r ∈ roster, (heap r).id ≠ id := by
  rw [h.sessions, List.find?_eq_none]
  simp

theorem forToken_eq (h : Agrees heap sm roster) : sm.forToken token =
    if token = [] then [] else roster.filter fun r => (heap r).authToken = token := by
  rw [SessionManager.forToken, h.tokens]
  split
  · rfl
  · exact SessionManager.getD_listed _

/-- The maps depend on the roster only. -/
theorem ext (h : Agrees heap sm roster) (h' : Agrees heap sm' roster) :
    (∀ id, sm.sessions.lookup id = sm'.sessions.lookup id) ∧
      ∀ t, sm.tokenSessions.lookup t = sm'.tokenSessions.lookup t :=
  ⟨fun id => (h.sessions id).trans (h'.sessions id).symm,
    fun t => (h.tokens t).trans (h'.tokens t).symm⟩

theorem of_sameNames (h : Agrees heap sm roster) (hnames : heap.SameNames heap') :
    Agrees heap' sm roster := by
  refine ⟨?_, ?_, ?_⟩
  · simpa only [fun r => (hnames r).1] using h.ids
  · simpa only [fun r => (hnames r).1] using h.sessions
  · simpa only [fun r => (hnames r).2] using h.tokens

theorem insert (h : Agrees heap sm roster) (hfresh : sm.sessions.lookup (heap r).id = none) :
    Agrees heap (sm.insert heap r) (roster ++ [r]) := by
  have hnew := h.lookup_none_iff.mp hfresh
  refine ⟨?_, ?_, ?_⟩
  · rw [List.map_append, List.map_singleton, ← List.concat_eq_append, List.nodup_concat]
    refine ⟨?_, h.ids⟩
    simpa using hnew
  · intro id
    rw [SessionManager.lookup_insert_sessions, List.find?_append, ← h.sessions]
    by_cases hid : id = (heap r).id
    · subst hid
      simp [hfresh]
    · simp [hid, Ne.symm hid]
  · intro t
    rw [SessionManager.lookup_insert_tokens, h.tokens, List.filter_append]
    by_cases hnil : t = []
    · simp [hnil]
    · by_cases ht : t = (heap r).authToken
      · subst ht
        simp [hnil, h.forToken_eq, SessionManager.listed]
      · simp [hnil, ht, Ne.symm ht]

theorem drop (h : Agrees heap sm roster) (hr : sm.sessions.lookup id = some r) :
    Agrees heap (sm.drop heap id r) (roster.filter fun r => (heap r).id ≠ id) := by
  obtain ⟨hmem, hid⟩ := h.lookup_iff.mp hr
  refine ⟨h.ids.sublist (List.filter_sublist.map _), ?_, ?_⟩
  · intro i
    rw [SessionManager.lookup_drop_sessions, h.sessions, List.find?_filter]
    by_cases hi : i = id
    · subst hi
      rw [if_pos rfl, eq_comm, List.find?_eq_none]
      simp
    · rw [if_neg hi]
      congr 1
      funext r'
      by_cases hr' : (heap r').id = i <;> simp [hr', hi]
  · intro t
    rw [SessionManager.lookup_drop_tokens, h.tokens, h.forToken_eq]
    by_cases hnil : t = []
    · simp [hnil]
    · by_cases ht : t = (heap r).authToken
      · simp only [ht] at hnil ⊢
        simp only [hnil, ne_eq, not_false_eq_true, and_self, if_true, if_false]
        rw [List.filter_filter, List.filter_filter]
        simp only [Bool.and_comm]
      · -- the session that goes has another token
        have hsame : (roster.filter fun r => decide ((heap r).id ≠ id)).filter
            (fun r => decide ((heap r).authToken = t)) =
            roster.filter fun r => decide ((heap r).authToken = t) := by
          rw [List.filter_filter]
          refine List.filter_congr fun r' hr' => ?_
          by_cases htoken : (heap r').authToken = t
          · have hne : (heap r').id ≠ id := by
              intro hid'
              have hlookup := h.lookup_iff.mpr ⟨hr', hid'⟩
              rw [hr, Option.some.injEq] at hlookup
              subst hlookup
              exact ht htoken.symm
            simp [htoken, hne]
          · simp [htoken]
        simp only [ht, false_and, if_false, hnil, hsame]

theorem remove (h : Agrees heap sm roster) (id : SessionId) :
    Agrees heap (sm.remove heap id) (roster.filter fun r => (heap r).id ≠ id) := by
  cases hr : sm.sessions.lookup id with
  | none =>
    have hall : (roster.filter fun r => decide ((heap r).id ≠ id)) = roster := by
      rw [List.filter_eq_self]
      simpa using h.lookup_none_iff.mp hr
    rw [SessionManager.remove, hr, hall]
    exact h
  | some r =>
    rw [SessionManager.remove, hr]
    exact h.drop hr

/-- The values of the map are the roster in another order. -/
theorem allSessions_perm (h : Agrees heap sm roster) : sm.allSessions.Perm roster := by
  have hkeys : ∀ x ∈ sm.sessions.entries, (heap x.2).id = x.1 := by
    rintro ⟨id, r⟩ hmem
    exact (h.lookup_iff.mp (AList.mem_lookup_iff.mpr hmem)).2
  have hids : (sm.allSessions.map fun r => (heap r).id).Nodup := by
    have hmap : (sm.allSessions.map fun r => (heap r).id) = sm.sessions.entries.map Sigma.fst := by
      rw [SessionManager.allSessions, List.map_map]
      exact List.map_congr_left hkeys
    rw [hmap]
    exact sm.sessions.nodupKeys
  refine (List.perm_ext_iff_of_nodup hids.of_map h.ids.of_map).mpr fun r => ?_
  rw [SessionManager.allSessions, List.mem_map]
  constructor
  · rintro ⟨⟨id, r'⟩, hmem, rfl⟩
    exact (h.lookup_iff.mp (AList.mem_lookup_iff.mpr hmem)).1
  · intro hmem
    exact ⟨⟨(heap r).id, r⟩, AList.mem_lookup_iff.mp (h.lookup_iff.mpr ⟨hmem, rfl⟩), rfl⟩

theorem mem_keys_iff (h : Agrees heap sm roster) :
    id ∈ sm.sessions.keys ↔ ∃ r ∈ roster, (heap r).id = id := by
  rw [← AList.mem_keys, ← AList.lookup_isSome, Option.isSome_iff_exists]
  simp only [h.lookup_iff]

end Agrees

/-! `CleanExpired` on the roster. -/

section Expire

variable {heap : Heap} {sm : SessionManager} {roster : List SessionRef} {ids order : List SessionId}
  {now : SessionId → Time} {timeout : Int} {r : SessionRef}

/-- The sessions with these ids are closed and removed; the others are left as they are. -/
structure Expired (heap : Heap) (sm : SessionManager) (roster : List SessionRef) (ids : List SessionId)
    (s : SessionManager × Heap) : Prop where
  agrees : Agrees s.2 s.1 (roster.filter fun r => (heap r).id ∉ ids)
  names : heap.SameNames s.2
  closed : ∀ r, s.2 r =
    if r ∈ roster ∧ (heap r).id ∈ ids then (heap r).setState .closed else heap r
  maxPerToken : s.1.maxPerToken = sm.maxPerToken

theorem expired_expire (h : Agrees heap sm roster) (id : SessionId) :
    Expired heap sm roster [id] (SessionManager.expire (sm, heap) id) := by
  cases hr : sm.sessions.lookup id with
  | none =>
    have hother := h.lookup_none_iff.mp hr
    have hall : (roster.filter fun r => decide ((heap r).id ∉ [id])) = roster := by
      rw [List.filter_eq_self]
      simpa using hother
    have hs : SessionManager.expire (sm, heap) id = (sm, heap) := by
      simp only [SessionManager.expire, hr]
    rw [hs]
    refine ⟨by rwa [hall], .refl heap, ?_, rfl⟩
    intro r
    rw [if_neg]
    rintro ⟨hmem, hid⟩
    exact hother r hmem (List.mem_singleton.mp hid)
  | some r =>
    obtain ⟨hmem, hid⟩ := h.lookup_iff.mp hr
    have hnames : heap.SameNames (heap.modify r (·.setState .closed)) := Heap.sameNames_modify rfl rfl
    have hs : SessionManager.expire (sm, heap) id =
        (sm.drop heap id r, heap.modify r (·.setState .closed)) := by
      simp only [SessionManager.expire, hr]
    rw [hs]
    refine ⟨?_, hnames, ?_, rfl⟩
    · have hdrop := (h.drop hr).of_sameNames hnames
      simpa only [List.mem_singleton] using hdrop
    · intro r'
      by_cases hr' : r' = r
      · subst hr'
        simp [Heap.modify, hmem, hid]
      · have hne : ¬ (r' ∈ roster ∧ (heap r').id ∈ [id]) := by
          rintro ⟨hmem', hid'⟩
          have hlookup := h.lookup_iff.mpr ⟨hmem', List.mem_singleton.mp hid'⟩
          rw [hr, Option.some.injEq] at hlookup
          exact hr' hlookup.symm
        rw [if_neg hne]
        simp [Heap.modify, hr']

/-- The second loop, whatever the order of the ids. -/
theorem expired_foldl (h : Agrees heap sm roster) (ids : List SessionId) :
    Expired heap sm roster ids (ids.foldl SessionManager.expire (sm, heap)) := by
  induction ids generalizing heap sm roster with
  | nil => exact ⟨by simpa using h, .refl heap, by simp, rfl⟩
  | cons id ids ih =>
    have hone := expired_expire h id
    have hrest := ih hone.agrees
    rw [List.foldl_cons]
    have hid : ∀ r, ((SessionManager.expire (sm, heap) id).2 r).id = (heap r).id := fun r => (hone.names r).1
    refine ⟨?_, hone.names.trans hrest.names, ?_, hrest.maxPerToken.trans hone.maxPerToken⟩
    · have hagrees := hrest.agrees
      rw [List.filter_filter] at hagrees
      have hfilter : (fun r => decide (((SessionManager.expire (sm, heap) id).2 r).id ∉ ids) &&
          decide ((heap r).id ∉ [id])) = fun r => decide ((heap r).id ∉ id :: ids) := by
        funext r
        rw [hid]
        by_cases h1 : (heap r).id = id <;> by_cases h2 : (heap r).id ∈ ids <;> simp [h1, h2]
      rwa [hfilter] at hagrees
    · intro r
      rw [hrest.closed, hid, hone.closed]
      by_cases hmem : r ∈ roster
      · by_cases h1 : (heap r).id = id <;> by_cases h2 : (heap r).id ∈ ids <;>
          simp [hmem, h1, h2, Session.setState]
      · simp [hmem]

/-- The first loop finds the sessions that are idle beyond the timeout. -/
theorem mem_expired_iff (h : Agrees heap sm roster) (horder : order.Perm sm.sessions.keys)
    (hmem : r ∈ roster) : (heap r).id ∈ sm.expired heap order now timeout ↔
      (heap r).isExpired (now (heap r).id) timeout = true := by
  have hlookup : sm.sessions.lookup (heap r).id = some r := h.lookup_iff.mpr ⟨hmem, rfl⟩
  have hkey : (heap r).id ∈ order := horder.mem_iff.mpr (h.mem_keys_iff.mpr ⟨r, hmem, rfl⟩)
  rw [SessionManager.expired, List.mem_filter]
  simp only [hkey, true_and, hlookup]

end Expire

/-! Runs of the manager. -/

/-- `NewSessionManager` and the calls on it; every session has its object from the beginning. `order`
is the one in which `CleanExpired` ranges over the map, and each of its readings has its own clock. -/
inductive SessionCall where
  | add (r : SessionRef)
  | remove (id : SessionId)
  | cleanExpired (timeout : Int) (now : SessionId → Time) (order : List SessionId)
  | touch (r : SessionRef) (now : Time)
  | setState (r : SessionRef) (state : SessionState)

/-- The manager and the objects; `roster` has the sessions that have been added and not been removed,
in order of addition. -/
structure Tracked where
  manager : SessionManager
  heap : Heap
  roster : List SessionRef

namespace Tracked

def start (heap : Heap) (maxPerToken : Int) : Tracked := ⟨.new maxPerToken, heap, []⟩

def step (s : Tracked) : SessionCall → Tracked
  | .add r =>
    match s.manager.add s.heap r with
    | .error _ => s
    | .ok manager => { s with manager := manager, roster := s.roster ++ [r] }
  | .remove id =>
    { s with
      manager := s.manager.remove s.heap id
      roster := s.roster.filter fun r => (s.heap r).id ≠ id }
  | .cleanExpired timeout now order =>
    { manager := (s.manager.cleanExpired s.heap order now timeout).2.1
      heap := (s.manager.cleanExpired s.heap order now timeout).2.2
      roster := s.roster.filter fun r => !(s.heap r).isExpired (now (s.heap r).id) timeout }
  | .touch r now => { s with heap := s.heap.modify r (·.touch now) }
  | .setState r state => { s with heap := s.heap.modify r (·.setState state) }

/-- A session that is added has an id that is not in the manager, and a range over the map meets each
key once. -/
def Allowed (s : Tracked) : SessionCall → Prop
  | .add r => ∀ manager, s.manager.add s.heap r = .ok manager → s.manager.get (s.heap r).id = none
  | .cleanExpired _ _ order => order.Perm s.manager.sessions.keys
  | _ => True

variable {s : Tracked} {call : SessionCall} {calls : List SessionCall} {heap : Heap} {maxPerToken : Int}

theorem agrees_step (h : Agrees s.heap s.manager s.roster) (hallowed : s.Allowed call) :
    Agrees (s.step call).heap (s.step call).manager (s.step call).roster := by
  cases call with
  | add r =>
    simp only [step]
    split
    · exact h
    · next manager hadd =>
      have hfresh := hallowed manager hadd
      unfold SessionManager.add at hadd
      split at hadd
      · cases hadd
      · cases hadd
        exact h.insert hfresh
  | remove id => exact h.remove id
  | cleanExpired timeout now order =>
    have hagrees := (expired_foldl h (s.manager.expired s.heap order now timeout)).agrees
    have hroster : (s.roster.filter fun r =>
        decide ((s.heap r).id ∉ s.manager.expired s.heap order now timeout)) =
        s.roster.filter fun r => !(s.heap r).isExpired (now (s.heap r).id) timeout := by
      refine List.filter_congr fun r hr => ?_
      have hiff := @mem_expired_iff _ _ _ _ now timeout _ h hallowed hr
      cases hexpired : (s.heap r).isExpired (now (s.heap r).id) timeout with
      | true => simp [hiff, hexpired]
      | false => simp [hiff, hexpired]
    rw [hroster] at hagrees
    exact hagrees
  | touch r now => exact h.of_sameNames (Heap.sameNames_modify rfl rfl)
  | setState r state => exact h.of_sameNames (Heap.sameNames_modify rfl rfl)

theorem agrees_after (h : Along step Allowed (start heap maxPerToken) calls) :
    Agrees (after step (start heap maxPerToken) calls).heap
      (after step (start heap maxPerToken) calls).manager
      (after step (start heap maxPerToken) calls).roster :=
  h.invariant (I := fun s => Agrees s.heap s.manager s.roster)
    (fun _ _ hallowed hs => agrees_step hs hallowed) (Agrees.new heap maxPerToken)

/-- What the index of a token has: the sessions of the map with this token, in order of addition. -/
theorem countByToken_eq (h : Agrees s.heap s.manager s.roster) {token : List Char} (htoken : token ≠ []) :
    s.manager.countByToken s.heap token =
      s.manager.allSessions.countP fun r => s.heap.isActive r ∧ (s.heap r).authToken = token := by
  rw [SessionManager.countByToken, h.forToken_eq, if_neg htoken, List.countP_filter,
    h.allSessions_perm.countP_eq]
  exact List.countP_congr fun r _ => by simp

theorem totalActive_eq (h : Agrees s.heap s.manager s.roster) {tokens : List (List Char)}
    (hnodup : tokens.Nodup) (hnil : [] ∉ tokens)
    (hall : ∀ r ∈ s.manager.allSessions, (s.heap r).authToken ≠ [] → (s.heap r).authToken ∈ tokens) :
    s.manager.totalActive s.heap = (tokens.map (s.manager.countByToken s.heap)).sum +
      s.manager.allSessions.countP fun r => s.heap.isActive r ∧ (s.heap r).authToken = [] := by
  rw [SessionManager.totalActive,
    Indexed.countP_by_key (fun r => (s.heap r).authToken) s.heap.isActive hnodup]
  congr 1
  · congr 1
    refine List.map_congr_left fun token htoken => ?_
    rw [countByToken_eq h (ne_of_mem_of_not_mem htoken hnil)]
  · refine List.countP_congr fun r hr => ?_
    have hiff : (s.heap r).authToken ∉ tokens ↔ (s.heap r).authToken = [] := by
      constructor
      · intro hnot
        by_contra hne
        exact hnot (hall r hr hne)
      · intro heq hmem
        rw [heq] at hmem
        exact hnil hmem
    simp only [hiff]

/-- However the manager is used, as long as no added session has an id that is in use: the index of
each token has the sessions of the map with this token, each once and in order of addition, and no key
is kept for none; a rejected session changes nothing; and the counts are those of the map. -/
theorem indexes_agree (heap : Heap) (maxPerToken : Int) (calls : List SessionCall)
    (h : Along step Allowed (start heap maxPerToken) calls) :
    let s := after step (start heap maxPerToken) calls
    (∀ token, token ≠ [] → (s.manager.forToken token).Nodup ∧
      (∀ r, r ∈ s.manager.forToken token ↔
        r ∈ s.manager.allSessions ∧ (s.heap r).authToken = token) ∧
      s.manager.forToken token = s.roster.filter fun r => (s.heap r).authToken = token) ∧
    (∀ token, s.manager.tokenSessions.lookup token ≠ some []) ∧
    (∀ r e, s.manager.add s.heap r = .error e → s.step (.add r) = s) ∧
    (∀ token, token ≠ [] → s.manager.countByToken s.heap token =
      s.manager.allSessions.countP fun r => s.heap.isActive r ∧ (s.heap r).authToken = token) ∧
    ∀ tokens : List (List Char), tokens.Nodup → [] ∉ tokens →
      (∀ r ∈ s.manager.allSessions, (s.heap r).authToken ≠ [] → (s.heap r).authToken ∈ tokens) →
      s.manager.totalActive s.heap = (tokens.map (s.manager.countByToken s.heap)).sum +
        s.manager.allSessions.countP fun r => s.heap.isActive r ∧ (s.heap r).authToken = [] := by
  intro s
  have hagrees : Agrees s.heap s.manager s.roster := agrees_after h
  refine ⟨?_, ?_, ?_, ?_, ?_⟩
  · intro token htoken
    have hlist : s.manager.forToken token = s.roster.filter fun r => (s.heap r).authToken = token := by
      rw [hagrees.forToken_eq, if_neg htoken]
    refine ⟨?_, ?_, hlist⟩
    · rw [hlist]
      exact hagrees.ids.of_map.filter _
    · intro r
      rw [hlist, List.mem_filter, hagrees.allSessions_perm.mem_iff, decide_eq_true_iff]
  · intro token hempty
    rw [hagrees.tokens, SessionManager.listed] at hempty
    split at hempty
    · cases hempty
    · split at hempty
      · cases hempty
      · next hne =>
        exact hne (Option.some.inj hempty)
  · intro r e he
    simp only [step, he]
  · exact fun token htoken => countByToken_eq hagrees htoken
  · exact fun tokens hnodup hnil hall => totalActive_eq hagrees hnodup hnil hall

/-- The objects `a`, `b`, and so on, all with the token `t`. -/
def sampleHeap : Heap := fun r => ⟨[Char.ofNat (97 + r)], ['t'], .new, .ofUnix 0⟩

/-- Two sessions of a token, one active, of which the other one goes. -/
def sampleCalls : List SessionCall := [.add 0, .add 1, .setState 1 .active, .remove ['a']]

theorem sampleCalls_allowed : Along step Allowed (start sampleHeap 2) sampleCalls :=
  ⟨fun _ _ => rfl, fun _ _ => rfl, trivial, trivial, trivial⟩

theorem indexes_agree_sample :
    let s := after step (start sampleHeap 2) sampleCalls
    s.manager.countByToken s.heap ['t'] =
      s.manager.allSessions.countP fun r => s.heap.isActive r ∧ (s.heap r).authToken = ['t'] :=
  (indexes_agree sampleHeap 2 sampleCalls sampleCalls_allowed).2.2.2.1 ['t'] (by decide)

end Tracked

end SshPanelVpn.ShadowLink.Protocol

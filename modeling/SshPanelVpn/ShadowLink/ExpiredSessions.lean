import SshPanelVpn.ShadowLink.SessionRoster

/-! `CleanExpired` against `Remove`: the two copies of the removal do the same. -/
namespace SshPanelVpn.ShadowLink.Protocol

open Runs

variable {heap : Heap} {sm : SessionManager} {roster : List SessionRef} {ids order : List SessionId}
  {now : Time} {timeout : Int} {r : SessionRef}

theorem Agrees.removeAll (h : Agrees heap sm roster) (ids : List SessionId) :
    Agrees heap (ids.foldl (fun sm id => sm.remove heap id) sm)
      (roster.filter fun r => (heap r).id ∉ ids) := by
  induction ids generalizing sm roster with
  | nil => simpa using h
  | cons id ids ih =>
    have hrest := ih (h.remove id)
    rw [List.filter_filter] at hrest
    have hfilter : (fun r => decide ((heap r).id ∉ ids) && decide ((heap r).id ≠ id)) =
        fun r => decide ((heap r).id ∉ id :: ids) := by
      funext r
      by_cases h1 : (heap r).id = id <;> by_cases h2 : (heap r).id ∈ ids <;> simp [h1, h2]
    rwa [hfilter] at hrest

theorem SessionManager.maxPerToken_removeAll (ids : List SessionId) :
    (ids.foldl (fun sm id => sm.remove heap id) sm).maxPerToken = sm.maxPerToken := by
  induction ids generalizing sm with
  | nil => rfl
  | cons id ids ih =>
    rw [List.foldl_cons, ih]
    unfold remove
    split <;> rfl

/-- The ids of the sessions that are expired. -/
def ExpiredIds (heap : Heap) (sm : SessionManager) (now : Time) (timeout : Int) (ids : List SessionId) : Prop :=
  ∀ id, id ∈ ids ↔ ∃ r, sm.get id = some r ∧ (heap r).isExpired now timeout = true

/-- Such ids leave the sessions that are not expired. -/
theorem filter_expiredIds (h : Agrees heap sm roster) (hids : ExpiredIds heap sm now timeout ids) :
    (roster.filter fun r => (heap r).id ∉ ids) = roster.filter fun r => !(heap r).isExpired now timeout := by
  refine List.filter_congr fun r hr => ?_
  have hlookup : sm.get (heap r).id = some r := h.lookup_iff.mpr ⟨hr, rfl⟩
  have hiff : (heap r).id ∈ ids ↔ (heap r).isExpired now timeout = true := by
    rw [hids]
    constructor
    · rintro ⟨r', hr', hexpired⟩
      rw [hlookup, Option.some.injEq] at hr'
      rwa [hr']
    · exact fun hexpired => ⟨r, hlookup, hexpired⟩
  cases hexpired : (heap r).isExpired now timeout with
  | true => simp [hiff, hexpired]
  | false => simp [hiff, hexpired]

/-- The first loop of `CleanExpired` collects them. -/
theorem expiredIds_expired (h : Agrees heap sm roster) (horder : order.Perm sm.sessions.keys) :
    ExpiredIds heap sm now timeout (sm.expired heap order (fun _ => now) timeout) := by
  intro id
  constructor
  · intro hmem
    rw [SessionManager.expired, List.mem_filter] at hmem
    obtain ⟨hkey, hexpired⟩ := hmem
    obtain ⟨r, hr, rfl⟩ := h.mem_keys_iff.mp (horder.mem_iff.mp hkey)
    have hlookup : sm.sessions.lookup (heap r).id = some r := h.lookup_iff.mpr ⟨hr, rfl⟩
    simp only [hlookup] at hexpired
    exact ⟨r, hlookup, hexpired⟩
  · rintro ⟨r, hlookup, hexpired⟩
    obtain ⟨hr, rfl⟩ := h.lookup_iff.mp hlookup
    exact (mem_expired_iff h horder hr).mpr hexpired

/-- As many as there are expired sessions. -/
theorem length_expired (horder : order.Perm sm.sessions.keys) :
    (sm.expired heap order (fun _ => now) timeout).length =
      sm.allSessions.countP fun r => (heap r).isExpired now timeout := by
  rw [SessionManager.expired, ← List.countP_eq_length_filter, horder.countP_eq, AList.keys, List.keys,
    SessionManager.allSessions, List.countP_map, List.countP_map]
  refine List.countP_congr ?_
  rintro ⟨id, r⟩ hmem
  have hlookup : sm.sessions.lookup id = some r := AList.mem_lookup_iff.mpr hmem
  simp [hlookup]

/-- What `CleanExpired` does to the manager `sm` with the objects `heap`, when the current time does
not change: what `Remove` does with the ids of the expired sessions, in any order. -/
structure CleansExpired (heap : Heap) (sm : SessionManager) (now : Time) (timeout : Int)
    (result : Nat × SessionManager × Heap) : Prop where
  sessions : ∀ ids, ExpiredIds heap sm now timeout ids → ∀ id,
    result.2.1.sessions.lookup id =
      (ids.foldl (fun sm id => sm.remove heap id) sm).sessions.lookup id
  tokenSessions : ∀ ids, ExpiredIds heap sm now timeout ids → ∀ token,
    result.2.1.tokenSessions.lookup token =
      (ids.foldl (fun sm id => sm.remove heap id) sm).tokenSessions.lookup token
  maxPerToken : ∀ ids, ExpiredIds heap sm now timeout ids →
    result.2.1.maxPerToken = (ids.foldl (fun sm id => sm.remove heap id) sm).maxPerToken
  closed : ∀ r, result.2.2 r =
    if r ∈ sm.allSessions ∧ (heap r).isExpired now timeout = true then (heap r).setState .closed
    else heap r
  count : result.1 = sm.allSessions.countP fun r => (heap r).isExpired now timeout
  none_expired : ∀ id r, result.2.1.get id = some r → (result.2.2 r).isExpired now timeout = false
  others_found : ∀ id r, sm.get id = some r → (heap r).isExpired now timeout = false →
    result.2.1.get id = some r
  others_counted : ∀ token, token ≠ [] → result.2.1.countByToken result.2.2 token =
    sm.allSessions.countP fun r =>
      heap.isActive r ∧ (heap r).authToken = token ∧ (heap r).isExpired now timeout = false

theorem cleansExpired (h : Agrees heap sm roster) (horder : order.Perm sm.sessions.keys) :
    CleansExpired heap sm now timeout (sm.cleanExpired heap order (fun _ => now) timeout) := by
  have hids : ExpiredIds heap sm now timeout (sm.expired heap order (fun _ => now) timeout) :=
    expiredIds_expired h horder
  have hfold := expired_foldl h (sm.expired heap order (fun _ => now) timeout)
  have hleft := filter_expiredIds h hids
  have hclean : ∀ ids, ExpiredIds heap sm now timeout ids →
      Agrees (sm.cleanExpired heap order (fun _ => now) timeout).2.2
        (ids.foldl (fun sm id => sm.remove heap id) sm)
        (roster.filter fun r => !(heap r).isExpired now timeout) := by
    intro ids hids'
    rw [← filter_expiredIds h hids']
    exact (h.removeAll ids).of_sameNames hfold.names
  have hagrees : Agrees (sm.cleanExpired heap order (fun _ => now) timeout).2.2
      (sm.cleanExpired heap order (fun _ => now) timeout).2.1
      (roster.filter fun r => !(heap r).isExpired now timeout) := by
    rw [← hleft]
    exact hfold.agrees
  have hobject : ∀ r, (sm.cleanExpired heap order (fun _ => now) timeout).2.2 r =
      if r ∈ sm.allSessions ∧ (heap r).isExpired now timeout = true then (heap r).setState .closed
      else heap r := by
    intro r
    refine (hfold.closed r).trans ?_
    by_cases hr : r ∈ roster
    · simp only [hr, h.allSessions_perm.mem_iff, true_and, mem_expired_iff h horder hr]
    · simp [hr, h.allSessions_perm.mem_iff]
  refine ⟨?_, ?_, ?_, hobject, length_expired horder, ?_, ?_, ?_⟩
  · exact fun ids hids' => (hagrees.ext (hclean ids hids')).1
  · exact fun ids hids' => (hagrees.ext (hclean ids hids')).2
  · intro ids _
    rw [SessionManager.maxPerToken_removeAll]
    exact hfold.maxPerToken
  · intro id r hget
    obtain ⟨hmem, -⟩ := hagrees.lookup_iff.mp hget
    rw [List.mem_filter] at hmem
    have hnot : (heap r).isExpired now timeout = false := by simpa using hmem.2
    rw [hobject, hnot, if_neg (by simp)]
    exact hnot
  · intro id r hget hnot
    obtain ⟨hmem, rfl⟩ := h.lookup_iff.mp hget
    refine hagrees.lookup_iff.mpr ⟨List.mem_filter.mpr ⟨hmem, by simp [hnot]⟩, (hfold.names r).1⟩
  · intro token htoken
    rw [SessionManager.countByToken, hagrees.forToken_eq, if_neg htoken, List.countP_filter,
      List.countP_filter, h.allSessions_perm.countP_eq]
    refine List.countP_congr fun r hr => ?_
    have hname : ((sm.cleanExpired heap order (fun _ => now) timeout).2.2 r).authToken =
        (heap r).authToken := (hfold.names r).2
    rw [hname, Heap.isActive, hobject]
    by_cases hexpired : (heap r).isExpired now timeout = true
    · simp [hexpired]
    · simp [hexpired, Heap.isActive]

namespace Tracked

/-- In every state that the manager comes to, as long as no added session has an id that is in use,
and for every timeout, every current time and every order of the map. -/
theorem cleanExpired_removes (heap : Heap) (maxPerToken : Int) (calls : List SessionCall)
    (h : Along step Allowed (start heap maxPerToken) calls) (timeout : Int) (now : Time)
    (order : List SessionId)
    (horder : order.Perm (after step (start heap maxPerToken) calls).manager.sessions.keys) :
    let s := after step (start heap maxPerToken) calls
    CleansExpired s.heap s.manager now timeout
      (s.manager.cleanExpired s.heap order (fun _ => now) timeout) :=
  cleansExpired (agrees_after h) horder

/-- Four sessions of a token, three of them active, of which one has been used again. -/
def idleCalls : List SessionCall :=
  [.add 0, .add 1, .add 2, .add 3, .setState 0 .active, .setState 1 .active, .setState 2 .active,
    .touch 1 (.ofUnix 10)]

theorem idleCalls_allowed : Along step Allowed (start sampleHeap 4) idleCalls :=
  ⟨fun _ _ => rfl, fun _ _ => rfl, fun _ _ => rfl, fun _ _ => rfl, trivial, trivial, trivial, trivial,
    trivial⟩

/-- With a timeout of five seconds the other three go. -/
theorem cleanExpired_removes_idle :
    let s := after step (start sampleHeap 4) idleCalls
    let cleaned := s.manager.cleanExpired s.heap [['c'], ['b'], ['d'], ['a']] (fun _ => .ofUnix 10)
      5000000000
    cleaned.1 = 3 ∧ cleaned.2.1.get ['b'] = some 1 ∧ cleaned.2.1.countByToken cleaned.2.2 ['t'] = 1 := by
  have hperm : [['c'], ['b'], ['d'], ['a']].Perm
      (after step (start sampleHeap 4) idleCalls).manager.sessions.keys := by decide
  obtain ⟨-, -, -, -, hcount, -, hfound, hactive⟩ :=
    cleanExpired_removes sampleHeap 4 idleCalls idleCalls_allowed 5000000000 (.ofUnix 10) _ hperm
  refine ⟨hcount.trans (by decide), hfound _ _ (by decide) (by decide), ?_⟩
  exact (hactive ['t'] (by decide)).trans (by decide)

end Tracked

end SshPanelVpn.ShadowLink.Protocol

import SshPanelVpn.ShadowLink.SessionRoster

/-! The limit of a token when the calls on the manager interleave: `Add` and `CleanExpired` hold
`sm.mu` over many steps, and a session's state is under its own lock. -/
namespace SshPanelVpn.ShadowLink.Protocol

open Runs

/-- Who holds `sm.mu`, and how far the call is. -/
inductive ManagerLock where
  | free
  | adding (r : SessionRef) (unread : List SessionRef) (active : Nat)
  | scanning (timeout : Int) (unread expired : List SessionId)
  | closing (expired : List SessionId)
  | dropping (id : SessionId) (r : SessionRef) (expired : List SessionId)

structure SharedManager where
  manager : SessionManager
  heap : Heap
  lock : ManagerLock

/-- `remove` is one step, as it touches nothing but the maps. -/
inductive ManagerAct where
  | setState (r : SessionRef) (state : SessionState)
  | touch (r : SessionRef) (now : Time)
  | remove (id : SessionId)
  | lockAdd (r : SessionRef)
  | readState
  | finishAdd
  | lockClean (timeout : Int) (order : List SessionId)
  | readIdle (now : Time)
  | finishScan
  | close
  | drop
  | finishClean

namespace SharedManager

def start (heap : Heap) (maxPerToken : Int) : SharedManager := ⟨.new maxPerToken, heap, .free⟩

/-- The limit applies to the session. -/
def Limited (sm : SessionManager) (heap : Heap) (r : SessionRef) : Prop :=
  (heap r).authToken ≠ [] ∧ 0 < sm.maxPerToken

instance (sm : SessionManager) (heap : Heap) (r : SessionRef) : Decidable (Limited sm heap r) :=
  inferInstanceAs (Decidable (_ ∧ _))

/-- A step that its call has not come to changes nothing. -/
def step (s : SharedManager) : ManagerAct → SharedManager
  | .setState r state => { s with heap := s.heap.modify r (·.setState state) }
  | .touch r now => { s with heap := s.heap.modify r (·.touch now) }
  | .remove id =>
    match s.lock with
    | .free => { s with manager := s.manager.remove s.heap id }
    | _ => s
  | .lockAdd r =>
    match s.lock with
    | .free =>
      { s with
        lock := .adding r
          (if Limited s.manager s.heap r then s.manager.forToken (s.heap r).authToken else []) 0 }
    | _ => s
  | .readState =>
    match s.lock with
    | .adding r (es :: unread) active =>
      { s with lock := .adding r unread (if s.heap.isActive es then active + 1 else active) }
    | _ => s
  | .finishAdd =>
    match s.lock with
    | .adding r [] active =>
      if Limited s.manager s.heap r ∧ s.manager.maxPerToken ≤ active then { s with lock := .free }
      else { s with manager := s.manager.insert s.heap r, lock := .free }
    | _ => s
  | .lockClean timeout order =>
    match s.lock with
    | .free =>
      if order.Perm s.manager.sessions.keys then { s with lock := .scanning timeout order [] } else s
    | _ => s
  | .readIdle now =>
    match s.lock with
    | .scanning timeout (id :: unread) expired =>
      match s.manager.sessions.lookup id with
      | none => { s with lock := .scanning timeout unread expired }
      | some r =>
        { s with
          lock := .scanning timeout unread
            (if (s.heap r).isExpired now timeout then expired ++ [id] else expired) }
    | _ => s
  | .finishScan =>
    match s.lock with
    | .scanning _ [] expired => { s with lock := .closing expired }
    | _ => s
  | .close =>
    match s.lock with
    | .closing (id :: expired) =>
      match s.manager.sessions.lookup id with
      | none => { s with lock := .closing expired }
      | some r => { s with heap := s.heap.modify r (·.setState .closed), lock := .dropping id r expired }
    | _ => s
  | .drop =>
    match s.lock with
    | .dropping id r expired =>
      { s with manager := s.manager.drop s.heap id r, lock := .closing expired }
    | _ => s
  | .finishClean =>
    match s.lock with
    | .closing [] => { s with lock := .free }
    | _ => s

/-- No token has more active sessions than the limit. -/
def Within (s : SharedManager) : Prop :=
  ∀ token, token ≠ [] → (s.manager.countByToken s.heap token : Int) ≤ s.manager.maxPerToken

/-- A session that becomes active in the manager, or comes to it active, finds room. -/
def HasRoom (s : SharedManager) : ManagerAct → Prop
  | .setState r .active =>
    s.heap.isActive r = false → (s.heap r).authToken ≠ [] →
      (s.manager.countByToken s.heap (s.heap r).authToken +
        (s.manager.forToken (s.heap r).authToken).count r : Int) ≤ s.manager.maxPerToken
  | .finishAdd =>
    match s.lock with
    | .adding r [] active =>
      s.heap.isActive r = true → (s.heap r).authToken ≠ [] → (active : Int) < s.manager.maxPerToken →
        (s.manager.countByToken s.heap (s.heap r).authToken : Int) < s.manager.maxPerToken
    | _ => True
  | _ => True

/-- The sessions of a token have it. -/
def Own (s : SharedManager) : Prop :=
  ∀ token, ∀ r ∈ s.manager.forToken token, (s.heap r).authToken = token

variable {s : SharedManager} {act : ManagerAct} {r : SessionRef} {token : List Char} {heap : Heap}

/-! The calls as runs of their steps, when nothing comes between. -/

theorem after_readState {unread : List SessionRef} {active : Nat} (hlock : s.lock = .adding r unread active) :
    after step s (List.replicate unread.length .readState) =
      { s with lock := .adding r [] (active + unread.countP s.heap.isActive) } := by
  induction unread generalizing s active with
  | nil =>
    rw [List.length_nil, List.replicate_zero, after_nil, List.countP_nil, Nat.add_zero, ← hlock]
  | cons es unread ih =>
    have hs : s.step .readState =
        { s with lock := .adding r unread (if s.heap.isActive es then active + 1 else active) } := by
      simp only [step, hlock]
    rw [List.length_cons, List.replicate_succ, after_cons, hs, ih rfl, List.countP_cons]
    split
    · rw [Nat.add_assoc, Nat.add_comm 1]
    · rfl

/-- `Add` is the locking of the manager, a reading for every session of the token, and the rest. -/
theorem after_add (hlock : s.lock = .free) (r : SessionRef) :
    after step s (.lockAdd r :: (List.replicate
      (if Limited s.manager s.heap r then s.manager.forToken (s.heap r).authToken else []).length
        .readState ++ [ManagerAct.finishAdd])) =
      match s.manager.add s.heap r with
      | .error _ => s
      | .ok manager => { s with manager := manager } := by
  have hstart : s.step (.lockAdd r) = { s with
      lock := .adding r
        (if Limited s.manager s.heap r then s.manager.forToken (s.heap r).authToken else []) 0 } := by
    simp only [step, hlock]
  rw [after_cons, hstart, after_append, after_readState rfl, Nat.zero_add, after_cons, after_nil]
  by_cases hlimited : Limited s.manager s.heap r
  · rw [if_pos hlimited]
    by_cases hfull : s.manager.maxPerToken ≤ s.manager.countByToken s.heap (s.heap r).authToken
    · have hadd : s.manager.add s.heap r = .error "max concurrent sessions exceeded for this token" :=
        if_pos ⟨hlimited.1, hlimited.2, hfull⟩
      rw [hadd]
      simp only [step]
      rw [if_pos ⟨hlimited, hfull⟩, ← hlock]
    · have hadd : s.manager.add s.heap r = .ok (s.manager.insert s.heap r) :=
        if_neg fun h => hfull h.2.2
      rw [hadd]
      simp only [step]
      rw [if_neg fun h => hfull h.2, ← hlock]
  · have hadd : s.manager.add s.heap r = .ok (s.manager.insert s.heap r) :=
      if_neg fun h => hlimited ⟨h.1, h.2.1⟩
    rw [hadd, if_neg hlimited]
    simp only [step]
    rw [if_neg fun h => hlimited h.1, ← hlock]

theorem after_readIdle {timeout : Int} {unread expired : List SessionId} (now : SessionId → Time)
    (hlock : s.lock = .scanning timeout unread expired) :
    after step s (unread.map fun id => .readIdle (now id)) =
      { s with
        lock := .scanning timeout [] (expired ++ s.manager.expired s.heap unread now timeout) } := by
  induction unread generalizing s expired with
  | nil => rw [List.map_nil, after_nil, SessionManager.expired, List.filter_nil, List.append_nil, ← hlock]
  | cons id unread ih =>
    rw [List.map_cons, after_cons]
    cases hr : s.manager.sessions.lookup id with
    | none =>
      have hs : s.step (.readIdle (now id)) = { s with lock := .scanning timeout unread expired } := by
        simp only [step, hlock, hr]
      rw [hs, ih rfl]
      simp [SessionManager.expired, hr]
    | some r =>
      have hs : s.step (.readIdle (now id)) = { s with
          lock := .scanning timeout unread
            (if (s.heap r).isExpired (now id) timeout then expired ++ [id] else expired) } := by
        simp only [step, hlock, hr]
      rw [hs, ih rfl]
      by_cases hexpired : (s.heap r).isExpired (now id) timeout = true
      · simp [SessionManager.expired, hr, hexpired]
      · simp [SessionManager.expired, hr, hexpired]

/-- Closing an object does not change what is dropped. -/
theorem drop_modify (sm : SessionManager) (heap : Heap) (id : SessionId) (r : SessionRef)
    (state : SessionState) : sm.drop (heap.modify r (·.setState state)) id r = sm.drop heap id r := by
  have hnames : heap.SameNames (heap.modify r (·.setState state)) := Heap.sameNames_modify rfl rfl
  have hids : (fun es => decide (((heap.modify r (·.setState state)) es).id ≠ id)) =
      fun es => decide ((heap es).id ≠ id) := by
    funext es
    rw [(hnames es).1]
  simp only [SessionManager.drop, (hnames r).2, hids]

theorem after_expire {ids : List SessionId} (hlock : s.lock = .closing ids) :
    after step s (ids.flatMap fun _ => [ManagerAct.close, ManagerAct.drop]) =
      ⟨(ids.foldl SessionManager.expire (s.manager, s.heap)).1,
        (ids.foldl SessionManager.expire (s.manager, s.heap)).2, .closing []⟩ := by
  induction ids generalizing s with
  | nil => rw [List.flatMap_nil, after_nil, List.foldl_nil, ← hlock]
  | cons id ids ih =>
    rw [List.flatMap_cons, after_append, after_cons, after_cons, after_nil, List.foldl_cons]
    cases hr : s.manager.sessions.lookup id with
    | none =>
      have hs : (s.step .close).step .drop = { s with lock := .closing ids } := by
        simp only [step, hlock, hr]
      rw [hs, ih rfl]
      simp only [SessionManager.expire, hr]
    | some r =>
      have hs : (s.step .close).step .drop =
          ⟨s.manager.drop s.heap id r, s.heap.modify r (·.setState .closed), .closing ids⟩ := by
        simp only [step, hlock, hr, drop_modify]
      rw [hs, ih rfl]
      simp only [SessionManager.expire, hr]

/-- `CleanExpired` is a reading of the clock for every id, and two steps for each that is expired. -/
theorem after_cleanExpired (hlock : s.lock = .free) {timeout : Int} {order : List SessionId}
    (horder : order.Perm s.manager.sessions.keys) (now : SessionId → Time) :
    after step s (.lockClean timeout order :: ((order.map fun id => .readIdle (now id)) ++
      ManagerAct.finishScan :: (((s.manager.expired s.heap order now timeout).flatMap fun _ =>
        [ManagerAct.close, ManagerAct.drop]) ++ [ManagerAct.finishClean]))) =
      ⟨(s.manager.cleanExpired s.heap order now timeout).2.1,
        (s.manager.cleanExpired s.heap order now timeout).2.2, .free⟩ := by
  have hstart : s.step (.lockClean timeout order) = { s with lock := .scanning timeout order [] } := by
    simp only [step, hlock, if_pos horder]
  rw [after_cons, hstart, after_append, after_readIdle now rfl, after_cons, List.nil_append]
  simp only [step]
  rw [after_append, after_expire rfl]
  rfl

/-! Steps that raise no count. -/

/-- The steps that may raise one. -/
def Raises : ManagerAct → Prop
  | .setState _ .active => True
  | .finishAdd => True
  | _ => False

/-- No token gets a session, and no session becomes active. -/
structure NoMore (s t : SharedManager) : Prop where
  maxPerToken : t.manager.maxPerToken = s.manager.maxPerToken
  sessions : ∀ token, (t.manager.forToken token).Sublist (s.manager.forToken token)
  names : s.heap.SameNames t.heap
  active : ∀ r, t.heap.isActive r = true → s.heap.isActive r = true

variable {t : SharedManager}

theorem NoMore.within (h : NoMore s t) (hw : s.Within) : t.Within := by
  intro token htoken
  have hs := hw token htoken
  have hsessions : t.manager.countByToken t.heap token ≤ (s.manager.forToken token).countP t.heap.isActive :=
    (h.sessions token).countP_le
  have hactive : (s.manager.forToken token).countP t.heap.isActive ≤ s.manager.countByToken s.heap token :=
    List.countP_mono_left fun r _ => h.active r
  rw [h.maxPerToken]
  omega

theorem Own.of_sublist (h : s.Own)
    (hsessions : ∀ token, (t.manager.forToken token).Sublist (s.manager.forToken token))
    (hnames : s.heap.SameNames t.heap) : t.Own := by
  intro token r hr
  rw [(hnames r).2]
  exact h token r ((hsessions token).subset hr)

theorem isActive_modify_ne {f : Session → Session} {r' : SessionRef} (h : r' ≠ r) :
    (heap.modify r f).isActive r' = heap.isActive r' := by
  simp [Heap.isActive, Heap.modify, h]

theorem noMore_modify {f : Session → Session} (hnames : s.heap.SameNames (s.heap.modify r f))
    (hactive : (f (s.heap r)).state = .active → s.heap.isActive r = true) (lock : ManagerLock) :
    NoMore s { s with heap := s.heap.modify r f, lock := lock } := by
  refine ⟨rfl, fun _ => .refl _, hnames, fun r' hr' => ?_⟩
  by_cases h : r' = r
  · subst h
    exact hactive (by simpa [Heap.isActive, Heap.modify] using hr')
  · rwa [isActive_modify_ne h] at hr'

theorem forToken_drop_sublist (sm : SessionManager) (heap : Heap) (id : SessionId) (r : SessionRef)
    (token : List Char) : ((sm.drop heap id r).forToken token).Sublist (sm.forToken token) := by
  rw [SessionManager.forToken_drop]
  split
  · exact List.filter_sublist
  · exact .refl _

theorem noMore_drop (s : SharedManager) (id : SessionId) (r : SessionRef) (lock : ManagerLock) :
    NoMore s { s with manager := s.manager.drop s.heap id r, lock := lock } :=
  ⟨rfl, fun token => forToken_drop_sublist _ _ _ _ token, .refl _, fun _ h => h⟩

theorem noMore_lock (s : SharedManager) (lock : ManagerLock) : NoMore s { s with lock := lock } :=
  ⟨rfl, fun _ => .refl _, .refl _, fun _ => id⟩

theorem noMore_step (s : SharedManager) (hact : ¬ Raises act) : NoMore s (s.step act) := by
  cases act with
  | setState r state =>
    refine noMore_modify (Heap.sameNames_modify rfl rfl) (fun hstate => ?_) s.lock
    change state = .active at hstate
    subst hstate
    exact (hact trivial).elim
  | finishAdd => exact (hact trivial).elim
  | touch r now =>
    refine noMore_modify (Heap.sameNames_modify rfl rfl) (fun hstate => ?_) s.lock
    exact decide_eq_true hstate
  | remove id =>
    simp only [step]
    split
    · unfold SessionManager.remove
      split
      · exact noMore_lock s s.lock
      · next r _ => exact noMore_drop s id r s.lock
    · exact noMore_lock s s.lock
  | close =>
    simp only [step]
    split
    · split
      · exact noMore_lock s _
      · exact noMore_modify (Heap.sameNames_modify rfl rfl) (fun hstate => by cases hstate) _
    · exact noMore_lock s s.lock
  | drop =>
    simp only [step]
    split
    · exact noMore_drop s _ _ _
    · exact noMore_lock s s.lock
  | _ =>
    -- the others move the lock alone
    simp only [step]
    repeat' split
    all_goals exact noMore_lock s _

/-! The two steps that may raise a count. -/

theorem isActive_setState (state : SessionState) :
    (heap.modify r (·.setState state)).isActive r = decide (state = .active) := by
  simp [Heap.isActive, Heap.modify, Session.setState]

/-- A session that is made active adds its entries. -/
theorem countP_setState_active (h : heap.isActive r = false) (l : List SessionRef) :
    l.countP (heap.modify r (·.setState .active)).isActive = l.countP heap.isActive + l.count r := by
  induction l with
  | nil => rfl
  | cons r' l ih =>
    by_cases hr : r' = r
    · subst hr
      simp only [List.countP_cons, ih, isActive_setState, h, List.count_cons_self, decide_true]
      simp
      omega
    · simp only [List.countP_cons, ih, isActive_modify_ne hr, List.count_cons_of_ne hr]
      omega

theorem within_setState_iff (hown : s.Own) (hw : s.Within) (r : SessionRef) (state : SessionState) :
    (s.step (.setState r state)).Within ↔ s.HasRoom (.setState r state) := by
  by_cases hraises : state = .active ∧ s.heap.isActive r = false
  · obtain ⟨rfl, hnot⟩ := hraises
    have hcount : ∀ token, (s.step (.setState r .active)).manager.countByToken
        (s.step (.setState r .active)).heap token =
          s.manager.countByToken s.heap token + (s.manager.forToken token).count r :=
      fun token => countP_setState_active hnot _
    constructor
    · intro h _ htoken
      have hlimit := h (s.heap r).authToken htoken
      rw [hcount] at hlimit
      exact_mod_cast hlimit
    · intro hroom token htoken
      rw [hcount]
      by_cases ht : (s.heap r).authToken = token
      · subst ht
        exact_mod_cast hroom hnot htoken
      · have hnone : (s.manager.forToken token).count r = 0 := by
          rw [List.count_eq_zero]
          exact fun hmem => ht (hown token r hmem)
        rw [hnone]
        exact hw token htoken
  · have hactive : state = .active → s.heap.isActive r = true := by
      intro hstate
      cases h : s.heap.isActive r with
      | true => rfl
      | false => exact (hraises ⟨hstate, h⟩).elim
    refine iff_of_true ((noMore_modify (Heap.sameNames_modify rfl rfl) hactive s.lock).within hw) ?_
    cases state with
    | active => exact fun hnot => (hraises ⟨rfl, hnot⟩).elim
    | _ => trivial

theorem within_finishAdd_iff (hmax : 0 < s.manager.maxPerToken) (hw : s.Within) :
    (s.step .finishAdd).Within ↔ s.HasRoom .finishAdd := by
  cases hlock : s.lock with
  | adding r unread active =>
    cases unread with
    | cons es unread => simp only [step, HasRoom, hlock, hw]
    | nil =>
      by_cases hlimit : Limited s.manager s.heap r ∧ s.manager.maxPerToken ≤ active
      · have hs : s.step .finishAdd = { s with lock := .free } := by
          simp only [step, hlock, if_pos hlimit]
        rw [hs]
        refine iff_of_true ((noMore_lock s .free).within hw) ?_
        simp only [HasRoom, hlock]
        intro _ _ hlt
        omega
      · have hs : s.step .finishAdd =
            { s with manager := s.manager.insert s.heap r, lock := .free } := by
          simp only [step, hlock, if_neg hlimit]
        have hsame : (s.manager.insert s.heap r).maxPerToken = s.manager.maxPerToken := rfl
        rw [hs]
        simp only [HasRoom, hlock]
        constructor
        · intro h hactive htoken _
          have hlimit' := h (s.heap r).authToken htoken
          rw [SessionManager.countByToken_insert, if_pos ⟨rfl, htoken, hactive⟩, hsame] at hlimit'
          omega
        · intro hroom token htoken
          rw [SessionManager.countByToken_insert, hsame]
          split
          · next hnew =>
            obtain ⟨rfl, -, hactive⟩ := hnew
            have hlt : (active : Int) < s.manager.maxPerToken := by
              by_contra hge
              exact hlimit ⟨⟨htoken, hmax⟩, not_lt.mp hge⟩
            have := hroom hactive htoken hlt
            omega
          · exact hw token htoken
  | _ => simp only [step, HasRoom, hlock, hw]

/-! One step. -/

/-- With room for it, the step keeps every token within the limit, and without room it does not. -/
theorem within_step_iff (hmax : 0 < s.manager.maxPerToken) (hown : s.Own) (hw : s.Within) :
    (s.step act).Within ↔ s.HasRoom act := by
  cases act with
  | setState r state => exact within_setState_iff hown hw r state
  | finishAdd => exact within_finishAdd_iff hmax hw
  | _ => exact iff_of_true ((noMore_step s id).within hw) trivial

theorem own_step (h : s.Own) (act : ManagerAct) : (s.step act).Own := by
  cases act with
  | setState r state => exact h.of_sublist (fun _ => .refl _) (Heap.sameNames_modify rfl rfl)
  | finishAdd =>
    simp only [step]
    split
    · split
      · exact h
      · intro token r' hr'
        rw [SessionManager.forToken_insert] at hr'
        split at hr'
        · next htoken =>
          rcases List.mem_append.mp hr' with hr' | hr'
          · exact h token r' hr'
          · rw [List.mem_singleton.mp hr', htoken.1]
        · exact h token r' hr'
    · exact h
  | _ => exact h.of_sublist (noMore_step s id).sessions (noMore_step s id).names

theorem maxPerToken_step (s : SharedManager) (act : ManagerAct) :
    (s.step act).manager.maxPerToken = s.manager.maxPerToken := by
  cases act with
  | setState r state => rfl
  | finishAdd =>
    simp only [step]
    repeat' split
    all_goals rfl
  | _ => exact (noMore_step s id).maxPerToken

/-- The limit is kept in exactly the runs in which every session that becomes active in the manager,
or comes to it active, finds room. -/
theorem limit_kept_iff (heap : Heap) (maxPerToken : Int) (hmax : 0 < maxPerToken) (acts : List ManagerAct) :
    (∀ acts', acts' <+: acts → (after step (start heap maxPerToken) acts').Within) ↔
      Along step HasRoom (start heap maxPerToken) acts := by
  refine along_iff_prefixes (J := fun s => s.manager.maxPerToken = maxPerToken ∧ s.Own) ?_ ?_ ?_ ?_
  · rintro s act ⟨hs, hown⟩ hw
    exact within_step_iff (by rw [hs]; exact hmax) hown hw
  · rintro s act ⟨hs, hown⟩
    exact ⟨(maxPerToken_step s act).trans hs, own_step hown act⟩
  · refine ⟨rfl, fun token r hr => ?_⟩
    cases hr
  · intro token _
    exact Int.le_of_lt hmax

/-- A limit of one, and a session that is added new and then becomes active. -/
theorem limit_kept_iff_sample : (after step (start Tracked.sampleHeap 1)
    [.lockAdd 0, .finishAdd, .setState 0 .active]).Within :=
  (limit_kept_iff Tracked.sampleHeap 1 (by decide) [.lockAdd 0, .finishAdd, .setState 0 .active]).mpr
    ⟨trivial, fun h => (by cases h), fun _ _ => by decide, trivial⟩ _ (List.prefix_refl _)

/-- Two new sessions of a token with a limit of one come to the manager, as `Add` counts the active
ones, and both are activated then. -/
theorem not_limit_kept : ¬ ∀ (heap : Heap) (maxPerToken : Int) (acts : List ManagerAct), 0 < maxPerToken →
    (after step (start heap maxPerToken) acts).Within := by
  intro h
  have hlimit := h Tracked.sampleHeap 1
    [.lockAdd 0, .finishAdd, .lockAdd 1, .readState, .finishAdd, .setState 0 .active, .setState 1 .active]
    (by decide) ['t'] (by decide)
  exact absurd hlimit (by decide)

end SharedManager

end SshPanelVpn.ShadowLink.Protocol

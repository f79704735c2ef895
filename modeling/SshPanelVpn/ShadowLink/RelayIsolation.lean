import SshPanelVpn.ShadowLink.Relay

/-! A session of a `ServerRelay` behaves as if it were alone: what it does is a step of its own
view, and the steps of the others leave that view as it is. -/
namespace SshPanelVpn.ShadowLink

open Octets Runs

/-- What belongs to one session: its goroutines, its connections and its entry in `streams`. -/
structure SessionView extends RelaySession where
  streams : Option StreamMap

namespace SessionView

def initial : SessionView := ⟨.initial, none⟩

def map (v : SessionView) (f : RelaySession → RelaySession) : SessionView :=
  ⟨f v.toRelaySession, v.streams⟩

def setStreams (v : SessionView) (streams : Option StreamMap) : SessionView :=
  ⟨v.toRelaySession, streams⟩

def insertStream (v : SessionView) (streamID : UInt32) (conn : ConnRef) : SessionView :=
  v.setStreams (some ((v.streams.getD ∅).insert streamID conn))

def lookupStream (v : SessionView) (streamID : UInt32) : Option ConnRef :=
  v.streams.bind (·.lookup streamID)

def closeStream (v : SessionView) (streamID : UInt32) : SessionView :=
  match v.streams with
  | none => v
  | some streams =>
    match streams.lookup streamID with
    | none => v
    | some conn => (v.map (·.closeConn conn.index)).setStreams (some (streams.erase streamID))

def held (v : SessionView) : List ConnRef := (v.streams.getD ∅).entries.map Sigma.snd

def closeAll (v : SessionView) (order : List ConnRef) : SessionView :=
  order.foldl (fun v conn => v.map (·.closeConn conn.index)) v

end SessionView

/-- The session `sid` on its own. -/
inductive SessionStep (sid : SessionId) : SessionView → RelayAct → SessionView → Prop where
  | establish {v : SessionView} (hpc : v.loop = .handshaking) :
      SessionStep sid v .establish ((v.setStreams (some ∅)).map (·.goto .reading))
  | frame {v : SessionView} {f : Option Frame} (hpc : v.loop = .reading) :
      SessionStep sid v (.frame f) (v.map (·.receive f))
  | dial {v : SessionView} {id : UInt32} {network addr : Bytes} {ok : Bool}
      (hpc : v.loop = .acting (.connect id network addr)) :
      SessionStep sid v (.dial ok) (v.map (·.dial sid id network addr ok))
  | insert {v : SessionView} {id : UInt32} {conn : ConnRef} (hpc : v.loop = .inserting id conn) :
      SessionStep sid v .insert
        (((v.insertStream id conn).map (·.update conn.index (Upstream.goto · .reading))).map
          (·.goto .reading))
  | lookup {v : SessionView} {id : UInt32} {data : Bytes}
      (hpc : v.loop = .acting (.writeStream id data)) :
      SessionStep sid v .lookup
        (v.map (·.goto (.ofLookup data (v.lookupStream id))))
  | write {v : SessionView} {conn : ConnRef} {data : Bytes} {n : Nat} {c : Upstream}
      (hpc : v.loop = .writing conn data) (hc : v.conns[conn.index]? = some c)
      (hn : n ≤ data.length) (hclosed : c.closed = true → n = 0) :
      SessionStep sid v (.write n)
        ((v.map (·.writeConn conn.index data n)).map (·.goto .reading))
  | close {v : SessionView} {id : UInt32} (hpc : v.loop = .acting (.closeStream id)) :
      SessionStep sid v .close ((v.closeStream id).map (·.goto .reading))
  | cleanup {v : SessionView} {order : List ConnRef} (hpc : v.loop = .cleanup)
      (horder : order.Perm v.held) :
      SessionStep sid v (.cleanup order)
        (((v.closeAll order).setStreams none).map (·.goto .ended))
  | read {v : SessionView} {i : Nat} {data : Bytes} {ended : Bool} {c : Upstream}
      (hc : v.conns[i]? = some c) (hpc : c.pc = .reading) (hn : data.length ≤ relayBufSize)
      (hclosed : c.closed = true → data = [] ∧ ended = true) :
      SessionStep sid v (.read i data ended) (v.map (·.update i (Upstream.took · data ended)))
  | send {v : SessionView} {i : Nat} {ok : Bool} {c : Upstream} {buf : Bytes} {ended : Bool}
      (hc : v.conns[i]? = some c) (hpc : c.pc = .sending buf ended) :
      SessionStep sid v (.send i ok) (v.map (·.send i c.streamID buf ended ok))
  | finish {v : SessionView} {i : Nat} {c : Upstream} (hc : v.conns[i]? = some c)
      (hpc : c.pc = .closing) :
      SessionStep sid v (.finish i)
        ((v.closeStream c.streamID).map (·.update i (Upstream.goto · .ended)))

variable {sr sr' s t : ServerRelay} {v v' w : SessionView} {sid a b : SessionId} {act : RelayAct}
  {conn : ConnRef} {id : UInt32} {f : RelaySession → RelaySession}

/-- The label fixes the next view. -/
theorem SessionStep.unique (h : SessionStep sid v act v') (h' : SessionStep sid v act w) :
    v' = w := by
  cases h <;> cases h' <;> simp_all

namespace SessionView

@[simp] theorem map_toRelaySession : (v.map f).toRelaySession = f v.toRelaySession := rfl
@[simp] theorem map_streams : (v.map f).streams = v.streams := rfl
@[simp] theorem setStreams_toRelaySession {m : Option StreamMap} :
    (v.setStreams m).toRelaySession = v.toRelaySession := rfl
@[simp] theorem setStreams_streams {m : Option StreamMap} : (v.setStreams m).streams = m := rfl

@[simp] theorem lookupStream_map : (v.map f).lookupStream id = v.lookupStream id := rfl

@[simp] theorem lookupStream_none : (v.setStreams none).lookupStream id = none := rfl

@[simp] theorem lookupStream_empty : (v.setStreams (some ∅)).lookupStream id = none := rfl

theorem lookupStream_insertStream {id' : UInt32} : (v.insertStream id conn).lookupStream id' =
    if id' = id then some conn else v.lookupStream id' := by
  unfold insertStream lookupStream
  by_cases h : id' = id
  · subst h
    simp
  · cases v.streams with
    | none =>
      have hs : (∅ : StreamMap).lookup id' = none := rfl
      simpa [h] using (AList.lookup_insert_ne h).trans hs
    | some m => simp [h]

theorem closeStream_of_none (h : v.lookupStream id = none) : v.closeStream id = v := by
  unfold lookupStream at h
  unfold closeStream
  cases hm : v.streams with
  | none => rfl
  | some m => simp_all

theorem closeStream_of_some (h : v.lookupStream id = some conn) :
    (v.closeStream id).toRelaySession = v.toRelaySession.closeConn conn.index ∧
      ∀ id', (v.closeStream id).lookupStream id' =
        if id' = id then none else v.lookupStream id' := by
  unfold lookupStream at h
  cases hm : v.streams with
  | none => simp [hm] at h
  | some m =>
    have hl : m.lookup id = some conn := by simpa [hm] using h
    refine ⟨by simp [closeStream, hm, hl], fun id' => ?_⟩
    by_cases hid : id' = id
    · subst hid
      simp [closeStream, hm, hl, lookupStream]
    · simp [closeStream, hm, hl, lookupStream, hid]

@[simp] theorem closeStream_loop : (v.closeStream id).loop = v.loop := by
  cases hl : v.lookupStream id with
  | none => rw [closeStream_of_none hl]
  | some conn => rw [(closeStream_of_some hl).1, RelaySession.closeConn_loop]

@[simp] theorem closeStream_received : (v.closeStream id).received = v.received := by
  cases hl : v.lookupStream id with
  | none => rw [closeStream_of_none hl]
  | some conn => rw [(closeStream_of_some hl).1, RelaySession.closeConn_received]

@[simp] theorem closeStream_sent : (v.closeStream id).sent = v.sent := by
  cases hl : v.lookupStream id with
  | none => rw [closeStream_of_none hl]
  | some conn => rw [(closeStream_of_some hl).1, RelaySession.closeConn_sent]

theorem lookupStream_of_closeStream {id' : UInt32}
    (h : (v.closeStream id).lookupStream id' = some conn) : v.lookupStream id' = some conn := by
  cases hl : v.lookupStream id with
  | none => rwa [closeStream_of_none hl] at h
  | some c =>
    rw [(closeStream_of_some hl).2] at h
    split at h
    · cases h
    · exact h

theorem mem_held : conn ∈ v.held ↔ ∃ id, v.lookupStream id = some conn := by
  unfold held lookupStream
  cases v.streams with
  | none => simp
  | some m =>
    constructor
    · intro h
      obtain ⟨⟨id, c⟩, hmem, rfl⟩ := List.mem_map.mp h
      exact ⟨id, AList.mem_lookup_iff.mpr hmem⟩
    · rintro ⟨id, h⟩
      exact List.mem_map.mpr ⟨⟨id, conn⟩, AList.mem_lookup_iff.mp h, rfl⟩

/-- The map entries of the session, and what its loop holds on to, are its own connections. -/
structure Own (sid : SessionId) (v : SessionView) : Prop where
  map : ∀ {id conn}, v.lookupStream id = some conn → conn.session = sid
  loop : ∀ {conn}, v.loop.conn? = some conn → conn.session = sid

theorem Own.held (ho : v.Own sid) (h : conn ∈ v.held) : conn.session = sid := by
  obtain ⟨id, hid⟩ := mem_held.mp h
  exact ho.map hid

end SessionView

namespace ServerRelay

def view (sr : ServerRelay) (sid : SessionId) : SessionView := ⟨sr.sessions sid, sr.streams sid⟩

@[simp] theorem view_lookupStream :
    (sr.view sid).lookupStream id = sr.lookupStream sid id := rfl

@[simp] theorem view_initial : initial.view sid = .initial := rfl

@[simp] theorem view_modify_self : (sr.modify sid f).view sid = (sr.view sid).map f := by
  simp [view, modify, SessionView.map]

theorem view_modify_other (h : b ≠ sid) : (sr.modify sid f).view b = sr.view b := by
  simp [view, modify, h]

@[simp] theorem view_setStreams_self {m : Option StreamMap} :
    (sr.setStreams sid m).view sid = (sr.view sid).setStreams m := by
  simp [view, setStreams, SessionView.setStreams]

theorem view_setStreams_other {m : Option StreamMap} (h : b ≠ sid) :
    (sr.setStreams sid m).view b = sr.view b := by
  simp [view, setStreams, h]

@[simp] theorem view_insertStream_self :
    (sr.insertStream sid id conn).view sid = (sr.view sid).insertStream id conn := by
  rw [insertStream, view_setStreams_self]
  rfl

theorem view_closeConn_self (h : conn.session = sid) :
    (sr.closeConn conn).view sid = (sr.view sid).map (·.closeConn conn.index) := by
  subst h
  exact view_modify_self

theorem view_closeConn_other (h : conn.session = sid) (hb : b ≠ sid) :
    (sr.closeConn conn).view b = sr.view b := by
  subst h
  exact view_modify_other hb

theorem view_closeAll_self {order : List ConnRef} (h : ∀ conn ∈ order, conn.session = sid) :
    (order.foldl closeConn sr).view sid = (sr.view sid).closeAll order := by
  induction order generalizing sr with
  | nil => rfl
  | cons conn order ih =>
    rw [List.foldl_cons, ih fun c hc => h c (.tail _ hc), view_closeConn_self (h conn (.head _))]
    rfl

theorem view_closeAll_other {order : List ConnRef} (h : ∀ conn ∈ order, conn.session = sid)
    (hb : b ≠ sid) : (order.foldl closeConn sr).view b = sr.view b := by
  induction order generalizing sr with
  | nil => rfl
  | cons conn order ih =>
    rw [List.foldl_cons, ih fun c hc => h c (.tail _ hc),
      view_closeConn_other (h conn (.head _)) hb]

/-- No session holds a connection of another. -/
def OwnRefs (sr : ServerRelay) : Prop := ∀ sid, (sr.view sid).Own sid

theorem ownRefs_initial : OwnRefs initial := by
  intro sid
  exact ⟨fun h => by simp [SessionView.lookupStream, SessionView.initial] at h,
    fun h => by simp [SessionView.initial, RelaySession.initial, LoopPc.conn?] at h⟩

theorem closeStream_view_self (ho : OwnRefs sr) :
    (sr.closeStream sid id).view sid = (sr.view sid).closeStream id := by
  unfold closeStream SessionView.closeStream
  have hstreams : (sr.view sid).streams = sr.streams sid := rfl
  rw [hstreams]
  cases hm : sr.streams sid with
  | none => rfl
  | some m =>
    cases hl : m.lookup id with
    | none => simp [hl]
    | some conn =>
      have hlookup : (sr.view sid).lookupStream id = some conn := by
        simp [SessionView.lookupStream, hstreams, hm, hl]
      have hown : conn.session = sid := (ho sid).map hlookup
      simp [hl, view_closeConn_self hown]

theorem closeStream_view_other (ho : OwnRefs sr) (hb : b ≠ sid) :
    (sr.closeStream sid id).view b = sr.view b := by
  unfold closeStream
  cases hm : sr.streams sid with
  | none => rfl
  | some m =>
    cases hl : m.lookup id with
    | none => simp [hl]
    | some conn =>
      have hlookup : (sr.view sid).lookupStream id = some conn := by
        simp [SessionView.lookupStream, view, hm, hl]
      have hown : conn.session = sid := (ho sid).map hlookup
      simp [hl, view_setStreams_other hb, view_closeConn_other hown hb]

/-- A step of a session is a step of its view. -/
theorem step_view (ho : OwnRefs s) (h : RelayStep s (sid, act) t) :
    SessionStep sid (s.view sid) act (t.view sid) := by
  cases h with
  | establish hpc => simpa using SessionStep.establish hpc
  | frame hpc => simpa using SessionStep.frame hpc
  | dial hpc => simpa using SessionStep.dial hpc
  | @insert _ id conn hpc =>
    have hown : conn.session = sid := (ho sid).loop (by simp [view, hpc, LoopPc.conn?])
    subst hown
    simpa using SessionStep.insert (v := s.view _) hpc
  | lookup hpc => simpa using SessionStep.lookup (v := s.view _) hpc
  | @write _ conn data n c hpc hc hn hclosed =>
    have hown : conn.session = sid := (ho sid).loop (by simp [view, hpc, LoopPc.conn?])
    subst hown
    simpa using SessionStep.write (v := s.view _) hpc hc hn hclosed
  | close hpc =>
    simpa [closeStream_view_self ho] using SessionStep.close (v := s.view _) hpc
  | @cleanup _ order hpc horder =>
    have hown : ∀ conn ∈ order, conn.session = sid := by
      intro conn hconn
      exact (ho sid).held (horder.mem_iff.mp hconn)
    simpa [cleanupSession, view_closeAll_self hown] using
      SessionStep.cleanup (v := s.view _) hpc horder
  | read hc hpc hn hclosed => simpa using SessionStep.read (v := s.view _) hc hpc hn hclosed
  | send hc hpc => simpa using SessionStep.send (v := s.view _) hc hpc
  | finish hc hpc =>
    simpa [closeStream_view_self ho] using SessionStep.finish (v := s.view _) hc hpc

/-- The other sessions do not see it. -/
theorem step_other (ho : OwnRefs s) (h : RelayStep s (sid, act) t) (hb : b ≠ sid) :
    t.view b = s.view b := by
  cases h with
  | establish => rw [view_modify_other hb, view_setStreams_other hb]
  | frame => exact view_modify_other hb
  | dial => exact view_modify_other hb
  | @insert _ id conn hpc =>
    have hown : conn.session = sid := (ho sid).loop (by simp [view, hpc, LoopPc.conn?])
    rw [view_modify_other hb, hown, view_modify_other hb, insertStream, view_setStreams_other hb]
  | lookup => exact view_modify_other hb
  | @write _ conn data n c hpc =>
    have hown : conn.session = sid := (ho sid).loop (by simp [view, hpc, LoopPc.conn?])
    rw [view_modify_other hb, hown, view_modify_other hb]
  | close => rw [view_modify_other hb, closeStream_view_other ho hb]
  | @cleanup _ order hpc horder =>
    have hown : ∀ conn ∈ order, conn.session = sid := by
      intro conn hconn
      exact (ho sid).held (horder.mem_iff.mp hconn)
    rw [view_modify_other hb, cleanupSession, view_setStreams_other hb,
      view_closeAll_other hown hb]
  | read => exact view_modify_other hb
  | send => exact view_modify_other hb
  | finish => rw [view_modify_other hb, closeStream_view_other ho hb]

/-- Dialing and a look into the map are what gives a session a connection to hold on to. -/
theorem own_step (h : SessionStep sid v act v') (ho : v.Own sid) : v'.Own sid := by
  cases hs : h with
  | establish => exact ⟨fun h => by simp at h, fun h => by simp at h⟩
  | @frame f hpc =>
    refine ⟨fun h => ho.map (by simpa using h), fun h => ?_⟩
    cases f with
    | none => simp [RelaySession.receive] at h
    | some f => cases ht : relaySwitch f <;> simp [RelaySession.receive, ht] at h
  | @dial _ _ _ ok =>
    refine ⟨fun h => ho.map (by simpa using h), fun h => ?_⟩
    cases ok with
    | false => simp [RelaySession.dial] at h
    | true =>
      simp only [SessionView.map_toRelaySession, RelaySession.dial, LoopPc.conn?,
        Option.some.injEq] at h
      rw [← h]
  | @insert id conn hpc =>
    have hconn : conn.session = sid := ho.loop (by simp [hpc])
    refine ⟨fun {id' c} h => ?_, fun h => by simp at h⟩
    simp only [SessionView.lookupStream_map, SessionView.lookupStream_insertStream] at h
    split at h
    · cases h
      exact hconn
    · exact ho.map h
  | @lookup id data hpc =>
    refine ⟨fun h => ho.map (by simpa using h), fun h => ?_⟩
    cases hl : v.lookupStream id with
    | none => simp [hl] at h
    | some conn =>
      simp only [SessionView.map_toRelaySession, RelaySession.goto_loop, LoopPc.ofLookup,
        LoopPc.conn?, hl, Option.some.injEq] at h
      rw [← h]
      exact ho.map hl
  | write => exact ⟨fun h => ho.map (by simpa using h), fun h => by simp at h⟩
  | close =>
    exact ⟨fun h => ho.map (SessionView.lookupStream_of_closeStream h), fun h => by simp at h⟩
  | cleanup => exact ⟨fun h => by simp at h, fun h => by simp at h⟩
  | read => exact ⟨fun h => ho.map (by simpa using h), fun h => ho.loop (by simpa using h)⟩
  | send => exact ⟨fun h => ho.map (by simpa using h), fun h => ho.loop (by simpa using h)⟩
  | finish =>
    exact ⟨fun h => ho.map (SessionView.lookupStream_of_closeStream h),
      fun h => ho.loop (by simpa using h)⟩

theorem ownRefs_stable : Stable RelayStep OwnRefs := by
  rintro s ⟨sid, act⟩ t h ho b
  by_cases hb : b = sid
  · subst hb
    exact own_step (step_view ho h) (ho b)
  · rw [step_other ho h hb]
    exact ho b

/-- A session observes its own steps only. -/
theorem unwinding (b : SessionId) :
    Unwinding RelayStep OwnRefs (fun sr => sr.view b) (fun label => decide (label.1 = b)) where
  stable := ownRefs_stable
  other := by
    rintro s ⟨sid, act⟩ t ho hb h
    exact step_other ho h (fun hsid => by simp [hsid] at hb)
  own := by
    rintro s s' ⟨sid, act⟩ t t' ho ho' hb hview h h'
    obtain rfl : sid = b := by simpa using hb
    have hs := step_view ho h
    have hv : s.view sid = s'.view sid := hview
    rw [hv] at hs
    exact hs.unique (step_view ho' h')

/-- The steps of one session in a run. -/
def stepsOf (b : SessionId) (labels : List (SessionId × RelayAct)) : List (SessionId × RelayAct) :=
  labels.filter fun label => decide (label.1 = b)

/-- In two runs with the same steps of `b`, whatever the other sessions do and when, the same is
done on the connections of `b` in the same order and the same frames are sent back to it. -/
theorem session_isolated {as as' : List (SessionId × RelayAct)} (h : Run RelayStep initial as s)
    (h' : Run RelayStep initial as' t) (hsame : stepsOf b as = stepsOf b as') :
    (s.sessions b).events = (t.sessions b).events ∧ (s.sessions b).sent = (t.sessions b).sent := by
  have hview : s.view b = t.view b :=
    (unwinding b).noninterference h h' ownRefs_initial ownRefs_initial rfl hsame
  have hsessions : s.sessions b = t.sessions b := congrArg SessionView.toRelaySession hview
  rw [hsessions]
  exact ⟨rfl, rfl⟩

/-- `tcp|h` for stream 5. -/
def controlFive : Frame := newControlFrame [0, 0, 0, 5, 0x74, 0x63, 0x70, 0x7c, 0x68]

/-- A session that connects stream 5, a byte read from upstream and sent on. -/
def aloneLabels : List (SessionId × RelayAct) :=
  [(['b'], .establish), (['b'], .frame (some controlFive)), (['b'], .dial true), (['b'], .insert),
    (['b'], .read 0 [7] false), (['b'], .send 0 true)]

/-- The same, with another session that uses the same stream id and closes it. -/
def crowdedLabels : List (SessionId × RelayAct) :=
  [(['a'], .establish), (['b'], .establish), (['a'], .frame (some controlFive)),
    (['b'], .frame (some controlFive)), (['b'], .dial true), (['a'], .dial true), (['a'], .insert),
    (['b'], .insert), (['b'], .read 0 [7] false),
    (['a'], .frame (some ⟨frameClose, [0, 0, 0, 5]⟩)), (['a'], .close), (['b'], .send 0 true)]

theorem session_isolated_crowded : ∃ s t, Run RelayStep initial aloneLabels s ∧
    Run RelayStep initial crowdedLabels t ∧
    (s.sessions ['b']).events = (t.sessions ['b']).events ∧
    (s.sessions ['b']).sent = (t.sessions ['b']).sent := by
  have hs : ∃ s, Run RelayStep initial aloneLabels s :=
    ⟨_, .step (.establish rfl) <| .step (.frame rfl) <| .step (.dial rfl) <| .step (.insert rfl) <|
      .step (.read rfl rfl (by decide) (by decide)) <| .step (.send rfl rfl) <| .refl _⟩
  have ht : ∃ t, Run RelayStep initial crowdedLabels t :=
    ⟨_, .step (.establish rfl) <| .step (.establish rfl) <| .step (.frame rfl) <|
      .step (.frame rfl) <| .step (.dial rfl) <| .step (.dial rfl) <| .step (.insert rfl) <|
      .step (.insert rfl) <| .step (.read rfl rfl (by decide) (by decide)) <|
      .step (.frame rfl) <| .step (.close rfl) <| .step (.send rfl rfl) <| .refl _⟩
  obtain ⟨s, hs⟩ := hs
  obtain ⟨t, ht⟩ := ht
  exact ⟨s, t, hs, ht, session_isolated hs ht rfl⟩

end ServerRelay

end SshPanelVpn.ShadowLink

import SshPanelVpn.ShadowLink.SocksExchange

/-! Where the bytes of a SOCKS5 connection go and which ones come back, whatever ends or fails. -/
namespace SshPanelVpn.ShadowLink

open Octets Runs Indexed

variable {me sid : SessionId} {c c' : Client} {a : ClientAct} {k i : Nat} {v v' : SessionView}
  {act : RelayAct} {id : UInt32} {network addr : Bytes} {l l' : Link} {label : LinkAct}

/-! The server dials where the streams of its client ask it to. -/

/-- Every control frame that has gone out is that of a stream. -/
def Client.Asks (c : Client) : Prop :=
  ∀ f ∈ c.sent, ∀ id, f.opens id →
    ∃ (k : Nat) (s : TunnelStream), c.streams[k]? = some s ∧ f = s.controlFrame

/-- A stream keeps its number and its target. -/
theorem Client.target_step {s : TunnelStream} (h : ClientStep c a c') (hs : c.streams[k]? = some s) :
    ∃ s', c'.streams[k]? = some s' ∧ s'.id = s.id ∧ s'.network = s.network ∧ s'.addr = s.addr := by
  have hmodify : ∀ (j : Nat) (f : TunnelStream → TunnelStream),
      (∀ u, (f u).id = u.id ∧ (f u).network = u.network ∧ (f u).addr = u.addr) →
      ∃ s', (c.streams.modify j f)[k]? = some s' ∧ s'.id = s.id ∧ s'.network = s.network ∧
        s'.addr = s.addr := by
    intro j f hf
    refine ⟨_, getElem?_modify_of_some hs, ?_⟩
    split
    · exact hf s
    · exact ⟨rfl, rfl, rfl⟩
  cases h with
  | dial => exact ⟨s, getElem?_append_of_some hs, rfl, rfl, rfl⟩
  | control | data | write | delete | announce | closeReader =>
    simp only [Client.update_streams, Client.send_streams, Client.delete_streams]
    exact hmodify _ _ fun _ => ⟨rfl, rfl, rfl⟩
  | read => exact hmodify _ _ fun _ => ⟨rfl, rfl, rfl⟩
  | _ => exact ⟨s, by simpa using hs, rfl, rfl, rfl⟩

theorem Client.asks_step (h : ClientStep c a c') (hc : c.Asks) : c'.Asks := by
  have hkeep : ∀ {k : Nat} {s : TunnelStream}, c.streams[k]? = some s →
      ∃ (k : Nat) (s' : TunnelStream), c'.streams[k]? = some s' ∧ s.controlFrame = s'.controlFrame := by
    intro k s hs
    obtain ⟨s', hs', hid, hnetwork, haddr⟩ := Client.target_step h hs
    exact ⟨k, s', hs', by simp only [TunnelStream.controlFrame, hid, hnetwork, haddr]⟩
  have hold : ∀ f ∈ c.sent, ∀ id, f.opens id →
      ∃ (k : Nat) (s : TunnelStream), c'.streams[k]? = some s ∧ f = s.controlFrame := by
    intro f hf id ho
    obtain ⟨k, s, hs, rfl⟩ := hc f hf id ho
    exact hkeep hs
  have hsend : ∀ f ok, c'.sent = (c.send f ok).sent → (∀ id, f.opens id →
      ∃ (k : Nat) (s : TunnelStream), c.streams[k]? = some s ∧ f = s.controlFrame) → c'.Asks := by
    intro f ok hsent hf g hg id ho
    rw [hsent] at hg
    cases ok with
    | false => exact hold g hg id ho
    | true =>
      rcases List.mem_append.mp hg with hg | hg
      · exact hold g hg id ho
      · obtain rfl := List.mem_singleton.mp hg
        obtain ⟨k, s, hs, rfl⟩ := hf id ho
        exact hkeep hs
  have hother : ∀ {f : Frame} (ok : Bool), c'.sent = (c.send f ok).sent →
      (∀ id network addr, relaySwitch f ≠ .act (.connect id network addr)) → c'.Asks := by
    intro f ok hsent hf
    refine hsend f ok hsent fun id ho => ?_
    obtain ⟨network, addr, ho⟩ := ho
    exact (hf id network addr ho).elim
  cases h with
  | @control k ok s hs => exact hsend s.controlFrame ok rfl fun _ _ => ⟨k, s, hs, rfl⟩
  | @data k ok s p hs =>
    refine hother (f := s.dataFrame p) ok rfl fun _ _ _ he => ?_
    rw [s.relaySwitch_dataFrame p] at he
    cases he
  | @announce k ok s hs =>
    refine hother (f := s.closeFrame) ok rfl fun _ _ _ he => ?_
    cases (show relaySwitch s.closeFrame = _ from s.closeFrame_closes).symm.trans he
  | @keepalive padding ok =>
    refine hother (f := ⟨frameKeepalive, padding⟩) ok rfl fun _ _ _ he => ?_
    rw [relaySwitch_keepalive] at he
    cases he
  | @shutdown ok =>
    refine hother (f := newCloseFrame) ok rfl fun _ _ _ he => ?_
    rw [relaySwitch_newCloseFrame] at he
    cases he
  | frame =>
    intro f hf
    rw [Client.receive_sent] at hf
    exact hold f hf
  | _ => exact hold

/-- For which stream and to where the connection was dialed. -/
def Upstream.target (c : Upstream) : UInt32 × Bytes × Bytes := (c.streamID, c.network, c.addr)

/-- What is dialed was asked for in a frame. -/
structure SessionView.Targets (v : SessionView) : Prop where
  connecting : ∀ {id network addr}, v.loop = .acting (.connect id network addr) →
    ∃ f ∈ v.received, relaySwitch f = .act (.connect id network addr)
  dialed : ∀ t ∈ v.conns.map Upstream.target,
    ∃ f ∈ v.received, relaySwitch f = .act (.connect t.1 t.2.1 t.2.2)

theorem SessionView.targets_initial : SessionView.initial.Targets where
  connecting h := by cases h
  dialed t h := by cases h

theorem SessionView.target_closeStream (v : SessionView) (id : UInt32) :
    (v.closeStream id).conns.map Upstream.target = v.conns.map Upstream.target := by
  cases hl : v.lookupStream id with
  | none => rw [closeStream_of_none hl]
  | some conn =>
    rw [(closeStream_of_some hl).1]
    exact map_modify fun _ => rfl

theorem SessionView.target_closeAll (v : SessionView) (order : List ConnRef) :
    (v.closeAll order).conns.map Upstream.target = v.conns.map Upstream.target := by
  induction order generalizing v with
  | nil => rfl
  | cons conn order ih => exact (ih _).trans (map_modify fun _ => rfl)

/-- A connection that is new was dialed in this step. -/
theorem SessionView.target_step (h : SessionStep sid v act v') :
    v'.conns.map Upstream.target = v.conns.map Upstream.target ∨
    ∃ id network addr, v.loop = .acting (.connect id network addr) ∧
      v'.conns.map Upstream.target = v.conns.map Upstream.target ++ [(id, network, addr)] := by
  cases h with
  | establish | lookup => exact .inl rfl
  | @frame f => cases f <;> exact .inl rfl
  | @dial id network addr ok hpc =>
    cases ok with
    | false => exact .inl rfl
    | true => exact .inr ⟨id, network, addr, hpc, List.map_append⟩
  | insert | write | read => exact .inl (map_modify fun _ => rfl)
  | close => exact .inl (v.target_closeStream _)
  | cleanup => exact .inl (v.target_closeAll _)
  | @send i ok => cases ok <;> exact .inl (map_modify fun _ => rfl)
  | finish =>
    have hgoto : ∀ u : Upstream, (u.goto .ended).target = u.target := fun _ => rfl
    exact .inl ((map_modify hgoto).trans (v.target_closeStream _))

/-- What the loop is about to dial it has just read, or was about to dial before. -/
theorem SessionView.connecting_step (h : SessionStep sid v act v')
    (hloop : v'.loop = .acting (.connect id network addr)) :
    v.loop = .acting (.connect id network addr) ∨
      ∃ f, act = .frame (some f) ∧ relaySwitch f = .act (.connect id network addr) := by
  cases h with
  | @frame f =>
    cases f with
    | none => cases hloop
    | some f =>
      refine .inr ⟨f, rfl, ?_⟩
      cases hturn : relaySwitch f with
      | act action => simpa [RelaySession.receive, hturn] using hloop
      | skip => simp [RelaySession.receive, hturn] at hloop
      | stop => simp [RelaySession.receive, hturn] at hloop
  | @dial _ _ _ ok => cases ok <;> cases hloop
  | @lookup id data =>
    cases hl : v.lookupStream id <;> simp [hl] at hloop
  | read => exact .inl hloop
  | @send i ok => cases ok <;> exact .inl hloop
  | finish => exact .inl (by simpa using hloop)
  | _ => cases hloop

theorem SessionView.targets_step (h : SessionStep sid v act v') (hv : v.Targets) : v'.Targets := by
  have hold : ∀ {f}, f ∈ v.received → f ∈ v'.received := by
    intro f hf
    rcases SessionView.received_step h with ⟨g, -, hr⟩ | ⟨-, hr⟩
    · rw [hr]
      exact List.mem_append_left _ hf
    · rwa [hr]
  constructor
  · intro id network addr hloop
    rcases SessionView.connecting_step h hloop with hloop | ⟨f, rfl, hf⟩
    · obtain ⟨f, hf, ht⟩ := hv.connecting hloop
      exact ⟨f, hold hf, ht⟩
    · rcases SessionView.received_step h with ⟨g, hg, hr⟩ | ⟨hno, -⟩
      · cases hg
        exact ⟨f, by simp [hr], hf⟩
      · exact (hno f rfl).elim
  · intro t ht
    rcases SessionView.target_step h with he | ⟨id, network, addr, hloop, he⟩
    · rw [he] at ht
      obtain ⟨f, hf, ht⟩ := hv.dialed t ht
      exact ⟨f, hold hf, ht⟩
    · rw [he] at ht
      rcases List.mem_append.mp ht with ht | ht
      · obtain ⟨f, hf, ht⟩ := hv.dialed t ht
        exact ⟨f, hold hf, ht⟩
      · obtain rfl := List.mem_singleton.mp ht
        obtain ⟨f, hf, ht⟩ := hv.connecting hloop
        exact ⟨f, hold hf, ht⟩

/-- The two ends belong together, and what is dialed was asked for. -/
structure Link.Aimed (me : SessionId) (l : Link) : Prop where
  joined : Link.Joined me l
  asks : l.client.Asks
  targets : (l.server.view me).Targets

theorem Link.aimed_initial : Link.Aimed me .initial where
  joined := Link.joined_initial
  asks f hf := by cases hf
  targets := SessionView.targets_initial

theorem Link.aimed_stable : Stable (Guarded (LinkStep me) (Link.FailsForGood me)) fun l =>
    l.client.Few → Link.Aimed me l := by
  rintro l label l' ⟨hfails, h⟩ hl hfew
  have hl := hl (Link.few_step h hfew)
  have hjoined := Link.joined_stable _ _ _ ⟨hfails, h⟩ (fun _ => hl.joined) hfew
  cases h with
  | client h => exact ⟨hjoined, Client.asks_step h hl.asks, hl.targets⟩
  | @server sid act sr h =>
    refine ⟨hjoined, hl.asks, ?_⟩
    by_cases hme : sid = me
    · subst hme
      exact SessionView.targets_step (ServerRelay.step_view hl.joined.own h) hl.targets
    · have hview : sr.view me = l.server.view me :=
        ServerRelay.step_other hl.joined.own h (Ne.symm hme)
      exact hview ▸ hl.targets

/-- The upstream of a stream is at the target of the stream. -/
theorem Link.Aimed.target {s : TunnelStream} {c : Upstream} (h : Link.Aimed me l) (hfew : l.client.Few)
    (hs : l.client.streams[k]? = some s) (hnetwork : connectSeparator ∉ s.network)
    (hc : (l.server.sessions me).conns[i]? = some c) (hid : c.streamID = s.id) :
    c.network = s.network ∧ c.addr = s.addr := by
  obtain ⟨f, hf, ht⟩ := h.targets.dialed c.target (List.mem_map_of_mem (List.mem_of_getElem? hc))
  have hopens : f.opens c.streamID := ⟨c.network, c.addr, ht⟩
  obtain ⟨j, s', hs', rfl⟩ := h.asks f (h.joined.up.subset hf) c.streamID hopens
  have hids : s'.id = s.id := (Frame.opens_unique hopens s'.controlFrame_opens.names).trans hid
  obtain rfl := h.joined.numbered.inj hfew hs' hs hids
  obtain rfl := Option.some.inj (hs'.symm.trans hs)
  rw [s'.relaySwitch_controlFrame hnetwork, Turn.act.injEq, RelayAction.connect.injEq] at ht
  exact ⟨ht.2.1.symm, ht.2.2.symm⟩

/-! The connection of the application. -/

/-- The application's second message begins with a request for that target. -/
def RequestedBy (second : Option Bytes) (target : Bytes) : Prop :=
  ∃ data, second = some data ∧
    ∃ (q : SocksRequest) (reserved : UInt8), q.target = target ∧ q.bytes reserved <+: data

/-- The handler has not come to its dial. -/
def SocksPc.Negotiates : SocksPc → Prop
  | .greeting | .request | .connecting _ => True
  | _ => False

/-- The handler waits for the end of its dial. -/
def SocksPc.Dials : SocksPc → Prop
  | .dialing | .dialed _ => True
  | _ => False

/-- What holds at every point of a connection: its stream is for the target of the request, takes what
was read of the application, and gives what the application is given. -/
structure Forwards (second : Option Bytes) (s : SocksLink) : Prop where
  requested : ∀ {target}, s.conn.pc = .connecting target → RequestedBy second target
  fresh : s.conn.pc.Negotiates → s.conn.stream = none
  before : s.conn.stream = none →
    s.conn.up = .idle ∧ s.conn.down = .idle ∧ s.conn.taken = [] ∧ s.conn.given = []
  waits : s.conn.pc.Dials → s.conn.stream ≠ none ∧ s.conn.down = .idle
  stage : ∀ {k : Nat}, s.conn.stream = some k → ∃ stream, s.link.client.streams[k]? = some stream ∧
    stream.network = tcp ∧ RequestedBy second stream.addr ∧ stream.passed = s.conn.taken ∧
    s.conn.down.Gives s.conn.given stream.delivered

/-- Where a failed write to the tunnel or to an upstream is for good. -/
def SocksLink.FailsForGood (me : SessionId) (s : SocksLink) : SocksAct → Prop
  | .control ok | .pass ok | .announce ok => ok = true → s.link.client.broken = false
  | .other a => s.link.FailsForGood me a
  | _ => True

section Forwards

variable {first second : Option Bytes} {s t : SocksLink} {sa : SocksAct} {stream : TunnelStream}

theorem aimed_step (hstep : SocksStep me s sa t) (hfails : s.FailsForGood me sa)
    (hs : s.link.client.Few → s.link.Aimed me) (hfew : t.link.client.Few) : t.link.Aimed me := by
  have hlink : ∀ {label : LinkAct} {l : Link}, LinkStep me s.link label l → s.link.FailsForGood me label →
      l.client.Few → l.Aimed me := fun h hfails => Link.aimed_stable _ _ _ ⟨hfails, h⟩ hs
  have hquiet : ∀ {ca : ClientAct} {l : Link}, LinkStep me s.link (.client ca) l → ca.sends = false →
      l.client.Few → l.Aimed me := by
    intro ca l h hsends
    refine hlink h fun hs => ?_
    rw [hsends] at hs
    cases hs
  cases hstep with
  | dial _ h => exact hquiet h rfl hfew
  | control _ _ h => exact hlink h hfails hfew
  | take _ _ _ _ h => exact hquiet h rfl hfew
  | pass _ _ h => exact hlink h hfails hfew
  | read _ _ _ _ h => exact hquiet h rfl hfew
  | delete _ _ h => exact hquiet h rfl hfew
  | announce _ _ h => exact hlink h hfails hfew
  | closeReader _ _ h => exact hquiet h rfl hfew
  | other _ h => exact hlink h hfails hfew
  | _ => exact hs hfew

theorem forwards_initial : Forwards second .initial where
  requested h := by cases h
  fresh _ := rfl
  before _ := ⟨rfl, rfl, rfl, rfl⟩
  waits h := h.elim
  stage h := by cases h

theorem Forwards.past (h : Forwards second s) (hk : s.conn.stream = some k) :
    ¬ s.conn.pc.Negotiates := by
  intro hn
  have hnone := h.fresh hn
  cases hnone.symm.trans hk

/-- The stream of the connection after a step of its own. -/
theorem Forwards.own {c : Client} {conn : SocksConn} {stream' : TunnelStream} {dialed : Option Bool}
    (h : Forwards second s) (hk : s.conn.stream = some k) (hs : s.link.client.streams[k]? = some stream)
    (hconn : conn.stream = some k) (hs' : c.streams[k]? = some stream')
    (hnetwork : stream'.network = stream.network) (haddr : stream'.addr = stream.addr)
    (hpc : conn.pc = s.conn.pc ∨ ¬ conn.pc.Negotiates) (hwaits : conn.pc.Dials → conn.down = .idle)
    (hpassed : stream'.passed = conn.taken) (hgives : conn.down.Gives conn.given stream'.delivered) :
    Forwards second ⟨⟨c, s.link.server⟩, conn, dialed⟩ := by
  obtain ⟨_, hold, htcp, hrequested, -⟩ := h.stage hk
  obtain rfl := Option.some.inj (hs.symm.trans hold)
  have hpast : ¬ conn.pc.Negotiates := by
    rcases hpc with he | hn
    · exact he ▸ h.past hk
    · exact hn
  refine ⟨fun {target} he => ?_, fun hn => (hpast hn).elim, fun hnone => ?_, fun hd => ⟨?_, hwaits hd⟩,
    fun {j} hj => ?_⟩
  · exact (hpast (by rw [show conn.pc = _ from he]; trivial)).elim
  · cases hconn.symm.trans hnone
  · simp [hconn]
  · obtain rfl := Option.some.inj (hconn.symm.trans hj)
    exact ⟨stream', hs', hnetwork.trans htcp, haddr ▸ hrequested, hpassed, hgives⟩

/-- A turn of the handler before its dial. -/
theorem Forwards.negotiate {buf : Bytes} {replies : List Bytes} {pc : SocksPc} (h : Forwards second s)
    (hpc : s.conn.pc.Negotiates) (hd : ¬ pc.Dials)
    (hrequested : ∀ target, pc = .connecting target → RequestedBy second target) :
    Forwards second { s with conn := { s.conn with buf := buf, replies := replies, pc := pc } } where
  requested he := hrequested _ he
  fresh _ := h.fresh hpc
  before hnone := h.before hnone
  waits hw := (hd hw).elim
  stage hk := by
    have hnone : s.conn.stream = none := h.fresh hpc
    cases hnone.symm.trans hk

/-- A turn of the handler after its dial. -/
theorem Forwards.turn {replies : List Bytes} {pc : SocksPc} (h : Forwards second s) (hn : ¬ pc.Negotiates)
    (hd : ¬ pc.Dials) : Forwards second { s with conn := { s.conn with replies := replies, pc := pc } } where
  requested {target} he := by
    obtain rfl : pc = .connecting target := he
    exact (hn trivial).elim
  fresh hpc := (hn hpc).elim
  before hnone := h.before hnone
  waits hw := (hd hw).elim
  stage hk := h.stage hk

theorem SocksConn.greet_eq (c : SocksConn) (data : Option Bytes) : ∃ buf replies pc,
    c.greet data = { c with buf := buf, replies := replies, pc := pc } ∧
      ¬ pc.Dials ∧ ∀ target, pc ≠ .connecting target := by
  cases data with
  | none => exact ⟨_, _, _, rfl, id, fun _ he => by cases he⟩
  | some data =>
    simp only [SocksConn.greet]
    split <;> exact ⟨_, _, _, rfl, id, fun _ he => by cases he⟩

theorem SocksConn.ask_eq (c : SocksConn) (data : Option Bytes) : ∃ buf replies pc,
    c.ask data = { c with buf := buf, replies := replies, pc := pc } ∧
      ¬ pc.Dials ∧ ∀ target, pc = .connecting target → RequestedBy data target := by
  cases data with
  | none => exact ⟨_, _, _, rfl, id, fun _ he => by cases he⟩
  | some data =>
    simp only [SocksConn.ask, readInto, parseRequest_eq]
    cases hturn : requestTurn data with
    | refuse => exact ⟨_, _, _, rfl, id, fun _ he => by cases he⟩
    | giveUp => exact ⟨_, _, _, rfl, id, fun _ he => by cases he⟩
    | connect target =>
      refine ⟨_, _, _, rfl, id, fun target' he => ?_⟩
      cases he
      exact ⟨data, rfl, requestTurn_connect_iff.mp hturn⟩

theorem Forwards.exists_stream (h : Forwards second s) (hactive : s.conn.up ≠ .idle ∨ s.conn.down ≠ .idle) :
    ∃ k stream, s.conn.stream = some k ∧ s.link.client.streams[k]? = some stream ∧
      stream.passed = s.conn.taken ∧ s.conn.down.Gives s.conn.given stream.delivered := by
  cases hk : s.conn.stream with
  | none =>
    obtain ⟨hup, hdown, -⟩ := h.before hk
    simp [hup, hdown] at hactive
  | some k =>
    obtain ⟨stream, hs, -, -, hstage⟩ := h.stage hk
    exact ⟨k, stream, rfl, hs, hstage⟩

theorem forwards_negotiate (h : Forwards second s) (hstep : SocksStep me s sa t)
    (happ : FromApp first second s sa) (ha : (∃ data, sa = .greeting data) ∨ ∃ data, sa = .request data) :
    Forwards second t := by
  cases hstep with
  | @greeting data hpc =>
    obtain ⟨buf, replies, pc, he, hd, hne⟩ := s.conn.greet_eq data
    rw [he]
    refine h.negotiate ?_ hd fun target hpc => (hne target hpc).elim
    rw [hpc]
    trivial
  | @request data hpc =>
    obtain rfl : data = second := happ
    obtain ⟨buf, replies, pc, he, hd, hrequested⟩ := s.conn.ask_eq data
    rw [he]
    refine h.negotiate ?_ hd hrequested
    rw [hpc]
    trivial
  | _ => simp at ha

/-- The stream is new when the handler comes to its dial. -/
theorem forwards_dial {target : Bytes} (h : Forwards second s) (hpc : s.conn.pc = .connecting target)
    (hlink : LinkStep me s.link (.client (.dial tcp target)) l) :
    Forwards second { s with link := l, conn := s.conn.dial s.link.client.streams.length } := by
  obtain ⟨-, hdown, htaken, hgiven⟩ := h.before (h.fresh (by rw [hpc]; trivial))
  cases hlink with
  | client hclient =>
    cases hclient with
    | dial =>
      refine ⟨fun he => (by cases he), fun hn => hn.elim, fun hnone => (by cases hnone),
        fun _ => ⟨by simp, hdown⟩, fun {j} hj => ?_⟩
      cases hj
      refine ⟨⟨s.link.client.nextID, tcp, target, .dialing, none, [], []⟩, by simp, rfl,
        h.requested hpc, htaken.symm, ?_⟩
      change s.conn.down.Gives s.conn.given []
      rw [hdown, hgiven]
      exact rfl

theorem forwards_answer {ok : Bool} (h : Forwards second s) (hpc : s.conn.pc = .dialed ok) :
    Forwards second { s with conn := s.conn.answer ok } := by
  cases ok with
  | false => exact h.turn (fun hn => hn.elim) fun hd => hd.elim
  | true =>
    obtain ⟨hstream, hdown⟩ := h.waits (by rw [hpc]; trivial)
    obtain ⟨k, hk⟩ := Option.ne_none_iff_exists'.mp hstream
    obtain ⟨stream, hs, -, -, hpassed, hgives⟩ := h.stage hk
    rw [hdown] at hgives
    exact h.own hk hs hk hs rfl rfl (.inr fun hn => hn.elim) (fun hd => hd.elim) hpassed hgives

/-- The goroutine that reads the application. -/
theorem forwards_up (h : Forwards second s) (hstep : SocksStep me s sa t)
    (ha : (∃ p, sa = .take p) ∨ (∃ ok, sa = .pass ok) ∨ sa = .takeEnd) : Forwards second t := by
  cases hstep with
  | @take k p l _ hk hup hp hlink =>
    obtain ⟨stream, hs, -, -, hpassed, hgives⟩ := h.stage hk
    cases hlink with
    | client hclient =>
      cases hclient with
      | write hs' =>
        obtain rfl := Option.some.inj (hs.symm.trans hs')
        exact h.own hk hs hk (getElem?_modify_self _ hs) rfl rfl (.inl rfl) (fun hd => (h.waits hd).2)
          (congrArg (· ++ p) hpassed) hgives
  | @pass k p ok l hk hup hlink =>
    obtain ⟨stream, hs, -, -, hpassed, hgives⟩ := h.stage hk
    cases hlink with
    | client hclient =>
      cases hclient with
      | data hs' =>
        obtain rfl := Option.some.inj (hs.symm.trans hs')
        exact h.own hk hs hk (getElem?_modify_self _ (by simpa using hs)) rfl rfl (.inl rfl)
          (fun hd => (h.waits hd).2) hpassed hgives
  | takeEnd hup =>
    obtain ⟨k, stream, hk, hs, hpassed, hgives⟩ := h.exists_stream (.inl (by simp [hup]))
    exact h.own hk hs hk hs rfl rfl (.inl rfl) (fun hd => (h.waits hd).2) hpassed hgives
  | _ => simp at ha

/-- The goroutine that reads the tunnel. -/
theorem forwards_down (h : Forwards second s) (hstep : SocksStep me s sa t)
    (ha : (∃ n, sa = .read n) ∨ (∃ ok, sa = .give ok) ∨ sa = .readEnd) : Forwards second t := by
  have hbusy : s.conn.down ≠ .idle → ¬ s.conn.pc.Dials := fun hdown hd => hdown (h.waits hd).2
  cases hstep with
  | @read k n rest l hk hdown hloop hn hlink =>
    obtain ⟨stream, hs, -, -, hpassed, hgives⟩ := h.stage hk
    rw [hdown] at hgives
    cases hlink with
    | client hclient =>
      cases hclient with
      | read hpc hs' =>
        obtain ⟨rfl, rfl⟩ := ReadPc.delivering.inj (hloop.symm.trans hpc)
        obtain rfl := Option.some.inj (hs.symm.trans hs')
        exact h.own hk hs hk (getElem?_modify_self _ hs) rfl rfl (.inl rfl)
          (fun hd => (hbusy (by simp [hdown]) hd).elim) hpassed (congrArg (· ++ rest.take n) hgives)
  | @give p ok hreturned hdown =>
    obtain ⟨k, stream, hk, hs, hpassed, hgives⟩ := h.exists_stream (.inr (by simp [hdown]))
    rw [hdown] at hgives
    have hwaits : ¬ s.conn.pc.Dials := hbusy (by simp [hdown])
    cases ok with
    | true => exact h.own hk hs hk hs rfl rfl (.inl rfl) (fun hd => (hwaits hd).elim) hpassed hgives
    | false =>
      exact h.own hk hs hk hs rfl rfl (.inl rfl) (fun hd => (hwaits hd).elim) hpassed ⟨p, hgives⟩
  | readEnd hdown =>
    obtain ⟨k, stream, hk, hs, hpassed, hgives⟩ := h.exists_stream (.inr (by simp [hdown]))
    exact h.own hk hs hk hs rfl rfl (.inl rfl) (fun hd => (hbusy (by simp [hdown]) hd).elim) hpassed
      hgives.isPrefix
  | _ => simp at ha

/-- The handler and its stream go on, and what has been copied stays as it is. -/
theorem Forwards.goes {c : Client} {tpc : TunnelPc} (h : Forwards second s) (pc : SocksPc)
    (hk : s.conn.stream = some k) (hs : s.link.client.streams[k]? = some stream)
    (hs' : c.streams[k]? = some (stream.goto tpc)) (hpc : pc = s.conn.pc ∨ ¬ pc.Negotiates)
    (hd : pc.Dials → s.conn.pc.Dials) :
    Forwards second ⟨⟨c, s.link.server⟩, s.conn.goto pc, s.dialed⟩ := by
  obtain ⟨_, hold, -, -, hpassed, hgives⟩ := h.stage hk
  obtain rfl := Option.some.inj (hs.symm.trans hold)
  exact h.own hk hs hk hs' rfl rfl hpc (fun hw => (h.waits (hd hw)).2) hpassed hgives

theorem forwards_handler (h : Forwards second s) (hstep : SocksStep me s sa t)
    (ha : (∃ ok, sa = .control ok) ∨ sa = .finish ∨ sa = .delete ∨ (∃ ok, sa = .announce ok) ∨
      sa = .closeReader ∨ sa = .close) : Forwards second t := by
  cases hstep with
  | control hpc hk hlink =>
    cases hlink with
    | client hclient =>
      cases hclient with
      | control hs =>
        refine h.goes _ hk hs (getElem?_modify_self _ (by simpa using hs)) (.inr fun hn => hn.elim) ?_
        rw [hpc]
        exact id
  | finish => exact h.turn (fun hn => hn.elim) fun hd => hd.elim
  | delete hpc hk hlink =>
    cases hlink with
    | client hclient =>
      cases hclient with
      | delete hs =>
        exact h.goes s.conn.pc hk hs
          (getElem?_modify_self (TunnelStream.goto · .deleted) hs) (.inl rfl) id
  | announce hpc hk hlink =>
    cases hlink with
    | client hclient =>
      cases hclient with
      | announce hs =>
        exact h.goes s.conn.pc hk hs
          (getElem?_modify_self (TunnelStream.goto · .announced) (by simpa using hs)) (.inl rfl) id
  | closeReader hpc hk hlink =>
    cases hlink with
    | client hclient =>
      cases hclient with
      | closeReader hs =>
        exact h.goes _ hk hs (getElem?_modify_self (TunnelStream.goto · .closed) hs)
          (.inr fun hn => hn.elim) fun hd => hd.elim
  | close => exact h.turn (fun hn => hn.elim) fun hd => hd.elim
  | _ => simp at ha

/-- All other goroutines leave the stream as it is. -/
theorem forwards_other {la : LinkAct} (h : Forwards second s) (hstep : SocksStep me s (.other la) t) :
    Forwards second t := by
  cases hstep with
  | other hother hlink =>
    refine ⟨h.requested, h.fresh, h.before, h.waits, fun {k} hk => ?_⟩
    obtain ⟨stream, hs, hrest⟩ := h.stage hk
    cases hlink with
    | client hclient => exact ⟨stream, Client.stream_step hclient (hother k hk) hs, hrest⟩
    | server => exact ⟨stream, hs, hrest⟩

theorem forwards_stable : Stable (Guarded (SocksStep me) (FromApp first second)) (Forwards second) := by
  rintro s sa t ⟨happ, hstep⟩ h
  cases sa with
  | greeting data => exact forwards_negotiate h hstep happ (.inl ⟨data, rfl⟩)
  | request data => exact forwards_negotiate h hstep happ (.inr ⟨data, rfl⟩)
  | dial =>
    cases hstep with
    | dial hpc hlink => exact forwards_dial h hpc hlink
  | control ok => exact forwards_handler h hstep (.inl ⟨ok, rfl⟩)
  | answer =>
    cases hstep with
    | answer hpc => exact forwards_answer h hpc
  | take p => exact forwards_up h hstep (.inl ⟨p, rfl⟩)
  | pass ok => exact forwards_up h hstep (.inr (.inl ⟨ok, rfl⟩))
  | takeEnd => exact forwards_up h hstep (.inr (.inr rfl))
  | read n => exact forwards_down h hstep (.inl ⟨n, rfl⟩)
  | give ok => exact forwards_down h hstep (.inr (.inl ⟨ok, rfl⟩))
  | readEnd => exact forwards_down h hstep (.inr (.inr rfl))
  | finish => exact forwards_handler h hstep (.inr (.inl rfl))
  | delete => exact forwards_handler h hstep (.inr (.inr (.inl rfl)))
  | announce ok => exact forwards_handler h hstep (.inr (.inr (.inr (.inl ⟨ok, rfl⟩))))
  | closeReader => exact forwards_handler h hstep (.inr (.inr (.inr (.inr (.inl rfl)))))
  | close => exact forwards_handler h hstep (.inr (.inr (.inr (.inr (.inr rfl)))))
  | other la => exact forwards_other h hstep

/-- Where the bytes of the connection have gone, and which have come back. -/
structure Delivers (me : SessionId) (second : Option Bytes) (s : SocksLink) : Prop where
  up : s.reached me <+: s.conn.taken
  down : ∀ {i : Nat} {stream : TunnelStream} {c : Upstream}, s.stream = some stream →
    (s.link.server.sessions me).conns[i]? = some c → c.streamID = stream.id →
    c.network = tcp ∧ RequestedBy second c.addr ∧ c.written = s.reached me ∧ s.conn.given <+: c.taken
  one : ∀ {i j : Nat} {stream : TunnelStream} {c c' : Upstream}, s.stream = some stream →
    (s.link.server.sessions me).conns[i]? = some c → (s.link.server.sessions me).conns[j]? = some c' →
    c.streamID = stream.id → c'.streamID = stream.id → i = j
  undialed : (∀ stream, s.stream = some stream →
    ∀ c ∈ (s.link.server.sessions me).conns, c.streamID ≠ stream.id) → s.reached me = [] ∧ s.conn.given = []

theorem delivers_of_forwards (h : Forwards second s) (ha : s.link.Aimed me) (hfew : s.link.client.Few) :
    Delivers me second s := by
  have hcarried := ha.joined.carried hfew
  have hstage : ∀ stream, s.stream = some stream → ∃ k : Nat, s.link.client.streams[k]? = some stream ∧
      stream.network = tcp ∧ RequestedBy second stream.addr ∧ stream.passed = s.conn.taken ∧
      s.conn.given <+: stream.delivered := by
    intro stream hs
    cases hk : s.conn.stream with
    | none => simp [SocksLink.stream, hk] at hs
    | some k =>
      obtain ⟨_, hold, hnetwork, haddr, hpassed, hgives⟩ := h.stage hk
      obtain rfl := Option.some.inj (((SocksLink.stream_of_conn hk).symm.trans hs).symm.trans hold)
      exact ⟨k, hold, hnetwork, haddr, hpassed, hgives.isPrefix⟩
  constructor
  · obtain hnil | ⟨stream, c, i, hs, hc, hid, hreached⟩ := reached_cases me s
    · rw [hnil]
      exact List.nil_prefix
    · obtain ⟨k, hold, -, -, hpassed, -⟩ := hstage stream hs
      rw [hreached, ← hpassed]
      exact hcarried.forward hold hc hid
  · intro i stream c hs hc hid
    obtain ⟨k, hold, hnetwork, hrequested, -, hgiven⟩ := hstage stream hs
    have hseparator : connectSeparator ∉ stream.network := by
      rw [hnetwork]
      decide
    obtain ⟨hn, haddr⟩ := ha.target hfew hold hseparator hc hid
    exact ⟨hn.trans hnetwork, haddr ▸ hrequested, (reached_eq ha.joined hs hc hid).symm,
      hgiven.trans (hcarried.back hold hc hid)⟩
  · intro i j stream c c' hs hc hc' hid hid'
    exact hcarried.one_conn hc hc' (hid.trans hid'.symm)
  · intro hnone
    constructor
    · obtain hnil | ⟨stream, c, i, hs, hc, hid, -⟩ := reached_cases me s
      · exact hnil
      · exact (hnone stream hs c (List.mem_of_getElem? hc) hid).elim
    · cases hk : s.conn.stream with
      | none => exact (h.before hk).2.2.2
      | some k =>
        obtain ⟨stream, hold, -, -, -, hgives⟩ := h.stage hk
        have hs := (SocksLink.stream_of_conn hk).trans hold
        have hdelivered : stream.delivered = [] :=
          hcarried.undialed hold fun i c hc => hnone stream hs c (List.mem_of_getElem? hc)
        have hle := hgives.isPrefix
        rw [hdelivered] at hle
        exact List.prefix_nil.mp hle

end Forwards

/-- The application sends two bytes, and gets two back. -/
def echoedActs : List SocksAct :=
  [.other (.server [] .establish),
    .other (.server [] (.frame (some (newControlFrame
      (encodeStreamID 0 ++ (tcp ++ connectSeparator :: sampleDialogue.request.target)))))),
    .other (.server [] (.dial true)), .other (.server [] .insert), .take [1, 2], .pass true,
    .other (.server [] (.frame (some ⟨frameData, [0, 0, 0, 0, 1, 2]⟩))), .other (.server [] .lookup),
    .other (.server [] (.write 2)), .other (.server [] (.read 0 [3, 4] false)),
    .other (.server [] (.send 0 true)),
    .other (.client (.frame (some ⟨frameData, [0, 0, 0, 0, 3, 4]⟩))), .other (.client .lookup), .read 2,
    .give true]

end SshPanelVpn.ShadowLink

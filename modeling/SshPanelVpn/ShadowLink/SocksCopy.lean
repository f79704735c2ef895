import SshPanelVpn.ShadowLink.SocksReplies

/-! The copying goroutines of a SOCKS5 connection on which nothing fails. -/
namespace SshPanelVpn.ShadowLink

open Octets Runs Indexed

/-- The tunnel carries what the client writes, and the client goes on. -/
def ClientAct.Works : ClientAct → Prop
  | .control _ ok | .data _ ok | .announce _ ok | .keepalive _ ok => ok = true
  | .frame f => f ≠ none
  | .shutdown _ | .hangUp => False
  | _ => True

/-- The tunnel carries what the server writes for the session; the dial for the connection succeeds,
and its upstream takes all bytes, sends `y` and ends. -/
def UpstreamWorks (me : SessionId) (y : Bytes) (s : SocksLink) : RelayAct → Prop
  | .frame f => f ≠ none
  | .send _ ok => ok = true
  | .dial ok => ∀ stream network addr, s.stream = some stream →
      (s.link.server.sessions me).loop = .acting (.connect stream.id network addr) → ok = true
  | .write n => ∀ stream conn data c, s.stream = some stream →
      (s.link.server.sessions me).loop = .writing conn data →
      (s.link.server.sessions me).conns[conn.index]? = some c → c.streamID = stream.id →
      c.closed = false → n = data.length
  | .read i data ended => ∀ stream c, s.stream = some stream →
      (s.link.server.sessions me).conns[i]? = some c → c.streamID = stream.id → c.closed = false →
      c.taken ++ data <+: y ∧ (ended = true → c.taken ++ data = y)
  | _ => True

/-- Nothing fails. The application opens the dialogue `d`, sends `x` and then ends its direction, in a
state of `ends`. -/
def Sound (me : SessionId) (d : SocksDialogue) (x y : Bytes) (ends : SocksLink → Prop) (s : SocksLink) :
    SocksAct → Prop
  | .greeting data => data = some d.greeting
  | .request data => data = some (d.request.bytes 0x00)
  | .control ok | .pass ok | .announce ok => ok = true
  | .take p => s.conn.taken ++ p <+: x
  | .takeEnd => s.conn.taken = x ∧ ends s
  | .give ok => s.conn.pc ≠ .returned → ok = true
  | .other (.client a) => a.Works
  | .other (.server sid a) =>
    sid = me → UpstreamWorks me y s a ∧ (s.link.server.view me).WritesFailForGood a
  | _ => True

abbrev SoundStep (me : SessionId) (d : SocksDialogue) (x y : Bytes) (ends : SocksLink → Prop) :=
  Guarded (SocksStep me) (Sound me d x y ends)

/-! What one step leaves as it is. -/

section Steps

variable {c c' : Client} {a : ClientAct} {k i : Nat} {stream : TunnelStream} {v v' : SessionView}
  {sid : SessionId} {act : RelayAct}

/-- A stream is changed by its own goroutines alone. -/
theorem Client.stream_step (h : ClientStep c a c') (hother : ¬ a.on c k)
    (hs : c.streams[k]? = some stream) : c'.streams[k]? = some stream := by
  have hmodify : ∀ {j : Nat} (f : TunnelStream → TunnelStream), j ≠ k →
      (c.streams.modify j f)[k]? = some stream := by
    intro j f hj
    rw [getElem?_modify_of_some hs, if_neg hj]
  cases h with
  | dial => exact getElem?_append_of_some hs
  | control | data | write | delete | announce | closeReader => simpa using hmodify _ hother
  | read hpc => exact hmodify _ fun hj => hother ⟨_, hj ▸ hpc⟩
  | _ => simpa using hs

structure Client.Works (c : Client) : Prop where
  broken : c.broken = false
  closing : c.closing = false
  wsClosed : c.wsClosed = false

theorem Client.Works.send (h : c.Works) (f : Frame) : (c.send f true).Works :=
  ⟨h.broken, h.closing, h.wsClosed⟩

theorem Client.works_step (h : ClientStep c a c') (ha : a.Works) (hc : c.Works) : c'.Works := by
  have hsend : ∀ f (ok : Bool), ok = true → (c.send f ok).Works := by
    rintro f ok rfl
    exact hc.send f
  cases h with
  | control | data | announce =>
    obtain ⟨hb, hcl, hws⟩ := hsend _ _ ha
    exact ⟨hb, hcl, hws⟩
  | keepalive => exact hsend _ _ ha
  | @frame f =>
    cases f with
    | none => exact (ha rfl).elim
    | some f => exact ⟨hc.broken, hc.closing, hc.wsClosed⟩
  | shutdown | hangUp => exact ha.elim
  | _ => exact ⟨hc.broken, hc.closing, hc.wsClosed⟩

/-- `c'` keeps the stream and what was written, and has taken more only by a read. -/
structure Upstream.Grows (c c' : Upstream) (i : Nat) (act : RelayAct) : Prop where
  streamID : c'.streamID = c.streamID
  written : c.written <+: c'.written
  taken : c'.taken = c.taken ∨ ∃ data ended, act = .read i data ended ∧ c'.taken = c.taken ++ data ∧
    (c.closed = true → data = [])

theorem Upstream.Grows.refl (c : Upstream) (i : Nat) (act : RelayAct) : c.Grows c i act :=
  ⟨rfl, List.prefix_rfl, .inl rfl⟩

theorem SessionView.closeStream_conns (v : SessionView) (id : UInt32) (i : Nat) (act : RelayAct) :
    ∃ g : Upstream → Upstream, (v.closeStream id).conns[i]? = (v.conns[i]?).map g ∧
      ∀ c, c.Grows (g c) i act ∧ (g c).taken = c.taken := by
  cases hl : v.lookupStream id with
  | none =>
    rw [closeStream_of_none hl]
    exact ⟨fun c => c, by simp, fun c => ⟨.refl c i act, rfl⟩⟩
  | some conn =>
    rw [(closeStream_of_some hl).1, RelaySession.closeConn_conns, List.getElem?_modify]
    refine ⟨_, rfl, fun c => ?_⟩
    split <;> exact ⟨⟨rfl, List.prefix_rfl, .inl rfl⟩, rfl⟩

/-- An upstream connection that was not dialed in this step was there before. -/
theorem SessionView.conns_step (h : SessionStep sid v act v') (i : Nat) :
    (∃ id network addr, v.conns[i]? = none ∧ v'.conns[i]? = some (Upstream.dialed id network addr)) ∨
    ∃ g : Upstream → Upstream, v'.conns[i]? = (v.conns[i]?).map g ∧
      ∀ c, v.conns[i]? = some c → c.Grows (g c) i act := by
  have hsame : v'.conns = v.conns → ∃ g : Upstream → Upstream, v'.conns[i]? = (v.conns[i]?).map g ∧
      ∀ c, v.conns[i]? = some c → c.Grows (g c) i act := by
    intro he
    exact ⟨id, by rw [he]; simp, fun c _ => .refl c i act⟩
  have hmodify : ∀ j g, v'.conns = v.conns.modify j g →
      (∀ c, v.conns[i]? = some c → j = i → c.Grows (g c) i act) →
      ∃ g : Upstream → Upstream, v'.conns[i]? = (v.conns[i]?).map g ∧
        ∀ c, v.conns[i]? = some c → c.Grows (g c) i act := by
    intro j g he hg
    refine ⟨fun c => if j = i then g c else c, by rw [he, List.getElem?_modify]; rfl, ?_⟩
    intro c hc
    by_cases hj : j = i
    · simpa [hj] using hg c hc hj
    · simpa [hj] using Upstream.Grows.refl c i act
  cases h with
  | establish => exact .inr (hsame rfl)
  | @frame f => exact .inr (hsame (by cases f <;> rfl))
  | @dial id network addr ok =>
    cases ok with
    | false => exact .inr (hsame rfl)
    | true =>
      have hconns : (v.map (·.dial sid id network addr true)).conns =
          v.conns ++ [Upstream.dialed id network addr] := rfl
      rw [hconns]
      cases hi : v.conns[i]? with
      | some c => exact .inr ⟨fun c => c, getElem?_append_of_some hi, fun c _ => .refl c i _⟩
      | none =>
        cases hi' : (v.conns ++ [Upstream.dialed id network addr])[i]? with
        | none => exact .inr ⟨fun c => c, rfl, fun c _ => .refl c i _⟩
        | some c =>
          obtain hold | ⟨-, rfl⟩ := getElem?_append_one hi'
          · rw [hi] at hold
            cases hold
          · exact .inl ⟨id, network, addr, rfl, rfl⟩
  | insert => exact .inr (hmodify _ _ rfl fun c _ _ => ⟨rfl, List.prefix_rfl, .inl rfl⟩)
  | lookup => exact .inr (hsame rfl)
  | write => exact .inr (hmodify _ _ rfl fun c _ _ => ⟨rfl, List.prefix_append _ _, .inl rfl⟩)
  | @close id =>
    obtain ⟨g, hg, hgrows⟩ := v.closeStream_conns id i .close
    exact .inr ⟨g, hg, fun c _ => (hgrows c).1⟩
  | @cleanup order =>
    refine .inr ⟨_, closeAll_conns, fun c _ => ?_⟩
    split <;> exact ⟨rfl, List.prefix_rfl, .inl rfl⟩
  | @read j data ended c hc hpc hn hclosed =>
    refine .inr (hmodify _ _ rfl ?_)
    rintro c' hc' rfl
    obtain rfl : c = c' := Option.some.inj (hc.symm.trans hc')
    exact ⟨rfl, List.prefix_rfl, .inr ⟨data, ended, rfl, rfl, fun hcl => (hclosed hcl).1⟩⟩
  | @send j ok =>
    cases ok <;> exact .inr (hmodify _ _ rfl fun c _ _ => ⟨rfl, List.prefix_rfl, .inl rfl⟩)
  | @finish j c hc =>
    obtain ⟨g, hg, hgrows⟩ := v.closeStream_conns c.streamID i (.finish j)
    refine .inr ⟨fun c => if j = i then (g c).goto .ended else g c, ?_, fun c _ => ?_⟩
    · change ((v.closeStream c.streamID).conns.modify j _)[i]? = _
      rw [List.getElem?_modify, hg]
      cases v.conns[i]? <;> rfl
    · split
      · exact ⟨(hgrows c).1.streamID, (hgrows c).1.written, .inl (hgrows c).2⟩
      · exact (hgrows c).1

end Steps

/-! The invariant. -/

/-- `delivered` is what was read of the tunnel, `given` what has come out of it. -/
def CopyPc.Gives (down : CopyPc) (given delivered : Bytes) : Prop :=
  match down with
  | .writing p => given ++ p = delivered
  | .done => given <+: delivered
  | _ => given = delivered

theorem CopyPc.Gives.isPrefix {down : CopyPc} {given delivered : Bytes} (h : down.Gives given delivered) :
    given <+: delivered := by
  cases down with
  | idle => exact h ▸ List.prefix_rfl
  | reading => exact h ▸ List.prefix_rfl
  | writing p => exact ⟨p, h⟩
  | done => exact h

/-- Where the handler, its goroutines and the stream stand, once there is a stream. -/
def SocksConn.Stage (c : SocksConn) (pc : TunnelPc) : Prop :=
  match c.pc with
  | .dialing => pc = .dialing ∧ c.up = .idle ∧ c.down = .idle
  | .dialed ok => ok = true ∧ pc = .opened ∧ c.up = .idle ∧ c.down = .idle
  | .copying => pc = .opened ∧ c.up ≠ .idle ∧ c.down ≠ .idle ∧ c.down ≠ .done
  | .closing => (pc = .opened ∨ pc = .deleted ∨ pc = .announced) ∧ c.up = .done ∧ c.down ≠ .idle ∧
      c.down ≠ .done
  | .closed | .returned => pc = .closed ∧ c.up = .done ∧ c.down ≠ .idle
  | _ => False

/-- What holds at every point of a connection on which nothing fails. -/
structure Copies (me : SessionId) (x y : Bytes) (s : SocksLink) : Prop where
  joined : Link.Joined me s.link
  works : s.link.client.Works
  taken : s.conn.taken <+: x
  before : s.conn.stream = none → (s.conn.pc = .greeting ∨ s.conn.pc = .request ∨
    ∃ target, s.conn.pc = .connecting target) ∧ s.conn.up = .idle ∧ s.conn.down = .idle ∧
    s.conn.taken = [] ∧ s.conn.given = []
  stage : ∀ {k : Nat}, s.conn.stream = some k → ∃ stream, s.link.client.streams[k]? = some stream ∧
    s.conn.Stage stream.pc ∧ stream.passed = s.conn.taken ∧
    s.conn.down.Gives s.conn.given stream.delivered
  upstream : ∀ {k i : Nat} {stream : TunnelStream} {c : Upstream}, s.conn.stream = some k →
    s.link.client.streams[k]? = some stream → (s.link.server.sessions me).conns[i]? = some c →
    c.streamID = stream.id → c.taken <+: y

section Copies

variable {me : SessionId} {d : SocksDialogue} {x y : Bytes} {ends : SocksLink → Prop} {s t : SocksLink}
  {a : SocksAct} {k : Nat} {stream : TunnelStream}

theorem SocksLink.stream_of_conn (hk : s.conn.stream = some k) : s.stream = s.link.client.streams[k]? := by
  rw [SocksLink.stream, hk]
  rfl

theorem copies_initial : Copies me x y .initial where
  joined := Link.joined_initial
  works := ⟨rfl, rfl, rfl⟩
  taken := List.nil_prefix
  before _ := ⟨.inl rfl, rfl, rfl, rfl, rfl⟩
  stage h := by cases h
  upstream h := by cases h

/-! Each step. -/

/-- A step of the client and of the connection's own goroutines, or of the connection alone. -/
theorem Copies.own {c : Client} {conn : SocksConn} {stream' : TunnelStream} {dialed : Option Bool}
    (h : Copies me x y s) (hjoined : Link.Joined me ⟨c, s.link.server⟩) (hworks : c.Works)
    (hk : s.conn.stream = some k) (hs : s.link.client.streams[k]? = some stream)
    (hconn : conn.stream = some k) (hs' : c.streams[k]? = some stream') (hid : stream'.id = stream.id)
    (hstage : conn.Stage stream'.pc) (hpassed : stream'.passed = conn.taken) (htaken : conn.taken <+: x)
    (hgives : conn.down.Gives conn.given stream'.delivered) :
    Copies me x y ⟨⟨c, s.link.server⟩, conn, dialed⟩ where
  joined := hjoined
  works := hworks
  taken := htaken
  before hnone := by
    rw [show conn.stream = some k from hconn] at hnone
    cases hnone
  stage hk' := by
    obtain rfl : k = _ := Option.some.inj (hconn.symm.trans hk')
    exact ⟨stream', hs', hstage, hpassed, hgives⟩
  upstream hk' hs'' hc hids := by
    obtain rfl : k = _ := Option.some.inj (hconn.symm.trans hk')
    obtain rfl : stream' = _ := Option.some.inj (hs'.symm.trans hs'')
    exact h.upstream hk hs hc (hids.trans hid)

/-- The link steps that the copying needs, under the guard of the tables. -/
theorem Copies.joined_client {ca : ClientAct} {c : Client} (h : Copies me x y s)
    (hstep : LinkStep me s.link (.client ca) ⟨c, s.link.server⟩) (hfew : c.Few) :
    Link.Joined me ⟨c, s.link.server⟩ :=
  Link.joined_stable s.link (.client ca) _ ⟨fun _ => h.works.broken, hstep⟩ (fun _ => h.joined) hfew

/-- A step of the two ends, or none. -/
theorem link_step (h : SocksStep me s a t) : t.link = s.link ∨ ∃ la, LinkStep me s.link la t.link := by
  cases h with
  | greeting | request | answer | takeEnd | give | readEnd | finish | close => exact .inl rfl
  | dial _ h => exact .inr ⟨_, h⟩
  | control _ _ h => exact .inr ⟨_, h⟩
  | take _ _ _ _ h => exact .inr ⟨_, h⟩
  | pass _ _ h => exact .inr ⟨_, h⟩
  | read _ _ _ _ h => exact .inr ⟨_, h⟩
  | delete _ _ h => exact .inr ⟨_, h⟩
  | announce _ _ h => exact .inr ⟨_, h⟩
  | closeReader _ _ h => exact .inr ⟨_, h⟩
  | other _ h => exact .inr ⟨_, h⟩

theorem few_of_step (h : SocksStep me s a t) (hfew : t.link.client.Few) : s.link.client.Few := by
  obtain hlink | ⟨la, hlink⟩ := link_step h
  · rwa [hlink] at hfew
  · exact Link.few_step hlink hfew

theorem SocksDialogue.greeting_accepted (d : SocksDialogue) :
    2 ≤ d.greeting.length ∧ d.greeting[0]? = some 0x05 :=
  ⟨by simp [SocksDialogue.greeting], rfl⟩

theorem SocksDialogue.requestTurn_request (d : SocksDialogue) :
    requestTurn (d.request.bytes 0x00) = .connect d.request.target :=
  requestTurn_connect_iff.mpr ⟨d.request, 0x00, rfl, List.prefix_rfl⟩

/-- The two reads lead to the dial. -/
theorem copies_negotiate (h : Copies me x y s) (hstep : SocksStep me s a t)
    (hsound : Sound me d x y ends s a)
    (ha : (∃ data, a = .greeting data) ∨ ∃ data, a = .request data) : Copies me x y t := by
  have hnone : s.conn.pc = .greeting ∨ s.conn.pc = .request → s.conn.stream = none := by
    intro hpc
    cases hk : s.conn.stream with
    | none => rfl
    | some k =>
      obtain ⟨stream, -, hstage, -⟩ := h.stage hk
      obtain hpc | hpc := hpc <;> simp [SocksConn.Stage, hpc] at hstage
  have hkeep : ∀ conn : SocksConn, s.conn.stream = none → conn.stream = s.conn.stream →
      conn.up = s.conn.up → conn.down = s.conn.down → conn.taken = s.conn.taken → conn.given = s.conn.given →
      (conn.pc = .greeting ∨ conn.pc = .request ∨ ∃ target, conn.pc = .connecting target) →
      Copies me x y { s with conn := conn } := by
    intro conn hs hstream hup hdown htaken hgiven hpc
    obtain ⟨-, hb⟩ := h.before hs
    refine ⟨h.joined, h.works, htaken ▸ h.taken, fun _ => ⟨hpc, ?_⟩, fun hk => ?_, fun hk => ?_⟩
    · rw [hup, hdown, htaken, hgiven]
      exact hb
    · rw [hstream, hs] at hk
      cases hk
    · rw [hstream, hs] at hk
      cases hk
  cases hstep with
  | greeting hpc =>
    obtain rfl : _ = some d.greeting := hsound
    have hgreet : s.conn.greet (some d.greeting) =
        (s.conn.read d.greeting).reply methodReply .request := by
      simp only [SocksConn.greet, readInto, SocksConn.acceptsGreeting_eq, d.greeting_accepted]
      rfl
    rw [hgreet]
    exact hkeep _ (hnone (.inl hpc)) rfl rfl rfl rfl rfl (.inr (.inl rfl))
  | request hpc =>
    obtain rfl : _ = some (d.request.bytes 0x00) := hsound
    have hask : s.conn.ask (some (d.request.bytes 0x00)) =
        (s.conn.read (d.request.bytes 0x00)).goto (.connecting d.request.target) := by
      simp only [SocksConn.ask, readInto, parseRequest_eq, d.requestTurn_request]
    rw [hask]
    exact hkeep _ (hnone (.inr hpc)) rfl rfl rfl rfl rfl (.inr (.inr ⟨_, rfl⟩))
  | _ => simp at ha

/-- The tunnel is opened and announced. -/
theorem copies_connect (h : Copies me x y s) (hstep : SocksStep me s a t)
    (hsound : Sound me d x y ends s a) (hfew : t.link.client.Few)
    (ha : a = .dial ∨ (∃ ok, a = .control ok) ∨ a = .answer) : Copies me x y t := by
  cases hstep with
  | @dial target l hpc hlink =>
    have hnone : s.conn.stream = none := by
      cases hk : s.conn.stream with
      | none => rfl
      | some k =>
        obtain ⟨stream, -, hstage, -⟩ := h.stage hk
        simp [SocksConn.Stage, hpc] at hstage
    obtain ⟨-, hup, hdown, htaken, hgiven⟩ := h.before hnone
    have hfew' : s.link.client.Few := Link.few_step hlink hfew
    cases hlink with
    | client hclient hframe =>
      have hjoined := h.joined_client (.client hclient hframe) hfew
      have hworks := Client.works_step hclient trivial h.works
      cases hclient with
      | dial =>
        have hstream : (s.link.client.dial tcp target).streams[s.link.client.streams.length]? =
            some ⟨s.link.client.nextID, tcp, target, .dialing, none, [], []⟩ := by simp
        refine ⟨hjoined, hworks, h.taken, fun hk => (by cases hk), fun hk => ?_, fun hk hs hc hid => ?_⟩
        · cases hk
          refine ⟨_, hstream, ⟨rfl, hup, hdown⟩, htaken.symm, ?_⟩
          change s.conn.down.Gives s.conn.given []
          rw [hdown, hgiven]
          exact rfl
        · cases hk
          obtain rfl := Option.some.inj (hstream.symm.trans hs)
          obtain ⟨k, owner, howner, hids⟩ := h.joined.owner hc
          exact (h.joined.numbered.next_fresh hfew' howner (hids.trans hid)).elim
  | control hpc hk hlink =>
    obtain rfl : _ = true := hsound
    obtain ⟨stream, hs, hstage, hpassed, hgives⟩ := h.stage hk
    simp only [SocksConn.Stage, hpc] at hstage
    cases hlink with
    | client hclient hframe =>
      have hjoined := h.joined_client (.client hclient hframe) hfew
      have hworks := Client.works_step hclient rfl h.works
      cases hclient with
      | control hs' =>
        obtain rfl : stream = _ := Option.some.inj (hs.symm.trans hs')
        exact h.own hjoined hworks hk hs hk (getElem?_modify_self _ (by simpa using hs)) rfl
          ⟨rfl, rfl, hstage.2⟩ hpassed h.taken hgives
  | @answer ok hpc =>
    cases hk : s.conn.stream with
    | none =>
      obtain ⟨hb, -⟩ := h.before hk
      simp [hpc] at hb
    | some k =>
      obtain ⟨stream, hs, hstage, hpassed, hgives⟩ := h.stage hk
      simp only [SocksConn.Stage, hpc] at hstage
      obtain ⟨rfl, hopened, hup, hdown⟩ := hstage
      rw [hdown] at hgives
      have hstage' : (s.conn.answer true).Stage stream.pc := by
        simp [SocksConn.Stage, SocksConn.answer, hopened]
      exact h.own h.joined h.works hk hs hk hs rfl hstage' hpassed h.taken hgives
  | _ => simp at ha

theorem Copies.stream_of_idle (h : Copies me x y s) (hactive : s.conn.up ≠ .idle ∨ s.conn.down ≠ .idle) :
    ∃ k stream, s.conn.stream = some k ∧ s.link.client.streams[k]? = some stream ∧ s.conn.Stage stream.pc ∧
      stream.passed = s.conn.taken ∧ s.conn.down.Gives s.conn.given stream.delivered := by
  cases hk : s.conn.stream with
  | none =>
    obtain ⟨-, hup, hdown, -⟩ := h.before hk
    simp [hup, hdown] at hactive
  | some k =>
    obtain ⟨stream, hs⟩ := h.stage hk
    exact ⟨k, stream, rfl, hs⟩

/-- The goroutine that reads the application has its turn while the handler waits. -/
theorem SocksConn.Stage.copying {c : SocksConn} {pc : TunnelPc} (h : c.Stage pc) (hup : c.up ≠ .idle)
    (hdone : c.up ≠ .done) : c.pc = .copying ∧ pc = .opened ∧ c.down ≠ .idle ∧ c.down ≠ .done := by
  cases hpc : c.pc <;> simp_all [SocksConn.Stage]

theorem copies_up (h : Copies me x y s) (hstep : SocksStep me s a t) (hsound : Sound me d x y ends s a)
    (hfew : t.link.client.Few) (ha : (∃ p, a = .take p) ∨ (∃ ok, a = .pass ok) ∨ a = .takeEnd) :
    Copies me x y t := by
  cases hstep with
  | @take k p l _ hk hup hp hlink =>
    obtain ⟨stream, hs, hstage, hpassed, hgives⟩ := h.stage hk
    obtain ⟨hpc, hopened, hidle, hdone⟩ := hstage.copying (by simp [hup]) (by simp [hup])
    cases hlink with
    | client hclient hframe =>
      have hjoined := h.joined_client (.client hclient hframe) hfew
      have hworks := Client.works_step hclient trivial h.works
      cases hclient with
      | write hs' =>
        obtain rfl : stream = _ := Option.some.inj (hs.symm.trans hs')
        have hstage' : (s.conn.take p).Stage stream.pc := by
          simp [SocksConn.Stage, hpc, hopened, hidle, hdone]
        exact h.own hjoined hworks hk hs hk (getElem?_modify_self _ hs) rfl hstage'
          (congrArg (· ++ p) hpassed) hsound hgives
  | @pass k p ok l hk hup hlink =>
    obtain rfl : ok = true := hsound
    obtain ⟨stream, hs, hstage, hpassed, hgives⟩ := h.stage hk
    obtain ⟨hpc, hopened, hidle, hdone⟩ := hstage.copying (by simp [hup]) (by simp [hup])
    cases hlink with
    | client hclient hframe =>
      have hjoined := h.joined_client (.client hclient hframe) hfew
      have hworks := Client.works_step hclient rfl h.works
      cases hclient with
      | data hs' =>
        obtain rfl : stream = _ := Option.some.inj (hs.symm.trans hs')
        have hstage' : (s.conn.setUp .reading).Stage stream.pc := by
          simp [SocksConn.Stage, hpc, hopened, hidle, hdone]
        exact h.own hjoined hworks hk hs hk (getElem?_modify_self _ (by simpa using hs)) rfl hstage'
          hpassed h.taken hgives
  | takeEnd hup =>
    obtain ⟨k, stream, hk, hs, hstage, hpassed, hgives⟩ := h.stream_of_idle (.inl (by simp [hup]))
    obtain ⟨hpc, hopened, hidle, hdone⟩ := hstage.copying (by simp [hup]) (by simp [hup])
    have hstage' : (s.conn.setUp .done).Stage stream.pc := by
      simp [SocksConn.Stage, hpc, hopened, hidle, hdone]
    exact h.own h.joined h.works hk hs hk hs rfl hstage' hpassed h.taken hgives
  | _ => simp at ha

theorem SocksConn.Stage.setDown {c c' : SocksConn} {pc : TunnelPc} (h : c.Stage pc)
    (hdown : c.down ≠ .idle) (hpc : c'.pc = c.pc) (hup : c'.up = c.up) (hnew : c'.down ≠ .idle)
    (hdone : c'.down = .done → c.pc = .closed ∨ c.pc = .returned) : c'.Stage pc := by
  cases hc : c.pc <;> simp_all [SocksConn.Stage]

theorem copies_down (h : Copies me x y s) (hstep : SocksStep me s a t) (hsound : Sound me d x y ends s a)
    (hfew : t.link.client.Few) (ha : (∃ n, a = .read n) ∨ (∃ ok, a = .give ok) ∨ a = .readEnd) :
    Copies me x y t := by
  cases hstep with
  | @read k n rest l hk hdown hloop hn hlink =>
    obtain ⟨stream, hs, hstage, hpassed, hgives⟩ := h.stage hk
    cases hlink with
    | client hclient hframe =>
      have hjoined := h.joined_client (.client hclient hframe) hfew
      have hworks := Client.works_step hclient trivial h.works
      cases hclient with
      | read hpc hs' =>
        obtain ⟨rfl, rfl⟩ := ReadPc.delivering.inj (hloop.symm.trans hpc)
        obtain rfl : stream = _ := Option.some.inj (hs.symm.trans hs')
        have hstage' : (s.conn.setDown (.writing (rest.take n))).Stage stream.pc :=
          hstage.setDown (by simp [hdown]) rfl rfl (by simp) (by simp)
        have hgives' : (CopyPc.writing (rest.take n)).Gives s.conn.given
            (stream.delivered ++ rest.take n) := by
          rw [hdown] at hgives
          exact congrArg (· ++ rest.take n) hgives
        exact h.own hjoined hworks hk hs hk (getElem?_modify_self _ hs) rfl hstage' hpassed h.taken hgives'
  | @give p ok hreturned hdown =>
    obtain ⟨k, stream, hk, hs, hstage, hpassed, hgives⟩ := h.stream_of_idle (.inr (by simp [hdown]))
    rw [hdown] at hgives
    cases ok with
    | true =>
      exact h.own h.joined h.works hk hs hk hs rfl
        (hstage.setDown (by simp [hdown]) rfl rfl (by simp [SocksConn.give]) (by simp [SocksConn.give]))
        hpassed h.taken hgives
    | false =>
      have hpc : s.conn.pc = .returned := by
        by_contra hne
        cases hsound hne
      exact h.own h.joined h.works hk hs hk hs rfl
        (hstage.setDown (by simp [hdown]) rfl rfl (by simp [SocksConn.give]) fun _ => .inr hpc)
        hpassed h.taken ⟨p, hgives⟩
  | @readEnd closed hdown hclosed hpc =>
    obtain ⟨k, stream, hk, hs, hstage, hpassed, hgives⟩ := h.stream_of_idle (.inr (by simp [hdown]))
    obtain rfl : closed = stream :=
      Option.some.inj (hclosed.symm.trans ((SocksLink.stream_of_conn hk).trans hs))
    have hpast : s.conn.pc = .closed ∨ s.conn.pc = .returned := by
      cases hc : s.conn.pc <;> simp_all [SocksConn.Stage]
    rw [hdown] at hgives
    exact h.own h.joined h.works hk hs hk hs rfl
      (hstage.setDown (by simp [hdown]) rfl rfl (by simp) fun _ => hpast)
      hpassed h.taken (hgives ▸ List.prefix_rfl)
  | _ => simp at ha

theorem copies_close (h : Copies me x y s) (hstep : SocksStep me s a t) (hsound : Sound me d x y ends s a)
    (hfew : t.link.client.Few)
    (ha : a = .finish ∨ a = .delete ∨ (∃ ok, a = .announce ok) ∨ a = .closeReader ∨ a = .close) :
    Copies me x y t := by
  cases hstep with
  | finish hpc hdone =>
    cases hk : s.conn.stream with
    | none =>
      obtain ⟨hb, -⟩ := h.before hk
      simp [hpc] at hb
    | some k =>
      obtain ⟨stream, hs, hstage, hpassed, hgives⟩ := h.stage hk
      have hstage' : (s.conn.goto .closing).Stage stream.pc := by
        simp only [SocksConn.Stage, hpc] at hstage
        obtain ⟨hopened, -, hidle, hnot⟩ := hstage
        exact ⟨.inl hopened, hdone.resolve_right hnot, hidle, hnot⟩
      exact h.own h.joined h.works hk hs hk hs rfl hstage' hpassed h.taken hgives
  | delete hpc hk hlink =>
    obtain ⟨stream, hs, hstage, hpassed, hgives⟩ := h.stage hk
    simp only [SocksConn.Stage, hpc] at hstage
    cases hlink with
    | client hclient hframe =>
      have hjoined := h.joined_client (.client hclient hframe) hfew
      have hworks := Client.works_step hclient trivial h.works
      cases hclient with
      | delete hs' =>
        obtain rfl : stream = _ := Option.some.inj (hs.symm.trans hs')
        have hstage' : s.conn.Stage .deleted := by simp [SocksConn.Stage, hpc, hstage]
        exact h.own hjoined hworks hk hs hk (getElem?_modify_self _ hs) rfl hstage' hpassed h.taken hgives
  | announce hpc hk hlink =>
    obtain rfl : _ = true := hsound
    obtain ⟨stream, hs, hstage, hpassed, hgives⟩ := h.stage hk
    simp only [SocksConn.Stage, hpc] at hstage
    cases hlink with
    | client hclient hframe =>
      have hjoined := h.joined_client (.client hclient hframe) hfew
      have hworks := Client.works_step hclient rfl h.works
      cases hclient with
      | announce hs' =>
        obtain rfl : stream = _ := Option.some.inj (hs.symm.trans hs')
        have hstage' : s.conn.Stage .announced := by simp [SocksConn.Stage, hpc, hstage]
        exact h.own hjoined hworks hk hs hk (getElem?_modify_self _ (by simpa using hs)) rfl hstage'
          hpassed h.taken hgives
  | closeReader hpc hk hlink =>
    obtain ⟨stream, hs, hstage, hpassed, hgives⟩ := h.stage hk
    simp only [SocksConn.Stage, hpc] at hstage
    cases hlink with
    | client hclient hframe =>
      have hjoined := h.joined_client (.client hclient hframe) hfew
      have hworks := Client.works_step hclient trivial h.works
      cases hclient with
      | closeReader hs' =>
        obtain rfl : stream = _ := Option.some.inj (hs.symm.trans hs')
        exact h.own hjoined hworks hk hs hk (getElem?_modify_self _ hs) rfl ⟨rfl, hstage.2.1, hstage.2.2.1⟩
          hpassed h.taken hgives
  | close hpc =>
    cases hk : s.conn.stream with
    | none =>
      obtain ⟨hb, -⟩ := h.before hk
      simp [hpc] at hb
    | some k =>
      obtain ⟨stream, hs, hstage, hpassed, hgives⟩ := h.stage hk
      simp only [SocksConn.Stage, hpc] at hstage
      exact h.own h.joined h.works hk hs hk hs rfl hstage hpassed h.taken hgives
  | _ => simp at ha

/-- The steps of the rest leave the connection and its stream as they are, and the upstream gives no
more than it sends. -/
theorem copies_other {la : LinkAct} (h : Copies me x y s) (hstep : SocksStep me s (.other la) t)
    (hsound : Sound me d x y ends s (.other la)) (hfew : t.link.client.Few) : Copies me x y t := by
  cases hstep with
  | other hother hlink =>
    cases hlink with
    | client hclient hframe =>
      have hjoined := h.joined_client (.client hclient hframe) hfew
      have hworks := Client.works_step hclient hsound h.works
      refine ⟨hjoined, hworks, h.taken, h.before, fun {k} hk => ?_, fun hk hs hc hid => ?_⟩
      · obtain ⟨stream, hs, hrest⟩ := h.stage hk
        exact ⟨stream, Client.stream_step hclient (hother k hk) hs, hrest⟩
      · obtain ⟨stream, hold, -⟩ := h.stage hk
        obtain rfl := Option.some.inj ((Client.stream_step hclient (hother _ hk) hold).symm.trans hs)
        exact h.upstream hk hold hc hid
    | @server sid act sr hserver hframe =>
      have hjoined : Link.Joined me ⟨s.link.client, sr⟩ :=
        Link.joined_stable s.link (.server sid act) _ ⟨fun hme => (hsound hme).2, .server hserver hframe⟩
          (fun _ => h.joined) hfew
      refine ⟨hjoined, h.works, h.taken, h.before, h.stage, fun {k i stream c} hk hs hc hid => ?_⟩
      by_cases hme : sid = me
      · obtain ⟨hworks, -⟩ := hsound hme
        subst hme
        obtain ⟨_, _, _, -, hnew⟩ | ⟨g, hg, hgrows⟩ :=
          SessionView.conns_step (ServerRelay.step_view h.joined.own hserver) i
        · obtain rfl := Option.some.inj (hnew.symm.trans hc)
          exact List.nil_prefix
        · obtain ⟨c', hc', rfl⟩ := Option.map_eq_some_iff.mp (hg.symm.trans hc)
          have hold := hgrows c' hc'
          have hprior := h.upstream hk hs hc' (hold.streamID.symm.trans hid)
          obtain htaken | ⟨data, ended, rfl, htaken, hclosed⟩ := hold.taken
          · exact htaken ▸ hprior
          · rw [htaken]
            cases hcl : c'.closed with
            | true =>
              rw [hclosed hcl, List.append_nil]
              exact hprior
            | false =>
              exact (hworks stream c' ((SocksLink.stream_of_conn hk).trans hs) hc'
                (hold.streamID.symm.trans hid) hcl).1
      · have hview := ServerRelay.step_other h.joined.own hserver (Ne.symm hme)
        have hsession : (sr.sessions me).conns = (s.link.server.sessions me).conns :=
          congrArg (·.conns) hview
        exact h.upstream hk hs (hsession ▸ hc) hid

theorem copies_step (h : Copies me x y s) (hstep : SocksStep me s a t) (hsound : Sound me d x y ends s a)
    (hfew : t.link.client.Few) : Copies me x y t := by
  cases a with
  | greeting data => exact copies_negotiate h hstep hsound (.inl ⟨data, rfl⟩)
  | request data => exact copies_negotiate h hstep hsound (.inr ⟨data, rfl⟩)
  | dial => exact copies_connect h hstep hsound hfew (.inl rfl)
  | control ok => exact copies_connect h hstep hsound hfew (.inr (.inl ⟨ok, rfl⟩))
  | answer => exact copies_connect h hstep hsound hfew (.inr (.inr rfl))
  | take p => exact copies_up h hstep hsound hfew (.inl ⟨p, rfl⟩)
  | pass ok => exact copies_up h hstep hsound hfew (.inr (.inl ⟨ok, rfl⟩))
  | takeEnd => exact copies_up h hstep hsound hfew (.inr (.inr rfl))
  | read n => exact copies_down h hstep hsound hfew (.inl ⟨n, rfl⟩)
  | give ok => exact copies_down h hstep hsound hfew (.inr (.inl ⟨ok, rfl⟩))
  | readEnd => exact copies_down h hstep hsound hfew (.inr (.inr rfl))
  | finish => exact copies_close h hstep hsound hfew (.inl rfl)
  | delete => exact copies_close h hstep hsound hfew (.inr (.inl rfl))
  | announce ok => exact copies_close h hstep hsound hfew (.inr (.inr (.inl ⟨ok, rfl⟩)))
  | closeReader => exact copies_close h hstep hsound hfew (.inr (.inr (.inr (.inl rfl))))
  | close => exact copies_close h hstep hsound hfew (.inr (.inr (.inr (.inr rfl))))
  | other la => exact copies_other h hstep hsound hfew

theorem copies_run {acts : List SocksAct}
    (h : Run (SoundStep me d x y ends) SocksLink.initial acts s)
    (hfew : s.link.client.Few) : Copies me x y s := by
  have hstable : Stable (SoundStep me d x y ends) fun s =>
      s.link.client.Few → Copies me x y s := by
    rintro s a t ⟨hsound, hstep⟩ hs hfew
    exact copies_step (hs (few_of_step hstep hfew)) hstep hsound hfew
  exact h.invariant hstable (fun _ => copies_initial) hfew

end Copies

end SshPanelVpn.ShadowLink

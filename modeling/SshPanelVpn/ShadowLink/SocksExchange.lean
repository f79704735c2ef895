import SshPanelVpn.ShadowLink.SocksCopy

/-! What both sides of a SOCKS5 connection have got when `handleSOCKS5` returns. -/
namespace SshPanelVpn.ShadowLink

open Octets Runs Indexed

/-- What the upstream of the connection has got. -/
def SocksLink.reached (me : SessionId) (s : SocksLink) : Bytes :=
  match s.stream with
  | none => []
  | some stream =>
    match (s.link.server.sessions me).conns.find? fun c => decide (c.streamID = stream.id) with
    | none => []
    | some c => c.written

/-- The upstream has got all of `x`, and the application all of `y`. -/
structure Exchanged (me : SessionId) (x y : Bytes) (s : SocksLink) : Prop where
  up : s.reached me = x
  down : s.conn.given = y

/-- Whenever the call returns, all has been exchanged. -/
def Complete (me : SessionId) (d : SocksDialogue) (x y : Bytes) (ends : SocksLink → Prop) : Prop :=
  ∀ acts s, Run (SoundStep me d x y ends) SocksLink.initial acts s →
    s.link.client.Few → s.conn.pc = .returned → Exchanged me x y s

section Exchange

variable {me : SessionId} {d : SocksDialogue} {x y : Bytes} {ends : SocksLink → Prop} {s t : SocksLink}
  {a : SocksAct} {k : Nat} {stream : TunnelStream}

/-! Both directions carry beginnings only. -/

theorem Copies.given_isPrefix (h : Copies me x y s) (hfew : s.link.client.Few) : s.conn.given <+: y := by
  cases hk : s.conn.stream with
  | none =>
    rw [(h.before hk).2.2.2.2]
    exact List.nil_prefix
  | some k =>
    obtain ⟨stream, hs, -, -, hgives⟩ := h.stage hk
    have hcarried := h.joined.carried hfew
    by_cases hconn : ∃ (i : Nat) (c : Upstream),
        (s.link.server.sessions me).conns[i]? = some c ∧ c.streamID = stream.id
    · obtain ⟨i, c, hc, hid⟩ := hconn
      exact hgives.isPrefix.trans ((hcarried.back hs hc hid).trans
        (h.upstream hk hs hc hid))
    · have hnone : stream.delivered = [] :=
        hcarried.undialed hs fun i c hc hid => hconn ⟨i, c, hc, hid⟩
      have hle := hgives.isPrefix
      rw [hnone, List.prefix_nil] at hle
      rw [hle]
      exact List.nil_prefix

theorem reached_eq {c : Upstream} {i : Nat} (h : Link.Joined me s.link) (hs : s.stream = some stream)
    (hc : (s.link.server.sessions me).conns[i]? = some c) (hid : c.streamID = stream.id) :
    s.reached me = c.written := by
  rw [SocksLink.reached, hs]
  dsimp only
  cases hfind : (s.link.server.sessions me).conns.find? fun c => decide (c.streamID = stream.id) with
  | none =>
    have hnone := List.find?_eq_none.mp hfind c (List.mem_of_getElem? hc)
    exact absurd hid (by simpa using hnone)
  | some c' =>
    obtain ⟨j, hj⟩ := List.mem_iff_getElem?.mp (List.mem_of_find?_eq_some hfind)
    have hid' : c'.streamID = stream.id := by simpa using List.find?_some hfind
    obtain rfl := h.carries.distinct hc hj (hid.trans hid'.symm)
    rw [hc, Option.some.injEq] at hj
    rw [hj]

theorem reached_cases (me : SessionId) (s : SocksLink) :
    s.reached me = [] ∨ ∃ stream c, ∃ i : Nat, s.stream = some stream ∧
      (s.link.server.sessions me).conns[i]? = some c ∧ c.streamID = stream.id ∧
      s.reached me = c.written := by
  rw [SocksLink.reached]
  cases hstream : s.stream with
  | none => exact .inl rfl
  | some stream =>
    dsimp only
    cases hfind : (s.link.server.sessions me).conns.find? fun c => decide (c.streamID = stream.id) with
    | none => exact .inl rfl
    | some c =>
      obtain ⟨i, hi⟩ := List.mem_iff_getElem?.mp (List.mem_of_find?_eq_some hfind)
      exact .inr ⟨stream, c, i, rfl, hi, by simpa using List.find?_some hfind, rfl⟩

theorem Copies.reached_isPrefix (h : Copies me x y s) (hfew : s.link.client.Few) : s.reached me <+: x := by
  obtain hnil | ⟨stream, c, i, hs, hc, hid, hreached⟩ := reached_cases me s
  · rw [hnil]
    exact List.nil_prefix
  · cases hk : s.conn.stream with
    | none => simp [SocksLink.stream, hk] at hs
    | some k =>
      obtain ⟨stream', hs', -, hpassed, -⟩ := h.stage hk
      rw [SocksLink.stream_of_conn hk, hs', Option.some.injEq] at hs
      subst hs
      rw [hreached]
      exact ((h.joined.carried hfew).forward hs' hc hid).trans (hpassed ▸ h.taken)

/-! What has arrived stays. -/

theorem Client.id_step {c c' : Client} {ca : ClientAct} (h : ClientStep c ca c')
    (hs : c.streams[k]? = some stream) :
    ∃ stream', c'.streams[k]? = some stream' ∧ stream'.id = stream.id := by
  have hmodify : ∀ (j : Nat) (f : TunnelStream → TunnelStream), (∀ u, (f u).id = u.id) →
      ∃ stream', (c.streams.modify j f)[k]? = some stream' ∧ stream'.id = stream.id := by
    intro j f hf
    refine ⟨_, getElem?_modify_of_some hs, ?_⟩
    split
    · exact hf stream
    · rfl
  cases h with
  | dial => exact ⟨stream, getElem?_append_of_some hs, rfl⟩
  | control | data | write | delete | announce | closeReader =>
    simp only [Client.update_streams, Client.send_streams, Client.delete_streams]
    exact hmodify _ _ fun _ => rfl
  | read => exact hmodify _ _ fun _ => rfl
  | _ => exact ⟨stream, by simpa using hs, rfl⟩

theorem id_step {l l' : Link} {la : LinkAct} (h : LinkStep me l la l')
    (hs : l.client.streams[k]? = some stream) :
    ∃ stream', l'.client.streams[k]? = some stream' ∧ stream'.id = stream.id := by
  cases h with
  | client h => exact Client.id_step h hs
  | server => exact ⟨stream, hs, rfl⟩

/-- The two messages are no part of the copying. -/
theorem SocksConn.greet_keeps (c : SocksConn) (data : Option Bytes) : (c.greet data).stream = c.stream ∧
    (c.greet data).up = c.up ∧ (c.greet data).given = c.given := by
  cases data with
  | none => exact ⟨rfl, rfl, rfl⟩
  | some data =>
    simp only [SocksConn.greet]
    split <;> exact ⟨rfl, rfl, rfl⟩

theorem SocksConn.ask_keeps (c : SocksConn) (data : Option Bytes) : (c.ask data).stream = c.stream ∧
    (c.ask data).up = c.up ∧ (c.ask data).given = c.given := by
  cases data with
  | none => exact ⟨rfl, rfl, rfl⟩
  | some data =>
    simp only [SocksConn.ask]
    split <;> exact ⟨rfl, rfl, rfl⟩

/-- Every step but the dial leaves the connection with its stream. -/
theorem stream_of_step (h : SocksStep me s a t) (ha : a ≠ .dial) : t.conn.stream = s.conn.stream := by
  cases h with
  | greeting => exact (s.conn.greet_keeps _).1
  | request => exact (s.conn.ask_keeps _).1
  | dial => exact (ha rfl).elim
  | @answer ok => cases ok <;> rfl
  | @give p ok => cases ok <;> rfl
  | _ => rfl

theorem given_step (h : SocksStep me s a t) : s.conn.given <+: t.conn.given := by
  cases h with
  | greeting => exact (s.conn.greet_keeps _).2.2 ▸ List.prefix_rfl
  | request => exact (s.conn.ask_keeps _).2.2 ▸ List.prefix_rfl
  | @answer ok => cases ok <;> exact List.prefix_rfl
  | @give p ok =>
    cases ok with
    | false => exact List.prefix_rfl
    | true => exact List.prefix_append _ _
  | _ => exact List.prefix_rfl

theorem written_step {l l' : Link} {la : LinkAct} {i : Nat} {c : Upstream} (h : LinkStep me l la l')
    (hjoined : Link.Joined me l) (hc : (l.server.sessions me).conns[i]? = some c) :
    ∃ c', (l'.server.sessions me).conns[i]? = some c' ∧ c'.streamID = c.streamID ∧
      c.written <+: c'.written := by
  cases h with
  | client => exact ⟨c, hc, rfl, List.prefix_rfl⟩
  | @server sid act sr hserver hframe =>
    by_cases hme : sid = me
    · subst hme
      obtain ⟨_, _, _, hnone, -⟩ | ⟨g, hg, hgrows⟩ :=
        SessionView.conns_step (ServerRelay.step_view hjoined.own hserver) i
      · cases hnone.symm.trans hc
      · have hold : (l.server.view sid).conns[i]? = some c := hc
        rw [hold] at hg
        have hnew := hgrows c hc
        exact ⟨g c, hg, hnew.streamID, hnew.written⟩
    · have hview := ServerRelay.step_other hjoined.own hserver (Ne.symm hme)
      have hsession : (sr.sessions me).conns = (l.server.sessions me).conns := congrArg (·.conns) hview
      exact ⟨c, hsession ▸ hc, rfl, List.prefix_rfl⟩

theorem reached_step (h : Copies me x y s) (hstep : SocksStep me s a t) (hjoined : Link.Joined me t.link) :
    s.reached me <+: t.reached me := by
  obtain hnil | ⟨stream, c, i, hs, hc, hid, hreached⟩ := reached_cases me s
  · rw [hnil]
    exact List.nil_prefix
  · cases hk : s.conn.stream with
    | none => simp [SocksLink.stream, hk] at hs
    | some k =>
      have hdial : a ≠ .dial := by
        rintro rfl
        cases hstep with
        | dial hpc =>
          obtain ⟨_, -, hstage, -⟩ := h.stage hk
          simp [SocksConn.Stage, hpc] at hstage
      have hk' : t.conn.stream = some k := (stream_of_step hstep hdial).trans hk
      have hold := (SocksLink.stream_of_conn hk).symm.trans hs
      obtain ⟨stream', hs', hids, c', hc', hid', hwritten⟩ : ∃ stream',
          t.link.client.streams[k]? = some stream' ∧ stream'.id = stream.id ∧
            ∃ c', (t.link.server.sessions me).conns[i]? = some c' ∧ c'.streamID = c.streamID ∧
              c.written <+: c'.written := by
        obtain hlink | ⟨la, hlink⟩ := link_step hstep
        · rw [hlink]
          exact ⟨stream, hold, rfl, c, hc, rfl, List.prefix_rfl⟩
        · obtain ⟨stream', hs', hids⟩ := id_step hlink hold
          exact ⟨stream', hs', hids, written_step hlink h.joined hc⟩
      rw [hreached, reached_eq hjoined ((SocksLink.stream_of_conn hk').trans hs') hc'
        (hid'.trans (hid.trans hids.symm))]
      exact hwritten

/-- What has been exchanged stays exchanged. -/
theorem exchanged_step (h : Copies me x y s) (hstep : SocksStep me s a t)
    (hsound : Sound me d x y ends s a) (hfew : t.link.client.Few) (he : Exchanged me x y s) :
    Exchanged me x y t := by
  have ht := copies_step h hstep hsound hfew
  have hup : x <+: t.reached me := he.up ▸ reached_step h hstep ht.joined
  have hdown : y <+: t.conn.given := he.down ▸ given_step hstep
  exact ⟨(ht.reached_isPrefix hfew).eq_of_length_le hup.length_le,
    (ht.given_isPrefix hfew).eq_of_length_le hdown.length_le⟩

/-! From the end of the application to the return. -/

theorem reached_congr {stream' : TunnelStream} (hserver : t.link.server = s.link.server)
    (hs : s.stream = some stream) (ht : t.stream = some stream') (hid : stream'.id = stream.id) :
    t.reached me = s.reached me := by
  rw [SocksLink.reached, SocksLink.reached, hs, ht, hserver]
  dsimp only
  rw [hid]

/-- The call can return at once when the application has ended its direction. -/
theorem exists_returned (h : Copies me x y s) (hup : s.conn.up = .reading) (htaken : s.conn.taken = x)
    (hends : ends s) : ∃ acts t, Run (SoundStep me d x y ends) s acts t ∧
      t.link.client.streams.length = s.link.client.streams.length ∧ t.conn.pc = .returned ∧
      t.conn.given = s.conn.given ∧ t.reached me = s.reached me := by
  obtain ⟨k, stream, hk, hs, hstage, -⟩ := h.stream_of_idle (.inl (by simp [hup]))
  obtain ⟨hpc, hopened, -⟩ := hstage.copying (by simp [hup]) (by simp [hup])
  let deleted := (s.link.client.delete stream.id).update k (·.goto .deleted)
  have hdeleted : deleted.streams[k]? = some (stream.goto .deleted) := getElem?_modify_self _ hs
  let announced := (deleted.send stream.closeFrame true).update k (·.goto .announced)
  have hannounced : announced.streams[k]? = some ((stream.goto .deleted).goto .announced) :=
    getElem?_modify_self _ hdeleted
  have hclosed := getElem?_modify_self (·.goto .closed) hannounced
  let t : SocksLink := ⟨⟨announced.update k (·.goto .closed), s.link.server⟩,
    (((s.conn.setUp .done).goto .closing).goto .closed).goto .returned, s.dialed⟩
  have ht := (SocksLink.stream_of_conn (s := t) hk).trans hclosed
  refine ⟨[.takeEnd, .finish, .delete, .announce true, .closeReader, .close], t,
    .step ⟨⟨htaken, hends⟩, .takeEnd hup⟩ <|
    .step ⟨trivial, .finish hpc (.inl rfl)⟩ <|
    .step ⟨trivial, .delete rfl hk (.client (.delete hs hopened) fun f hf => by cases hf)⟩ <|
    .step ⟨rfl, .announce rfl hk
      (.client (.announce hdeleted rfl fun _ => ⟨h.works.wsClosed, ?_⟩) fun f hf => by cases hf)⟩ <|
    .step ⟨trivial, .closeReader rfl hk (.client (.closeReader hannounced rfl) fun f hf => by cases hf)⟩ <|
    .step ⟨trivial, .close rfl⟩ <| .refl _, ?_, rfl, rfl, ?_⟩
  · exact (length_encodeStreamID stream.id).trans_le (by decide)
  · simp [t, announced, deleted]
  · exact reached_congr rfl ((SocksLink.stream_of_conn hk).trans hs) ht rfl

/-- When the application's end is read, all has been exchanged. -/
def EndsLast (me : SessionId) (d : SocksDialogue) (x y : Bytes) (ends : SocksLink → Prop) : Prop :=
  ∀ acts s, Run (SoundStep me d x y ends) SocksLink.initial acts s →
    s.link.client.Few → s.conn.up = .reading → s.conn.taken = x → ends s → Exchanged me x y s

theorem up_done_step (h : SocksStep me s a t) (hsound : Sound me d x y ends s a)
    (hup : t.conn.up = .done) : s.conn.up = .done ∨ a = .takeEnd := by
  cases h with
  | greeting => exact .inl ((s.conn.greet_keeps _).2.1.symm.trans hup)
  | request => exact .inl ((s.conn.ask_keeps _).2.1.symm.trans hup)
  | @answer ok =>
    cases ok with
    | false => exact .inl hup
    | true => cases hup
  | take => cases hup
  | pass =>
    obtain rfl : _ = true := hsound
    cases hup
  | takeEnd => exact .inr rfl
  | @give p ok => cases ok <;> exact .inl hup
  | _ => exact .inl hup

theorem complete_iff_endsLast : Complete me d x y ends ↔ EndsLast me d x y ends := by
  constructor
  · intro h acts s hrun hfew hup htaken hends
    obtain ⟨acts', t, hrun', hlen, hpc, hgiven, hreached⟩ :=
      exists_returned (copies_run hrun hfew) hup htaken hends
    have ht := h _ t (hrun.append hrun') (hlen.trans_lt hfew) hpc
    exact ⟨hreached.symm.trans ht.up, hgiven.symm.trans ht.down⟩
  · intro h acts s hrun hfew hpc
    have hstable : Stable (SoundStep me d x y ends) fun s =>
        (∃ acts, Run (SoundStep me d x y ends) SocksLink.initial acts s) ∧
          (s.link.client.Few → s.conn.up = .done → Exchanged me x y s) := by
      rintro s a t ⟨hsound, hstep⟩ ⟨⟨acts, hrun⟩, hdone⟩
      refine ⟨⟨_, hrun.snoc ⟨hsound, hstep⟩⟩, fun hfew hup => ?_⟩
      have hfew' := few_of_step hstep hfew
      have hexchanged : Exchanged me x y s := by
        obtain hup' | rfl := up_done_step hstep hsound hup
        · exact hdone hfew' hup'
        · cases hstep with
          | takeEnd hup' => exact h acts s hrun hfew' hup' hsound.1 hsound.2
      exact exchanged_step (copies_run hrun hfew') hstep hsound hfew hexchanged
    refine (hrun.invariant hstable ⟨⟨[], .refl _⟩, fun _ hup => by cases hup⟩).2 hfew ?_
    have hs := copies_run hrun hfew
    cases hk : s.conn.stream with
    | none =>
      obtain ⟨hb, -⟩ := hs.before hk
      simp [hpc] at hb
    | some k =>
      obtain ⟨stream, -, hstage, -⟩ := hs.stage hk
      simp only [SocksConn.Stage, hpc] at hstage
      exact hstage.2.1

/-! An application that does not wait. -/

/-- The goroutine that reads the application is at its read. -/
structure Passing (k : Nat) (s : SocksLink) : Prop where
  pc : s.conn.pc = .copying
  stream : s.conn.stream = some k
  up : s.conn.up = .reading
  works : s.link.client.Works
  opened : ∃ stream, s.link.client.streams[k]? = some stream ∧ stream.pc = .opened ∧ stream.writing = none

theorem exists_passed (rest : Bytes) (h : Passing k s) (hrest : s.conn.taken ++ rest <+: x) :
    ∃ acts t, Run (SoundStep me d x y ends) s acts t ∧ Passing k t ∧
      t.conn.taken = s.conn.taken ++ rest ∧ t.conn.given = s.conn.given ∧ t.link.server = s.link.server ∧
      t.link.client.streams.length = s.link.client.streams.length := by
  induction rest generalizing s with
  | nil => exact ⟨[], s, .refl s, h, by simp, rfl, rfl, rfl⟩
  | cons b rest ih =>
    obtain ⟨stream, hs, hopened, hidle⟩ := h.opened
    let written := s.link.client.update k (·.pass [b])
    have hwritten : written.streams[k]? = some (stream.pass [b]) := getElem?_modify_self _ hs
    let t : SocksLink := ⟨⟨(written.send (stream.dataFrame [b]) true).update k (·.written), s.link.server⟩,
      (s.conn.take [b]).setUp .reading, s.dialed⟩
    have htake : s.conn.taken ++ [b] <+: x := by
      refine List.IsPrefix.trans ?_ hrest
      exact ⟨rest, by simp⟩
    have hrun : Run (SoundStep me d x y ends) s [SocksAct.take [b], SocksAct.pass true] t := by
      refine .step ⟨htake, .take (by simp [h.pc]) h.stream h.up (by simp [copyBufSize])
          (.client (.write hs (by simp [hopened]) hidle (by simp)) fun f hf => by cases hf)⟩ <|
        .step ⟨rfl, .pass h.stream rfl
          (.client (.data hwritten rfl fun _ => ⟨h.works.wsClosed, ?_⟩) fun f hf => by cases hf)⟩ <|
        .refl _
      have hlen : (encodeStreamID stream.id ++ [b]).length = 5 := by simp
      exact hlen.trans_le (by decide)
    have ht : Passing k t := ⟨h.pc, h.stream, rfl, ⟨h.works.broken, h.works.closing, h.works.wsClosed⟩,
      _, getElem?_modify_self _ hwritten, hopened, rfl⟩
    obtain ⟨acts, u, hrun', hu, htaken, hgiven, hserver, hlen⟩ := ih ht (by simpa [t] using hrest)
    exact ⟨_, u, hrun.append hrun', hu, by simpa [t] using htaken, hgiven, hserver,
      by simpa [t, written] using hlen⟩

/-- All of `x` can be read before the server does anything. -/
theorem exists_ahead (me : SessionId) (d : SocksDialogue) (x y : Bytes) (ends : SocksLink → Prop) :
    ∃ acts s, Run (SoundStep me d x y ends) SocksLink.initial acts s ∧
      s.link.client.Few ∧ s.conn.up = .reading ∧ s.conn.taken = x ∧ s.conn.given = [] ∧
      s.reached me = [] := by
  have hsound : ∀ s a, a ∈ answeredActs d.greeting (d.request.bytes 0x00) → Sound me d x y ends s a := by
    intro s a ha
    simp only [answeredActs, List.mem_cons, List.not_mem_nil, or_false] at ha
    obtain rfl | rfl | rfl | rfl | rfl := ha
    · exact rfl
    · exact rfl
    · exact trivial
    · exact rfl
    · exact trivial
  obtain ⟨s, hrun, hs⟩ :=
    exists_answered me d.greeting_accepted d.requestTurn_request fun s a _ => hsound s a
  have hpassing : Passing 0 s := by
    refine ⟨by rw [hs.conn], by rw [hs.conn], by rw [hs.conn], ?_, ?_⟩
    · rw [hs.client]
      exact ⟨rfl, rfl, rfl⟩
    · rw [hs.client]
      exact ⟨_, rfl, rfl, rfl⟩
  have htaken : s.conn.taken = [] := by rw [hs.conn]
  have hrest : s.conn.taken ++ x <+: x := by simp [htaken]
  obtain ⟨acts, t, hrun', ht, htaken', hgiven, hserver, hlen⟩ := exists_passed x hpassing hrest
  refine ⟨_, t, hrun.append hrun', ?_, ht.up, by simpa [htaken] using htaken', ?_, ?_⟩
  · rw [Client.Few, hlen, hs.client]
    change 1 < 2 ^ 32
    decide
  · rw [hgiven, hs.conn]
  · obtain hnil | ⟨stream, c, i, -, hc, -⟩ := reached_cases me t
    · exact hnil
    · rw [hserver, hs.server] at hc
      cases hc

/-- For every dialogue, both byte sequences and over all interleavings: all has been exchanged whenever
the call returns just where that is so when the application's end is read, which the call does not wait
for; if the application may end at any time, just where nothing is sent. -/
theorem complete_iff (me : SessionId) (d : SocksDialogue) (x y : Bytes) :
    (∀ ends, Complete me d x y ends ↔ EndsLast me d x y ends) ∧
      (Complete me d x y (fun _ => True) ↔ x = [] ∧ y = []) := by
  refine ⟨fun ends => complete_iff_endsLast, complete_iff_endsLast.trans ⟨fun h => ?_, ?_⟩⟩
  · obtain ⟨acts, s, hrun, hfew, hup, htaken, hgiven, hreached⟩ := exists_ahead me d x y fun _ => True
    have hs := h acts s hrun hfew hup htaken trivial
    exact ⟨hs.up.symm.trans hreached, hs.down.symm.trans hgiven⟩
  · rintro ⟨rfl, rfl⟩ acts s hrun hfew - - -
    have hs := copies_run hrun hfew
    exact ⟨List.prefix_nil.mp (hs.reached_isPrefix hfew), List.prefix_nil.mp (hs.given_isPrefix hfew)⟩

/-- What the application has not been given when the call returns, it is never given. -/
theorem given_of_returned {acts : List SocksAct} (h : Run (SocksStep me) s acts t)
    (hpc : s.conn.pc = .returned) : t.conn.given = s.conn.given := by
  have hstable : Stable (SocksStep me) fun u => u.conn.pc = .returned ∧ u.conn.given = s.conn.given := by
    rintro u a v hstep ⟨hu, hgiven⟩
    cases hstep with
    | greeting hpc | request hpc => simp [hu] at hpc
    | dial hpc | control hpc | answer hpc | finish hpc | delete hpc | announce hpc | closeReader hpc
    | close hpc =>
      simp [hu] at hpc
    | take hpc => exact (hpc hu).elim
    | give hok =>
      obtain rfl := hok hu
      exact ⟨hu, hgiven⟩
    | _ => exact ⟨hu, hgiven⟩
  exact (h.invariant hstable ⟨hpc, rfl⟩).2

end Exchange

/-- An application that ends its direction after its request gets nothing of the answer. -/
theorem not_complete : ¬ ∀ (me : SessionId) (d : SocksDialogue) (x y : Bytes),
    Complete me d x y fun _ => True := by
  intro h
  obtain ⟨acts, s, hrun, hfew, hup, htaken, hgiven, -⟩ :=
    exists_ahead [] sampleDialogue [0x47] [0x41] fun _ => True
  have hends := complete_iff_endsLast.mp (h [] sampleDialogue [0x47] [0x41])
  have hs := hends acts s hrun hfew hup htaken trivial
  cases hgiven.symm.trans hs.down

end SshPanelVpn.ShadowLink

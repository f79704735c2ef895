import SshPanelVpn.ShadowLink.RelayStreams
import SshPanelVpn.ShadowLink.ClientStreams

/-! A client and the session of a server that it is connected to, over a transport that delivers
frames in the order they were written. -/
namespace SshPanelVpn.ShadowLink

open Octets Runs Indexed

structure Link where
  client : Client
  server : ServerRelay

inductive LinkAct where
  | client (act : ClientAct)
  | server (sid : SessionId) (act : RelayAct)
  deriving DecidableEq, Repr

def Link.initial : Link := ⟨.initial, .initial⟩

/-- What was received so far is a beginning of what the other end has sent. The other sessions of
the server have clients of their own. -/
inductive LinkStep (me : SessionId) : Link → LinkAct → Link → Prop where
  | client {l : Link} {a : ClientAct} {c : Client} (h : ClientStep l.client a c)
      (hframe : ∀ f, a = .frame (some f) →
        (l.server.sessions me).sent[l.client.received.length]? = some f) :
      LinkStep me l (.client a) ⟨c, l.server⟩
  | server {l : Link} {sid : SessionId} {a : RelayAct} {sr : ServerRelay}
      (h : RelayStep l.server (sid, a) sr)
      (hframe : ∀ f, sid = me → a = .frame (some f) →
        l.client.sent[(l.server.sessions me).received.length]? = some f) :
      LinkStep me l (.server sid a) ⟨l.client, sr⟩

variable {me sid : SessionId} {l l' : Link} {label : LinkAct} {c c' : Client} {a : ClientAct} {act : RelayAct}
  {v v' : SessionView}

theorem Client.received_step (h : ClientStep c a c') :
    (∃ f, a = .frame (some f) ∧ c'.received = c.received ++ [f]) ∨ c'.received = c.received := by
  cases h with
  | @frame f hpc =>
    cases f with
    | none => exact .inr rfl
    | some f => exact .inl ⟨f, rfl, rfl⟩
  | _ => exact .inr (by simp)

theorem Client.sent_step (h : ClientStep c a c') : c.sent <+: c'.sent := by
  have hsend : ∀ f ok, c.sent <+: (c.send f ok).sent := by
    intro f ok
    cases ok with
    | false => exact List.prefix_rfl
    | true => exact List.prefix_append _ _
  cases h with
  | control => exact hsend _ _
  | data => exact hsend _ _
  | announce => exact hsend _ _
  | keepalive => exact hsend _ _
  | shutdown => exact hsend _ _
  | frame => simp
  | _ => exact List.prefix_rfl

theorem SessionView.received_step (h : SessionStep sid v act v') :
    (∃ f, act = .frame (some f) ∧ v'.received = v.received ++ [f]) ∨
      ((∀ f, act ≠ .frame (some f)) ∧ v'.received = v.received) := by
  cases h with
  | @frame f hpc =>
    cases f with
    | none => exact .inr ⟨by simp, rfl⟩
    | some f => exact .inl ⟨f, rfl, rfl⟩
  | @dial _ _ _ ok =>
    refine .inr ⟨by simp, ?_⟩
    cases ok <;> rfl
  | cleanup => exact .inr ⟨by simp, closeAll_history.1⟩
  | _ => exact .inr ⟨by simp, by simp [insertStream]⟩

theorem SessionView.sent_step (h : SessionStep sid v act v') : v.sent <+: v'.sent := by
  cases h with
  | @frame f hpc => cases f <;> exact List.prefix_rfl
  | @dial _ _ _ ok => cases ok <;> exact List.prefix_rfl
  | cleanup => exact closeAll_history.2 ▸ List.prefix_rfl
  | @send i ok =>
    cases ok with
    | false => exact List.prefix_rfl
    | true => exact List.prefix_append _ _
  | _ => simp [insertStream]

namespace Link

/-- A failed write, to the tunnel or to an upstream connection of the session, is permanent. -/
def FailsForGood (me : SessionId) (l : Link) : LinkAct → Prop
  | .client a => a.sends = true → l.client.broken = false
  | .server sid a => sid = me → (l.server.view me).WritesFailForGood a

/-- The invariants of the two ends and what each has received of the other. -/
structure Joined (me : SessionId) (l : Link) : Prop where
  own : l.server.OwnRefs
  attached : (l.server.view me).Attached
  carries : (l.server.view me).Carries
  numbered : l.client.Numbered
  sends : l.client.Sends
  reads : l.client.Reads
  up : (l.server.sessions me).received <+: l.client.sent
  down : l.client.received <+: (l.server.sessions me).sent

theorem joined_initial : Joined me initial where
  own := ServerRelay.ownRefs_initial
  attached := SessionView.attached_initial
  carries := SessionView.carries_initial
  numbered := Client.numbered_initial
  sends := Client.sends_initial
  reads := Client.reads_initial
  up := List.nil_prefix
  down := List.nil_prefix

/-- Every upstream connection was dialed for a stream of the client. -/
theorem Joined.owner (h : Joined me l) {i : Nat} {c : Upstream}
    (hc : (l.server.sessions me).conns[i]? = some c) :
    ∃ (k : Nat) (s : TunnelStream), l.client.streams[k]? = some s ∧ s.id = c.streamID := by
  obtain ⟨f, hf, ho⟩ := h.carries.opened hc
  exact h.sends.known (h.up.subset hf) ho.names

/-- Nothing comes in for a stream that has not been opened. -/
theorem Joined.next_silent (h : Joined me l) (hn : l.client.Few) :
    dataFor l.client.nextID l.client.received = [] := by
  have hsilent : dataFor l.client.nextID (l.server.sessions me).sent = [] := by
    apply h.carries.silent
    intro i c hc hid
    obtain ⟨k, s, hs, hids⟩ := h.owner hc
    exact h.numbered.next_fresh hn hs (hids.trans hid)
  have hle : dataFor l.client.nextID l.client.received <+:
      dataFor l.client.nextID (l.server.sessions me).sent := dataFor_mono h.down
  rw [hsilent] at hle
  exact List.prefix_nil.mp hle

theorem few_step (h : LinkStep me l label l') (hn : l'.client.Few) : l.client.Few := by
  cases h with
  | client h => exact Nat.lt_of_le_of_lt (Client.few_step h) hn
  | server => exact hn

theorem joined_client (h : Joined me l) (hn : l.client.Few) (hs : ClientStep l.client a c)
    (hfails : a.sends = true → l.client.broken = false)
    (hframe : ∀ f, a = .frame (some f) →
      (l.server.sessions me).sent[l.client.received.length]? = some f) :
    Joined me ⟨c, l.server⟩ where
  own := h.own
  attached := h.attached
  carries := h.carries
  numbered := Client.numbered_step hs h.numbered hn
  sends := Client.sends_step hs h.sends h.numbered hn hfails
  reads := Client.reads_step hs h.reads h.numbered hn (h.next_silent hn)
  up := h.up.trans (Client.sent_step hs)
  down := by
    rcases Client.received_step hs with ⟨f, ha, hr⟩ | hr
    · show c.received <+: _
      rw [hr]
      exact snoc_isPrefix h.down (hframe f ha)
    · show c.received <+: _
      rw [hr]
      exact h.down

theorem joined_server {sr : ServerRelay} (h : Joined me l) (hs : RelayStep l.server (sid, act) sr)
    (hfails : sid = me → (l.server.view me).WritesFailForGood act)
    (hframe : ∀ f, sid = me → act = .frame (some f) →
      l.client.sent[(l.server.sessions me).received.length]? = some f) :
    Joined me ⟨l.client, sr⟩ := by
  have hown := ServerRelay.ownRefs_stable _ _ _ hs h.own
  by_cases hme : sid = me
  · subst hme
    have hview := ServerRelay.step_view h.own hs
    have hup : (sr.view sid).received <+: l.client.sent := by
      rcases SessionView.received_step hview with ⟨f, ha, hr⟩ | ⟨-, hr⟩
      · rw [hr]
        exact snoc_isPrefix h.up (hframe f rfl ha)
      · rw [hr]
        exact h.up
    exact {
      own := hown
      attached := SessionView.attached_step hview h.attached fun _ => h.carries.unused h.attached
      carries := SessionView.carries_step hview h.carries h.attached (hfails rfl)
        (h.sends.first.mono hup)
      numbered := h.numbered
      sends := h.sends
      reads := h.reads
      up := hup
      down := h.down.trans (SessionView.sent_step hview) }
  · have hview : sr.view me = l.server.view me := ServerRelay.step_other h.own hs (Ne.symm hme)
    have hsession : sr.sessions me = l.server.sessions me :=
      congrArg SessionView.toRelaySession hview
    exact {
      own := hown
      attached := by rw [hview]; exact h.attached
      carries := by rw [hview]; exact h.carries
      numbered := h.numbered
      sends := h.sends
      reads := h.reads
      up := by rw [hsession]; exact h.up
      down := by rw [hsession]; exact h.down }

theorem joined_stable : Stable (Guarded (LinkStep me) (FailsForGood me)) fun l =>
    l.client.Few → Joined me l := by
  rintro l act l' ⟨hfails, h⟩ hl hn
  have hl := hl (few_step h hn)
  cases h with
  | client h hframe =>
    exact joined_client hl (Nat.lt_of_le_of_lt (Client.few_step h) hn) h hfails hframe
  | server h hframe => exact joined_server hl h hfails hframe

/-- What is written upstream for a stream was passed to its `Write`, in order, and what its `Read`
gave was read from that upstream, in order; streams and upstream connections belong together one
to one. -/
structure Carried (me : SessionId) (l : Link) : Prop where
  forward : ∀ {k i : Nat} {s : TunnelStream} {c : Upstream}, l.client.streams[k]? = some s →
    (l.server.sessions me).conns[i]? = some c → c.streamID = s.id → c.written <+: s.passed
  back : ∀ {k i : Nat} {s : TunnelStream} {c : Upstream}, l.client.streams[k]? = some s →
    (l.server.sessions me).conns[i]? = some c → c.streamID = s.id → s.delivered <+: c.taken
  undialed : ∀ {k : Nat} {s : TunnelStream}, l.client.streams[k]? = some s →
    (∀ (i : Nat) (c : Upstream), (l.server.sessions me).conns[i]? = some c → c.streamID ≠ s.id) →
    s.delivered = []
  owner : ∀ {i : Nat} {c : Upstream}, (l.server.sessions me).conns[i]? = some c →
    ∃ (k : Nat) (s : TunnelStream), l.client.streams[k]? = some s ∧ s.id = c.streamID
  one_stream : ∀ {k j : Nat} {s t : TunnelStream}, l.client.streams[k]? = some s →
    l.client.streams[j]? = some t → s.id = t.id → k = j
  one_conn : ∀ {i j : Nat} {c d : Upstream}, (l.server.sessions me).conns[i]? = some c →
    (l.server.sessions me).conns[j]? = some d → c.streamID = d.streamID → i = j

theorem Joined.carried (h : Joined me l) (hfew : l.client.Few) : Carried me l := by
  constructor
  · intro k i s c hs hc hid
    have hpassed : dataFor c.streamID l.client.sent <+: s.passed := hid ▸ h.sends.passed hs
    exact (h.carries.written hc).trans ((dataFor_mono h.up).trans hpassed)
  · intro k i s c hs hc hid
    have htaken : dataFor s.id (l.server.sessions me).sent <+: c.taken := hid ▸ h.carries.taken hc
    exact (h.reads.delivered hs).trans ((dataFor_mono h.down).trans htaken)
  · intro k s hs hnone
    have hle := (h.reads.delivered hs).trans (dataFor_mono h.down)
    have hsilent : dataFor s.id (l.server.sessions me).sent = [] := h.carries.silent hnone
    rw [hsilent] at hle
    exact List.prefix_nil.mp hle
  · exact fun hc => h.owner hc
  · exact fun hs ht hid => h.numbered.inj hfew hs ht hid
  · exact fun hc hd hid => h.carries.distinct hc hd hid

theorem streams_carried {acts : List LinkAct}
    (h : Run (Guarded (LinkStep me) (FailsForGood me)) initial acts l)
    (hfew : l.client.streams.length < 2 ^ 32) : Carried me l :=
  (h.invariant joined_stable (fun _ => joined_initial) hfew).carried hfew

/-- One stream, two bytes each way. -/
def echoActs : List LinkAct :=
  [.client (.dial [0x74] [0x68]), .client (.control 0 true), .server [] .establish,
    .server [] (.frame (some ⟨frameControl, [0, 0, 0, 0, 0x74, 0x7c, 0x68]⟩)),
    .server [] (.dial true), .server [] .insert, .client (.write 0 [1, 2]), .client (.data 0 true),
    .server [] (.frame (some ⟨frameData, [0, 0, 0, 0, 1, 2]⟩)), .server [] .lookup,
    .server [] (.write 2), .server [] (.read 0 [3, 4] false), .server [] (.send 0 true),
    .client (.frame (some ⟨frameData, [0, 0, 0, 0, 3, 4]⟩)), .client .lookup, .client (.read 2)]

theorem streams_carried_echo :
    ∃ l, Run (Guarded (LinkStep []) (FailsForGood [])) initial echoActs l ∧ Carried [] l := by
  have hrun : ∃ l, Run (Guarded (LinkStep []) (FailsForGood [])) initial echoActs l ∧
      l.client.streams.length < 2 ^ 32 := by
    refine ⟨_, .step ⟨nofun, .client .dial nofun⟩ <|
      .step ⟨fun _ => rfl, .client (.control rfl rfl fun _ => ⟨rfl, by decide⟩) nofun⟩ <|
      .step ⟨nofun, .server (.establish rfl) nofun⟩ <|
      .step ⟨nofun, .server (.frame rfl) fun f _ hf => by cases hf; rfl⟩ <|
      .step ⟨nofun, .server (.dial rfl) nofun⟩ <|
      .step ⟨nofun, .server (.insert rfl) nofun⟩ <|
      .step ⟨nofun, .client (.write rfl (by decide) rfl (by decide)) nofun⟩ <|
      .step ⟨fun _ => rfl, .client (.data rfl rfl fun _ => ⟨rfl, by decide⟩) nofun⟩ <|
      .step ⟨nofun, .server (.frame rfl) fun f _ hf => by cases hf; rfl⟩ <|
      .step ⟨nofun, .server (.lookup rfl) nofun⟩ <|
      .step ⟨fun _ => ?_, .server (.write rfl rfl (by decide) (by decide)) nofun⟩ <|
      .step ⟨nofun, .server (.read rfl rfl (by decide) (by decide)) nofun⟩ <|
      .step ⟨nofun, .server (.send rfl rfl) nofun⟩ <|
      .step ⟨nofun, .client (.frame rfl) fun f hf => by cases hf; rfl⟩ <|
      .step ⟨nofun, .client (.lookup rfl) nofun⟩ <|
      .step ⟨nofun, .client (.read rfl rfl (by decide) (by decide)) nofun⟩ <| .refl _, by decide⟩
    intro conn data n c hl ha hc hb
    cases hl
    cases hc
    cases hb
  obtain ⟨l, hl, hfew⟩ := hrun
  exact ⟨l, hl, streams_carried hl hfew⟩

end Link

end SshPanelVpn.ShadowLink

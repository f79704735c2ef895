import SshPanelVpn.ShadowLink.Link

/-! The table of a client and the entry of its session in `streams`: what the frames in flight will
make of the one, seen from the other. -/
namespace SshPanelVpn.ShadowLink

open Octets Runs Indexed

/-- What an action does to the entry of stream `id`: add it, or remove it. -/
def RelayAction.tableOp (id : UInt32) : RelayAction → Option Bool
  | .connect i _ _ => if i = id then some true else none
  | .closeStream i => if i = id then some false else none
  | .writeStream _ _ => none

def Frame.tableOp (id : UInt32) (f : Frame) : Option Bool :=
  match relaySwitch f with
  | .act action => action.tableOp id
  | .skip => none
  | .stop => none

def LoopPc.tableOp (id : UInt32) : LoopPc → Option Bool
  | .acting action => action.tableOp id
  | .inserting i _ => if i = id then some true else none
  | _ => none

variable {me sid : SessionId} {l l' : Link} {label : LinkAct} {c c' : Client} {a : ClientAct}
  {act : RelayAct} {v v' : SessionView} {id : UInt32} {f : Frame} {k j : Nat} {s t : TunnelStream}

namespace SessionView

/-- Whether stream `id` has an entry once the frame at hand is dealt with. -/
def soon (v : SessionView) (id : UInt32) : Bool :=
  (v.loop.tableOp id).getD (v.lookupStream id).isSome

/-- The relay loop has not returned. -/
def Alive (v : SessionView) : Prop := v.loop ≠ .cleanup ∧ v.loop ≠ .ended

/-- The step leaves stream `id` without the entry it had or was to get, and tells nobody: its dial
fails, or its goroutine ends first. -/
def Drops (v : SessionView) (act : RelayAct) (id : UInt32) : Prop :=
  (act = .dial false ∧ ∃ network addr, v.loop = .acting (.connect id network addr)) ∨
    ∃ (i : Nat) (c : Upstream), act = .finish i ∧ v.conns[i]? = some c ∧ c.streamID = id ∧
      (v.lookupStream id).isSome = true

theorem not_drops (hd : act ≠ .dial false) (hf : ∀ i, act ≠ .finish i) : ¬ v.Drops act id := by
  rintro (⟨h, -⟩ | ⟨i, c, h, -⟩)
  · exact hd h
  · exact hf i h

theorem alive_step (h : SessionStep sid v act v') (ha : v'.Alive) : v.Alive := by
  unfold Alive at *
  cases hs : h <;> simp_all

theorem isSome_of_closeStream {id' : UInt32} :
    ((v.closeStream id).lookupStream id').isSome =
      if id' = id then false else (v.lookupStream id').isSome := by
  cases hl : v.lookupStream id with
  | none =>
    rw [closeStream_of_none hl]
    split
    · next h => simp [h, hl]
    · rfl
  | some conn =>
    rw [(closeStream_of_some hl).2]
    split <;> rfl

theorem fresh_step (h : SessionStep sid v act v')
    (hfresh : v.loop = .handshaking → ∀ id, v.lookupStream id = none) (hpc : v'.loop = .handshaking)
    (id : UInt32) : v'.lookupStream id = none := by
  cases hs : h with
  | establish => simp at hpc
  | @frame f hpc' =>
    cases f with
    | none => simp [RelaySession.receive] at hpc
    | some f => cases ht : relaySwitch f <;> simp [RelaySession.receive, ht] at hpc
  | @dial _ _ _ ok => cases ok <;> simp [RelaySession.dial] at hpc
  | insert => simp at hpc
  | @lookup id' data =>
    cases hl : v.lookupStream id' <;> simp [hl] at hpc
  | write => simp at hpc
  | close => simp at hpc
  | cleanup => rfl
  | read => exact hfresh (by simpa using hpc) id
  | send => exact hfresh (by simpa using hpc) id
  | finish =>
    have hnone := hfresh (by simpa using hpc) id
    rw [lookupStream_map]
    cases hl : (v.closeStream _).lookupStream id with
    | none => rfl
    | some conn => exact hnone.symm.trans (lookupStream_of_closeStream hl) |>.symm

/-- A frame adds its operation, the loop carries it out, and only a drop undoes it. -/
theorem soon_step (h : SessionStep sid v act v') (ha : v'.Alive)
    (hfresh : v.loop = .handshaking → ∀ id, v.lookupStream id = none) :
    (∃ f, act = .frame (some f) ∧ ∀ id, v'.soon id = (f.tableOp id).getD (v.soon id)) ∨
      ((∀ f, act ≠ .frame (some f)) ∧ ∀ id, (v'.soon id = true → v.soon id = true) ∧
        (¬ v.Drops act id → v'.soon id = v.soon id)) := by
  cases hs : h with
  | establish hpc =>
    refine .inr ⟨by simp, fun id => ?_⟩
    simp [soon, LoopPc.tableOp, hpc, hfresh hpc id]
  | @frame f hpc =>
    cases f with
    | none => simp [Alive, RelaySession.receive] at ha
    | some f =>
      refine .inl ⟨f, rfl, fun id => ?_⟩
      cases ht : relaySwitch f <;>
        simp [soon, LoopPc.tableOp, Frame.tableOp, RelaySession.receive, hpc, ht]
  | @dial id network addr ok hpc =>
    refine .inr ⟨by simp, fun id' => ?_⟩
    cases ok with
    | true => simp [soon, LoopPc.tableOp, RelayAction.tableOp, RelaySession.dial, hpc]
    | false =>
      by_cases hid : id = id'
      · subst hid
        have hdrop : v.Drops (.dial false) id := .inl ⟨rfl, network, addr, hpc⟩
        simp [soon, LoopPc.tableOp, RelayAction.tableOp, hpc, hdrop]
      · simp [soon, LoopPc.tableOp, RelayAction.tableOp, RelaySession.dial, hpc, hid]
  | @insert id conn hpc =>
    refine .inr ⟨by simp, fun id' => ?_⟩
    by_cases hid : id' = id
    · subst hid
      simp [soon, LoopPc.tableOp, hpc, lookupStream_insertStream]
    · simp [soon, LoopPc.tableOp, hpc, lookupStream_insertStream, hid, Ne.symm hid]
  | @lookup id data hpc =>
    refine .inr ⟨by simp, fun id' => ?_⟩
    cases hl : v.lookupStream id <;>
      simp [soon, LoopPc.tableOp, RelayAction.tableOp, hpc]
  | write hpc =>
    refine .inr ⟨by simp, fun id' => ?_⟩
    simp [soon, LoopPc.tableOp, hpc]
  | @close id hpc =>
    refine .inr ⟨by simp, fun id' => ?_⟩
    by_cases hid : id' = id
    · subst hid
      simp [soon, LoopPc.tableOp, RelayAction.tableOp, hpc, isSome_of_closeStream]
    · simp [soon, LoopPc.tableOp, RelayAction.tableOp, hpc, isSome_of_closeStream, hid, Ne.symm hid]
  | cleanup => simp [Alive] at ha
  | read hc hpc =>
    refine .inr ⟨by simp, fun id' => ?_⟩
    simp [soon]
  | send hc hpc =>
    refine .inr ⟨by simp, fun id' => ?_⟩
    simp [soon]
  | @finish i c hc hpc =>
    refine .inr ⟨by simp, fun id' => ?_⟩
    by_cases hid : id' = c.streamID
    · cases hop : v.loop.tableOp id' with
      | some b => simp [soon, hop]
      | none =>
        by_cases hl : (v.lookupStream id').isSome = true
        · have hdrop : v.Drops (.finish i) id' := .inr ⟨i, c, rfl, hc, hid.symm, hl⟩
          simp [soon, hop, hl, hdrop]
        · simp [soon, isSome_of_closeStream, hid] at hl ⊢
          simp [hl]
    · simp [soon, isSome_of_closeStream, hid]

end SessionView

namespace Client

/-- The stream may still send frames of its own. -/
def Holding (s : TunnelStream) : Prop := s.pc.Entered ∨ s.pc = .deleted

/-- The table holds the streams that were dialed and not closed, and no two of those that are still
to close have the same id. -/
structure Tables (c : Client) : Prop where
  entry : ∀ {id k}, c.sessions.lookup id = some k →
    ∃ s, c.streams[k]? = some s ∧ s.id = id ∧ s.pc.Entered
  kept : ∀ {k : Nat} {s : TunnelStream}, c.streams[k]? = some s → s.pc.Entered →
    c.sessions.lookup s.id = some k
  unique : ∀ {k j : Nat} {s t : TunnelStream}, c.streams[k]? = some s → c.streams[j]? = some t →
    s.id = t.id → Holding s → Holding t → k = j
  dialed : ∀ {k : Nat} {s : TunnelStream}, c.streams[k]? = some s → s.pc ≠ .failed

theorem tables_initial : Tables initial where
  entry h := by cases h
  kept h := by simp [initial] at h
  unique h := by simp [initial] at h
  dialed h := by simp [initial] at h

/-- The id that is handed out next belongs to no stream that has not been closed. -/
def NextUnused (c : Client) : Prop :=
  ∀ (k : Nat) (s : TunnelStream), c.streams[k]? = some s → s.id = c.nextID →
    s.pc = .announced ∨ s.pc = .closed

theorem not_holding (h : s.pc = .announced ∨ s.pc = .closed) : ¬ Holding s := by
  rcases h with h | h <;> simp [Holding, TunnelPc.Entered, h]

theorem Tables.congr {g : TunnelStream → TunnelStream} (h : Tables c) (hs : c.streams[k]? = some s)
    (hstreams : c'.streams = c.streams.modify k g) (hsessions : c'.sessions = c.sessions)
    (hg : (g s).id = s.id ∧ ((g s).pc.Entered ↔ s.pc.Entered) ∧ (Holding (g s) → Holding s) ∧
      (g s).pc ≠ .failed) : Tables c' where
  entry {id j} hl := by
    rw [hsessions] at hl
    obtain ⟨t, ht, hid, hpc⟩ := h.entry hl
    refine ⟨_, by rw [hstreams, getElem?_modify_of_some ht], ?_⟩
    split
    · next hkj =>
      subst hkj
      obtain rfl : s = t := Option.some.inj (hs.symm.trans ht)
      exact ⟨hg.1.trans hid, hg.2.1.mpr hpc⟩
    · exact ⟨hid, hpc⟩
  kept {j t} ht hpc := by
    rw [hstreams] at ht
    rw [hsessions]
    rcases getElem?_modify_cases hs ht with ⟨rfl, rfl⟩ | ⟨-, ht⟩
    · rw [hg.1]
      exact h.kept hs (hg.2.1.mp hpc)
    · exact h.kept ht hpc
  unique {i j t u} ht hu hid hht hhu := by
    rw [hstreams] at ht hu
    rcases getElem?_modify_cases hs ht with ⟨rfl, rfl⟩ | ⟨hik, ht'⟩ <;>
      rcases getElem?_modify_cases hs hu with ⟨rfl, rfl⟩ | ⟨hjk, hu'⟩
    · rfl
    · exact h.unique hs hu' (hg.1.symm.trans hid) (hg.2.2.1 hht) hhu
    · exact h.unique ht' hs (hid.trans hg.1) hht (hg.2.2.1 hhu)
    · exact h.unique ht' hu' hid hht hhu
  dialed {j t} ht := by
    rw [hstreams] at ht
    rcases getElem?_modify_cases hs ht with ⟨rfl, rfl⟩ | ⟨-, ht⟩
    · exact hg.2.2.2
    · exact h.dialed ht

theorem Tables.congr_self (h : Tables c) (hstreams : c'.streams = c.streams)
    (hsessions : c'.sessions = c.sessions) : Tables c' where
  entry hl := by
    rw [hsessions] at hl
    rw [hstreams]
    exact h.entry hl
  kept hs hpc := by
    rw [hsessions]
    exact h.kept (hstreams ▸ hs) hpc
  unique hs ht := h.unique (hstreams ▸ hs) (hstreams ▸ ht)
  dialed hs := h.dialed (hstreams ▸ hs)

theorem tables_dial {network addr : Bytes} (h : Tables c) (hnext : c.NextUnused) :
    Tables (c.dial network addr) where
  entry {id k} hl := by
    rw [dial_sessions] at hl
    by_cases hid : id = c.nextID
    · subst hid
      rw [AList.lookup_insert, Option.some.injEq] at hl
      subst hl
      exact ⟨⟨c.nextID, network, addr, .dialing, none, [], []⟩, by simp, rfl, .inl rfl⟩
    · rw [AList.lookup_insert_ne hid] at hl
      obtain ⟨s, hs, hids, hpc⟩ := h.entry hl
      exact ⟨s, getElem?_append_of_some hs, hids, hpc⟩
  kept hs hpc := by
    rw [dial_sessions]
    rcases getElem?_append_one hs with hs | ⟨rfl, rfl⟩
    · have hne := fun hid => not_holding (hnext _ _ hs hid) (.inl hpc)
      rw [AList.lookup_insert_ne hne]
      exact h.kept hs hpc
    · exact AList.lookup_insert c.sessions
  unique hs ht hid hhs hht := by
    rcases getElem?_append_one hs with hs | ⟨rfl, rfl⟩ <;>
      rcases getElem?_append_one ht with ht | ⟨rfl, rfl⟩
    · exact h.unique hs ht hid hhs hht
    · exact (not_holding (hnext _ _ hs hid) hhs).elim
    · exact (not_holding (hnext _ _ ht hid.symm) hht).elim
    · rfl
  dialed hs := by
    rcases getElem?_append_one hs with hs | ⟨rfl, rfl⟩
    · exact h.dialed hs
    · simp

theorem tables_delete (h : Tables c) (hs : c.streams[k]? = some s) (hpc : s.pc = .opened) :
    Tables ((c.delete s.id).update k (·.goto .deleted)) where
  entry {id j} hl := by
    rw [update_sessions, delete_sessions] at hl
    by_cases hid : id = s.id
    · subst hid
      simp at hl
    · rw [AList.lookup_erase_ne hid] at hl
      obtain ⟨t, ht, hidt, hpc⟩ := h.entry hl
      have hkj : k ≠ j := by
        rintro rfl
        obtain rfl : s = t := Option.some.inj (hs.symm.trans ht)
        exact hid hidt.symm
      exact ⟨t, by simp [hkj, ht], hidt, hpc⟩
  kept {j t} ht hent := by
    rcases getElem?_modify_cases hs ht with ⟨rfl, rfl⟩ | ⟨hj, ht⟩
    · simp [TunnelPc.Entered] at hent
    · have hid : t.id ≠ s.id := fun hid =>
        hj (h.unique ht hs hid (.inl hent) (.inl (by simp [TunnelPc.Entered, hpc])))
      rw [update_sessions, delete_sessions, AList.lookup_erase_ne hid]
      exact h.kept ht hent
  unique {i j t u} ht hu hid hht hhu := by
    have hhs : Holding s := .inl (by simp [TunnelPc.Entered, hpc])
    rcases getElem?_modify_cases hs ht with ⟨rfl, rfl⟩ | ⟨hik, ht'⟩ <;>
      rcases getElem?_modify_cases hs hu with ⟨rfl, rfl⟩ | ⟨hjk, hu'⟩
    · rfl
    · exact h.unique hs hu' hid hhs hhu
    · exact h.unique ht' hs hid hht hhs
    · exact h.unique ht' hu' hid hht hhu
  dialed {j t} ht := by
    rcases getElem?_modify_cases hs ht with ⟨rfl, rfl⟩ | ⟨-, ht⟩
    · simp
    · exact h.dialed ht

/-- The control and close frames of the client go out, and no id is handed out twice at a time. -/
def AnnouncesAll (c : Client) : ClientAct → Prop
  | .dial _ _ => c.NextUnused
  | .control _ ok | .announce _ ok => ok = true
  | _ => True

theorem tables_step (h : ClientStep c a c') (hc : Tables c) (ha : c.AnnouncesAll a) : Tables c' := by
  cases h with
  | dial => exact tables_dial hc ha
  | @control k ok s hs hpc hok =>
    obtain rfl : ok = true := ha
    refine hc.congr (g := (·.goto .opened)) hs rfl rfl ?_
    simp [TunnelPc.Entered, Holding, hpc]
  | write hs hpc =>
    exact hc.congr hs rfl rfl ⟨rfl, Iff.rfl, fun hh => hh, hpc.2⟩
  | data hs =>
    have hdialed := hc.dialed hs
    exact hc.congr hs (by rw [update_streams, send_streams]) (by simp)
      ⟨rfl, Iff.rfl, fun hh => hh, hdialed⟩
  | delete hs hpc => exact tables_delete hc hs hpc
  | @announce k ok s hs hpc hok =>
    refine hc.congr (g := (·.goto .announced)) hs (by rw [update_streams, send_streams]) (by simp) ?_
    simp [TunnelPc.Entered, Holding, hpc]
  | @closeReader k s hs hpc =>
    refine hc.congr (g := (·.goto .closed)) hs rfl rfl ?_
    simp [TunnelPc.Entered, Holding, hpc]
  | frame => exact hc.congr_self (by simp) (by simp)
  | lookup => exact hc.congr_self rfl rfl
  | read hpc hs =>
    have hdialed := hc.dialed hs
    exact hc.congr hs rfl rfl ⟨rfl, Iff.rfl, fun hh => hh, hdialed⟩
  | refused => exact hc.congr_self rfl rfl
  | keepalive => exact hc.congr_self (by simp) (by simp)
  | shutdown => exact hc.congr_self (by simp) (by simp)
  | hangUp => exact hc.congr_self rfl rfl

end Client

namespace Link

/-- What the table of the server says of stream `id` once all that is in flight has arrived. -/
def expects (me : SessionId) (l : Link) (id : UInt32) : Bool :=
  ((l.client.sent.drop (l.server.sessions me).received.length).filterMap
    (Frame.tableOp id)).getLastD ((l.server.view me).soon id)

/-- Every change of the tables is announced: the frames of the client go out, no id is handed out
twice at a time, and the server drops no stream that the client still holds. -/
def Announced (me : SessionId) (l : Link) : LinkAct → Prop
  | .client a => l.client.AnnouncesAll a
  | .server sid act => sid = me → ∀ id, (l.server.view me).Drops act id →
      l.client.sessions.lookup id = none

/-- A stream that has been announced is expected at the server, and only those are. -/
structure Agree (me : SessionId) (l : Link) : Prop where
  own : l.server.OwnRefs
  up : (l.server.sessions me).received <+: l.client.sent
  fresh : (l.server.view me).loop = .handshaking → ∀ id, l.server.lookupStream me id = none
  tables : l.client.Tables
  opened : (l.server.view me).Alive → ∀ (k : Nat) (s : TunnelStream),
    l.client.streams[k]? = some s → s.pc = .opened → expects me l s.id = true
  expected : (l.server.view me).Alive → ∀ id, expects me l id = true →
    ∃ (k : Nat) (s : TunnelStream), l.client.streams[k]? = some s ∧ s.id = id ∧
      (s.pc = .opened ∨ s.pc = .deleted)

theorem agree_initial : Agree me initial where
  own := ServerRelay.ownRefs_initial
  up := List.nil_prefix
  fresh _ _ := rfl
  tables := Client.tables_initial
  opened _ k s hs := by simp [initial, Client.initial] at hs
  expected _ id h := by
    simp [expects, initial, Client.initial, SessionView.soon,
      RelaySession.initial, ServerRelay.initial, LoopPc.tableOp, ServerRelay.view,
      SessionView.lookupStream] at h

/-- A frame that goes out adds its operation at the end. -/
theorem expects_send (hup : (l.server.sessions me).received <+: l.client.sent)
    (hsent : c.sent = l.client.sent ++ [f]) :
    expects me ⟨c, l.server⟩ id = (f.tableOp id).getD (expects me l id) := by
  unfold expects
  simp only [hsent, List.drop_append_of_le_length hup.length_le, List.filterMap_append]
  cases hop : f.tableOp id with
  | none => simp [hop]
  | some b => simp [hop]

theorem expects_quiet (hsent : c.sent = l.client.sent) :
    expects me ⟨c, l.server⟩ id = expects me l id := by
  simp [expects, hsent]

/-- Client steps that announce nothing. -/
theorem agree_quiet (h : Agree me l) (hs : ClientStep l.client a c)
    (ha : l.client.AnnouncesAll a) (hexp : ∀ id, expects me ⟨c, l.server⟩ id = expects me l id)
    (hold : ∀ (k : Nat) (t : TunnelStream), c.streams[k]? = some t → t.pc = .opened →
      ∃ s, l.client.streams[k]? = some s ∧ s.id = t.id ∧ s.pc = .opened)
    (hnew : ∀ (k : Nat) (s : TunnelStream), l.client.streams[k]? = some s →
      s.pc = .opened ∨ s.pc = .deleted →
      ∃ t, c.streams[k]? = some t ∧ t.id = s.id ∧ (t.pc = .opened ∨ t.pc = .deleted)) :
    Agree me ⟨c, l.server⟩ where
  own := h.own
  up := h.up.trans (Client.sent_step hs)
  fresh := h.fresh
  tables := Client.tables_step hs h.tables ha
  opened halive k t ht hpc := by
    obtain ⟨s, hs, hid, hpcs⟩ := hold k t ht hpc
    rw [hexp, ← hid]
    exact h.opened halive k s hs hpcs
  expected halive id he := by
    rw [hexp] at he
    obtain ⟨k, s, hs, hid, hpc⟩ := h.expected halive id he
    obtain ⟨t, ht, hidt, hpct⟩ := hnew k s hs hpc
    exact ⟨k, t, ht, hidt.trans hid, hpct⟩

/-- One stream changes, and its standing at the server does not. -/
theorem agree_modify {g : TunnelStream → TunnelStream} (h : Agree me l)
    (hs : ClientStep l.client a c) (ha : l.client.AnnouncesAll a)
    (hexp : ∀ id, expects me ⟨c, l.server⟩ id = expects me l id) (ht : l.client.streams[k]? = some s)
    (hstreams : c.streams = l.client.streams.modify k g) (hid : (g s).id = s.id)
    (hold : (g s).pc = .opened → s.pc = .opened)
    (hnew : s.pc = .opened ∨ s.pc = .deleted → (g s).pc = .opened ∨ (g s).pc = .deleted) :
    Agree me ⟨c, l.server⟩ := by
  refine agree_quiet h hs ha hexp ?_ ?_
  · intro j t ht' hpc
    rw [hstreams] at ht'
    rcases getElem?_modify_cases ht ht' with ⟨rfl, rfl⟩ | ⟨-, ht'⟩
    · exact ⟨s, ht, hid.symm, hold hpc⟩
    · exact ⟨t, ht', rfl, hpc⟩
  · intro j t ht' hpc
    refine ⟨_, by rw [hstreams, getElem?_modify_of_some ht'], ?_⟩
    split
    · next hkj =>
      subst hkj
      obtain rfl : s = t := Option.some.inj (ht.symm.trans ht')
      exact ⟨hid, hnew hpc⟩
    · exact ⟨rfl, hpc⟩

theorem agree_self (h : Agree me l) (hs : ClientStep l.client a c) (ha : l.client.AnnouncesAll a)
    (hexp : ∀ id, expects me ⟨c, l.server⟩ id = expects me l id)
    (hstreams : c.streams = l.client.streams) : Agree me ⟨c, l.server⟩ := by
  refine agree_quiet h hs ha hexp ?_ ?_
  · intro k t ht hpc
    exact ⟨t, hstreams ▸ ht, rfl, hpc⟩
  · intro k s hs hpc
    exact ⟨s, hstreams ▸ hs, rfl, hpc⟩

theorem tableOp_controlFrame (s : TunnelStream) :
    s.controlFrame.tableOp id = if s.id = id then some true else none := by
  obtain ⟨network, addr, h⟩ := s.controlFrame_opens
  simp [Frame.tableOp, h, RelayAction.tableOp]

theorem tableOp_closeFrame (s : TunnelStream) :
    s.closeFrame.tableOp id = if s.id = id then some false else none := by
  have h : relaySwitch s.closeFrame = _ := s.closeFrame_closes
  simp [Frame.tableOp, h, RelayAction.tableOp]

theorem tableOp_dataFrame (s : TunnelStream) (p : Bytes) : (s.dataFrame p).tableOp id = none := by
  simp [Frame.tableOp, s.relaySwitch_dataFrame p, RelayAction.tableOp]

/-- The control frame goes out. -/
theorem agree_control (h : Agree me l) (hs : ClientStep l.client (.control k true) c)
    (ht : l.client.streams[k]? = some s)
    (hc : c = (l.client.send s.controlFrame true).update k (·.goto .opened)) :
    Agree me ⟨c, l.server⟩ := by
  have hexp : ∀ id, expects me ⟨c, l.server⟩ id = (s.controlFrame.tableOp id).getD (expects me l id) :=
    fun id => expects_send h.up (by rw [hc]; rfl)
  have hstreams : c.streams = l.client.streams.modify k (·.goto .opened) := by rw [hc]; rfl
  refine ⟨h.own, h.up.trans (Client.sent_step hs), h.fresh, Client.tables_step hs h.tables rfl, ?_, ?_⟩
  · intro halive j t hj hpc
    rw [hstreams] at hj
    rw [hexp, tableOp_controlFrame]
    rcases getElem?_modify_cases ht hj with ⟨rfl, rfl⟩ | ⟨-, hj⟩
    · simp
    · split
      · rfl
      · exact h.opened halive j t hj hpc
  · intro halive id he
    rw [hexp, tableOp_controlFrame] at he
    by_cases hid : s.id = id
    · refine ⟨k, s.goto .opened, ?_, hid, .inl rfl⟩
      rw [hstreams, getElem?_modify_of_some ht, if_pos rfl]
    · rw [if_neg hid, Option.getD_none] at he
      obtain ⟨j, t, hj, hidt, hpc⟩ := h.expected halive id he
      have hkj : k ≠ j := by
        rintro rfl
        obtain rfl : s = t := Option.some.inj (ht.symm.trans hj)
        exact hid hidt
      exact ⟨j, t, by rw [hstreams, getElem?_modify_of_some hj, if_neg hkj], hidt, hpc⟩

/-- The close frame goes out: no other stream with this id is open. -/
theorem agree_announce (h : Agree me l) (hs : ClientStep l.client (.announce k true) c)
    (ht : l.client.streams[k]? = some s) (hpcs : s.pc = .deleted)
    (hc : c = (l.client.send s.closeFrame true).update k (·.goto .announced)) :
    Agree me ⟨c, l.server⟩ := by
  have hexp : ∀ id, expects me ⟨c, l.server⟩ id = (s.closeFrame.tableOp id).getD (expects me l id) :=
    fun id => expects_send h.up (by rw [hc]; rfl)
  have hstreams : c.streams = l.client.streams.modify k (·.goto .announced) := by rw [hc]; rfl
  refine ⟨h.own, h.up.trans (Client.sent_step hs), h.fresh, Client.tables_step hs h.tables rfl, ?_, ?_⟩
  · intro halive j t hj hpc
    rw [hstreams] at hj
    rw [hexp, tableOp_closeFrame]
    rcases getElem?_modify_cases ht hj with ⟨rfl, rfl⟩ | ⟨hjk, hj⟩
    · simp at hpc
    · have hid : s.id ≠ t.id := by
        intro hid
        exact hjk (h.tables.unique hj ht hid.symm (.inl (by simp [TunnelPc.Entered, hpc]))
          (.inr hpcs))
      rw [if_neg hid]
      exact h.opened halive j t hj hpc
  · intro halive id he
    rw [hexp, tableOp_closeFrame] at he
    by_cases hid : s.id = id
    · simp [hid] at he
    · rw [if_neg hid, Option.getD_none] at he
      obtain ⟨j, t, hj, hidt, hpc⟩ := h.expected halive id he
      have hkj : k ≠ j := by
        rintro rfl
        obtain rfl : s = t := Option.some.inj (ht.symm.trans hj)
        exact hid hidt
      exact ⟨j, t, by rw [hstreams, getElem?_modify_of_some hj, if_neg hkj], hidt, hpc⟩

theorem agree_client (h : Agree me l) (hs : ClientStep l.client a c)
    (ha : l.client.AnnouncesAll a) : Agree me ⟨c, l.server⟩ := by
  have hsend : ∀ f ok, (∀ id, f.tableOp id = none) → ∀ id,
      expects me ⟨l.client.send f ok, l.server⟩ id = expects me l id := by
    intro f ok hf id
    cases ok with
    | false => exact expects_quiet rfl
    | true => rw [expects_send h.up rfl, hf, Option.getD_none]
  cases hc : hs with
  | dial =>
    refine agree_quiet h hs ha (fun _ => expects_quiet rfl) ?_ ?_
    · intro k t ht hpc
      rcases getElem?_append_one ht with ht | ⟨rfl, rfl⟩
      · exact ⟨t, ht, rfl, hpc⟩
      · simp at hpc
    · intro k s hs hpc
      exact ⟨s, getElem?_append_of_some hs, rfl, hpc⟩
  | @control k ok s ht hpc hok =>
    obtain rfl : ok = true := ha
    exact agree_control h hs ht rfl
  | write ht => exact agree_modify h hs ha (fun _ => expects_quiet rfl) ht rfl rfl id id
  | @data k ok s p ht =>
    refine agree_modify h hs ha (fun id => ?_) ht (by rw [Client.update_streams, Client.send_streams])
      rfl id id
    exact hsend _ ok (fun _ => tableOp_dataFrame s p) id
  | delete ht hpc =>
    exact agree_modify h hs ha (fun _ => expects_quiet rfl) ht rfl rfl (fun hg => by simp at hg)
      (fun _ => .inr rfl)
  | @announce k ok s ht hpc hok =>
    obtain rfl : ok = true := ha
    exact agree_announce h hs ht hpc rfl
  | closeReader ht hpc =>
    exact agree_modify h hs ha (fun _ => expects_quiet rfl) ht rfl rfl (fun hg => by simp at hg)
      (fun hd => by simp [hpc] at hd)
  | frame => exact agree_self h hs ha (fun _ => expects_quiet (by simp)) (by simp)
  | lookup => exact agree_self h hs ha (fun _ => expects_quiet rfl) rfl
  | read hpc ht => exact agree_modify h hs ha (fun _ => expects_quiet rfl) ht rfl rfl id id
  | refused => exact agree_self h hs ha (fun _ => expects_quiet rfl) rfl
  | @keepalive padding ok => exact agree_self h hs ha (hsend _ ok fun _ => rfl) (by simp)
  | @shutdown ok => exact agree_self h hs ha (hsend _ ok fun _ => rfl) (by simp)
  | hangUp => exact agree_self h hs ha (fun _ => expects_quiet rfl) rfl

theorem getLastD_mono {ops : List Bool} {b b' : Bool} (h : b' = true → b = true)
    (hl : ops.getLastD b' = true) : ops.getLastD b = true := by
  cases ops with
  | nil => exact h hl
  | cons op ops =>
    rw [List.getLastD_cons] at hl ⊢
    exact hl

/-- A frame that arrives is no longer in flight, and its operation is at hand. -/
theorem expects_arrive {sr : ServerRelay}
    (hnext : l.client.sent[(l.server.sessions me).received.length]? = some f)
    (hreceived : (sr.sessions me).received = (l.server.sessions me).received ++ [f])
    (hsoon : (sr.view me).soon id = (f.tableOp id).getD ((l.server.view me).soon id)) :
    expects me ⟨l.client, sr⟩ id = expects me l id := by
  have hdrop : l.client.sent.drop (l.server.sessions me).received.length =
      f :: l.client.sent.drop ((l.server.sessions me).received.length + 1) := by
    obtain ⟨hlt, hget⟩ := List.getElem?_eq_some_iff.mp hnext
    rw [List.drop_eq_getElem_cons hlt, hget]
  unfold expects
  simp only [hreceived, List.length_append, List.length_singleton, hdrop, hsoon]
  cases hop : f.tableOp id with
  | none => rw [List.filterMap_cons_none hop, Option.getD_none]
  | some b => rw [List.filterMap_cons_some hop, List.getLastD_cons, Option.getD_some]

theorem agree_server {sr : ServerRelay} (h : Agree me l) (hs : RelayStep l.server (sid, act) sr)
    (hdrops : sid = me → ∀ id, (l.server.view me).Drops act id →
      l.client.sessions.lookup id = none)
    (hframe : ∀ f, sid = me → act = .frame (some f) →
      l.client.sent[(l.server.sessions me).received.length]? = some f) :
    Agree me ⟨l.client, sr⟩ := by
  have hown := ServerRelay.ownRefs_stable _ _ _ hs h.own
  by_cases hme : sid = me
  · subst hme
    have hview := ServerRelay.step_view h.own hs
    have hup : (sr.view sid).received <+: l.client.sent := by
      rcases SessionView.received_step hview with ⟨f, ha, hr⟩ | ⟨-, hr⟩
      · rw [hr]
        exact snoc_isPrefix h.up (hframe f rfl ha)
      · rw [hr]
        exact h.up
    have hexp : (sr.view sid).Alive → ∀ id,
        (expects sid ⟨l.client, sr⟩ id = true → expects sid l id = true) ∧
        (¬ (l.server.view sid).Drops act id →
          expects sid ⟨l.client, sr⟩ id = expects sid l id) := by
      intro halive id
      rcases SessionView.soon_step hview halive h.fresh with ⟨f, ha, hsoon⟩ | ⟨hno, hsoon⟩
      · have hreceived : (sr.sessions sid).received =
            (l.server.sessions sid).received ++ [f] := by
          rcases SessionView.received_step hview with ⟨f', ha', hr⟩ | ⟨hno, -⟩
          · obtain rfl : f' = f := by simpa [ha] using ha'.symm
            exact hr
          · exact (hno f ha).elim
        have heq := expects_arrive (hframe f rfl ha) hreceived (hsoon id)
        exact ⟨fun he => heq ▸ he, fun _ => heq⟩
      · have hreceived : (sr.sessions sid).received = (l.server.sessions sid).received := by
          rcases SessionView.received_step hview with ⟨f, ha, -⟩ | ⟨-, hr⟩
          · exact (hno f ha).elim
          · exact hr
        obtain ⟨hmono, heq⟩ := hsoon id
        refine ⟨fun he => ?_, fun hd => ?_⟩
        · unfold expects at he ⊢
          simp only [hreceived] at he
          exact getLastD_mono hmono he
        · unfold expects
          simp only [hreceived, heq hd]
    exact {
      own := hown
      up := hup
      fresh := SessionView.fresh_step hview h.fresh
      tables := h.tables
      opened := by
        intro halive k s hk hpc
        have hold := h.opened (SessionView.alive_step hview halive) k s hk hpc
        have hnot : ¬ (l.server.view sid).Drops act s.id := by
          intro hd
          have hkept := h.tables.kept hk (.inr (.inr hpc))
          rw [hdrops rfl _ hd] at hkept
          cases hkept
        rw [(hexp halive s.id).2 hnot]
        exact hold
      expected := by
        intro halive id he
        exact h.expected (SessionView.alive_step hview halive) id ((hexp halive id).1 he) }
  · have hview : sr.view me = l.server.view me := ServerRelay.step_other h.own hs (Ne.symm hme)
    have hsession : sr.sessions me = l.server.sessions me :=
      congrArg SessionView.toRelaySession hview
    have hexp : ∀ id, expects me ⟨l.client, sr⟩ id = expects me l id := by
      intro id
      simp only [expects, hview, hsession]
    exact {
      own := hown
      up := by rw [hsession]; exact h.up
      fresh := by
        intro hpc id
        show (sr.view me).lookupStream id = none
        rw [hview]
        exact h.fresh (hview ▸ hpc) id
      tables := h.tables
      opened := by
        intro halive k s hk hpc
        rw [hexp]
        exact h.opened (hview ▸ halive) k s hk hpc
      expected := by
        intro halive id he
        rw [hexp] at he
        exact h.expected (hview ▸ halive) id he }

theorem agree_stable : Stable (Guarded (LinkStep me) (Announced me)) (Agree me) := by
  rintro l label l' ⟨hguard, h⟩ hl
  cases h with
  | client h _ => exact agree_client hl h hguard
  | server h hframe => exact agree_server hl h hguard hframe

/-- Nothing is in flight, every goroutine is between two calls, and the relay loop is still there
for the client. -/
structure Quiescent (me : SessionId) (l : Link) : Prop where
  up : (l.server.sessions me).received.length = l.client.sent.length
  down : l.client.received.length = (l.server.sessions me).sent.length
  relay : (l.server.sessions me).loop = .reading
  upstreams : ∀ c ∈ (l.server.sessions me).conns, c.pc = .reading ∨ c.pc = .ended
  reader : l.client.loop = .reading
  streams : ∀ s ∈ l.client.streams,
    s.writing = none ∧ (s.pc = .opened ∨ s.pc = .failed ∨ s.pc = .closed)

/-- Client and server have the same streams. -/
def SameStreams (me : SessionId) (l : Link) : Prop :=
  ∀ id, (l.client.sessions.lookup id).isSome = (l.server.lookupStream me id).isSome

theorem tables_agree {acts : List LinkAct}
    (h : Run (Guarded (LinkStep me) (Announced me)) initial acts l) (hq : Quiescent me l) :
    SameStreams me l := by
  have hl : Agree me l := h.invariant agree_stable agree_initial
  have halive : (l.server.view me).Alive := by
    have hrelay : (l.server.view me).loop = .reading := hq.relay
    simp [SessionView.Alive, hrelay]
  have hexp : ∀ id, expects me l id = (l.server.lookupStream me id).isSome := by
    intro id
    have hrelay : (l.server.view me).loop = .reading := hq.relay
    have hdrop : l.client.sent.drop (l.server.sessions me).received.length = [] := by
      rw [hq.up, List.drop_length]
    simp [expects, hdrop, SessionView.soon, hrelay, LoopPc.tableOp]
  have hclient : ∀ id, (l.client.sessions.lookup id).isSome = true ↔ expects me l id = true := by
    intro id
    constructor
    · intro hin
      obtain ⟨k, hk⟩ := Option.isSome_iff_exists.mp hin
      obtain ⟨s, hs, rfl, hent⟩ := hl.tables.entry hk
      have hpc := (hq.streams s (List.mem_of_getElem? hs)).2
      have hopen : s.pc = .opened := by
        rcases hpc with hpc | hpc | hpc
        · exact hpc
        · exact (hl.tables.dialed hs hpc).elim
        · simp [TunnelPc.Entered, hpc] at hent
      exact hl.opened halive k s hs hopen
    · intro he
      obtain ⟨k, s, hs, rfl, hpc⟩ := hl.expected halive id he
      have hrest := (hq.streams s (List.mem_of_getElem? hs)).2
      have hopen : s.pc = .opened := by
        rcases hpc with hpc | hpc
        · exact hpc
        · simp [hpc] at hrest
      rw [hl.tables.kept hs (.inr (.inr hopen))]
      rfl
  intro id
  rw [← hexp, Bool.eq_iff_iff]
  exact hclient id

/-- One stream is opened and closed again, and another is opened. -/
def openCloseActs : List LinkAct :=
  [.server [] .establish, .client (.dial [0x74] [0x68]), .client (.control 0 true),
    .server [] (.frame (some ⟨frameControl, [0, 0, 0, 0, 0x74, 0x7c, 0x68]⟩)),
    .server [] (.dial true), .server [] .insert, .client (.delete 0), .client (.announce 0 true),
    .client (.closeReader 0), .server [] (.frame (some ⟨frameClose, [0, 0, 0, 0]⟩)),
    .server [] .close, .server [] (.read 0 [] true), .server [] (.finish 0),
    .client (.dial [0x74] [0x68]), .client (.control 1 true),
    .server [] (.frame (some ⟨frameControl, [0, 0, 0, 1, 0x74, 0x7c, 0x68]⟩)),
    .server [] (.dial true), .server [] .insert]

theorem tables_agree_openClose :
    ∃ l, Run (Guarded (LinkStep []) (Announced [])) initial openCloseActs l ∧ SameStreams [] l := by
  have hquiet : ∀ {l : Link} {act : RelayAct}, act ≠ .dial false → (∀ i, act ≠ .finish i) →
      Announced [] l (.server [] act) := by
    intro l act hd hf _ id hdrops
    exact (SessionView.not_drops hd hf hdrops).elim
  have hrun : ∃ l, Run (Guarded (LinkStep []) (Announced [])) initial openCloseActs l ∧
      Quiescent [] l := by
    refine ⟨_, .step ⟨hquiet nofun nofun, .server (.establish rfl) nofun⟩ <|
      .step ⟨?_, .client .dial nofun⟩ <|
      .step ⟨rfl, .client (.control rfl rfl fun _ => ⟨rfl, by decide⟩) nofun⟩ <|
      .step ⟨hquiet nofun nofun, .server (.frame rfl) fun f _ hf => by cases hf; rfl⟩ <|
      .step ⟨hquiet nofun nofun, .server (.dial rfl) nofun⟩ <|
      .step ⟨hquiet nofun nofun, .server (.insert rfl) nofun⟩ <|
      .step ⟨trivial, .client (.delete rfl rfl) nofun⟩ <|
      .step ⟨rfl, .client (.announce rfl rfl fun _ => ⟨rfl, by decide⟩) nofun⟩ <|
      .step ⟨trivial, .client (.closeReader rfl rfl) nofun⟩ <|
      .step ⟨hquiet nofun nofun, .server (.frame rfl) fun f _ hf => by cases hf; rfl⟩ <|
      .step ⟨hquiet nofun nofun, .server (.close rfl) nofun⟩ <|
      .step ⟨hquiet nofun nofun, .server (.read rfl rfl (by decide) (by decide)) nofun⟩ <|
      .step ⟨?_, .server (.finish rfl rfl) nofun⟩ <|
      .step ⟨?_, .client .dial nofun⟩ <|
      .step ⟨rfl, .client (.control rfl rfl fun _ => ⟨rfl, by decide⟩) nofun⟩ <|
      .step ⟨hquiet nofun nofun, .server (.frame rfl) fun f _ hf => by cases hf; rfl⟩ <|
      .step ⟨hquiet nofun nofun, .server (.dial rfl) nofun⟩ <|
      .step ⟨hquiet nofun nofun, .server (.insert rfl) nofun⟩ <| .refl _,
      ⟨rfl, rfl, rfl, ?_, rfl, ?_⟩⟩
    · intro k s hs
      cases hs
    · rintro - id (⟨h, -⟩ | ⟨i, c, h, hc, hid, hl⟩)
      · cases h
      · cases h
        cases hc
        cases hid
        cases hl
    · intro k s hs hid
      rcases k with _ | k
      · cases hs
        exact .inr rfl
      · cases hs
    · decide
    · decide
  obtain ⟨l, hl, hq⟩ := hrun
  exact ⟨l, hl, tables_agree hl hq⟩

/-- The dial of the one stream fails. -/
def failedDialActs : List LinkAct :=
  [.server [] .establish, .client (.dial [0x74] [0x68]), .client (.control 0 true),
    .server [] (.frame (some ⟨frameControl, [0, 0, 0, 0, 0x74, 0x7c, 0x68]⟩)),
    .server [] (.dial false)]

/-- The client keeps its stream, and nothing will tell it. -/
theorem not_sameStreams_failedDial :
    ∃ l, Run (LinkStep []) initial failedDialActs l ∧ Quiescent [] l ∧ ¬ SameStreams [] l := by
  refine ⟨_, .step (.server (.establish rfl) nofun) <| .step (.client .dial nofun) <|
    .step (.client (.control rfl rfl fun _ => ⟨rfl, by decide⟩) nofun) <|
    .step (.server (.frame rfl) fun f _ hf => by cases hf; rfl) <|
    .step (.server (.dial rfl) nofun) <| .refl _, ⟨rfl, rfl, rfl, nofun, rfl, ?_⟩, fun h => ?_⟩
  · intro s hs
    cases hs with
    | head => exact ⟨rfl, .inl rfl⟩
    | tail _ hs => cases hs
  · have h0 := h 0
    revert h0
    decide

end Link

end SshPanelVpn.ShadowLink

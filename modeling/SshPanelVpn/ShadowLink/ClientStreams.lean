import SshPanelVpn.Library.Indexed
import SshPanelVpn.ShadowLink.StreamFrames

/-! The streams of a client: their ids, the frames it sends for them, and what they get of the
frames it receives, as long as fewer than 2^32 of them were opened. -/
namespace SshPanelVpn.ShadowLink

open Octets Indexed

variable {c c' : Client} {a : ClientAct} {k j n : Nat} {s t : TunnelStream} {id : UInt32}
  {f : Frame} {ok : Bool}

/-- `dialThroughTunnel` has entered the stream and `Close` has not deleted it. -/
def TunnelPc.Entered (pc : TunnelPc) : Prop := pc = .dialing ∨ pc = .failed ∨ pc = .opened

/-- The bytes of the frame at hand that are meant for stream `k`. -/
def ReadPc.pending (k : Nat) (id : UInt32) : ReadPc → Bytes
  | .lookup action => if action.stream = id then action.data else []
  | .delivering k' rest => if k' = k then rest else []
  | _ => []

namespace Client

/-- Fewer streams than there are ids. -/
abbrev Few (c : Client) : Prop := c.streams.length < 2 ^ 32

/-- Stream ids count the streams, and the table holds those that have not been closed. -/
structure Numbered (c : Client) : Prop where
  next : c.nextID = UInt32.ofNat c.streams.length
  ids : ∀ {k : Nat} {s : TunnelStream}, c.streams[k]? = some s → s.id = UInt32.ofNat k
  entry : ∀ {id k}, c.sessions.lookup id = some k →
    ∃ s, c.streams[k]? = some s ∧ s.id = id ∧ s.pc.Entered
  kept : ∀ {k : Nat} {s : TunnelStream}, c.streams[k]? = some s → s.pc.Entered →
    c.sessions.lookup s.id = some k

theorem numbered_initial : Numbered initial where
  next := rfl
  ids h := by simp [initial] at h
  entry h := by cases h
  kept h := by simp [initial] at h

theorem ofNat_inj (hk : k < 2 ^ 32) (hj : j < 2 ^ 32) (h : UInt32.ofNat k = UInt32.ofNat j) :
    k = j := by
  have hnat := congrArg UInt32.toNat h
  rwa [UInt32.toNat_ofNat_of_lt' hk, UInt32.toNat_ofNat_of_lt' hj] at hnat

theorem Numbered.inj (h : Numbered c) (hn : c.Few) (hs : c.streams[k]? = some s)
    (ht : c.streams[j]? = some t) (hid : s.id = t.id) : k = j := by
  obtain ⟨hk, -⟩ := List.getElem?_eq_some_iff.mp hs
  obtain ⟨hj, -⟩ := List.getElem?_eq_some_iff.mp ht
  rw [h.ids hs, h.ids ht] at hid
  unfold Few at hn
  exact ofNat_inj (by omega) (by omega) hid

/-- The id that `dialThroughTunnel` takes next is not in use. -/
theorem Numbered.next_fresh (h : Numbered c) (hn : c.Few) (hs : c.streams[k]? = some s) :
    s.id ≠ c.nextID := by
  obtain ⟨hk, -⟩ := List.getElem?_eq_some_iff.mp hs
  intro he
  rw [h.ids hs, h.next] at he
  unfold Few at hn
  have := ofNat_inj (by omega) hn he
  omega

theorem few_step (h : ClientStep c a c') : c.streams.length ≤ c'.streams.length := by
  cases h <;> simp

/-- Steps that change streams without taking one into or out of the table. -/
theorem Numbered.congr {g : TunnelStream → TunnelStream} (h : Numbered c)
    (hstreams : c'.streams = c.streams.modify k g) (hnext : c'.nextID = c.nextID)
    (hsessions : c'.sessions = c.sessions)
    (hg : ∀ s, c.streams[k]? = some s →
      (g s).id = s.id ∧ ((g s).pc.Entered ↔ s.pc.Entered)) : Numbered c' where
  next := by rw [hnext, hstreams, List.length_modify, h.next]
  ids {j t} ht := by
    rw [hstreams] at ht
    obtain ⟨s, hs, rfl⟩ := getElem?_modify_some ht
    by_cases hj : k = j
    · subst hj
      rw [if_pos rfl, (hg s hs).1, h.ids hs]
    · rw [if_neg hj, h.ids hs]
  entry hl := by
    rw [hsessions] at hl
    obtain ⟨s, hs, hid, hpc⟩ := h.entry hl
    refine ⟨_, by rw [hstreams, getElem?_modify_of_some hs], ?_⟩
    split
    · next hk =>
      subst hk
      exact ⟨(hg s hs).1.trans hid, (hg s hs).2.mpr hpc⟩
    · exact ⟨hid, hpc⟩
  kept {j t} ht hpc := by
    rw [hstreams] at ht
    obtain ⟨s, hs, rfl⟩ := getElem?_modify_some ht
    rw [hsessions]
    by_cases hj : k = j
    · subst hj
      rw [if_pos rfl] at hpc ⊢
      rw [(hg s hs).1]
      exact h.kept hs ((hg s hs).2.mp hpc)
    · rw [if_neg hj] at hpc ⊢
      exact h.kept hs hpc

theorem Numbered.congr_self (h : Numbered c) (hstreams : c'.streams = c.streams)
    (hnext : c'.nextID = c.nextID) (hsessions : c'.sessions = c.sessions) : Numbered c' where
  next := by rw [hnext, hstreams, h.next]
  ids hs := h.ids (by rwa [hstreams] at hs)
  entry hl := by
    rw [hsessions] at hl
    rw [hstreams]
    exact h.entry hl
  kept hs hpc := by
    rw [hsessions]
    exact h.kept (by rwa [hstreams] at hs) hpc

theorem numbered_dial {network addr : Bytes} (h : Numbered c) (hn : c.Few) :
    Numbered (c.dial network addr) where
  next := by
    simp only [dial_nextID, dial_streams, List.length_append, List.length_singleton, h.next]
    rw [UInt32.ofNat_add]
    rfl
  ids hs := by
    rcases getElem?_append_one hs with hs | ⟨rfl, rfl⟩
    · exact h.ids hs
    · exact h.next
  entry {id k} hl := by
    rw [dial_sessions] at hl
    by_cases hid : id = c.nextID
    · subst hid
      rw [AList.lookup_insert, Option.some.injEq] at hl
      subst hl
      exact ⟨⟨c.nextID, network, addr, .dialing, none, [], []⟩, by simp, rfl, .inl rfl⟩
    · rw [AList.lookup_insert_ne hid] at hl
      obtain ⟨s, hs, hids, hpc⟩ := h.entry hl
      exact ⟨s, getElem?_append_of_some hs, hids, hpc⟩
  kept hs hpc := by
    rw [dial_sessions]
    rcases getElem?_append_one hs with hs | ⟨rfl, rfl⟩
    · rw [AList.lookup_insert_ne (h.next_fresh hn hs)]
      exact h.kept hs hpc
    · exact AList.lookup_insert c.sessions

theorem numbered_delete (h : Numbered c) (hn : c.Few) (hs : c.streams[k]? = some s) :
    Numbered ((c.delete s.id).update k (·.goto .deleted)) where
  next := by simpa using h.next
  ids {j t} ht := by
    have hids := h.ids hs
    rcases getElem?_modify_cases hs ht with ⟨rfl, rfl⟩ | ⟨-, ht⟩
    · exact hids
    · exact h.ids ht
  entry {id j} hl := by
    rw [update_sessions, delete_sessions] at hl
    by_cases hid : id = s.id
    · subst hid
      simp at hl
    · rw [AList.lookup_erase_ne hid] at hl
      obtain ⟨t, ht, hidt, hpc⟩ := h.entry hl
      have hkj : k ≠ j := by
        rintro rfl
        rw [hs, Option.some.injEq] at ht
        rw [ht] at hid
        exact hid hidt.symm
      exact ⟨t, by simp [hkj, ht], hidt, hpc⟩
  kept {j t} ht hpc := by
    rcases getElem?_modify_cases hs ht with ⟨rfl, rfl⟩ | ⟨hj, ht⟩
    · simp [TunnelPc.Entered] at hpc
    · have hid : t.id ≠ s.id := fun hid => hj (h.inj hn ht hs hid)
      rw [update_sessions, delete_sessions, AList.lookup_erase_ne hid]
      exact h.kept ht hpc

theorem numbered_step (h : ClientStep c a c') (hc : Numbered c) (hn : c.Few) : Numbered c' := by
  cases h with
  | dial => exact numbered_dial hc hn
  | @control k ok s hs hpc hok =>
    refine hc.congr (k := k) (g := (·.goto (if ok then .opened else .failed)))
      (by rw [update_streams, send_streams]) (by simp) (by simp) fun t ht => ⟨rfl, ?_⟩
    rw [hs, Option.some.injEq] at ht
    subst ht
    cases ok <;> simp [TunnelPc.Entered, hpc]
  | @write k => exact hc.congr (k := k) rfl rfl rfl fun t _ => ⟨rfl, Iff.rfl⟩
  | @data k =>
    exact hc.congr (k := k) (g := (·.written))
      (by rw [update_streams, send_streams]) (by simp) (by simp) fun t _ => ⟨rfl, Iff.rfl⟩
  | delete hs hpc => exact numbered_delete hc hn hs
  | @announce k ok s hs hpc hok =>
    refine hc.congr (k := k) (g := (·.goto .announced))
      (by rw [update_streams, send_streams]) (by simp) (by simp) fun t ht => ⟨rfl, ?_⟩
    rw [hs, Option.some.injEq] at ht
    subst ht
    simp [TunnelPc.Entered, hpc]
  | @closeReader k s hs hpc =>
    refine hc.congr (k := k) (g := (·.goto .closed)) rfl rfl rfl fun t ht => ⟨rfl, ?_⟩
    rw [hs, Option.some.injEq] at ht
    subst ht
    simp [TunnelPc.Entered, hpc]
  | frame => exact hc.congr_self (by simp) (by simp) (by simp)
  | lookup => exact hc.congr_self (by simp) (by simp) (by simp)
  | @read k => exact hc.congr (k := k) rfl rfl rfl fun t _ => ⟨rfl, Iff.rfl⟩
  | refused => exact hc.congr_self (by simp) (by simp) (by simp)
  | keepalive => exact hc.congr_self (by simp) (by simp) (by simp)
  | shutdown => exact hc.congr_self (by simp) (by simp) (by simp)
  | hangUp => exact hc.congr_self rfl rfl rfl

/-- What goes out for a stream: its control frame once and first, and then what was passed to
`Write`, in order, for as long as no write to the WebSocket has failed. -/
structure Sends (c : Client) : Prop where
  mute : ∀ {k : Nat} {s : TunnelStream}, c.streams[k]? = some s → s.pc = .dialing ∨ s.pc = .failed →
    s.writing = none ∧ s.passed = [] ∧ ∀ f ∈ c.sent, ¬ f.names s.id
  first : OpensFirst c.sent
  known : ∀ {f id}, f ∈ c.sent → f.names id →
    ∃ (k : Nat) (s : TunnelStream), c.streams[k]? = some s ∧ s.id = id
  passed : ∀ {k : Nat} {s : TunnelStream}, c.streams[k]? = some s → dataFor s.id c.sent <+: s.passed
  unbroken : ∀ {k : Nat} {s : TunnelStream}, c.broken = false → c.streams[k]? = some s →
    dataFor s.id c.sent ++ s.writing.getD [] = s.passed

theorem sends_initial : Sends initial where
  mute h := by simp [initial] at h
  first := List.Pairwise.nil
  known h := by simp [initial] at h
  passed h := by simp [initial] at h
  unbroken _ h := by simp [initial] at h

/-- Steps that send nothing. -/
theorem Sends.congr {g : TunnelStream → TunnelStream} (h : Sends c) (hs : c.streams[k]? = some s)
    (hstreams : c'.streams = c.streams.modify k g) (hsent : c'.sent = c.sent)
    (hbroken : c'.broken = false → c.broken = false) (hid : (g s).id = s.id)
    (hmute : (g s).pc = .dialing ∨ (g s).pc = .failed →
      (s.pc = .dialing ∨ s.pc = .failed) ∧ (g s).writing = none ∧ (g s).passed = s.passed)
    (hpassed : s.passed <+: (g s).passed)
    (hunbroken : c'.broken = false → dataFor s.id c.sent ++ (g s).writing.getD [] = (g s).passed) :
    Sends c' where
  mute {j t} ht hpc := by
    rw [hstreams] at ht
    rw [hsent]
    rcases getElem?_modify_cases hs ht with ⟨rfl, rfl⟩ | ⟨-, ht⟩
    · obtain ⟨hpc', hw, hp⟩ := hmute hpc
      obtain ⟨-, hnil, hno⟩ := h.mute hs hpc'
      rw [hid, hp]
      exact ⟨hw, hnil, hno⟩
    · exact h.mute ht hpc
  first := by rw [hsent]; exact h.first
  known hf hn := by
    rw [hsent] at hf
    obtain ⟨j, t, ht, hidt⟩ := h.known hf hn
    refine ⟨j, _, by rw [hstreams, getElem?_modify_of_some ht], ?_⟩
    split
    · next hkj =>
      subst hkj
      rw [hs, Option.some.injEq] at ht
      rw [← ht, hid, ht, hidt]
    · exact hidt
  passed {j t} ht := by
    rw [hstreams] at ht
    rw [hsent]
    rcases getElem?_modify_cases hs ht with ⟨rfl, rfl⟩ | ⟨-, ht⟩
    · rw [hid]
      exact (h.passed hs).trans hpassed
    · exact h.passed ht
  unbroken {j t} hb ht := by
    rw [hstreams] at ht
    rw [hsent]
    rcases getElem?_modify_cases hs ht with ⟨rfl, rfl⟩ | ⟨-, ht⟩
    · rw [hid]
      exact hunbroken hb
    · exact h.unbroken (hbroken hb) ht

theorem Sends.congr_self (h : Sends c) (hstreams : c'.streams = c.streams) (hsent : c'.sent = c.sent)
    (hbroken : c'.broken = false → c.broken = false) : Sends c' where
  mute ht hpc := by
    rw [hstreams] at ht
    rw [hsent]
    exact h.mute ht hpc
  first := by rw [hsent]; exact h.first
  known hf hn := by
    rw [hsent] at hf
    rw [hstreams]
    exact h.known hf hn
  passed ht := by
    rw [hstreams] at ht
    rw [hsent]
    exact h.passed ht
  unbroken hb ht := by
    rw [hstreams] at ht
    rw [hsent]
    exact h.unbroken (hbroken hb) ht

/-- A frame goes out for stream `k`. -/
theorem sends_frame {g : TunnelStream → TunnelStream} (h : Sends c) (hnum : Numbered c)
    (hn : c.Few) (hs : c.streams[k]? = some s) (hstreams : c'.streams = c.streams.modify k g)
    (hsent : c'.sent = c.sent ++ [f]) (hbroken : c'.broken = c.broken)
    (hnames : ∀ id, f.names id → id = s.id)
    (hopens : f.opens s.id → ∀ f' ∈ c.sent, ¬ f'.names s.id)
    (hg : (g s).id = s.id ∧ (g s).passed = s.passed ∧ (g s).pc ≠ .dialing ∧ (g s).pc ≠ .failed)
    (hpassed : dataFor s.id c.sent ++ f.dataOf s.id <+: s.passed)
    (hunbroken : c.broken = false →
      dataFor s.id c.sent ++ f.dataOf s.id ++ (g s).writing.getD [] = s.passed) : Sends c' := by
  obtain ⟨hid, hp, hd, hf⟩ := hg
  have hother : ∀ {j : Nat} {t : TunnelStream}, j ≠ k → c.streams[j]? = some t → ¬ f.names t.id :=
    fun hj ht hname => hj (hnum.inj hn ht hs (hnames _ hname))
  constructor
  · intro j t ht hpc
    rw [hstreams] at ht
    rcases getElem?_modify_cases hs ht with ⟨rfl, rfl⟩ | ⟨hj, ht⟩
    · exact (hpc.elim hd hf).elim
    · obtain ⟨hw, hnil, hno⟩ := h.mute ht hpc
      refine ⟨hw, hnil, fun f' hf' => ?_⟩
      rw [hsent, List.mem_append, List.mem_singleton] at hf'
      rcases hf' with hf' | rfl
      · exact hno f' hf'
      · exact hother hj ht
  · rw [hsent, opensFirst_snoc]
    refine ⟨h.first, fun id ho => ?_⟩
    obtain rfl := hnames id ho.names
    exact hopens ho
  · intro f' id hf' hname
    rw [hsent, List.mem_append, List.mem_singleton] at hf'
    have hold : ∃ (j : Nat) (t : TunnelStream), c.streams[j]? = some t ∧ t.id = id := by
      rcases hf' with hf' | rfl
      · exact h.known hf' hname
      · exact ⟨k, s, hs, (hnames id hname).symm⟩
    obtain ⟨j, t, ht, hidt⟩ := hold
    refine ⟨j, _, by rw [hstreams, getElem?_modify_of_some ht], ?_⟩
    split
    · next hkj =>
      subst hkj
      rw [hs, Option.some.injEq] at ht
      rw [← ht, hid, ht, hidt]
    · exact hidt
  · intro j t ht
    rw [hstreams] at ht
    rw [hsent, dataFor_snoc]
    rcases getElem?_modify_cases hs ht with ⟨rfl, rfl⟩ | ⟨hj, ht⟩
    · rw [hid, hp]
      exact hpassed
    · rw [dataOf_of_not_names (hother hj ht), List.append_nil]
      exact h.passed ht
  · intro j t hb ht
    rw [hstreams] at ht
    rw [hsent, dataFor_snoc]
    rw [hbroken] at hb
    rcases getElem?_modify_cases hs ht with ⟨rfl, rfl⟩ | ⟨hj, ht⟩
    · rw [hid, hp]
      exact hunbroken hb
    · rw [dataOf_of_not_names (hother hj ht), List.append_nil]
      exact h.unbroken hb ht

/-- A frame goes out that is for no stream. -/
theorem sends_unnamed (h : Sends c) (hnames : ∀ id, ¬ f.names id) (hstreams : c'.streams = c.streams)
    (hsent : c'.sent = c.sent ++ [f]) (hbroken : c'.broken = c.broken) : Sends c' := by
  have hdata : ∀ id, dataFor id c'.sent = dataFor id c.sent := by
    intro id
    rw [hsent, dataFor_snoc, dataOf_of_not_names (hnames id), List.append_nil]
  constructor
  · intro k s hs hpc
    rw [hstreams] at hs
    obtain ⟨hw, hp, hno⟩ := h.mute hs hpc
    refine ⟨hw, hp, fun f' hf' => ?_⟩
    rw [hsent, List.mem_append, List.mem_singleton] at hf'
    rcases hf' with hf' | rfl
    · exact hno f' hf'
    · exact hnames _
  · rw [hsent, opensFirst_snoc]
    exact ⟨h.first, fun id ho => (hnames id ho.names).elim⟩
  · intro f' id hf' hname
    rw [hsent, List.mem_append, List.mem_singleton] at hf'
    rw [hstreams]
    rcases hf' with hf' | rfl
    · exact h.known hf' hname
    · exact (hnames id hname).elim
  · intro k s hs
    rw [hstreams] at hs
    rw [hdata]
    exact h.passed hs
  · intro k s hb hs
    rw [hstreams] at hs
    rw [hdata]
    exact h.unbroken (hbroken ▸ hb) hs

theorem sends_dial {network addr : Bytes} (h : Sends c) (hnum : Numbered c) (hn : c.Few) :
    Sends (c.dial network addr) := by
  have hnone : ∀ f ∈ c.sent, ¬ f.names c.nextID := by
    intro f hf hname
    obtain ⟨k, s, hs, hid⟩ := h.known hf hname
    exact hnum.next_fresh hn hs hid
  constructor
  · intro k s hs hpc
    rcases getElem?_append_one hs with hs | ⟨rfl, rfl⟩
    · exact h.mute hs hpc
    · exact ⟨rfl, rfl, hnone⟩
  · exact h.first
  · intro f id hf hname
    obtain ⟨k, s, hs, hid⟩ := h.known hf hname
    exact ⟨k, s, getElem?_append_of_some hs, hid⟩
  · intro k s hs
    rcases getElem?_append_one hs with hs | ⟨rfl, rfl⟩
    · exact h.passed hs
    · have hnil : dataFor c.nextID c.sent = [] := dataFor_of_not_names hnone
      exact hnil ▸ List.prefix_rfl
  · intro k s hb hs
    rcases getElem?_append_one hs with hs | ⟨rfl, rfl⟩
    · exact h.unbroken hb hs
    · show dataFor c.nextID c.sent ++ [] = []
      rw [dataFor_of_not_names hnone]
      rfl

theorem sends_step (h : ClientStep c a c') (hc : Sends c) (hnum : Numbered c) (hn : c.Few)
    (hbroken : a.sends = true → c.broken = false) : Sends c' := by
  cases h with
  | dial => exact sends_dial hc hnum hn
  | @control k ok s hs hpc hok =>
    obtain ⟨hw, hp, hno⟩ := hc.mute hs (.inl hpc)
    have hopens := s.controlFrame_opens
    obtain ⟨network, addr, hswitch⟩ := hopens
    have hdata : s.controlFrame.dataOf s.id = [] :=
      dataOf_of_not_writeStream fun _ => by simp [hswitch]
    have hnil : dataFor s.id c.sent = [] := dataFor_of_not_names hno
    cases ok with
    | false =>
      refine hc.congr (g := (·.goto .failed)) hs rfl rfl ?_ rfl ?_ List.prefix_rfl ?_
      · intro hb
        simp [Client.send] at hb
      · exact fun _ => ⟨.inl hpc, hw, rfl⟩
      · intro hb
        simp [Client.send] at hb
    | true =>
      refine sends_frame (f := s.controlFrame) (g := (·.goto .opened)) hc hnum hn hs rfl rfl rfl
        (fun id hname => ?_) (fun _ => hno) (by simp) ?_ (fun _ => ?_)
      · exact Frame.opens_unique ⟨network, addr, hswitch⟩ hname
      · simp [hnil, hdata]
      · simp [hnil, hdata, hw, hp]
  | @write k p s hs hpc hidle hp =>
    refine hc.congr (g := (·.pass p)) hs rfl rfl (fun hb => hb) rfl ?_ (List.prefix_append _ _) ?_
    · intro hd
      exact (hd.elim hpc.1 hpc.2).elim
    · intro hb
      have hu := hc.unbroken hb hs
      simp only [hidle, Option.getD_none, List.append_nil] at hu
      simp [hu]
  | @data k ok s p hs hp hok =>
    have hmute : ¬ (s.pc = .dialing ∨ s.pc = .failed) := by
      intro hpc
      simp [(hc.mute hs hpc).1] at hp
    cases ok with
    | false =>
      refine hc.congr (g := (·.written)) hs rfl rfl ?_ rfl (fun hpc => (hmute hpc).elim)
        List.prefix_rfl ?_
      · intro hb
        simp [Client.send] at hb
      · intro hb
        simp [Client.send] at hb
    | true =>
      have hu := hc.unbroken (hbroken rfl) hs
      simp only [hp, Option.getD_some] at hu
      have hdata : (s.dataFrame p).dataOf s.id = p := by
        rw [dataOf_of_writeStream (s.relaySwitch_dataFrame p), if_pos rfl]
      refine sends_frame (f := s.dataFrame p) (g := (·.written)) hc hnum hn hs rfl rfl rfl
        (fun id hname => ?_) (fun ho => ?_)
        ⟨rfl, rfl, fun hd => hmute (.inl hd), fun hf => hmute (.inr hf)⟩ ?_ (fun _ => ?_)
      · obtain ⟨action, ha, rfl⟩ := hname
        rw [s.relaySwitch_dataFrame p, Turn.act.injEq] at ha
        rw [← ha]
        rfl
      · obtain ⟨network, addr, ha⟩ := ho
        simp [s.relaySwitch_dataFrame p] at ha
      · have hall : dataFor s.id c.sent ++ (s.dataFrame p).dataOf s.id = s.passed := by
          rw [hdata, hu]
        exact hall ▸ List.prefix_rfl
      · simp [hdata, hu]
  | @delete k s hs hpc =>
    refine hc.congr (g := (·.goto .deleted)) hs rfl rfl (fun hb => hb) rfl (fun hd => by simp at hd)
      List.prefix_rfl (fun hb => hc.unbroken hb hs)
  | @announce k ok s hs hpc hok =>
    have hcloses := s.closeFrame_closes
    have hdata : s.closeFrame.dataOf s.id = [] :=
      dataOf_of_not_writeStream fun _ => by simp [show relaySwitch s.closeFrame = _ from hcloses]
    cases ok with
    | false =>
      refine hc.congr (g := (·.goto .announced)) hs rfl rfl ?_ rfl (fun hd => by simp at hd)
        List.prefix_rfl ?_
      · intro hb
        simp [Client.send] at hb
      · intro hb
        simp [Client.send] at hb
    | true =>
      refine sends_frame (f := s.closeFrame) (g := (·.goto .announced)) hc hnum hn hs rfl rfl rfl
        (fun id hname => ?_) (fun ho => ?_) (by simp) ?_ (fun hb => ?_)
      · obtain ⟨action, ha, rfl⟩ := hname
        rw [show relaySwitch s.closeFrame = _ from hcloses, Turn.act.injEq] at ha
        rw [← ha]
        rfl
      · obtain ⟨network, addr, ha⟩ := ho
        simp [show relaySwitch s.closeFrame = _ from hcloses] at ha
      · simpa [hdata] using hc.passed hs
      · simpa [hdata] using hc.unbroken hb hs
  | @closeReader k s hs hpc =>
    refine hc.congr (g := (·.goto .closed)) hs rfl rfl (fun hb => hb) rfl (fun hd => by simp at hd)
      List.prefix_rfl (fun hb => hc.unbroken hb hs)
  | frame => exact hc.congr_self (by simp) (by simp) (by simp)
  | lookup => exact hc.congr_self rfl rfl (fun hb => hb)
  | @read k n rest s hpc hs hopen hlen =>
    refine hc.congr (g := (·.deliver (rest.take n))) hs rfl rfl (fun hb => hb) rfl
      (fun hd => ⟨hd, (hc.mute hs hd).1, rfl⟩) List.prefix_rfl (fun hb => hc.unbroken hb hs)
  | refused => exact hc.congr_self rfl rfl (fun hb => hb)
  | @keepalive padding ok hok =>
    cases ok with
    | false => exact hc.congr_self rfl rfl (fun hb => by simp [Client.send] at hb)
    | true =>
      refine sends_unnamed hc (f := ⟨frameKeepalive, padding⟩) ?_ rfl rfl rfl
      rintro id ⟨action, ha, -⟩
      simp [relaySwitch_keepalive] at ha
  | @shutdown ok hok =>
    cases ok with
    | false => exact hc.congr_self rfl rfl (fun hb => by simp [Client.send] at hb)
    | true =>
      refine sends_unnamed hc (f := newCloseFrame) ?_ rfl rfl rfl
      rintro id ⟨action, ha, -⟩
      simp [relaySwitch_newCloseFrame] at ha
  | hangUp => exact hc.congr_self rfl rfl (fun hb => hb)

/-- What a stream gets: the bytes of the frames for it, in order, up to where its entry in the
table was deleted. -/
structure Reads (c : Client) : Prop where
  looking : ∀ {a}, c.loop = .lookup a → ∃ before, dataFor a.stream c.received = before ++ a.data
  delivering : ∀ {k rest}, c.loop = .delivering k rest →
    ∃ s, c.streams[k]? = some s ∧ s.delivered ++ rest <+: dataFor s.id c.received
  delivered : ∀ {k : Nat} {s : TunnelStream}, c.streams[k]? = some s →
    s.delivered <+: dataFor s.id c.received
  exact : ∀ {k : Nat} {s : TunnelStream}, c.streams[k]? = some s → s.pc.Entered →
    s.delivered ++ c.loop.pending k s.id = dataFor s.id c.received

theorem reads_initial : Reads initial where
  looking h := by simp [initial] at h
  delivering h := by simp [initial] at h
  delivered h := by simp [initial] at h
  exact h := by simp [initial] at h

/-- Steps that give nothing to a stream. -/
theorem Reads.congr (h : Reads c) (hloop : c'.loop = c.loop) (hreceived : c'.received = c.received)
    (hold : ∀ {k : Nat} {t : TunnelStream}, c'.streams[k]? = some t →
      ∃ s, c.streams[k]? = some s ∧ t.id = s.id ∧ t.delivered = s.delivered ∧
        (t.pc.Entered → s.pc.Entered))
    (hnew : ∀ {k : Nat} {s : TunnelStream}, c.streams[k]? = some s →
      ∃ t, c'.streams[k]? = some t ∧ t.id = s.id ∧ t.delivered = s.delivered) : Reads c' where
  looking hl := by
    rw [hreceived]
    exact h.looking (hloop ▸ hl)
  delivering hl := by
    obtain ⟨s, hs, hd⟩ := h.delivering (hloop ▸ hl)
    obtain ⟨t, ht, hid, hdt⟩ := hnew hs
    exact ⟨t, ht, by rw [hid, hdt, hreceived]; exact hd⟩
  delivered ht := by
    obtain ⟨s, hs, hid, hd, -⟩ := hold ht
    rw [hid, hd, hreceived]
    exact h.delivered hs
  exact ht hpc := by
    obtain ⟨s, hs, hid, hd, he⟩ := hold ht
    rw [hid, hd, hloop, hreceived]
    exact h.exact hs (he hpc)

theorem Reads.congr_modify {g : TunnelStream → TunnelStream} (h : Reads c)
    (hs : c.streams[k]? = some s) (hstreams : c'.streams = c.streams.modify k g)
    (hloop : c'.loop = c.loop) (hreceived : c'.received = c.received)
    (hg : (g s).id = s.id ∧ (g s).delivered = s.delivered ∧ ((g s).pc.Entered → s.pc.Entered)) :
    Reads c' := by
  refine h.congr hloop hreceived ?_ ?_
  · intro j t ht
    rw [hstreams] at ht
    rcases getElem?_modify_cases hs ht with ⟨rfl, rfl⟩ | ⟨-, ht⟩
    · exact ⟨s, hs, hg⟩
    · exact ⟨t, ht, rfl, rfl, fun he => he⟩
  · intro j t ht
    refine ⟨_, by rw [hstreams, getElem?_modify_of_some ht], ?_⟩
    split
    · next hkj =>
      subst hkj
      rw [hs, Option.some.injEq] at ht
      exact ⟨ht ▸ hg.1, ht ▸ hg.2.1⟩
    · exact ⟨rfl, rfl⟩

theorem Reads.congr_self (h : Reads c) (hstreams : c'.streams = c.streams)
    (hloop : c'.loop = c.loop) (hreceived : c'.received = c.received) : Reads c' := by
  refine h.congr hloop hreceived ?_ ?_
  · intro k t ht
    rw [hstreams] at ht
    exact ⟨t, ht, rfl, rfl, fun he => he⟩
  · intro k s hs
    exact ⟨s, by rw [hstreams, hs], rfl, rfl⟩

/-- A new stream starts with nothing, as long as nothing came in for it before it was opened. -/
theorem reads_dial {network addr : Bytes} (h : Reads c) (hfresh : dataFor c.nextID c.received = []) :
    Reads (c.dial network addr) where
  looking hl := h.looking hl
  delivering hl := by
    obtain ⟨s, hs, hd⟩ := h.delivering hl
    exact ⟨s, getElem?_append_of_some hs, hd⟩
  delivered hs := by
    rcases getElem?_append_one hs with hs | ⟨rfl, rfl⟩
    · exact h.delivered hs
    · exact List.nil_prefix
  exact {k s} hs hpc := by
    rcases getElem?_append_one hs with hs | ⟨rfl, rfl⟩
    · exact h.exact hs hpc
    · show [] ++ c.loop.pending c.streams.length c.nextID = dataFor c.nextID c.received
      rw [hfresh, List.nil_append]
      cases hl : c.loop with
      | lookup a =>
        by_cases hid : a.stream = c.nextID
        · obtain ⟨before, hb⟩ := h.looking hl
          rw [hid, hfresh] at hb
          have hnil : a.data = [] := (List.append_eq_nil_iff.mp hb.symm).2
          simp [ReadPc.pending, hnil]
        · simp [ReadPc.pending, hid]
      | delivering k rest =>
        obtain ⟨s, hs, -⟩ := h.delivering hl
        obtain ⟨hk, -⟩ := List.getElem?_eq_some_iff.mp hs
        have hne : k ≠ c.streams.length := by omega
        simp [ReadPc.pending, hne]
      | reading => rfl
      | ended => rfl

theorem reads_receive (h : Reads c) (hpc : c.loop = .reading) (f : Option Frame) :
    Reads (c.receive f) := by
  have hexact : ∀ {k : Nat} {s : TunnelStream}, c.streams[k]? = some s → s.pc.Entered →
      s.delivered = dataFor s.id c.received := by
    intro k s hs he
    simpa [hpc, ReadPc.pending] using h.exact hs he
  cases f with
  | none =>
    constructor
    · intro a hl
      simp [receive] at hl
    · intro k rest hl
      simp [receive] at hl
    · exact h.delivered
    · intro k s hs he
      simpa [receive, ReadPc.pending] using hexact hs he
  | some f =>
    constructor
    · intro a hl
      have ha : readSwitch f = .act a := by
        cases ht : readSwitch f <;> simp_all [receive]
      refine ⟨dataFor a.stream c.received, ?_⟩
      simp [receive, Frame.dataOf, ha]
    · intro k rest hl
      cases ht : readSwitch f <;> simp [receive, ht] at hl
    · intro k s hs
      exact (h.delivered hs).trans (dataFor_mono (List.prefix_append _ _))
    · intro k s hs he
      show s.delivered ++ (ReadPc.ofTurn (readSwitch f)).pending k s.id =
        dataFor s.id (c.received ++ [f])
      rw [dataFor_snoc, hexact hs he]
      congr 1
      cases ht : readSwitch f <;> simp [ReadPc.pending, Frame.dataOf, ht]

/-- The table leads to the stream that the frame names. -/
theorem reads_lookup {action : ClientAction} (h : Reads c) (hnum : Numbered c) (hn : c.Few)
    (hpc : c.loop = .lookup action) :
    Reads (c.goto (.ofLookup action.data (c.sessions.lookup action.stream))) := by
  cases hl : c.sessions.lookup action.stream with
  | none =>
    constructor
    · intro a ha
      simp at ha
    · intro k rest hd
      simp at hd
    · exact h.delivered
    · intro k s hs he
      have hne : action.stream ≠ s.id := by
        intro hid
        rw [hid, hnum.kept hs he] at hl
        cases hl
      simpa [hpc, ReadPc.pending, hne] using h.exact hs he
  | some j =>
    obtain ⟨t, ht, hid, hent⟩ := hnum.entry hl
    have hexact : t.delivered ++ action.data = dataFor t.id c.received := by
      simpa [hpc, ReadPc.pending, hid] using h.exact ht hent
    constructor
    · intro a ha
      simp at ha
    · intro k rest hd
      simp only [goto_loop, ReadPc.ofLookup, ReadPc.delivering.injEq] at hd
      obtain ⟨rfl, rfl⟩ := hd
      exact ⟨t, ht, hexact ▸ List.prefix_rfl⟩
    · exact h.delivered
    · intro k s hs he
      simp only [goto_loop, ReadPc.ofLookup, ReadPc.pending]
      by_cases hjk : j = k
      · subst hjk
        obtain rfl : t = s := Option.some.inj (ht.symm.trans hs)
        rw [if_pos rfl]
        exact hexact
      · have hne : action.stream ≠ s.id := by
          intro he'
          exact hjk (hnum.inj hn ht hs (hid.trans he'))
        rw [if_neg hjk]
        simpa [hpc, ReadPc.pending, hne] using h.exact hs he

theorem reads_read {rest : Bytes} (h : Reads c) (hpc : c.loop = .delivering k rest)
    (hs : c.streams[k]? = some s) :
    Reads ((c.update k (·.deliver (rest.take n))).goto
      (if rest.drop n = [] then .reading else .delivering k (rest.drop n))) := by
  obtain ⟨s', hs', hd⟩ := h.delivering hpc
  obtain rfl : s' = s := by
    rw [hs, Option.some.injEq] at hs'
    exact hs'.symm
  have hall : s'.delivered ++ rest.take n ++ rest.drop n = s'.delivered ++ rest := by
    rw [List.append_assoc, List.take_append_drop]
  constructor
  · intro a ha
    simp only [goto_loop] at ha
    split at ha <;> cases ha
  · intro j rest' hl
    simp only [goto_loop] at hl
    split at hl
    · cases hl
    · obtain ⟨rfl, rfl⟩ := ReadPc.delivering.inj hl
      refine ⟨s'.deliver (rest.take n), by simp [hs], ?_⟩
      show s'.delivered ++ rest.take n ++ rest.drop n <+: dataFor s'.id c.received
      rw [hall]
      exact hd
  · intro j t ht
    rcases getElem?_modify_cases hs ht with ⟨rfl, rfl⟩ | ⟨-, ht⟩
    · exact ((List.prefix_append_right_inj _).mpr (List.take_prefix n rest)).trans hd
    · exact h.delivered ht
  · intro j t ht he
    rcases getElem?_modify_cases hs ht with ⟨rfl, rfl⟩ | ⟨hj, ht⟩
    · have hexact := h.exact hs he
      simp only [hpc, ReadPc.pending, if_true] at hexact
      show s'.delivered ++ rest.take n ++ _ = dataFor s'.id c.received
      rw [← hexact, ← hall]
      simp only [goto_loop]
      split
      · next hnil => rw [hnil]; rfl
      · simp [ReadPc.pending]
    · have hexact := h.exact ht he
      simp only [hpc, ReadPc.pending, if_neg hj.symm] at hexact
      show t.delivered ++ _ = dataFor t.id c.received
      rw [← hexact]
      simp only [goto_loop]
      split
      · rfl
      · simp [ReadPc.pending, hj.symm]

theorem reads_step (h : ClientStep c a c') (hc : Reads c) (hnum : Numbered c) (hn : c.Few)
    (hfresh : dataFor c.nextID c.received = []) : Reads c' := by
  cases h with
  | dial => exact reads_dial hc hfresh
  | @control k ok s hs hpc hok =>
    refine hc.congr_modify hs (by rw [update_streams, send_streams]) (by simp) (by simp)
      ⟨rfl, rfl, fun _ => .inl hpc⟩
  | write hs => exact hc.congr_modify hs rfl rfl rfl ⟨rfl, rfl, fun he => he⟩
  | data hs =>
    exact hc.congr_modify hs (by rw [update_streams, send_streams]) (by simp) (by simp)
      ⟨rfl, rfl, fun he => he⟩
  | delete hs =>
    exact hc.congr_modify hs rfl rfl rfl ⟨rfl, rfl, fun he => by simp [TunnelPc.Entered] at he⟩
  | announce hs =>
    exact hc.congr_modify hs (by rw [update_streams, send_streams]) (by simp) (by simp)
      ⟨rfl, rfl, fun he => by simp [TunnelPc.Entered] at he⟩
  | closeReader hs =>
    exact hc.congr_modify hs rfl rfl rfl ⟨rfl, rfl, fun he => by simp [TunnelPc.Entered] at he⟩
  | frame hpc => exact reads_receive hc hpc _
  | lookup hpc => exact reads_lookup hc hnum hn hpc
  | read hpc hs => exact reads_read hc hpc hs
  | @refused k rest s hpc hs hclosed =>
    constructor
    · intro a ha
      simp at ha
    · intro j rest' hl
      simp at hl
    · exact hc.delivered
    · intro j t ht he
      have hjk : k ≠ j := by
        rintro rfl
        obtain rfl : s = t := Option.some.inj (hs.symm.trans ht)
        simp [TunnelPc.Entered, hclosed] at he
      simpa [hpc, ReadPc.pending, hjk] using hc.exact ht he
  | keepalive => exact hc.congr_self (by simp) (by simp) (by simp)
  | shutdown => exact hc.congr_self (by simp) (by simp) (by simp)
  | hangUp => exact hc.congr_self rfl rfl rfl

end Client

end SshPanelVpn.ShadowLink

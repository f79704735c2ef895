import SshPanelVpn.ShadowLink.RelayClosing
import SshPanelVpn.ShadowLink.StreamFrames

/-! What a session carries between its client and its upstream connections, for a client that opens
each stream once and first. -/
namespace SshPanelVpn.ShadowLink

open Octets Runs Indexed

variable {v v' : SessionView} {sid : SessionId} {act : RelayAct} {i j : Nat} {c d : Upstream}
  {id : UInt32} {conn : ConnRef} {data : Bytes}

/-- The bytes that were read but have not been sent on. -/
def Upstream.unsent (c : Upstream) : Bytes :=
  match c.pc with
  | .sending buf _ => buf
  | _ => []

/-- The goroutine may still read. -/
def Upstream.Relaying (c : Upstream) : Prop := c.pc ≠ .closing ∧ c.pc ≠ .ended

/-- The bytes of the frame at hand that are meant for connection `i` of stream `id`. -/
def LoopPc.pending (i : Nat) (id : UInt32) : LoopPc → Bytes
  | .acting (.writeStream id' data) => if id' = id then data else []
  | .writing conn data => if conn.index = i then data else []
  | _ => []

namespace SessionView

/-- A failed write to an upstream connection is never followed by one that takes bytes. -/
def WritesFailForGood (v : SessionView) (act : RelayAct) : Prop :=
  ∀ conn data n c, v.loop = .writing conn data → act = .write n →
    v.conns[conn.index]? = some c → c.broken = true → n = 0

structure Carries (v : SessionView) : Prop where
  opened : ∀ {i : Nat} {c : Upstream}, v.conns[i]? = some c → ∃ f ∈ v.received, f.opens c.streamID
  distinct : ∀ {i j : Nat} {c d : Upstream}, v.conns[i]? = some c → v.conns[j]? = some d →
    c.streamID = d.streamID → i = j
  written : ∀ {i : Nat} {c : Upstream}, v.conns[i]? = some c →
    c.written <+: dataFor c.streamID v.received
  exact : ∀ {i : Nat} {c : Upstream}, v.conns[i]? = some c → c.closed = false → c.broken = false →
    c.written ++ v.loop.pending i c.streamID = dataFor c.streamID v.received
  connecting : ∀ {id network addr}, v.loop = .acting (.connect id network addr) →
    (∃ f ∈ v.received, f.opens id) ∧ dataFor id v.received = [] ∧
      ∀ (i : Nat) (c : Upstream), v.conns[i]? = some c → c.streamID ≠ id
  taken : ∀ {i : Nat} {c : Upstream}, v.conns[i]? = some c → dataFor c.streamID v.sent <+: c.taken
  relaying : ∀ {i : Nat} {c : Upstream}, v.conns[i]? = some c → c.Relaying →
    dataFor c.streamID v.sent ++ c.unsent = c.taken
  silent : ∀ {id}, (∀ (i : Nat) (c : Upstream), v.conns[i]? = some c → c.streamID ≠ id) →
    dataFor id v.sent = []

theorem carries_initial : Carries initial where
  opened h := by simp [initial, RelaySession.initial] at h
  distinct h := by simp [initial, RelaySession.initial] at h
  written h := by simp [initial, RelaySession.initial] at h
  exact h := by simp [initial, RelaySession.initial] at h
  connecting h := by simp [initial, RelaySession.initial] at h
  taken h := by simp [initial, RelaySession.initial] at h
  relaying h := by simp [initial, RelaySession.initial] at h
  silent _ := rfl

/-- An insertion is for a stream id of its own. -/
theorem Carries.unused (h : Carries v) (ha : Attached v) : v.Unused := by
  intro id conn hl i c hc hne hid
  obtain ⟨d, hd, hidd, -⟩ := ha.inserting hl
  exact (hne (h.distinct hc hd (hid.trans hidd.symm))).elim

/-- Steps that add nothing to the history. -/
theorem Carries.congr (h : Carries v) (hreceived : v'.received = v.received)
    (hsent : v'.sent = v.sent)
    (hold : ∀ {i : Nat} {c' : Upstream}, v'.conns[i]? = some c' → ∃ c, v.conns[i]? = some c ∧
      c'.streamID = c.streamID ∧ c'.written = c.written ∧
      (c'.closed = false → c.closed = false) ∧ c'.broken = c.broken ∧ c'.taken = c.taken ∧
      c'.unsent = c.unsent ∧ (c'.Relaying → c.Relaying))
    (hpending : ∀ {i : Nat} {c : Upstream}, v.conns[i]? = some c → c.closed = false →
      v'.loop.pending i c.streamID = v.loop.pending i c.streamID)
    (hnew : ∀ {i : Nat} {c : Upstream}, v.conns[i]? = some c → ∃ c', v'.conns[i]? = some c' ∧
      c'.streamID = c.streamID)
    (hloop : ∀ id network addr, v'.loop = .acting (.connect id network addr) →
      v.loop = .acting (.connect id network addr)) : Carries v' where
  opened hc := by
    obtain ⟨c, hc', hid, -⟩ := hold hc
    rw [hreceived, hid]
    exact h.opened hc'
  distinct hc hd hids := by
    obtain ⟨c, hc', hid, -⟩ := hold hc
    obtain ⟨d, hd', hid', -⟩ := hold hd
    exact h.distinct hc' hd' (hid.symm.trans (hids.trans hid'))
  written hc := by
    obtain ⟨c, hc', hid, hw, -⟩ := hold hc
    rw [hreceived, hid, hw]
    exact h.written hc'
  exact hc hcl hb := by
    obtain ⟨c, hc', hid, hw, hcl', hb', -⟩ := hold hc
    rw [hreceived, hid, hw, hpending hc' (hcl' hcl)]
    exact h.exact hc' (hcl' hcl) (hb'.symm.trans hb)
  connecting hl := by
    obtain ⟨ho, hd, hnone⟩ := h.connecting (hloop _ _ _ hl)
    rw [hreceived]
    refine ⟨ho, hd, fun i c hc => ?_⟩
    obtain ⟨c', hc', hid, -⟩ := hold hc
    rw [hid]
    exact hnone i c' hc'
  taken hc := by
    obtain ⟨c, hc', hid, -, -, -, ht, -⟩ := hold hc
    rw [hsent, hid, ht]
    exact h.taken hc'
  relaying hc hr := by
    obtain ⟨c, hc', hid, -, -, -, ht, hu, hr'⟩ := hold hc
    rw [hsent, hid, ht, hu]
    exact h.relaying hc' (hr' hr)
  silent hid := by
    rw [hsent]
    apply h.silent
    intro i c hc he
    obtain ⟨c', hc', hid'⟩ := hnew hc
    exact hid i c' hc' (hid'.trans he)

theorem Carries.congr_self (h : Carries v) (hconns : v'.conns = v.conns)
    (hreceived : v'.received = v.received) (hsent : v'.sent = v.sent)
    (hpending : ∀ {i : Nat} {c : Upstream}, v.conns[i]? = some c → c.closed = false →
      v'.loop.pending i c.streamID = v.loop.pending i c.streamID)
    (hloop : ∀ id network addr, v'.loop = .acting (.connect id network addr) →
      v.loop = .acting (.connect id network addr)) : Carries v' := by
  refine h.congr hreceived hsent ?_ hpending ?_ hloop
  · intro i c hc
    rw [hconns] at hc
    exact ⟨c, hc, rfl, rfl, fun h => h, rfl, rfl, rfl, fun h => h⟩
  · intro i c hc
    exact ⟨c, by rw [hconns, hc], rfl⟩

theorem carries_closeStream (h : Carries v) (hloop : ∀ i id, v'.loop.pending i id = v.loop.pending i id)
    (hconns : v'.conns = (v.closeStream id).conns) (hreceived : v'.received = v.received)
    (hsent : v'.sent = v.sent)
    (hnot : ∀ id network addr, v'.loop = .acting (.connect id network addr) →
      v.loop = .acting (.connect id network addr)) : Carries v' := by
  cases hl : v.lookupStream id with
  | none =>
    rw [closeStream_of_none hl] at hconns
    exact h.congr_self hconns hreceived hsent (fun _ _ => hloop _ _) hnot
  | some conn =>
    rw [(closeStream_of_some hl).1, RelaySession.closeConn_conns] at hconns
    refine h.congr hreceived hsent ?_ (fun _ _ => hloop _ _) ?_ hnot
    · intro i c' hc'
      rw [hconns] at hc'
      obtain ⟨c, hc, rfl⟩ := getElem?_modify_some hc'
      by_cases hi : conn.index = i
      · rw [if_pos hi]
        exact ⟨c, hc, rfl, rfl, by simp, rfl, rfl, rfl, fun h => h⟩
      · rw [if_neg hi]
        exact ⟨c, hc, rfl, rfl, fun h => h, rfl, rfl, rfl, fun h => h⟩
    · intro i c hc
      rw [hconns, List.getElem?_modify, hc]
      by_cases hi : conn.index = i
      · exact ⟨c.close, by simp [hi], rfl⟩
      · exact ⟨c, by simp [hi], rfl⟩

theorem carries_cleanup {order : List ConnRef} (h : Carries v) (hpc : v.loop = .cleanup) :
    Carries (((v.closeAll order).setStreams none).map (·.goto .ended)) := by
  refine h.congr closeAll_history.1 closeAll_history.2 ?_ ?_ ?_ (fun _ _ _ => by simp)
  · intro i c' hc'
    have hall : (v.closeAll order).conns[i]? = some c' := hc'
    rw [closeAll_conns] at hall
    obtain ⟨c, hc, rfl⟩ := Option.map_eq_some_iff.mp hall
    by_cases ho : ∃ conn ∈ order, conn.index = i
    · rw [if_pos ho]
      exact ⟨c, hc, rfl, rfl, by simp, rfl, rfl, rfl, fun h => h⟩
    · rw [if_neg ho]
      exact ⟨c, hc, rfl, rfl, fun h => h, rfl, rfl, rfl, fun h => h⟩
  · intro i c hc _
    simp [hpc, LoopPc.pending]
  · intro i c hc
    show ∃ c', (v.closeAll order).conns[i]? = some c' ∧ _
    rw [closeAll_conns, hc]
    by_cases ho : ∃ conn ∈ order, conn.index = i
    · exact ⟨c.close, by simp [ho], rfl⟩
    · exact ⟨c, by simp [ho], rfl⟩

/-- A look into the map finds the connection of the stream as long as that is open. -/
theorem carries_lookup (h : Carries v) (ha : Attached v)
    (hpc : v.loop = .acting (.writeStream id data)) :
    Carries (v.map (·.goto (.ofLookup data (v.lookupStream id)))) := by
  refine h.congr_self rfl rfl rfl ?_ ?_
  · intro i c hc hcl
    have hstarted : c.pc ≠ .notStarted := by
      intro hp
      obtain ⟨conn, hl, -⟩ := ha.unstarted hc hp
      simp [hpc] at hl
    obtain ⟨conn, hent, hi⟩ := ha.opened hc hcl hstarted
    simp only [map_toRelaySession, RelaySession.goto_loop, hpc, LoopPc.pending]
    by_cases hid : id = c.streamID
    · rw [if_pos hid, hid, hent]
      simp [hi]
    · rw [if_neg hid]
      cases hl : v.lookupStream id with
      | none => rfl
      | some conn' =>
        obtain ⟨d, hd, hidd, -⟩ := ha.entry hl
        have hne : conn'.index ≠ i := by
          rintro rfl
          rw [hc, Option.some.injEq] at hd
          exact hid (hidd.symm.trans (by rw [hd]))
        simp [hne]
  · intro id' network addr
    cases v.lookupStream id <;> simp

theorem carries_receive {f : Frame} (h : Carries v) (hpc : v.loop = .reading)
    (hfirst : OpensFirst (v.received ++ [f])) : Carries (v.map (·.receive (some f))) where
  opened hc := by
    obtain ⟨g, hg, ho⟩ := h.opened hc
    exact ⟨g, List.mem_append_left _ hg, ho⟩
  distinct hc hd := h.distinct hc hd
  written hc := (h.written hc).trans (dataFor_mono (List.prefix_append _ _))
  exact {i c} hc hcl hb := by
    have hold := h.exact hc hcl hb
    simp only [hpc, LoopPc.pending, List.append_nil] at hold
    simp only [map_toRelaySession, RelaySession.receive, dataFor_snoc, ← hold]
    congr 1
    cases ht : relaySwitch f with
    | act action =>
      cases action with
      | writeStream id data => rw [dataOf_of_writeStream ht]; rfl
      | connect id network addr =>
        rw [dataOf_of_not_writeStream (fun _ => by simp [ht])]; rfl
      | closeStream id => rw [dataOf_of_not_writeStream (fun _ => by simp [ht])]; rfl
    | skip => rw [dataOf_of_not_writeStream (fun _ => by simp [ht])]; rfl
    | stop => rw [dataOf_of_not_writeStream (fun _ => by simp [ht])]; rfl
  connecting {id network addr} hl := by
    have ht : relaySwitch f = .act (.connect id network addr) := by
      cases ht : relaySwitch f <;> simp_all [RelaySession.receive]
    have hopens : f.opens id := ⟨network, addr, ht⟩
    have hnone := (opensFirst_snoc.mp hfirst).2 id hopens
    refine ⟨⟨f, by simp [RelaySession.receive], hopens⟩, ?_, fun i c hc hid => ?_⟩
    · simp only [map_toRelaySession, RelaySession.receive, dataFor_snoc,
        dataFor_of_not_names hnone, List.nil_append]
      exact dataOf_of_not_writeStream (fun _ => by simp [ht])
    · obtain ⟨g, hg, ho⟩ := h.opened hc
      rw [hid] at ho
      exact hnone g hg ho.names
  taken hc := h.taken hc
  relaying hc := h.relaying hc
  silent hid := h.silent hid

theorem carries_dialed {network addr : Bytes} (h : Carries v)
    (hpc : v.loop = .acting (.connect id network addr)) :
    Carries (v.map (·.dial sid id network addr true)) := by
  obtain ⟨hopens, hdata, hnone⟩ := h.connecting hpc
  have hsent : dataFor id v.sent = [] := h.silent hnone
  have hold : ∀ {j : Nat} {d : Upstream}, (v.conns ++ [Upstream.dialed id network addr])[j]? = some d →
      v.conns[j]? = some d ∨ (j = v.conns.length ∧ d = .dialed id network addr) :=
    fun hd => getElem?_append_one hd
  constructor
  · intro i c hc
    rcases hold hc with hc | ⟨rfl, rfl⟩
    · exact h.opened hc
    · exact hopens
  · intro i j c d hc hd hids
    rcases hold hc with hc | ⟨rfl, rfl⟩ <;> rcases hold hd with hd | ⟨rfl, rfl⟩
    · exact h.distinct hc hd hids
    · exact (hnone i c hc hids).elim
    · exact (hnone j d hd hids.symm).elim
    · rfl
  · intro i c hc
    rcases hold hc with hc | ⟨rfl, rfl⟩
    · exact h.written hc
    · exact List.nil_prefix
  · intro i c hc hcl hb
    rcases hold hc with hc | ⟨rfl, rfl⟩
    · simpa [hpc, LoopPc.pending, RelaySession.dial] using h.exact hc hcl hb
    · simpa [LoopPc.pending, RelaySession.dial] using hdata.symm
  · intro id' network' addr' hl
    simp [RelaySession.dial] at hl
  · intro i c hc
    rcases hold hc with hc | ⟨rfl, rfl⟩
    · exact h.taken hc
    · simp only [map_toRelaySession, RelaySession.dial, Upstream.dialed_streamID, hsent]
      exact List.nil_prefix
  · intro i c hc hr
    rcases hold hc with hc | ⟨rfl, rfl⟩
    · exact h.relaying hc hr
    · simp [RelaySession.dial, hsent, Upstream.unsent]
  · intro id' hid
    apply h.silent
    intro i c hc
    exact hid i c (getElem?_append_of_some hc)

/-- Only a whole write to an open connection counts on. -/
theorem carries_write {n : Nat} (h : Carries v) (hpc : v.loop = .writing conn data)
    (hc : v.conns[conn.index]? = some c) (hn : n ≤ data.length) (hclosed : c.closed = true → n = 0)
    (hbroken : c.broken = true → n = 0) :
    Carries ((v.map (·.writeConn conn.index data n)).map (·.goto .reading)) := by
  have hexact : c.closed = false → c.broken = false →
      c.written ++ data = dataFor c.streamID v.received := by
    intro hcl hb
    simpa [hpc, LoopPc.pending] using h.exact hc hcl hb
  have hold : ∀ {j : Nat} {d : Upstream},
      (v.conns.modify conn.index (Upstream.wrote · data n))[j]? = some d →
      (j = conn.index ∧ d = c.wrote data n) ∨ (j ≠ conn.index ∧ v.conns[j]? = some d) :=
    fun hd => getElem?_modify_cases hc hd
  constructor
  · intro i d hd
    have ho := h.opened hc
    rcases hold hd with ⟨rfl, rfl⟩ | ⟨-, hd⟩
    · exact ho
    · exact h.opened hd
  · intro i j d e hd he hids
    rcases hold hd with ⟨rfl, rfl⟩ | ⟨-, hd⟩ <;> rcases hold he with ⟨rfl, rfl⟩ | ⟨-, he⟩
    · rfl
    · exact h.distinct hc he hids
    · exact h.distinct hd hc hids
    · exact h.distinct hd he hids
  · intro i d hd
    rcases hold hd with ⟨rfl, rfl⟩ | ⟨-, hd⟩
    · show c.written ++ data.take n <+: dataFor c.streamID v.received
      by_cases hopen : c.closed = false ∧ c.broken = false
      · rw [← hexact hopen.1 hopen.2]
        exact (List.prefix_append_right_inj _).mpr (List.take_prefix _ _)
      · have hn0 : n = 0 := by
          cases hcl : c.closed with
          | true => exact hclosed hcl
          | false => exact hbroken (by simpa [hcl] using hopen)
        simpa [hn0] using h.written hc
    · exact h.written hd
  · intro i d hd hcl hb
    rcases hold hd with ⟨rfl, rfl⟩ | ⟨hne, hd⟩
    · simp only [Upstream.wrote_broken, Bool.or_eq_false_iff, decide_eq_false_iff_not] at hb
      have hall : data.take n = data := List.take_of_length_le (by omega)
      simpa [LoopPc.pending, hall] using hexact hcl hb.1
    · have hold := h.exact hd hcl hb
      simp only [hpc, LoopPc.pending, if_neg hne.symm] at hold
      simpa [LoopPc.pending] using hold
  · intro id network addr hl
    simp at hl
  · intro i d hd
    have ht := h.taken hc
    rcases hold hd with ⟨rfl, rfl⟩ | ⟨-, hd⟩
    · exact ht
    · exact h.taken hd
  · intro i d hd hr
    have hrelaying := h.relaying hc
    rcases hold hd with ⟨rfl, rfl⟩ | ⟨-, hd⟩
    · exact hrelaying hr
    · exact h.relaying hd hr
  · intro id hid
    apply h.silent
    intro i d hd
    have hne := hid i _ (getElem?_modify_of_some hd)
    by_cases hij : conn.index = i
    · simpa [hij] using hne
    · simpa [hij] using hne

/-- What a goroutine does with its own connection, as far as the client's side is concerned. -/
theorem carries_relay (f : Upstream → Upstream) (sent : List Frame) (h : Carries v)
    (hc : v.conns[i]? = some c)
    (hsame : (f c).streamID = c.streamID ∧ (f c).written = c.written ∧ (f c).closed = c.closed ∧
      (f c).broken = c.broken)
    (hother : ∀ id, id ≠ c.streamID → dataFor id sent = dataFor id v.sent)
    (htaken : dataFor c.streamID sent <+: (f c).taken)
    (hrelaying : (f c).Relaying → dataFor c.streamID sent ++ (f c).unsent = (f c).taken) :
    Carries (v.map fun rs => { rs.update i f with sent := sent }) := by
  obtain ⟨hid, hw, hcl, hb⟩ := hsame
  have hold : ∀ {j : Nat} {d : Upstream}, (v.conns.modify i f)[j]? = some d →
      (j = i ∧ d = f c) ∨ (j ≠ i ∧ v.conns[j]? = some d) :=
    fun hd => getElem?_modify_cases hc hd
  have hne : ∀ {j : Nat} {d : Upstream}, j ≠ i → v.conns[j]? = some d →
      d.streamID ≠ c.streamID := fun hji hd he => hji (h.distinct hd hc he)
  constructor
  · intro j d hd
    rcases hold hd with ⟨rfl, rfl⟩ | ⟨-, hd⟩
    · rw [hid]
      exact h.opened hc
    · exact h.opened hd
  · intro j k d e hd he hids
    rcases hold hd with ⟨rfl, rfl⟩ | ⟨hji, hd'⟩ <;> rcases hold he with ⟨rfl, rfl⟩ | ⟨hki, he'⟩
    · rfl
    · exact (hne hki he' (hids.symm.trans hid)).elim
    · exact (hne hji hd' (hids.trans hid)).elim
    · exact h.distinct hd' he' hids
  · intro j d hd
    rcases hold hd with ⟨rfl, rfl⟩ | ⟨-, hd⟩
    · rw [hid, hw]
      exact h.written hc
    · exact h.written hd
  · intro j d hd hcl' hb'
    rcases hold hd with ⟨rfl, rfl⟩ | ⟨-, hd⟩
    · rw [hid, hw]
      exact h.exact hc (hcl.symm.trans hcl') (hb.symm.trans hb')
    · exact h.exact hd hcl' hb'
  · intro id network addr hl
    obtain ⟨ho, hd, hnone⟩ := h.connecting hl
    refine ⟨ho, hd, fun j d hd => ?_⟩
    rcases hold hd with ⟨rfl, rfl⟩ | ⟨-, hd⟩
    · rw [hid]
      exact hnone _ c hc
    · exact hnone j d hd
  · intro j d hd
    rcases hold hd with ⟨rfl, rfl⟩ | ⟨hji, hd⟩
    · rw [hid]
      exact htaken
    · show dataFor d.streamID sent <+: d.taken
      rw [hother _ (hne hji hd)]
      exact h.taken hd
  · intro j d hd hr
    rcases hold hd with ⟨rfl, rfl⟩ | ⟨hji, hd⟩
    · rw [hid]
      exact hrelaying hr
    · show dataFor d.streamID sent ++ d.unsent = d.taken
      rw [hother _ (hne hji hd)]
      exact h.relaying hd hr
  · intro id hnone
    have hnew : ∀ (j : Nat) (d : Upstream), v.conns[j]? = some d → d.streamID ≠ id := by
      intro j d hd
      have hj := hnone j _ (getElem?_modify_of_some hd)
      by_cases hij : i = j
      · subst hij
        rw [hc, Option.some.injEq] at hd
        simpa [← hd, hid] using hj
      · simpa [hij] using hj
    show dataFor id sent = []
    rw [hother id (fun he => hnew i c hc he.symm)]
    exact h.silent hnew

theorem carries_step (h : SessionStep sid v act v') (hc : Carries v) (ha : Attached v)
    (hfail : v.WritesFailForGood act) (hfirst : OpensFirst v'.received) : Carries v' := by
  cases hs : h with
  | establish hpc =>
    exact hc.congr_self rfl rfl rfl (fun _ _ => by simp [hpc, LoopPc.pending])
      (fun _ _ _ => by simp)
  | @frame f hpc =>
    cases f with
    | none =>
      exact hc.congr_self rfl rfl rfl (fun _ _ => by simp [hpc, LoopPc.pending, RelaySession.receive])
        (fun _ _ _ => by simp [RelaySession.receive])
    | some f => exact carries_receive hc hpc hfirst
  | @dial id network addr ok hpc =>
    cases ok with
    | true => exact carries_dialed hc hpc
    | false =>
      exact hc.congr_self rfl rfl rfl (fun _ _ => by simp [hpc, LoopPc.pending, RelaySession.dial])
        (fun _ _ _ => by simp [RelaySession.dial])
  | @insert id conn hpc =>
    obtain ⟨c₀, hc₀, -, hpc₀⟩ := ha.inserting hpc
    have hstarted := carries_relay (Upstream.goto · .reading) v.sent hc hc₀
      ⟨rfl, rfl, rfl, rfl⟩ (fun _ _ => rfl) (hc.taken hc₀) (fun _ => by
        simpa [Upstream.unsent, hpc₀] using hc.relaying hc₀ (by simp [Upstream.Relaying, hpc₀]))
    exact hstarted.congr_self rfl rfl rfl (fun _ _ => by simp [hpc, LoopPc.pending])
      (fun _ _ _ => by simp)
  | lookup hpc => exact carries_lookup hc ha hpc
  | @write conn data n c hpc hconn hn hclosed =>
    exact carries_write hc hpc hconn hn hclosed (hfail conn data n c hpc rfl hconn)
  | close hpc =>
    exact carries_closeStream hc (fun _ _ => by simp [hpc, LoopPc.pending]) rfl (by simp) (by simp)
      (fun _ _ _ => by simp)
  | cleanup hpc horder => exact carries_cleanup hc hpc
  | @read i data ended c hconn hpc hn hclosed =>
    have hrel := hc.relaying hconn (by simp [Upstream.Relaying, hpc])
    have hsent : dataFor c.streamID v.sent = c.taken := by
      simpa [Upstream.unsent, hpc] using hrel
    refine carries_relay (Upstream.took · data ended) v.sent hc hconn
      ⟨rfl, rfl, rfl, rfl⟩ (fun _ _ => rfl) ?_ (fun hr => ?_)
    · rw [hsent]
      exact List.prefix_append _ _
    · by_cases hd : data = []
      · subst hd
        cases ended <;> simp [Upstream.Relaying, Upstream.unsent, hsent] at hr ⊢
      · simp [Upstream.unsent, hd, hsent]
  | @send i ok c buf ended hconn hpc =>
    have hrel := hc.relaying hconn (by simp [Upstream.Relaying, hpc])
    have htaken : dataFor c.streamID v.sent ++ buf = c.taken := by
      simpa [Upstream.unsent, hpc] using hrel
    cases ok with
    | false =>
      refine carries_relay (Upstream.goto · .closing) v.sent hc hconn
        ⟨rfl, rfl, rfl, rfl⟩ (fun _ _ => rfl) (hc.taken hconn) (fun hr => ?_)
      simp [Upstream.Relaying] at hr
    | true =>
      have hdata : ∀ id, dataFor id (v.sent ++ [newDataFrame (encodeStreamID c.streamID ++ buf)]) =
          dataFor id v.sent ++ if c.streamID = id then buf else [] := by
        intro id
        rw [dataFor_snoc, dataOf_of_writeStream relaySwitch_newDataFrame]
      refine carries_relay (Upstream.goto · (if ended then .closing else .reading)) _ hc hconn
        ⟨rfl, rfl, rfl, rfl⟩ (fun id hid => ?_) ?_ (fun hr => ?_)
      · rw [hdata, if_neg (Ne.symm hid), List.append_nil]
      · have hall : dataFor c.streamID (v.sent ++ [newDataFrame (encodeStreamID c.streamID ++ buf)])
            = c.taken := by
          rw [hdata, if_pos rfl, htaken]
        exact hall ▸ List.prefix_rfl
      · rw [hdata, if_pos rfl, htaken]
        cases ended <;> simp [Upstream.unsent]
  | @finish i c hconn hpc =>
    have hclosed : Carries (v.closeStream c.streamID) :=
      carries_closeStream hc (fun _ _ => by simp) rfl (by simp) (by simp)
        (fun _ _ _ hl => by simpa using hl)
    obtain ⟨d, hd, -, -⟩ := closeStream_pc c.streamID hconn
    exact carries_relay (Upstream.goto · .ended) (v.closeStream c.streamID).sent
      hclosed hd ⟨rfl, rfl, rfl, rfl⟩ (fun _ _ => rfl) (hclosed.taken hd)
      (fun hr => by simp [Upstream.Relaying] at hr)

end SessionView

end SshPanelVpn.ShadowLink

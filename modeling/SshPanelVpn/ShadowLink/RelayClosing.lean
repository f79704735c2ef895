import SshPanelVpn.Library.Indexed
import SshPanelVpn.ShadowLink.RelayIsolation

/-! Which upstream connections are closed, and by whom. A map entry holds a connection for its
goroutine as long as no stream id is taken again before the goroutine has ended. -/
namespace SshPanelVpn.ShadowLink

open Octets Runs Indexed

variable {s t : ServerRelay} {v v' : SessionView} {sid : SessionId} {act : RelayAct} {i j : Nat}
  {c d : Upstream} {id : UInt32} {conn : ConnRef}

/-- The goroutine has started and not ended. -/
def Upstream.Live (c : Upstream) : Prop := c.pc ≠ .notStarted ∧ c.pc ≠ .ended

/-- Its stream, whether it is closed, and whether its goroutine has not started or has ended. -/
def Upstream.outline (c : Upstream) : UInt32 × Bool × Bool × Bool :=
  (c.streamID, c.closed, decide (c.pc = .notStarted), decide (c.pc = .ended))

namespace SessionView

/-- At an insertion, no goroutine of an earlier connection with the same stream id is left. -/
def Unused (v : SessionView) : Prop :=
  ∀ id conn, v.loop = .inserting id conn →
    ∀ (i : Nat) (c : Upstream), v.conns[i]? = some c → i ≠ conn.index → c.streamID = id → c.pc = .ended

/-- Every open connection is either about to be inserted or the map entry of its stream, and the
goroutine of an entry is the one live goroutine of that stream. -/
structure Attached (v : SessionView) : Prop where
  fresh : v.loop = .handshaking → v.conns = [] ∧ ∀ id, v.lookupStream id = none
  unstarted : ∀ {i : Nat} {c : Upstream}, v.conns[i]? = some c → c.pc = .notStarted →
    ∃ conn, v.loop = .inserting c.streamID conn ∧ conn.index = i
  inserting : ∀ {id conn}, v.loop = .inserting id conn →
    ∃ c, v.conns[conn.index]? = some c ∧ c.streamID = id ∧ c.pc = .notStarted
  entry : ∀ {id conn}, v.lookupStream id = some conn →
    ∃ c, v.conns[conn.index]? = some c ∧ c.streamID = id ∧ c.Live
  opened : ∀ {i : Nat} {c : Upstream}, v.conns[i]? = some c → c.closed = false → c.pc ≠ .notStarted →
    ∃ conn, v.lookupStream c.streamID = some conn ∧ conn.index = i
  one : ∀ {i j : Nat} {c d : Upstream}, v.conns[i]? = some c → v.conns[j]? = some d → c.Live → d.Live →
    c.streamID = d.streamID → i = j

/-- The connections of `v'` are those of `v` as far as the invariant looks at them. -/
def SameConns (v v' : SessionView) : Prop :=
  ∀ i : Nat, (v'.conns[i]?).map Upstream.outline = (v.conns[i]?).map Upstream.outline

theorem SameConns.some (h : SameConns v v') {c' : Upstream} (hc : v'.conns[i]? = some c') :
    ∃ c, v.conns[i]? = some c ∧ c'.streamID = c.streamID ∧ c'.closed = c.closed ∧
      (c'.pc = .notStarted ↔ c.pc = .notStarted) ∧ (c'.pc = .ended ↔ c.pc = .ended) := by
  have hi := h i
  rw [hc] at hi
  cases hv : v.conns[i]? with
  | none => simp [hv] at hi
  | some c => simp_all [Upstream.outline]

theorem SameConns.symm (h : SameConns v v') : SameConns v' v := fun i => (h i).symm

theorem sameConns_modify {f : Upstream → Upstream} (hconns : v'.conns = v.conns.modify i f)
    (hf : ∀ c, v.conns[i]? = some c → (f c).streamID = c.streamID ∧ (f c).closed = c.closed ∧
      ((f c).pc = .notStarted ↔ c.pc = .notStarted) ∧ ((f c).pc = .ended ↔ c.pc = .ended)) :
    SameConns v v' := by
  intro j
  rw [hconns, List.getElem?_modify]
  cases hc : v.conns[j]? with
  | none => rfl
  | some c =>
    by_cases hij : i = j
    · subst hij
      obtain ⟨hid, hcl, hn, he⟩ := hf c hc
      simp [Upstream.outline, hid, hcl, hn, he]
    · simp [hij]

/-- Steps that touch neither the map nor what the invariant sees of the connections. -/
theorem Attached.congr (h : Attached v) (hmap : ∀ id, v'.lookupStream id = v.lookupStream id)
    (hconns : SameConns v v') (hfresh : v'.loop ≠ .handshaking)
    (hloop : ∀ id conn, v'.loop = .inserting id conn ↔ v.loop = .inserting id conn) :
    Attached v' where
  fresh hf := (hfresh hf).elim
  unstarted hc hpc := by
    obtain ⟨c, hc', hid, -, hn, -⟩ := hconns.some hc
    obtain ⟨conn, hl, hi⟩ := h.unstarted hc' (hn.mp hpc)
    rw [hid]
    exact ⟨conn, (hloop _ _).mpr hl, hi⟩
  inserting hl := by
    obtain ⟨c, hc, hid, hpc⟩ := h.inserting ((hloop _ _).mp hl)
    obtain ⟨c', hc', hid', -, hn, -⟩ := hconns.symm.some hc
    exact ⟨c', hc', hid'.symm.trans hid, hn.mp hpc⟩
  entry hl := by
    obtain ⟨c, hc, hid, hlive⟩ := h.entry ((hmap _).symm.trans hl)
    obtain ⟨c', hc', hid', -, hn, he⟩ := hconns.symm.some hc
    exact ⟨c', hc', hid'.symm.trans hid, hlive.1 ∘ hn.mpr, hlive.2 ∘ he.mpr⟩
  opened hc hcl hpc := by
    obtain ⟨c, hc', hid, hcl', hn, -⟩ := hconns.some hc
    rw [hmap, hid]
    exact h.opened hc' (hcl'.symm.trans hcl) (hpc ∘ hn.mpr)
  one hc hd hlc hld hid := by
    obtain ⟨c, hc', hidc, -, hnc, hec⟩ := hconns.some hc
    obtain ⟨d, hd', hidd, -, hnd, hed⟩ := hconns.some hd
    exact h.one hc' hd' ⟨hlc.1 ∘ hnc.mpr, hlc.2 ∘ hec.mpr⟩ ⟨hld.1 ∘ hnd.mpr, hld.2 ∘ hed.mpr⟩
      (hidc.symm.trans (hid.trans hidd))

theorem attached_initial : Attached initial where
  fresh _ := ⟨rfl, fun _ => rfl⟩
  unstarted h := by simp [initial, RelaySession.initial] at h
  inserting h := by simp [initial, RelaySession.initial] at h
  entry h := by simp [initial, lookupStream] at h
  opened h := by simp [initial, RelaySession.initial] at h
  one h := by simp [initial, RelaySession.initial] at h

/-- Without connections and entries there is nothing to check. -/
theorem attached_of_nil (hconns : v.conns = []) (hmap : ∀ id, v.lookupStream id = none)
    (hloop : ∀ id conn, v.loop ≠ .inserting id conn) : Attached v where
  fresh _ := ⟨hconns, hmap⟩
  unstarted h := by simp [hconns] at h
  inserting h := (hloop _ _ h).elim
  entry h := by simp [hmap] at h
  opened h := by simp [hconns] at h
  one h := by simp [hconns] at h

theorem attached_closeStream (h : Attached v) : Attached (v.closeStream id) := by
  cases hl : v.lookupStream id with
  | none => rwa [closeStream_of_none hl]
  | some conn =>
    obtain ⟨hsession, hmap⟩ := closeStream_of_some hl
    have hconns : (v.closeStream id).conns = v.conns.modify conn.index Upstream.close := by
      rw [hsession]
      rfl
    have hold : ∀ {j : Nat} {d : Upstream}, (v.closeStream id).conns[j]? = some d →
        ∃ c, v.conns[j]? = some c ∧ c.streamID = d.streamID ∧ c.pc = d.pc ∧
          (d.closed = false → c.closed = false ∧ j ≠ conn.index) := by
      intro j d hd
      rw [hconns] at hd
      obtain ⟨c, hc, rfl⟩ := getElem?_modify_some hd
      by_cases hij : conn.index = j
      · exact ⟨c, hc, by simp [hij]⟩
      · rw [if_neg hij]
        exact ⟨c, hc, rfl, rfl, fun h => ⟨h, Ne.symm hij⟩⟩
    have hnew : ∀ {j : Nat} {c : Upstream}, v.conns[j]? = some c →
        ∃ d, (v.closeStream id).conns[j]? = some d ∧ d.streamID = c.streamID ∧ d.pc = c.pc := by
      intro j c hc
      rw [hconns, List.getElem?_modify, hc]
      by_cases hij : conn.index = j
      · exact ⟨c.close, by simp [hij], rfl, rfl⟩
      · exact ⟨c, by simp [hij], rfl, rfl⟩
    constructor
    · intro hf
      rw [closeStream_loop] at hf
      simp [(h.fresh hf).2] at hl
    · intro i d hd hpc
      obtain ⟨c, hc, hid, hp, -⟩ := hold hd
      rw [closeStream_loop, ← hid]
      exact h.unstarted hc (hp.trans hpc)
    · intro id' conn' hloop
      rw [closeStream_loop] at hloop
      obtain ⟨c, hc, hid, hpc⟩ := h.inserting hloop
      obtain ⟨d, hd, hid', hp⟩ := hnew hc
      exact ⟨d, hd, hid'.trans hid, hp.trans hpc⟩
    · intro id' conn' hent
      obtain ⟨c, hc, hid, hlive⟩ := h.entry (lookupStream_of_closeStream hent)
      obtain ⟨d, hd, hid', hp⟩ := hnew hc
      exact ⟨d, hd, hid'.trans hid, by rw [Upstream.Live, hp]; exact hlive⟩
    · intro i d hd hcl hpc
      obtain ⟨c, hc, hid, hp, hopen⟩ := hold hd
      obtain ⟨hcl', hne⟩ := hopen hcl
      obtain ⟨conn', hl', hi⟩ := h.opened hc hcl' (by rw [hp]; exact hpc)
      have hother : c.streamID ≠ id := by
        intro he
        rw [he, hl, Option.some.injEq] at hl'
        rw [hl'] at hne
        exact hne hi.symm
      exact ⟨conn', by rw [hmap, ← hid, if_neg hother, hl'], hi⟩
    · intro i j d e hd he hld hle hids
      obtain ⟨c, hc, hid, hp, -⟩ := hold hd
      obtain ⟨c', hc', hid', hp', -⟩ := hold he
      exact h.one hc hc' (by rw [Upstream.Live, hp]; exact hld) (by rw [Upstream.Live, hp']; exact hle)
        (hid.trans (hids.trans hid'.symm))

/-- A goroutine may end once its stream has no entry. -/
theorem attached_ended (h : Attached v) (hc : v.conns[i]? = some c) (hlive : c.Live)
    (hl : v.lookupStream c.streamID = none) :
    Attached (v.map (·.update i (Upstream.goto · .ended))) := by
  have hold : ∀ {j : Nat} {d : Upstream}, (v.conns.modify i (Upstream.goto · .ended))[j]? = some d →
      ∃ c', v.conns[j]? = some c' ∧ d = if i = j then c'.goto .ended else c' := by
    intro j d hd
    exact getElem?_modify_some hd
  constructor
  · intro hf
    simp [(h.fresh hf).1] at hc
  · intro j d hd hpc
    obtain ⟨c', hc', rfl⟩ := hold hd
    by_cases hij : i = j
    · simp [hij] at hpc
    · rw [if_neg hij] at hpc ⊢
      exact h.unstarted hc' hpc
  · intro id conn hloop
    obtain ⟨d, hd, hid, hpc⟩ := h.inserting hloop
    have hne : i ≠ conn.index := by
      rintro rfl
      rw [hc, Option.some.injEq] at hd
      rw [hd] at hlive
      exact hlive.1 hpc
    exact ⟨d, by simp [hne, hd], hid, hpc⟩
  · intro id conn hent
    obtain ⟨d, hd, hid, hlived⟩ := h.entry hent
    have hne : i ≠ conn.index := by
      rintro rfl
      rw [hc, Option.some.injEq] at hd
      rw [hd, hid] at hl
      rw [lookupStream_map] at hent
      simp [hl] at hent
    exact ⟨d, by simp [hne, hd], hid, hlived⟩
  · intro j d hd hcl hpc
    obtain ⟨c', hc', rfl⟩ := hold hd
    by_cases hij : i = j
    · subst hij
      rw [hc, Option.some.injEq] at hc'
      rw [← hc', if_pos rfl] at hcl
      obtain ⟨conn, hent, -⟩ := h.opened hc hcl hlive.1
      simp [hl] at hent
    · rw [if_neg hij] at hcl hpc ⊢
      exact h.opened hc' hcl hpc
  · intro j k d e hd he hld hle hid
    obtain ⟨d', hd', rfl⟩ := hold hd
    obtain ⟨e', he', rfl⟩ := hold he
    by_cases hij : i = j
    · simp [hij, Upstream.Live] at hld
    · by_cases hik : i = k
      · simp [hik, Upstream.Live] at hle
      · rw [if_neg hij] at hld hid
        rw [if_neg hik] at hle hid
        exact h.one hd' he' hld hle hid

/-- The entry that an insertion replaces belongs to no goroutine. -/
theorem attached_insert (h : Attached v) (hu : v.Unused) (hpc : v.loop = .inserting id conn) :
    Attached (((v.insertStream id conn).map (·.update conn.index (Upstream.goto · .reading))).map
      (·.goto .reading)) := by
  obtain ⟨c₀, hc₀, hid₀, hpc₀⟩ := h.inserting hpc
  have hold : ∀ {j : Nat} {d : Upstream},
      (v.conns.modify conn.index (Upstream.goto · .reading))[j]? = some d →
      (j = conn.index ∧ d = c₀.goto .reading) ∨ (j ≠ conn.index ∧ v.conns[j]? = some d) :=
    fun hd => getElem?_modify_cases hc₀ hd
  have hmap : ∀ id', (((v.insertStream id conn).map
      (·.update conn.index (Upstream.goto · .reading))).map (·.goto .reading)).lookupStream id' =
        if id' = id then some conn else v.lookupStream id' := by
    intro id'
    rw [lookupStream_map, lookupStream_map, lookupStream_insertStream]
  constructor
  · intro hf
    simp at hf
  · intro j d hd hp
    rcases hold hd with ⟨-, rfl⟩ | ⟨hne, hd⟩
    · simp at hp
    · obtain ⟨conn', hl, hi⟩ := h.unstarted hd hp
      rw [hpc, LoopPc.inserting.injEq] at hl
      rw [hl.2] at hne
      exact (hne hi.symm).elim
  · intro id' conn' hl
    simp at hl
  · intro id' conn' hent
    rw [hmap] at hent
    by_cases hid : id' = id
    · rw [if_pos hid, Option.some.injEq] at hent
      subst hent hid
      refine ⟨c₀.goto .reading, ?_, hid₀, by simp [Upstream.Live]⟩
      show (v.conns.modify conn.index (Upstream.goto · .reading))[conn.index]? = _
      simp [hc₀]
    · rw [if_neg hid] at hent
      obtain ⟨d, hd, hidd, hlive⟩ := h.entry hent
      have hne : conn.index ≠ conn'.index := by
        intro he
        rw [← he, hc₀, Option.some.injEq] at hd
        rw [← hd] at hlive
        exact hlive.1 hpc₀
      refine ⟨d, ?_, hidd, hlive⟩
      show (v.conns.modify conn.index (Upstream.goto · .reading))[conn'.index]? = _
      simp [hne, hd]
  · intro j d hd hcl hp
    rw [hmap]
    rcases hold hd with ⟨rfl, rfl⟩ | ⟨hne, hd⟩
    · exact ⟨conn, if_pos hid₀, rfl⟩
    · obtain ⟨conn', hent, hi⟩ := h.opened hd hcl hp
      have hother : d.streamID ≠ id := by
        intro he
        have hended := hu id conn hpc j d hd hne he
        obtain ⟨e, he', -, hlive⟩ := h.entry hent
        rw [hi, hd, Option.some.injEq] at he'
        rw [← he'] at hlive
        exact hlive.2 hended
      exact ⟨conn', by rw [if_neg hother, hent], hi⟩
  · intro j k d e hd he hld hle hids
    have hlast : ∀ {k : Nat} {e : Upstream}, k ≠ conn.index → v.conns[k]? = some e → e.Live →
        e.streamID ≠ c₀.streamID := by
      intro k e hne he hlive hide
      exact hlive.2 (hu id conn hpc k e he hne (hide.trans hid₀))
    rcases hold hd with ⟨rfl, rfl⟩ | ⟨hnej, hd⟩ <;> rcases hold he with ⟨rfl, rfl⟩ | ⟨hnek, he⟩
    · rfl
    · exact (hlast hnek he hle hids.symm).elim
    · exact (hlast hnej hd hld hids).elim
    · exact h.one hd he hld hle hids

theorem attached_dialed (h : Attached v) {network addr : Bytes}
    (hpc : v.loop = .acting (.connect id network addr)) :
    Attached (v.map (·.dial sid id network addr true)) := by
  have hstarted : ∀ {j : Nat} {d : Upstream}, v.conns[j]? = some d → d.pc ≠ .notStarted := by
    intro j d hd hp
    obtain ⟨conn, hl, -⟩ := h.unstarted hd hp
    simp [hpc] at hl
  have hold : ∀ {j : Nat} {d : Upstream}, (v.conns ++ [Upstream.dialed id network addr])[j]? = some d →
      v.conns[j]? = some d ∨ (j = v.conns.length ∧ d = .dialed id network addr) :=
    fun hd => getElem?_append_one hd
  have hnew : ∀ {j : Nat} {d : Upstream}, v.conns[j]? = some d →
      (v.conns ++ [Upstream.dialed id network addr])[j]? = some d :=
    fun hd => getElem?_append_of_some hd
  constructor
  · intro hf
    simp [RelaySession.dial] at hf
  · intro j d hd hp
    rcases hold hd with hd | ⟨rfl, rfl⟩
    · exact (hstarted hd hp).elim
    · exact ⟨⟨sid, v.conns.length⟩, rfl, rfl⟩
  · intro id' conn' hl
    simp only [map_toRelaySession, RelaySession.dial, LoopPc.inserting.injEq] at hl
    obtain ⟨rfl, rfl⟩ := hl
    exact ⟨.dialed id network addr, by simp [RelaySession.dial], rfl, rfl⟩
  · intro id' conn' hent
    obtain ⟨d, hd, hid, hlive⟩ := h.entry hent
    exact ⟨d, hnew hd, hid, hlive⟩
  · intro j d hd hcl hp
    rcases hold hd with hd | ⟨rfl, rfl⟩
    · exact h.opened hd hcl hp
    · simp at hp
  · intro j k d e hd he hld hle hids
    rcases hold hd with hd | ⟨rfl, rfl⟩
    · rcases hold he with he | ⟨rfl, rfl⟩
      · exact h.one hd he hld hle hids
      · simp [Upstream.Live] at hle
    · simp [Upstream.Live] at hld

theorem closeAll_conns {order : List ConnRef} : (v.closeAll order).conns[i]? =
    (v.conns[i]?).map fun c => if ∃ conn ∈ order, conn.index = i then c.close else c := by
  induction order generalizing v with
  | nil => simp [closeAll]
  | cons conn order ih =>
    have hcons : (v.closeAll (conn :: order)).conns[i]? =
        ((v.map (·.closeConn conn.index)).closeAll order).conns[i]? := rfl
    rw [hcons, ih]
    simp only [map_toRelaySession, RelaySession.closeConn_conns, List.getElem?_modify]
    cases v.conns[i]? with
    | none => rfl
    | some c =>
      by_cases hi : conn.index = i
      · by_cases ho : ∃ conn ∈ order, conn.index = i <;> simp [hi, ho, Upstream.close]
      · simp [hi]

theorem closeAll_history {order : List ConnRef} :
    (v.closeAll order).received = v.received ∧ (v.closeAll order).sent = v.sent := by
  induction order generalizing v with
  | nil => exact ⟨rfl, rfl⟩
  | cons conn order ih => exact ih (v := v.map (·.closeConn conn.index))

theorem attached_cleanup {order : List ConnRef} (h : Attached v) (hpc : v.loop = .cleanup)
    (horder : order.Perm v.held) :
    Attached (((v.closeAll order).setStreams none).map (·.goto .ended)) := by
  have hold : ∀ {j : Nat} {d : Upstream}, (v.closeAll order).conns[j]? = some d →
      ∃ c, v.conns[j]? = some c ∧ d.streamID = c.streamID ∧ d.pc = c.pc ∧
        (d.closed = false → c.closed = false ∧ ¬ ∃ conn ∈ order, conn.index = j) := by
    intro j d hd
    rw [closeAll_conns] at hd
    obtain ⟨c, hc, rfl⟩ := Option.map_eq_some_iff.mp hd
    by_cases ho : ∃ conn ∈ order, conn.index = j
    · exact ⟨c, hc, by simp [ho]⟩
    · exact ⟨c, hc, by simp [ho]⟩
  constructor
  · intro hf
    simp at hf
  · intro j d hd hp
    obtain ⟨c, hc, -, hpc', -⟩ := hold hd
    obtain ⟨conn, hl, -⟩ := h.unstarted hc (hpc'.symm.trans hp)
    simp [hpc] at hl
  · intro id conn hl
    simp at hl
  · intro id conn hent
    simp at hent
  · intro j d hd hcl hp
    obtain ⟨c, hc, -, hpc', hopen⟩ := hold hd
    obtain ⟨hcl', hnot⟩ := hopen hcl
    obtain ⟨conn, hent, hi⟩ := h.opened hc hcl' (by rw [← hpc']; exact hp)
    exact (hnot ⟨conn, horder.mem_iff.mpr (mem_held.mpr ⟨_, hent⟩), hi⟩).elim
  · intro j k d e hd he hld hle hids
    obtain ⟨c, hc, hid, hp, -⟩ := hold hd
    obtain ⟨c', hc', hid', hp', -⟩ := hold he
    exact h.one hc hc' (by rw [Upstream.Live, ← hp]; exact hld)
      (by rw [Upstream.Live, ← hp']; exact hle) (hid.symm.trans (hids.trans hid'))

theorem closeStream_pc (id : UInt32) (hc : v.conns[i]? = some c) :
    ∃ d, (v.closeStream id).conns[i]? = some d ∧ d.streamID = c.streamID ∧ d.pc = c.pc := by
  cases hl : v.lookupStream id with
  | none => exact ⟨c, by rw [closeStream_of_none hl, hc], rfl, rfl⟩
  | some conn =>
    rw [(closeStream_of_some hl).1, RelaySession.closeConn_conns, List.getElem?_modify, hc]
    by_cases hi : conn.index = i
    · exact ⟨c.close, by simp [hi], rfl, rfl⟩
    · exact ⟨c, by simp [hi], rfl, rfl⟩

theorem lookupStream_closeStream_self : (v.closeStream id).lookupStream id = none := by
  cases hl : v.lookupStream id with
  | none => rw [closeStream_of_none hl, hl]
  | some conn => simp [(closeStream_of_some hl).2]

theorem attached_step (h : SessionStep sid v act v') (ha : Attached v)
    (hu : act = .insert → v.Unused) : Attached v' := by
  cases hs : h with
  | establish hpc =>
    exact attached_of_nil (ha.fresh hpc).1 (fun _ => rfl) (fun _ _ hl => by simp at hl)
  | @frame f hpc =>
    have hloop : ∀ id conn, (v.map (·.receive f)).loop = .inserting id conn ↔
        v.loop = .inserting id conn := by
      intro id conn
      cases f with
      | none => simp [RelaySession.receive, hpc]
      | some f => cases ht : relaySwitch f <;> simp [RelaySession.receive, hpc, ht]
    refine ha.congr (fun _ => rfl) ?_ ?_ hloop
    · cases f <;> exact fun _ => rfl
    · cases f with
      | none => simp [RelaySession.receive]
      | some f => cases ht : relaySwitch f <;> simp [RelaySession.receive, ht]
  | @dial id network addr ok hpc =>
    cases ok with
    | true => exact attached_dialed ha hpc
    | false =>
      exact ha.congr (fun _ => rfl) (fun _ => rfl) (by simp [RelaySession.dial])
        (fun _ _ => by simp [RelaySession.dial, hpc])
  | insert hpc => exact attached_insert ha (hu rfl) hpc
  | @lookup id data hpc =>
    refine ha.congr (fun _ => rfl) (fun _ => rfl) ?_ (fun _ _ => ?_)
    · cases v.lookupStream id <;> simp
    · cases v.lookupStream id <;> simp [hpc]
  | write hpc hc hn hclosed =>
    refine ha.congr (fun _ => rfl) (sameConns_modify rfl fun c _ => ?_) (by simp)
      (fun _ _ => by simp [hpc])
    simp
  | @close id hpc =>
    refine (attached_closeStream ha).congr (fun _ => rfl) (fun _ => rfl) (by simp) (fun _ _ => ?_)
    simp [hpc]
  | cleanup hpc horder => exact attached_cleanup ha hpc horder
  | @read i data ended c hc hpc hn hclosed =>
    refine ha.congr (fun _ => rfl) (sameConns_modify rfl fun c' hc' => ?_) ?_ (fun _ _ => Iff.rfl)
    · rw [hc, Option.some.injEq] at hc'
      subst hc'
      cases ended <;> by_cases hd : data = [] <;> simp [hd, hpc]
    · intro hf
      simp [(ha.fresh hf).1] at hc
  | @send i ok c buf ended hc hpc =>
    have hconns : ∃ pc, (v.map (·.send i c.streamID buf ended ok)).conns =
        v.conns.modify i (Upstream.goto · pc) ∧ pc ≠ .notStarted ∧ pc ≠ .ended := by
      cases ok with
      | false => exact ⟨.closing, rfl, by simp, by simp⟩
      | true => exact ⟨if ended then .closing else .reading, rfl, by cases ended <;> simp,
          by cases ended <;> simp⟩
    obtain ⟨pc, hconns, hn, he⟩ := hconns
    refine ha.congr (fun _ => rfl) (sameConns_modify hconns fun c' hc' => ?_) ?_ (fun _ _ => by simp)
    · rw [hc, Option.some.injEq] at hc'
      subst hc'
      simp [hpc, hn, he]
    · intro hf
      simp only [map_toRelaySession, RelaySession.send_loop] at hf
      simp [(ha.fresh hf).1] at hc
  | @finish i c hc hpc =>
    obtain ⟨d, hd, hid, hp⟩ := closeStream_pc c.streamID hc
    refine attached_ended (attached_closeStream ha) hd ?_ ?_
    · simp [Upstream.Live, hp, hpc]
    · rw [hid, lookupStream_closeStream_self]

/-- The entry that an ending goroutine finds under its stream id is its own connection. -/
theorem finish_conns (h : SessionStep sid v (.finish i) v') (ha : Attached v) (hij : i ≠ j) :
    v'.conns[j]? = v.conns[j]? := by
  cases h with
  | @finish i c hc hpc =>
    have hkeep : (v.closeStream c.streamID).conns[j]? = v.conns[j]? := by
      cases hl : v.lookupStream c.streamID with
      | none => rw [closeStream_of_none hl]
      | some conn =>
        obtain ⟨d, hd, hid, hlive⟩ := ha.entry hl
        have hi : i = conn.index := ha.one hc hd (by simp [Upstream.Live, hpc]) hlive hid.symm
        rw [(closeStream_of_some hl).1, RelaySession.closeConn_conns,
          List.getElem?_modify_ne _ _ (hi ▸ hij)]
    simp only [map_toRelaySession, RelaySession.update_conns, List.getElem?_modify_ne _ _ hij,
      hkeep]

end SessionView

namespace ServerRelay

/-- A stream id is not inserted while a goroutine of an earlier connection with it is left. -/
def NoLiveReuse (sr : ServerRelay) (label : SessionId × RelayAct) : Prop :=
  label.2 = .insert → (sr.view label.1).Unused

theorem attached_stable :
    Stable (Guarded RelayStep NoLiveReuse) fun sr => OwnRefs sr ∧ ∀ sid, (sr.view sid).Attached := by
  rintro s ⟨sid, act⟩ t ⟨hguard, h⟩ ⟨ho, ha⟩
  refine ⟨ownRefs_stable _ _ _ h ho, fun b => ?_⟩
  by_cases hb : b = sid
  · subst hb
    exact SessionView.attached_step (step_view ho h) (ha b) hguard
  · rw [step_other ho h hb]
    exact ha b

/-- What is left of a session once `HandleConnection` and its goroutines have ended is closed, and
the `closeStream` of a goroutine leaves every connection but its own as it is. -/
structure ClosesItsOwn (sr : ServerRelay) (sid : SessionId) : Prop where
  all_closed : (sr.sessions sid).loop = .ended →
    (∀ c ∈ (sr.sessions sid).conns, c.pc = .ended) → ∀ c ∈ (sr.sessions sid).conns, c.closed = true
  finish_own : ∀ i t, RelayStep sr (sid, .finish i) t →
    ∀ conn : ConnRef, conn ≠ ⟨sid, i⟩ → t.conn? conn = sr.conn? conn

theorem closesItsOwn {labels : List (SessionId × RelayAct)}
    (h : Run (Guarded RelayStep NoLiveReuse) initial labels s) (sid : SessionId) :
    ClosesItsOwn s sid := by
  have hinv := h.invariant attached_stable
    ⟨ownRefs_initial, fun _ => by simpa using SessionView.attached_initial⟩
  obtain ⟨ho, ha⟩ := hinv
  have hsid := ha sid
  constructor
  · intro _ hended c hc
    obtain ⟨i, hi⟩ := List.mem_iff_getElem?.mp hc
    have hpc : c.pc = .ended := hended c hc
    cases hcl : c.closed with
    | true => rfl
    | false =>
      obtain ⟨conn, hent, hindex⟩ := hsid.opened hi hcl (by simp [hpc])
      obtain ⟨d, hd, -, hlive⟩ := hsid.entry hent
      rw [hindex] at hd
      have hcd : some c = some d := hi.symm.trans hd
      rw [Option.some.injEq] at hcd
      rw [← hcd] at hlive
      exact (hlive.2 hpc).elim
  · intro i t hstep conn hne
    by_cases hs : conn.session = sid
    · obtain ⟨b, k⟩ := conn
      simp only at hs
      subst hs
      have hik : i ≠ k := fun hik => hne (by rw [hik])
      exact SessionView.finish_conns (step_view ho hstep) hsid hik
    · have hview := step_other ho hstep hs
      show (t.view conn.session).conns[conn.index]? = (s.view conn.session).conns[conn.index]?
      rw [hview]

/-- Stream 5 is connected again after its first upstream has ended. -/
def reconnectLabels : List (SessionId × RelayAct) :=
  [([], .establish), ([], .frame (some controlFive)), ([], .dial true), ([], .insert),
    ([], .read 0 [] true), ([], .finish 0), ([], .frame (some controlFive)), ([], .dial true),
    ([], .insert)]

theorem closesItsOwn_reconnect :
    ∃ s, Run (Guarded RelayStep NoLiveReuse) initial reconnectLabels s ∧ ClosesItsOwn s [] := by
  have hrun : ∃ s, Run (Guarded RelayStep NoLiveReuse) initial reconnectLabels s := by
    refine ⟨_, .step ⟨nofun, .establish rfl⟩ <| .step ⟨nofun, .frame rfl⟩ <|
      .step ⟨nofun, .dial rfl⟩ <| .step ⟨fun _ => ?_, .insert rfl⟩ <|
      .step ⟨nofun, .read rfl rfl (by decide) (by decide)⟩ <| .step ⟨nofun, .finish rfl rfl⟩ <|
      .step ⟨nofun, .frame rfl⟩ <| .step ⟨nofun, .dial rfl⟩ <| .step ⟨fun _ => ?_, .insert rfl⟩ <|
      .refl _⟩
    · intro id conn hl i c hc hne hid
      cases hl
      rcases i with _ | i
      · exact (hne rfl).elim
      · cases hc
    · intro id conn hl i c hc hne hid
      cases hl
      rcases i with _ | _ | i
      · cases hc
        rfl
      · exact (hne rfl).elim
      · cases hc
  obtain ⟨s, hs⟩ := hrun
  exact ⟨s, hs, closesItsOwn hs []⟩

/-- The client connects stream 5 twice; the first upstream ends, then the client leaves. -/
def reuseLabels : List (SessionId × RelayAct) :=
  [([], .establish), ([], .frame (some controlFive)), ([], .dial true), ([], .insert),
    ([], .frame (some controlFive)), ([], .dial true), ([], .insert), ([], .read 0 [] true),
    ([], .finish 0), ([], .frame none), ([], .cleanup []), ([], .read 1 [] true), ([], .finish 1)]

/-- The first connection is never closed; the end of its goroutine closes the second. -/
theorem not_closesItsOwn_reuse :
    (∃ s, Run RelayStep initial reuseLabels s ∧
      ∃ c ∈ (s.sessions []).conns, c.pc = .ended ∧ c.closed = false) ∧
    ∃ s, Run RelayStep initial (reuseLabels.take 8) s ∧ ¬ ClosesItsOwn s [] := by
  refine ⟨⟨_, .step (.establish rfl) <| .step (.frame rfl) <| .step (.dial rfl) <|
    .step (.insert rfl) <| .step (.frame rfl) <| .step (.dial rfl) <| .step (.insert rfl) <|
    .step (.read rfl rfl (by decide) (by decide)) <| .step (.finish rfl rfl) <|
    .step (.frame rfl) <| .step (.cleanup rfl (.refl _)) <|
    .step (.read rfl rfl (by decide) (by decide)) <| .step (.finish rfl rfl) <| .refl _,
    _, .head _, rfl, rfl⟩, _, .step (.establish rfl) <| .step (.frame rfl) <| .step (.dial rfl) <|
    .step (.insert rfl) <| .step (.frame rfl) <| .step (.dial rfl) <| .step (.insert rfl) <|
    .step (.read rfl rfl (by decide) (by decide)) <| .refl _, fun h => ?_⟩
  have hother := h.finish_own 0 _ (.finish rfl rfl) ⟨[], 1⟩ (by decide)
  revert hother
  decide

end ServerRelay

end SshPanelVpn.ShadowLink

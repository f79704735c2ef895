import SshPanelVpn.Library.Runs
import SshPanelVpn.ShadowLink.ClientStreams

/-! The table of the client over whole calls: `dialThroughTunnel`, which may fail, and
`tunnelConn.Close`, which may be called again, for any number of streams. -/
namespace SshPanelVpn.ShadowLink

open Octets Indexed Runs

/-- The caller has the `tunnelConn`. -/
def TunnelPc.Returned (pc : TunnelPc) : Prop := pc ≠ .dialing ∧ pc ≠ .failed

instance (pc : TunnelPc) : Decidable pc.Returned := inferInstanceAs (Decidable (_ ∧ _))

/-- A call on the client; `ok` tells whether the WebSocket takes what is written. -/
inductive TunnelCall where
  | dial (network addr : Bytes) (ok : Bool)
  | close (stream : Nat) (ok : Bool)

def TunnelCall.isDial : TunnelCall → Bool
  | .dial _ _ _ => true
  | .close _ _ => false

namespace Client

instance (c : Client) (f : Frame) : Decidable (c.CanSend f) := inferInstanceAs (Decidable (_ ∧ _))

/-- Whether `WriteFrameTo` succeeds. -/
def takes (c : Client) (f : Frame) (ok : Bool) : Bool := ok && decide (c.CanSend f)

/-- The control frame of the stream that `dialThroughTunnel` makes. -/
def dialFrame (c : Client) (network addr : Bytes) : Frame :=
  TunnelStream.controlFrame ⟨c.nextID, network, addr, .dialing, none, [], []⟩

/-- A call of `dialThroughTunnel`. The entry stays where the write fails. -/
def dialThroughTunnel (c : Client) (network addr : Bytes) (ok : Bool) : Client :=
  ((c.dial network addr).send (c.dialFrame network addr) (c.takes (c.dialFrame network addr) ok)).update
    c.streams.length
    (·.goto (if c.takes (c.dialFrame network addr) ok then .opened else .failed))

/-- A call of `tunnelConn.Close`, where there is such a connection; the error of the write is not
looked at. -/
def closeTunnel (c : Client) (k : Nat) (ok : Bool) : Client :=
  match c.streams[k]? with
  | none => c
  | some s =>
    if s.pc.Returned then
      ((c.delete s.id).send s.closeFrame (c.takes s.closeFrame ok)).update k (·.goto .closed)
    else c

def call (c : Client) : TunnelCall → Client
  | .dial network addr ok => c.dialThroughTunnel network addr ok
  | .close k ok => c.closeTunnel k ok

/-- The connection was returned and has not been closed. -/
def Open (c : Client) (k : Nat) : Prop := ∃ s, c.streams[k]? = some s ∧ s.pc = .opened

def OpenAs (c : Client) (id : UInt32) (k : Nat) : Prop :=
  ∃ s, c.streams[k]? = some s ∧ s.pc = .opened ∧ s.id = id

/-- The table has the open streams, each under its own id. -/
def ExactTable (c : Client) : Prop := ∀ id k, c.sessions.lookup id = some k ↔ c.OpenAs id k

/-- The write of a dial succeeds, and no open stream has its number modulo 2^32; nor that of a connection
that is closed again. -/
def Fits (c : Client) : TunnelCall → Prop
  | .dial network addr ok =>
    c.takes (c.dialFrame network addr) ok = true ∧
      ∀ j, c.Open j → j % 2 ^ 32 ≠ c.streams.length % 2 ^ 32
  | .close k _ =>
    ∀ s, c.streams[k]? = some s → s.pc.Returned → s.pc ≠ .opened →
      ∀ j, c.Open j → j % 2 ^ 32 ≠ k % 2 ^ 32

/-- The ids count the dials modulo 2^32. -/
structure Counted (c : Client) : Prop where
  next : c.nextID = UInt32.ofNat c.streams.length
  ids : ∀ {k : Nat} {s : TunnelStream}, c.streams[k]? = some s → s.id = UInt32.ofNat k

variable {c : Client} {k j : Nat} {s t : TunnelStream} {network addr : Bytes} {ok : Bool} {id : UInt32}

/-! The calls as runs of the goroutine that makes them. -/

theorem canSend_of_takes {f : Frame} (h : c.takes f ok = true) : c.CanSend f := by
  unfold takes at h
  rw [Bool.and_eq_true, decide_eq_true_iff] at h
  exact h.2

theorem run_dialThroughTunnel (c : Client) (network addr : Bytes) (ok : Bool) :
    Run ClientStep c
      [.dial network addr, .control c.streams.length (c.takes (c.dialFrame network addr) ok)]
      (c.dialThroughTunnel network addr ok) := by
  refine .step .dial (.step (.control (s := ⟨c.nextID, network, addr, .dialing, none, [], []⟩) ?_ rfl ?_)
    (.refl _))
  · simp
  · exact canSend_of_takes

theorem update_goto (c : Client) (k : Nat) (pc pc' : TunnelPc) :
    (c.update k (·.goto pc)).update k (·.goto pc') = c.update k (·.goto pc') := by
  simp only [update, List.modify_modify_eq]
  rfl

theorem send_update (c : Client) (f : Frame) (ok : Bool) (k : Nat) (g : TunnelStream → TunnelStream) :
    (c.update k g).send f ok = (c.send f ok).update k g := by
  cases ok <;> rfl

theorem closeTunnel_of_returned (hs : c.streams[k]? = some s) (hpc : s.pc.Returned) (ok : Bool) :
    c.closeTunnel k ok =
      ((c.delete s.id).send s.closeFrame (c.takes s.closeFrame ok)).update k (·.goto .closed) := by
  simp only [closeTunnel, hs, if_pos hpc]

/-- The first `Close` of a connection. -/
theorem run_closeTunnel (hs : c.streams[k]? = some s) (hpc : s.pc = .opened) (ok : Bool) :
    Run ClientStep c [.delete k, .announce k (c.takes s.closeFrame ok), .closeReader k]
      (c.closeTunnel k ok) := by
  have hdeleted : ((c.delete s.id).update k (·.goto .deleted)).streams[k]? = some (s.goto .deleted) := by
    simp [hs]
  have hannounced : ((((c.delete s.id).update k (·.goto .deleted)).send s.closeFrame
      (c.takes s.closeFrame ok)).update k (·.goto .announced)).streams[k]? =
      some ((s.goto .deleted).goto .announced) := by
    simp [hs]
  have hclosed : c.closeTunnel k ok = (((((c.delete s.id).update k (·.goto .deleted)).send s.closeFrame
      (c.takes s.closeFrame ok)).update k (·.goto .announced)).update k (·.goto .closed)) := by
    rw [update_goto, send_update, update_goto]
    exact closeTunnel_of_returned hs (by rw [hpc]; decide) ok
  rw [hclosed]
  exact .step (.delete hs hpc) (.step (.announce hdeleted rfl canSend_of_takes)
    (.step (.closeReader hannounced rfl) (.refl _)))

/-! The ids. -/

theorem counted_initial : Counted initial := ⟨rfl, by simp [initial]⟩

@[simp] theorem dialThroughTunnel_nextID (c : Client) (network addr : Bytes) (ok : Bool) :
    (c.dialThroughTunnel network addr ok).nextID = c.nextID + 1 := by
  simp [dialThroughTunnel]

@[simp] theorem dialThroughTunnel_sessions (c : Client) (network addr : Bytes) (ok : Bool) :
    (c.dialThroughTunnel network addr ok).sessions = c.sessions.insert c.nextID c.streams.length := by
  simp [dialThroughTunnel]

@[simp] theorem dialThroughTunnel_length (c : Client) (network addr : Bytes) (ok : Bool) :
    (c.dialThroughTunnel network addr ok).streams.length = c.streams.length + 1 := by
  simp [dialThroughTunnel]

/-- The streams are the earlier ones and the new one, which is open if the write succeeded. -/
theorem dialThroughTunnel_stream (h : (c.dialThroughTunnel network addr ok).streams[j]? = some s) :
    c.streams[j]? = some s ∨ j = c.streams.length ∧ s.id = c.nextID ∧
      s.pc = if c.takes (c.dialFrame network addr) ok then .opened else .failed := by
  simp only [dialThroughTunnel, update_streams, send_streams, dial_streams] at h
  obtain ⟨t, ht, rfl⟩ := getElem?_modify_some h
  rcases getElem?_append_one ht with hold | ⟨rfl, rfl⟩
  · left
    obtain ⟨hj, -⟩ := List.getElem?_eq_some_iff.mp hold
    rw [if_neg (by omega)]
    exact hold
  · right
    rw [if_pos rfl]
    exact ⟨rfl, rfl, rfl⟩

theorem dialThroughTunnel_of_stream (h : c.streams[j]? = some s) :
    (c.dialThroughTunnel network addr ok).streams[j]? = some s := by
  obtain ⟨hj, -⟩ := List.getElem?_eq_some_iff.mp h
  simp only [dialThroughTunnel, update_streams, send_streams, dial_streams]
  rw [getElem?_modify_of_some (getElem?_append_of_some h), if_neg (by omega)]

theorem dialThroughTunnel_new (c : Client) (network addr : Bytes) (ok : Bool) :
    ∃ s, (c.dialThroughTunnel network addr ok).streams[c.streams.length]? = some s ∧ s.id = c.nextID ∧
      s.pc = if c.takes (c.dialFrame network addr) ok then .opened else .failed := by
  have hlen : c.streams.length < (c.dialThroughTunnel network addr ok).streams.length := by simp
  have hs := List.getElem?_eq_getElem hlen
  refine ⟨_, hs, ?_⟩
  rcases dialThroughTunnel_stream hs with hold | ⟨-, hnew⟩
  · obtain ⟨hlt, -⟩ := List.getElem?_eq_some_iff.mp hold
    omega
  · exact hnew

theorem closeTunnel_nextID (c : Client) (k : Nat) (ok : Bool) : (c.closeTunnel k ok).nextID = c.nextID := by
  unfold closeTunnel
  split
  · rfl
  · split <;> simp

theorem closeTunnel_length (c : Client) (k : Nat) (ok : Bool) :
    (c.closeTunnel k ok).streams.length = c.streams.length := by
  unfold closeTunnel
  split
  · rfl
  · split <;> simp

/-- `Close` leaves every stream but its own as it was, and keeps the id of its own. -/
theorem closeTunnel_stream (h : (c.closeTunnel k ok).streams[j]? = some t) :
    ∃ s, c.streams[j]? = some s ∧ t.id = s.id ∧
      (c.streams[k]? = some s ∧ s.pc.Returned ∧ j = k ∧ t.pc = .closed ∨ t = s) := by
  cases hs : c.streams[k]? with
  | none =>
    simp only [closeTunnel, hs] at h
    exact ⟨t, h, rfl, .inr rfl⟩
  | some s =>
    by_cases hpc : s.pc.Returned
    · rw [closeTunnel_of_returned hs hpc, update_streams, send_streams, delete_streams] at h
      rcases getElem?_modify_cases hs h with ⟨rfl, rfl⟩ | ⟨-, hother⟩
      · exact ⟨s, hs, rfl, .inl ⟨rfl, hpc, rfl, rfl⟩⟩
      · exact ⟨t, hother, rfl, .inr rfl⟩
    · simp only [closeTunnel, hs, if_neg hpc] at h
      exact ⟨t, h, rfl, .inr rfl⟩

theorem counted_call (h : Counted c) (call : TunnelCall) : Counted (c.call call) := by
  cases call with
  | dial network addr ok =>
    refine ⟨?_, ?_⟩
    · simp only [Client.call, dialThroughTunnel_nextID, dialThroughTunnel_length, h.next]
      rw [UInt32.ofNat_add]
      rfl
    · intro j s hs
      rcases dialThroughTunnel_stream hs with hold | ⟨rfl, hid, -⟩
      · exact h.ids hold
      · rw [hid, h.next]
  | close k ok =>
    refine ⟨?_, ?_⟩
    · rw [Client.call, closeTunnel_nextID, closeTunnel_length, h.next]
    · intro j t ht
      obtain ⟨s, hs, hid, -⟩ := closeTunnel_stream ht
      rw [hid, h.ids hs]

theorem ofNat_eq_iff : UInt32.ofNat k = UInt32.ofNat j ↔ k % 2 ^ 32 = j % 2 ^ 32 := by
  rw [← UInt32.toNat_inj, UInt32.toNat_ofNat', UInt32.toNat_ofNat']

theorem openAs_iff (h : Counted c) : c.OpenAs id k ↔ c.Open k ∧ id = UInt32.ofNat k := by
  constructor
  · rintro ⟨s, hs, hpc, rfl⟩
    exact ⟨⟨s, hs, hpc⟩, h.ids hs⟩
  · rintro ⟨⟨s, hs, hpc⟩, rfl⟩
    exact ⟨s, hs, hpc, h.ids hs⟩

theorem lt_of_open (h : c.Open k) : k < c.streams.length := by
  obtain ⟨s, hs, -⟩ := h
  exact (List.getElem?_eq_some_iff.mp hs).1

theorem pc_of_open (hs : c.streams[k]? = some s) (h : c.Open k) : s.pc = .opened := by
  obtain ⟨t, ht, hpc⟩ := h
  rw [hs, Option.some.injEq] at ht
  rw [ht, hpc]

/-! One call. -/

theorem openAs_dial (id : UInt32) (k : Nat) : (c.dialThroughTunnel network addr ok).OpenAs id k ↔
    c.OpenAs id k ∨
      c.takes (c.dialFrame network addr) ok = true ∧ k = c.streams.length ∧ id = c.nextID := by
  constructor
  · rintro ⟨s, hs, hpc, rfl⟩
    rcases dialThroughTunnel_stream hs with hold | ⟨rfl, hid, hnew⟩
    · exact .inl ⟨s, hold, hpc, rfl⟩
    · right
      rw [hpc] at hnew
      split at hnew
      · next htakes => exact ⟨htakes, rfl, hid⟩
      · cases hnew
  · rintro (⟨s, hs, hpc, rfl⟩ | ⟨htakes, rfl, rfl⟩)
    · exact ⟨s, dialThroughTunnel_of_stream hs, hpc, rfl⟩
    · obtain ⟨s, hs, hid, hpc⟩ := dialThroughTunnel_new c network addr ok
      rw [if_pos htakes] at hpc
      exact ⟨s, hs, hpc, hid⟩

theorem exactTable_dial_iff (hc : Counted c) (h : c.ExactTable) (network addr : Bytes) (ok : Bool) :
    (c.dialThroughTunnel network addr ok).ExactTable ↔ c.Fits (.dial network addr ok) := by
  have hentry : (c.dialThroughTunnel network addr ok).sessions.lookup c.nextID = some c.streams.length := by
    rw [dialThroughTunnel_sessions, AList.lookup_insert]
  constructor
  · intro hexact
    have hopen := (hexact c.nextID c.streams.length).mp hentry
    rcases (openAs_dial _ _).mp hopen with hold | ⟨htakes, -, -⟩
    · exact (lt_irrefl _ (lt_of_open ((openAs_iff hc).mp hold).1)).elim
    · refine ⟨htakes, fun j hj hmod => ?_⟩
      -- an open stream with the id of the new one would have lost its entry
      have hid : c.nextID = UInt32.ofNat j := by rw [hc.next, ofNat_eq_iff, hmod]
      have hold : c.OpenAs c.nextID j := (openAs_iff hc).mpr ⟨hj, hid⟩
      have hlookup := (hexact c.nextID j).mpr ((openAs_dial _ _).mpr (.inl hold))
      rw [hentry, Option.some.injEq] at hlookup
      exact (lt_of_open hj).ne hlookup.symm
  · rintro ⟨htakes, hfresh⟩ id k
    rw [openAs_dial]
    by_cases hid : id = c.nextID
    · subst hid
      rw [hentry, Option.some.injEq]
      constructor
      · rintro rfl
        exact .inr ⟨htakes, rfl, rfl⟩
      · rintro (hold | ⟨-, hk, -⟩)
        · obtain ⟨hopen, hnext⟩ := (openAs_iff hc).mp hold
          rw [hc.next, ofNat_eq_iff] at hnext
          exact (hfresh k hopen hnext.symm).elim
        · exact hk.symm
    · rw [dialThroughTunnel_sessions, AList.lookup_insert_ne hid, h]
      simp [hid]

theorem openAs_close (hs : c.streams[k]? = some s) (hpc : s.pc.Returned) (id : UInt32) (j : Nat) :
    (c.closeTunnel k ok).OpenAs id j ↔ c.OpenAs id j ∧ j ≠ k := by
  rw [closeTunnel_of_returned hs hpc]
  constructor
  · rintro ⟨t, ht, hopen, rfl⟩
    rw [update_streams, send_streams, delete_streams] at ht
    rcases getElem?_modify_cases hs ht with ⟨-, rfl⟩ | ⟨hne, hother⟩
    · cases hopen
    · exact ⟨⟨t, hother, hopen, rfl⟩, hne⟩
  · rintro ⟨⟨t, ht, hopen, rfl⟩, hne⟩
    refine ⟨t, ?_, hopen, rfl⟩
    rw [update_streams, send_streams, delete_streams, getElem?_modify_of_some ht, if_neg (Ne.symm hne)]

/-- After a `Close` the table is exact if its id has no other open stream. -/
theorem exactTable_close_returned (h : c.ExactTable) (hs : c.streams[k]? = some s) (hpc : s.pc.Returned) :
    (c.closeTunnel k ok).ExactTable ↔ ∀ j, c.OpenAs s.id j → j = k := by
  have hsessions : (c.closeTunnel k ok).sessions = c.sessions.erase s.id := by
    rw [closeTunnel_of_returned hs hpc, update_sessions, send_sessions, delete_sessions]
  constructor
  · intro hexact j hj
    by_contra hne
    have hlookup := (hexact s.id j).mpr ((openAs_close hs hpc s.id j).mpr ⟨hj, hne⟩)
    rw [hsessions, AList.lookup_erase] at hlookup
    cases hlookup
  · intro hunique id j
    rw [openAs_close hs hpc, hsessions]
    by_cases hid : id = s.id
    · subst hid
      rw [AList.lookup_erase]
      refine iff_of_false (by simp) ?_
      rintro ⟨hj, hne⟩
      exact hne (hunique j hj)
    · rw [AList.lookup_erase_ne hid, h]
      refine (and_iff_left_of_imp fun hj hjk => ?_).symm
      subst hjk
      obtain ⟨t, ht, -, htid⟩ := hj
      rw [hs, Option.some.injEq] at ht
      subst ht
      exact hid htid.symm

theorem openAs_stream_iff (hc : Counted c) (hs : c.streams[k]? = some s) :
    c.OpenAs s.id j ↔ c.Open j ∧ j % 2 ^ 32 = k % 2 ^ 32 := by
  rw [openAs_iff hc, hc.ids hs, ofNat_eq_iff, eq_comm (a := k % 2 ^ 32)]

theorem fits_close_iff (hs : c.streams[k]? = some s) : c.Fits (.close k ok) ↔
    (s.pc.Returned → s.pc ≠ .opened → ∀ j, c.Open j → j % 2 ^ 32 ≠ k % 2 ^ 32) := by
  constructor
  · exact fun hfits => hfits s hs
  · intro hfits t ht
    rw [hs, Option.some.injEq] at ht
    subst ht
    exact hfits

theorem exactTable_close_iff (hc : Counted c) (h : c.ExactTable) (k : Nat) (ok : Bool) :
    (c.closeTunnel k ok).ExactTable ↔ c.Fits (.close k ok) := by
  cases hs : c.streams[k]? with
  | none =>
    have hsame : c.closeTunnel k ok = c := by simp only [closeTunnel, hs]
    rw [hsame]
    refine iff_of_true h ?_
    intro s hs'
    rw [hs] at hs'
    cases hs'
  | some s =>
    rw [fits_close_iff hs]
    by_cases hpc : s.pc.Returned
    · rw [exactTable_close_returned h hs hpc]
      by_cases hopen : s.pc = .opened
      · -- the entry of its id leads to the stream itself
        refine iff_of_true (fun j hj => ?_) fun _ hnot => (hnot hopen).elim
        have hj' := (h s.id j).mpr hj
        have hk := (h s.id k).mpr ⟨s, hs, hopen, rfl⟩
        rw [hk, Option.some.injEq] at hj'
        exact hj'.symm
      · constructor
        · intro hunique _ _ j hj hmod
          obtain rfl := hunique j ((openAs_stream_iff hc hs).mpr ⟨hj, hmod⟩)
          exact hopen (pc_of_open hs hj)
        · intro hnone j hj
          obtain ⟨hj', hmod⟩ := (openAs_stream_iff hc hs).mp hj
          exact (hnone hpc hopen j hj' hmod).elim
    · have hsame : c.closeTunnel k ok = c := by simp only [closeTunnel, hs, if_neg hpc]
      rw [hsame]
      exact iff_of_true h fun hret => (hpc hret).elim

theorem exactTable_call_iff (hc : Counted c) (h : c.ExactTable) (call : TunnelCall) :
    (c.call call).ExactTable ↔ c.Fits call := by
  cases call with
  | dial network addr ok => exact exactTable_dial_iff hc h network addr ok
  | close k ok => exact exactTable_close_iff hc h k ok

/-! Runs. -/

/-- At every point the table has exactly the streams that are open, in exactly the runs in which no
dial fails, no new stream takes the id of an open one, and no connection is closed again while its id
is that of an open one. -/
theorem exactTable_iff (calls : List TunnelCall) :
    (∀ calls', calls' <+: calls → (after call initial calls').ExactTable) ↔
      Along call Fits initial calls := by
  refine along_iff_prefixes (J := Counted) (fun c tunnelCall hc h => exactTable_call_iff hc h tunnelCall)
    (fun c tunnelCall hc => counted_call hc tunnelCall) counted_initial ?_
  intro id k
  refine iff_of_false (by simp [initial]) ?_
  rintro ⟨s, hs, -⟩
  simp [initial] at hs

/-- The entry of a dial whose write fails stays. -/
theorem not_exactTable : ¬ ∀ calls : List TunnelCall, (after call initial calls).ExactTable := by
  intro h
  have hlookup : (after call initial [.dial [] [] false]).sessions.lookup 0 = some 0 := rfl
  obtain ⟨s, hs, hpc, -⟩ := (h [.dial [] [] false] 0 0).mp hlookup
  have hfailed : (after call initial [.dial [] [] false]).streams[0]? =
      some ⟨0, [], [], .failed, none, [], []⟩ := rfl
  rw [hfailed, Option.some.injEq] at hs
  subst hs
  cases hpc

/-- A dial whose write succeeds, or a close. -/
def Succeeds (c : Client) : TunnelCall → Prop
  | .dial network addr ok => c.takes (c.dialFrame network addr) ok = true
  | .close _ _ => True

theorem fits_iff_of_few (hfew : c.Few) (tunnelCall : TunnelCall) :
    c.Fits tunnelCall ↔ c.Succeeds tunnelCall := by
  unfold Few at hfew
  cases tunnelCall with
  | dial network addr ok =>
    refine and_iff_left_of_imp fun _ j hj => ?_
    have hlt := lt_of_open hj
    omega
  | close k ok =>
    refine iff_of_true ?_ trivial
    rintro s hs - hnot j hj hmod
    have hlt := lt_of_open hj
    obtain ⟨hk, -⟩ := List.getElem?_eq_some_iff.mp hs
    obtain rfl : j = k := by omega
    exact hnot (pc_of_open hs hj)

/-- Up to the wrap of the counter only a failed dial does harm. -/
theorem along_fits_iff_of_few {calls : List TunnelCall}
    (hfew : c.streams.length + calls.countP TunnelCall.isDial < 2 ^ 32) :
    Along call Fits c calls ↔ Along call Succeeds c calls := by
  induction calls generalizing c with
  | nil => exact Iff.rfl
  | cons tunnelCall calls ih =>
    have hnow : c.Few := by
      unfold Few
      omega
    have hlater : (c.call tunnelCall).streams.length + calls.countP TunnelCall.isDial < 2 ^ 32 := by
      cases tunnelCall with
      | dial network addr ok =>
        simp only [Client.call, dialThroughTunnel_length]
        simp only [List.countP_cons, TunnelCall.isDial, if_true] at hfew
        omega
      | close k ok =>
        simp only [Client.call, closeTunnel_length]
        simpa [List.countP_cons, TunnelCall.isDial] using hfew
    exact and_congr (fits_iff_of_few hnow tunnelCall) (ih hlater)

end Client

end SshPanelVpn.ShadowLink

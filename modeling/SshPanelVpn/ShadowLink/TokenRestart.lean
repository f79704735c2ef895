import SshPanelVpn.ShadowLink.TokenText

/-! What is left of the registry when the process ends at any point and starts again. -/
namespace SshPanelVpn.ShadowLink

open Octets Runs

namespace TokenStore

variable {J : TokenJson} {s t : TokenStore} {act : StoreAct} {acts : List StoreAct}
  {apiKey : List Char} {file : Option Bytes} {data : Bytes} {n : Nat}

/-- What holds at every point: the file is what `stored` says, and what is being written is the
registry. -/
structure Inv (J : TokenJson) (s : TokenStore) : Prop where
  keyed : s.bridge.Keyed
  whole : ∀ registry, s.stored = some registry → s.restored J = registry
  cut : s.stored = none → ∃ tokens p, s.file = some p ∧ p <+: J.marshalIndent tokens ∧
    p ≠ J.marshalIndent tokens
  opening : ∀ data, s.pc = .opening data → ∃ tokens, data = J.marshalIndent tokens ∧
    s.bridge.Collects tokens
  writing : ∀ data n, s.pc = .writing data n → ∃ tokens, data = J.marshalIndent tokens ∧
    s.bridge.Collects tokens

theorem inv_start : Inv J (start J apiKey file) := by
  refine ⟨BridgeServer.keyed_new, ?_, ?_, ?_, ?_⟩
  · intro registry h
    cases h
    exact BridgeServer.registry_apiKey _
  · intro h
    cases h
  · intro data h
    cases h
  · intro data n h
    cases h

/-- After some of the bytes, or all of them, are in the file. -/
theorem Inv.wrote (hJ : J.Lawful) (hs : Inv J s) {tokens : List TokenInfo}
    (hc : s.bridge.Collects tokens) (hn : n ≤ (J.marshalIndent tokens).length) :
    Inv J (s.wrote (J.marshalIndent tokens) n) := by
  refine ⟨hs.keyed, ?_, ?_, ?_, ?_⟩
  · intro registry h
    dsimp only [TokenStore.wrote] at h
    split at h
    · next hall =>
      cases h
      rw [restored, TokenStore.wrote, hall, List.take_length]
      exact BridgeServer.registry_saved hJ hs.keyed hc
    · cases h
  · intro h
    dsimp only [TokenStore.wrote] at h
    split at h
    · cases h
    · next hall =>
      refine ⟨tokens, _, rfl, List.take_prefix _ _, ?_⟩
      intro heq
      have hlen := congrArg List.length heq
      rw [List.length_take] at hlen
      omega
  · intro data h
    cases h
  · intro data m h
    cases h
    exact ⟨tokens, rfl, hc⟩

/-- The file is left alone. -/
theorem Inv.settled (hs : Inv J s) {pc : StorePc} (answered : List Char → Option TokenInfo)
    (hpc : pc = .idle ∨ pc = .answering) : Inv J { s with pc := pc, answered := answered } := by
  refine ⟨hs.keyed, hs.whole, hs.cut, ?_, ?_⟩
  · rintro data rfl
    rcases hpc with hpc | hpc <;> cases hpc
  · rintro data n rfl
    rcases hpc with hpc | hpc <;> cases hpc

theorem Inv.step (hJ : J.Lawful) (hst : StoreStep J s act t) (hs : Inv J s) : Inv J t := by
  cases hst with
  | unsaved hpc hno =>
    have hsame := BridgeServer.serveHTTP_of_not_saves hno
    refine ⟨BridgeServer.keyed_serveHTTP hs.keyed _, ?_, hs.cut, ?_, ?_⟩
    · intro registry h
      rw [← hs.whole registry h]
      exact BridgeServer.registry_apiKey _
    · intro data h
      rw [hpc] at h
      cases h
    · intro data n h
      rw [hpc] at h
      cases h
  | saved hpc hyes horder =>
    refine ⟨BridgeServer.keyed_serveHTTP hs.keyed _, ?_, hs.cut, ?_, ?_⟩
    · intro registry h
      rw [← hs.whole registry h]
      exact BridgeServer.registry_apiKey _
    · intro data h
      cases h
      exact ⟨_, rfl, horder⟩
    · intro data n h
      cases h
  | openFails hpc => exact hs.settled s.answered (.inr rfl)
  | openTruncates hpc =>
    obtain ⟨tokens, rfl, hc⟩ := hs.opening _ hpc
    exact hs.wrote hJ hc (Nat.zero_le _)
  | write hpc hm hn =>
    obtain ⟨tokens, rfl, hc⟩ := hs.writing _ _ hpc
    exact hs.wrote hJ hc hn
  | writeEnds hpc => exact hs.settled s.answered (.inr rfl)
  | answer hpc => exact hs.settled s.bridge.registry (.inl rfl)
  | crash => exact inv_start

theorem inv_run (hJ : J.Lawful) (h : Run (StoreStep J) (start J apiKey file) acts s) : Inv J s :=
  h.invariant (fun _ _ _ hst hs => hs.step hJ hst) inv_start

/-- A file that is cut off is loaded as no token. -/
theorem Inv.restored_of_cut (hJ : J.Lawful) (hs : Inv J s) (h : s.stored = none) :
    s.restored J = fun _ => none := by
  obtain ⟨tokens, p, hfile, hp, hne⟩ := hs.cut h
  rw [restored, hfile]
  exact BridgeServer.registry_cut hJ hp hne

theorem Inv.restorable_iff_intact (hJ : J.Lawful) (hs : Inv J s) : s.Restorable J ↔ s.Intact := by
  unfold Restorable Intact
  cases h : s.stored with
  | some registry =>
    rw [hs.whole registry h]
  | none =>
    rw [hs.restored_of_cut hJ h]
    have hfun : ∀ f : List Char → Option TokenInfo,
        (fun _ => none) = f ↔ ∀ token, f token = none := by
      intro f
      constructor
      · rintro rfl token
        rfl
      · intro hf
        funext token
        rw [hf]
    rw [hfun, hfun]

/-! Runs without write failures and without an end in the middle of a write. -/

/-- The file is opened, a write ends when all is written, and the process does not end before. -/
def Undisturbed (s : TokenStore) (act : StoreAct) : Prop :=
  act ≠ .openFails ∧
    (act = .writeEnds ∨ act = .crash → ∀ data n, s.pc = .writing data n → n = data.length)

/-- The file is whole of the registry before the request in progress until it is opened, and of the
one after it once it is written. -/
def Synced (s : TokenStore) : Prop :=
  match s.pc with
  | .idle => s.stored = some s.answered ∧ s.bridge.registry = s.answered
  | .opening _ => s.stored = some s.answered
  | .writing data n => n = data.length → s.stored = some s.bridge.registry
  | .answering => s.stored = some s.bridge.registry

theorem synced_start : (start J apiKey file).Synced := ⟨rfl, rfl⟩

theorem synced_wrote : (s.wrote data n).Synced := by
  intro hn
  exact if_pos hn

theorem Synced.step (hst : StoreStep J s act t) (hu : s.Undisturbed act) (hs : s.Synced) :
    t.Synced := by
  unfold Synced at hs
  cases hst with
  | unsaved hpc hno =>
    rw [hpc] at hs
    have hsame := BridgeServer.serveHTTP_of_not_saves hno
    simp only [Synced, hpc, hsame, hs.2, hs.1, and_self]
  | saved hpc hyes horder =>
    rw [hpc] at hs
    exact hs.1
  | openFails hpc => exact (hu.1 rfl).elim
  | openTruncates hpc => exact synced_wrote
  | write hpc hm hn => exact synced_wrote
  | writeEnds hpc =>
    rw [hpc] at hs
    exact hs (hu.2 (.inl rfl) _ _ hpc)
  | answer hpc =>
    rw [hpc] at hs
    exact ⟨hs, rfl⟩
  | crash => exact synced_start

theorem Synced.intact (hs : s.Synced) (hw : ∀ data n, s.pc = .writing data n → n = data.length) :
    s.Intact := by
  unfold Synced at hs
  unfold Intact
  cases hpc : s.pc with
  | idle =>
    rw [hpc] at hs
    rw [hs.1]
    exact .inl rfl
  | opening data =>
    rw [hpc] at hs
    rw [hs]
    exact .inl rfl
  | writing data n =>
    rw [hpc] at hs
    rw [hs (hw data n hpc)]
    exact .inr rfl
  | answering =>
    rw [hpc] at hs
    rw [hs]
    exact .inr rfl

/-- The next start finds the right registry exactly if the file is whole of it, or is cut off and the
registry is empty; in particular at every point, but in the middle of a write, of the runs in which
every write goes through and none is cut off. -/
theorem restorable_iff (hJ : J.Lawful) (h : Run (StoreStep J) (start J apiKey file) acts s) :
    (s.Restorable J ↔ s.Intact) ∧
    (Run (Guarded (StoreStep J) Undisturbed) (start J apiKey file) acts s →
      (∀ data n, s.pc = .writing data n → n = data.length) → s.Restorable J) := by
  have hiff := (inv_run hJ h).restorable_iff_intact hJ
  refine ⟨hiff, ?_⟩
  intro hrun hw
  have hsynced : s.Synced :=
    hrun.invariant (fun _ _ _ hst hs => hs.step hst.2 hst.1) synced_start
  exact hiff.mpr (hsynced.intact hw)

/-! A token is registered, and later suspended. -/

def registerT : BridgeRequest := ⟨"POST", "/api/tokens", [], some ⟨['t'], 1⟩⟩
def suspendT : BridgeRequest := ⟨"POST", "/api/tokens/suspend", [], some ⟨['t'], 0⟩⟩

def registered : List TokenInfo := [⟨['t'], 1, true⟩]
def suspended : List TokenInfo := [⟨['t'], 1, false⟩]

def registering : List StoreAct :=
  [.request registerT registered, .openTruncates,
    .write (TokenText.marshalIndent registered).length, .writeEnds, .answer]

theorem run_registering : ∃ s, Run (Guarded (StoreStep textJson) Undisturbed)
    (start textJson [] none) registering s ∧ s.pc = .idle ∧
    s.bridge = ⟨AList.singleton ['t'] ⟨['t'], 1, true⟩, []⟩ ∧
    s.answered = BridgeServer.registry ⟨AList.singleton ['t'] ⟨['t'], 1, true⟩, []⟩ := by
  refine ⟨_, .step ⟨⟨by simp, by simp⟩, .saved rfl rfl (.refl _)⟩ <|
    .step ⟨⟨by simp, by simp⟩, .openTruncates rfl⟩ <|
    .step ⟨⟨by simp, by simp⟩, .write rfl (Nat.zero_le _) (Nat.le_refl _)⟩ <|
    .step ⟨⟨by simp, ?_⟩, .writeEnds rfl⟩ <| .step ⟨⟨by simp, by simp⟩, .answer rfl⟩ <| .refl _,
    rfl, rfl, rfl⟩
  intro _ data n hpc
  cases hpc
  rfl

theorem restorable_iff_registering : ∃ s,
    Run (StoreStep textJson) (start textJson [] none) registering s ∧ s.Restorable textJson := by
  obtain ⟨s, hrun, hpc, -, -⟩ := run_registering
  refine ⟨s, hrun.of_guarded, (restorable_iff textJson_lawful hrun.of_guarded).2 hrun ?_⟩
  intro data n h
  rw [hpc] at h
  cases h

/-- The process ends when the file has been truncated for the suspension: all tokens are gone. -/
theorem not_restorable : ¬ ∀ (J : TokenJson) (apiKey : List Char) (file : Option Bytes)
    (acts : List StoreAct) (s : TokenStore), J.Lawful →
      Run (StoreStep J) (start J apiKey file) acts s → s.Restorable J := by
  intro h
  obtain ⟨s, hrun, hpc, hbridge, hanswered⟩ := run_registering
  have hyes : s.bridge.saves suspendT = true := by
    rw [hbridge]
    rfl
  have hcollects : (s.bridge.serveHTTP suspendT).2.Collects suspended := by
    rw [hbridge]
    exact .refl _
  have hcut := (hrun.of_guarded.snoc (.saved hpc hyes hcollects)).snoc (.openTruncates rfl)
  have hintact := ((inv_run textJson_lawful hcut).restorable_iff_intact textJson_lawful).mp
    (h textJson [] none _ _ textJson_lawful hcut)
  have hlen : ¬ 0 = (textJson.marshalIndent suspended).length := by
    exact (Nat.succ_ne_zero _).symm
  simp only [Intact, wrote, if_neg hlen, hbridge, hanswered] at hintact
  rcases hintact with hnone | hnone
  · cases hnone ['t']
  · cases hnone ['t']

end TokenStore

end SshPanelVpn.ShadowLink

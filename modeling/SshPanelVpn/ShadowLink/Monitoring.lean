import SshPanelVpn.ShadowLink.MainServer

/-! What `/api/sessions` and `/api/status` say about the sessions of the server. -/
namespace SshPanelVpn.ShadowLink

open Runs

namespace MainServer

variable {s t : MainServer} {act : MainAct} {acts : List MainAct} {bridge : BridgeServer}

/-- Both answers list exactly the established sessions, each once and with its streams. -/
structure Listed (s : MainServer) : Prop where
  once : (s.activeSessions.map SessionInfo.id).Nodup
  exact : ∀ id n, (∃ info ∈ s.activeSessions, info.id = id ∧ info.streamCount = n) ↔
    s.authRelay.Live id ∧ s.authRelay.streamCount id = n
  same : s.serverStatus.activeSessions = s.activeSessions

/-- The relay of the bridge has never had a session. -/
theorem activeSessions_run (h : Run MainStep (initial bridge) acts s) : s.activeSessions = [] := by
  rw [activeSessions, relay_run h]
  rfl

theorem listed_iff_live (h : s.activeSessions = []) :
    s.Listed ↔ ∀ id, ¬ s.authRelay.Live id := by
  constructor
  · intro hl id hlive
    obtain ⟨info, hinfo, -⟩ := (hl.exact id _).mpr ⟨hlive, rfl⟩
    rw [h] at hinfo
    cases hinfo
  · intro hnone
    refine ⟨?_, ?_, rfl⟩
    · rw [h]
      exact List.nodup_nil
    · intro id n
      rw [h]
      constructor
      · rintro ⟨info, hinfo, -⟩
        cases hinfo
      · rintro ⟨hlive, -⟩
        exact (hnone id hlive).elim

/-- Only the end of a handshake brings a session to life. -/
theorem live_step (hst : MainStep s act t) {id : SessionId} (hl : t.authRelay.Live id) :
    s.authRelay.Live id ∨ act = .connection (.establish id) := by
  cases hst with
  | bridge => exact .inl hl
  | connection h =>
    obtain ⟨c', token', hc', hpc'⟩ := hl
    rcases RelayInstance.conns_step h id with hsame | ⟨c, hc, hchange⟩
    · exact .inl ⟨c', token', hsame.symm.trans hc', hpc'⟩
    · obtain rfl : c = c' := Option.some.inj (hc.symm.trans hc')
      generalize s.authRelay.conns id = before at hchange
      cases hchange with
      | accepted => cases hpc'
      | granted => cases hpc'
      | ended => cases hpc'
      | established => exact .inr rfl
      | closed => cases hpc'

theorem live_of_establish {id : SessionId} (hst : MainStep s (.connection (.establish id)) t) :
    t.authRelay.Live id := by
  cases hst with
  | connection h =>
    cases h with
    | @establish _ c token maxConns relay hc hpc hrelay =>
      exact ⟨c.established token, token, RelayInstance.setConn_self .., rfl⟩

/-- No session lives in a run in which no handshake succeeds. -/
theorem not_live_run (h : Run MainStep s acts t)
    (hacts : ∀ id, .connection (.establish id) ∉ acts) (hs : ∀ id, ¬ s.authRelay.Live id) :
    ∀ id, ¬ t.authRelay.Live id := by
  induction h with
  | refl => exact hs
  | step hst _ ih =>
    apply ih
    · intro id hid
      exact hacts id (List.mem_cons_of_mem _ hid)
    · intro id hl
      rcases live_step hst hl with hl | rfl
      · exact hs id hl
      · exact hacts id List.mem_cons_self

theorem listed_iff_of_run (h : Run MainStep (initial bridge) acts s) :
    s.Listed ↔ ∀ id, ¬ s.authRelay.Live id :=
  listed_iff_live (activeSessions_run h)

/-- The lists are right exactly while no session is established, and right all the time exactly in
the runs in which no handshake succeeds. -/
theorem listed_iff (h : Run MainStep (initial bridge) acts s) :
    (s.Listed ↔ ∀ id, ¬ s.authRelay.Live id) ∧
    ((∀ before after t, acts = before ++ after → Run MainStep (initial bridge) before t →
        Run MainStep t after s → t.Listed) ↔
      ∀ id, .connection (.establish id) ∉ acts) := by
  refine ⟨listed_iff_of_run h, ?_⟩
  constructor
  · intro hall id hid
    obtain ⟨before, after, rfl⟩ := List.append_of_mem hid
    obtain ⟨t, hbefore, hafter⟩ := h.split
    cases hafter with
    | step hst hrest =>
      have hbefore' := hbefore.snoc hst
      have hl := hall (before ++ [MainAct.connection (.establish id)]) after _ (by simp) hbefore' hrest
      exact (listed_iff_of_run hbefore').mp hl id (live_of_establish hst)
  · intro hnone before after t hacts hbefore _
    apply (listed_iff_of_run hbefore).mpr
    apply not_live_run hbefore
    · intro id hid
      exact hnone id (hacts ▸ List.mem_append_left _ hid)
    · rintro id ⟨c, token, hc, -⟩
      cases hc

/-- A client connects with the token `t`. -/
def oneSession : List MainAct :=
  [.connection (.accept []), .connection (.authenticate [] ['t']), .connection (.establish [])]

theorem run_oneSession : ∃ s, Run MainStep (initial Server.oneConn) oneSession s ∧
    s.authRelay.Live [] := by
  refine ⟨_, .step (.connection (.accept rfl)) <|
    .step (.connection (.authenticate rfl rfl)) <|
    .step (.connection (.establish rfl rfl (.establish rfl))) <| .refl _, ?_⟩
  exact ⟨_, ['t'], rfl, rfl⟩

theorem listed_iff_oneSession : ∃ s, Run MainStep (initial Server.oneConn) oneSession s ∧
    (s.Listed ↔ ∀ id, ¬ s.authRelay.Live id) := by
  obtain ⟨s, hs, -⟩ := run_oneSession
  exact ⟨s, hs, (listed_iff hs).1⟩

/-- The session is not on the list. -/
theorem not_listed : ¬ ∀ (bridge : BridgeServer) (acts : List MainAct) (s : MainServer),
    Run MainStep (initial bridge) acts s → s.Listed := by
  intro h
  obtain ⟨s, hs, hl⟩ := run_oneSession
  exact (listed_iff_of_run hs).mp (h _ _ s hs) [] hl

end MainServer

end SshPanelVpn.ShadowLink

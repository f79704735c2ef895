import SshPanelVpn.Panel.ServerHealth

/-! How many checks in a row have failed before `check_all_servers_health` gives a server up, where
every process of the worker pool counts for itself. -/
namespace SshPanelVpn.Panel

open Runs

inductive HealthTask where
  | checkAll (worker : Nat)
  | checkSingle
  deriving DecidableEq, Repr

def HealthTask.task : HealthTask → ServerTask
  | checkAll worker => .checkAll worker
  | checkSingle => .checkSingle

/-- A task gets to the server; `health` is `none` where its check fails. -/
structure HealthRun where
  task : HealthTask
  health : Option Health
  now : DateTime
  deriving DecidableEq, Repr

/-- A run reads the row, and saves it when the node has answered. -/
def ServerState.check (s : ServerState) (r : HealthRun) : ServerState :=
  (s.act (.read r.task.task)).act (.save s.loaded.length r.health r.now)

/-- A server with its checks, newest first: who made them, and whether they succeeded. -/
structure CheckedServer where
  server : ServerState
  checks : List (HealthTask × Bool)

/-- The failures that a process has counted: those of its own checks since the last success. -/
def ownFailures (worker : Nat) : List (HealthTask × Bool) → Nat
  | [] => 0
  | (.checkAll worker', ok) :: checks =>
    if worker' = worker then
      if ok then 0 else ownFailures worker checks + 1
    else ownFailures worker checks
  | (.checkSingle, _) :: checks => ownFailures worker checks

namespace CheckedServer

/-- A server before any process has checked it. -/
def start (row : ServerRow) : CheckedServer := ⟨.start row fun _ => 0, []⟩

def step (c : CheckedServer) (r : HealthRun) : CheckedServer where
  server := c.server.check r
  -- a server that is down is left out, and then there is no check
  checks :=
    if c.server.readsRow r.task.task then (r.task, r.health.isSome) :: c.checks else c.checks

/-- The last `n` checks are there and have failed. -/
def LastFailed (c : CheckedServer) (n : Nat) : Prop :=
  (c.checks.take n).map Prod.snd = List.replicate n false

instance (c : CheckedServer) (n : Nat) : Decidable (c.LastFailed n) :=
  inferInstanceAs (Decidable ((c.checks.take n).map Prod.snd = List.replicate n false))

/-- If `check_all_servers_health` sets the server to DOWN, three checks in a row have failed. -/
def GivesUpRightly (c : CheckedServer) (r : HealthRun) : Prop :=
  (∃ worker, r.task = .checkAll worker) → c.server.row.status ≠ .down →
    (c.step r).server.row.status = .down → (c.step r).LastFailed 3

/-- Where a check of `check_all_servers_health` fails in a process that has counted two failures
before, these were the last two checks of all. -/
def CountsInStep (c : CheckedServer) (r : HealthRun) : Prop :=
  ∀ worker, r.task = .checkAll worker → c.server.row.status ≠ .down → r.health = none →
    2 ≤ ownFailures worker c.checks → c.LastFailed 2

variable {c : CheckedServer} {r : HealthRun} {runs : List HealthRun}

/-- A run saves what it has made of the row, if it reads it. -/
theorem check_eq (s : ServerState) (r : HealthRun) : s.check r =
    if s.readsRow r.task.task then s.finish ⟨r.task.task, s.row, false⟩ r.health r.now else s := by
  unfold ServerState.check
  by_cases h : s.readsRow r.task.task = true
  · have hread : s.act (.read r.task.task) =
        { s with loaded := s.loaded ++ [⟨r.task.task, s.row, false⟩] } := by
      simp only [ServerState.act, h, if_true]
    have hlast : (s.loaded ++ [⟨r.task.task, s.row, false⟩])[s.loaded.length]? =
        some ⟨r.task.task, s.row, false⟩ := by simp
    rw [hread, ServerState.act_save hlast, if_pos h]
    simp [List.eraseIdx_append_of_length_le]
  · have hread : s.act (.read r.task.task) = s := by
      simp only [ServerState.act, h]
      rfl
    rw [hread, if_neg h]
    simp [ServerState.act]

theorem finish_counts (s : ServerState) (l : LoadedServer) (health : Option Health) (now : DateTime)
    (worker : Nat) : (s.finish l health now).healthFailCounts worker =
      if l.task = .checkAll worker then
        if health.isSome then 0 else s.healthFailCounts worker + 1
      else s.healthFailCounts worker := by
  rcases l with ⟨task, srv, statusSet⟩
  cases task with
  | checkAll worker' =>
    by_cases h : worker' = worker
    · subst h
      cases health <;> simp [ServerState.finish]
    · have hne : worker ≠ worker' := Ne.symm h
      cases health <;> simp [ServerState.finish, h, hne]
  | checkSingle => cases health <;> simp [ServerState.finish]
  | update data =>
    rcases data with ⟨name, ip, port, protocol, status, location, users, slPort, path, domain⟩
    cases status <;> simp [ServerState.finish, ServerState.adminSets]

theorem readsRow_iff {worker : Nat} (s : ServerState) :
    s.readsRow (.checkAll worker) = true ↔ s.row.status ≠ .down := by
  simp [ServerState.readsRow]

/-- Every process has counted its own failures. -/
def Counted (c : CheckedServer) : Prop :=
  ∀ worker, c.server.healthFailCounts worker = ownFailures worker c.checks

theorem counted_start (row : ServerRow) : (start row).Counted := fun _ => rfl

theorem counted_step (hc : c.Counted) (r : HealthRun) : (c.step r).Counted := by
  intro worker
  simp only [step, check_eq]
  split
  · rw [finish_counts, hc worker]
    rcases r with ⟨task, health, now⟩
    cases task with
    | checkAll worker' => simp [ownFailures, HealthTask.task]
    | checkSingle => simp [ownFailures, HealthTask.task]
  · exact hc worker

/-- A check that fails as the third that its process counts is the one that gives a server up. -/
theorem down_iff {worker : Nat} (hc : c.Counted) (ht : r.task = .checkAll worker)
    (hup : c.server.row.status ≠ .down) : (c.step r).server.row.status = .down ↔
      r.health = none ∧ 2 ≤ ownFailures worker c.checks := by
  have hreads : c.server.readsRow r.task.task = true := by
    rw [ht]
    exact (readsRow_iff c.server).mpr hup
  simp only [step, check_eq, hreads, if_true, ServerState.finish_status]
  rw [ht]
  cases hh : r.health with
  | none =>
    simp only [HealthTask.task, ServerState.savedStatus, hc worker, true_and]
    by_cases hn : 3 ≤ ownFailures worker c.checks + 1
    · rw [if_pos hn]
      exact iff_of_true rfl (by omega)
    · rw [if_neg hn]
      exact iff_of_false hup (by omega)
  | some health =>
    refine iff_of_false ?_ (by simp)
    simp only [HealthTask.task, ServerState.savedStatus]
    split
    · simp
    · exact hup

theorem lastFailed_step {n : Nat} (hreads : c.server.readsRow r.task.task = true)
    (hh : r.health = none) : (c.step r).LastFailed (n + 1) ↔ c.LastFailed n := by
  simp [LastFailed, step, hreads, hh, List.replicate_succ]

theorem givesUpRightly_iff (hc : c.Counted) : c.GivesUpRightly r ↔ c.CountsInStep r := by
  constructor
  · intro h worker ht hup hh hn
    have hreads : c.server.readsRow r.task.task = true := by
      rw [ht]
      exact (readsRow_iff c.server).mpr hup
    apply (lastFailed_step hreads hh).mp
    apply h ⟨worker, ht⟩ hup
    exact (down_iff hc ht hup).mpr ⟨hh, hn⟩
  · rintro h ⟨worker, ht⟩ hup hdown
    obtain ⟨hh, hn⟩ := (down_iff hc ht hup).mp hdown
    have hreads : c.server.readsRow r.task.task = true := by
      rw [ht]
      exact (readsRow_iff c.server).mpr hup
    apply (lastFailed_step hreads hh).mpr
    exact h worker ht hup hh hn

theorem along_iff (hc : c.Counted) :
    Along step GivesUpRightly c runs ↔ Along step CountsInStep c runs := by
  induction runs generalizing c with
  | nil => exact Iff.rfl
  | cons r runs ih => exact and_congr (givesUpRightly_iff hc) (ih (counted_step hc r))

/-! One process that makes all checks itself. -/

/-- The failures counted are the last checks. -/
def InStep (worker : Nat) (c : CheckedServer) : Prop :=
  c.LastFailed (ownFailures worker c.checks)

theorem LastFailed.mono {n m : Nat} (h : c.LastFailed n) (hm : m ≤ n) : c.LastFailed m := by
  have hpart := congrArg (List.take m) h
  rwa [List.take_replicate, ← List.map_take, List.take_take, Nat.min_eq_left hm] at hpart

theorem inStep_step {worker : Nat} (hi : c.InStep worker) (ht : r.task = .checkAll worker) :
    (c.step r).InStep worker := by
  unfold InStep
  by_cases hreads : c.server.readsRow r.task.task = true
  · cases hh : r.health with
    | none =>
      have hown : ownFailures worker (c.step r).checks = ownFailures worker c.checks + 1 := by
        rw [step, if_pos hreads, ht, hh]
        simp [ownFailures]
      rw [hown]
      exact (lastFailed_step hreads hh).mpr hi
    | some health =>
      have hown : ownFailures worker (c.step r).checks = 0 := by
        rw [step, if_pos hreads, ht, hh]
        simp [ownFailures]
      rw [hown]
      rfl
  · have hsame : (c.step r).checks = c.checks := if_neg hreads
    unfold LastFailed
    rw [hsame]
    exact hi

theorem countsInStep_alone {worker : Nat} (hi : c.InStep worker)
    (hruns : ∀ r ∈ runs, r.task = .checkAll worker) : Along step CountsInStep c runs := by
  induction runs generalizing c with
  | nil => trivial
  | cons r runs ih =>
    have ht := hruns r List.mem_cons_self
    refine ⟨?_, ih (inStep_step hi ht) fun r' hr' => hruns r' (List.mem_cons_of_mem _ hr')⟩
    intro worker' ht' _ _ hn
    obtain rfl : worker = worker' := by
      rw [ht] at ht'
      cases ht'
      rfl
    exact hi.mono hn

/-- A server is given up for three failures in a row exactly as far as each process's own count is a
count of all checks, and so where one process makes them all. -/
theorem givesUpRightly_of_run_iff (row : ServerRow) (runs : List HealthRun) :
    (Along step GivesUpRightly (start row) runs ↔ Along step CountsInStep (start row) runs) ∧
      ((∃ worker, ∀ r ∈ runs, r.task = .checkAll worker) →
        Along step GivesUpRightly (start row) runs) := by
  refine ⟨along_iff (counted_start row), ?_⟩
  rintro ⟨worker, hruns⟩
  apply (along_iff (counted_start row)).mpr
  have hstart : (start row).InStep worker := rfl
  exact countsInStep_alone hstart hruns

/-- Two failures in one process, a success in another, and a third failure in the first. -/
def splitRuns : List HealthRun :=
  [⟨.checkAll 0, none, ⟨0, by decide⟩⟩, ⟨.checkAll 0, none, ⟨1, by decide⟩⟩,
    ⟨.checkAll 1, some ⟨10, 20, 30, 40⟩, ⟨2, by decide⟩⟩, ⟨.checkAll 0, none, ⟨3, by decide⟩⟩]

theorem not_givesUpRightly : ¬ ∀ (row : ServerRow) (runs : List HealthRun),
    Along step GivesUpRightly (start row) runs := by
  intro h
  have hrun := h ServerState.smallServer splitRuns
  have hlast := hrun.2.2.2.1 ⟨0, rfl⟩ (by decide) (by decide)
  revert hlast
  decide

end CheckedServer

end SshPanelVpn.Panel

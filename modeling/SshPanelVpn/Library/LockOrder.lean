import Mathlib.Algebra.BigOperators.Group.Finset.Basic
import Mathlib.Algebra.Order.BigOperators.Group.Finset
import Mathlib.Data.Fintype.Basic
import SshPanelVpn.Library.Runs

/-! Read-write locks in which new readers wait behind a waiting writer, and threads that take them in
one order. -/
namespace LockOrder

open Runs

inductive Mode where
  | read
  | write
  deriving DecidableEq, Repr

inductive LockOp (Λ : Type) where
  | acquire (l : Λ) (m : Mode)
  | release (l : Λ) (m : Mode)
  deriving DecidableEq, Repr

/-- What each thread has still to do and what it holds; `waiting` is the writer that is next. -/
structure Locks (Γ Λ : Type) where
  rest : Γ → List (LockOp Λ)
  held : Γ → List (Λ × Mode)
  waiting : Λ → Option Γ

section Steps

variable {Γ Λ : Type} [DecidableEq Γ] [DecidableEq Λ]

/-- A writer first gets in line, when no other one is there and none has the lock, and takes the lock
once nobody has it. A reader needs that no writer is in line or has it. -/
inductive LockStep : Locks Γ Λ → Γ → Locks Γ Λ → Prop where
  | announce {s : Locks Γ Λ} {g : Γ} {l : Λ} {ops : List (LockOp Λ)} (hrest : s.rest g = .acquire l .write :: ops)
      (hwaiting : s.waiting l = none) (hfree : ∀ g', (l, .write) ∉ s.held g') :
      LockStep s g { s with waiting := Function.update s.waiting l (some g) }
  | write {s : Locks Γ Λ} {g : Γ} {l : Λ} {ops : List (LockOp Λ)} (hrest : s.rest g = .acquire l .write :: ops)
      (hwaiting : s.waiting l = some g) (hfree : ∀ g' m, (l, m) ∉ s.held g') :
      LockStep s g ⟨Function.update s.rest g ops, Function.update s.held g ((l, .write) :: s.held g),
        Function.update s.waiting l none⟩
  | read {s : Locks Γ Λ} {g : Γ} {l : Λ} {ops : List (LockOp Λ)} (hrest : s.rest g = .acquire l .read :: ops)
      (hwaiting : s.waiting l = none) (hfree : ∀ g', (l, .write) ∉ s.held g') :
      LockStep s g { s with
        rest := Function.update s.rest g ops
        held := Function.update s.held g ((l, .read) :: s.held g) }
  | release {s : Locks Γ Λ} {g : Γ} {l : Λ} {m : Mode} {ops : List (LockOp Λ)}
      (hrest : s.rest g = .release l m :: ops) :
      LockStep s g { s with
        rest := Function.update s.rest g ops
        held := Function.update s.held g ((s.held g).erase (l, m)) }

end Steps

section Programs

variable {Λ : Type}

/-- The body between the two ends of a lock. -/
def within (l : Λ) (m : Mode) (body : List (LockOp Λ)) : List (LockOp Λ) :=
  .acquire l m :: body ++ [LockOp.release l m]

variable [DecidableEq Λ] {rank : Λ → ℕ} {held : List (Λ × Mode)} {ops ops' : List (LockOp Λ)} {l : Λ} {m : Mode}

/-- Each lock that is taken ranks above those that are held, what is given back is held, and at the end
nothing is. -/
def Ordered (rank : Λ → ℕ) : List (Λ × Mode) → List (LockOp Λ) → Prop
  | held, [] => held = []
  | held, .acquire l m :: ops => (∀ h ∈ held, rank h.1 < rank l) ∧ Ordered rank ((l, m) :: held) ops
  | held, .release l m :: ops => (l, m) ∈ held ∧ Ordered rank (held.erase (l, m)) ops

/-- The same, with the locks held at the start left as they are at the end. -/
def Nested (rank : Λ → ℕ) (low : ℕ) (ops : List (LockOp Λ)) : Prop :=
  ∀ held rest, (∀ h ∈ held, rank h.1 < low) → Ordered rank held rest → Ordered rank held (ops ++ rest)

theorem Nested.nil {low : ℕ} : Nested rank low [] := fun _ _ _ h => h

theorem Nested.append {low : ℕ} (h : Nested rank low ops) (h' : Nested rank low ops') :
    Nested rank low (ops ++ ops') := by
  intro held rest hheld hrest
  rw [List.append_assoc]
  exact h _ _ hheld (h' _ _ hheld hrest)

theorem Nested.flatten {low : ℕ} {bodies : List (List (LockOp Λ))} (h : ∀ ops ∈ bodies, Nested rank low ops) :
    Nested rank low bodies.flatten := by
  induction bodies with
  | nil => exact .nil
  | cons ops bodies ih =>
    exact (h ops List.mem_cons_self).append (ih fun ops' h' => h ops' (List.mem_cons_of_mem _ h'))

/-- A body that only takes locks of higher rank. -/
theorem Nested.within {low : ℕ} (hlow : low ≤ rank l) (h : Nested rank (rank l + 1) ops) :
    Nested rank low (within l m ops) := by
  intro held rest hheld hrest
  have hbelow : ∀ h ∈ held, rank h.1 < rank l := fun h' hh' => (hheld h' hh').trans_le hlow
  have hbody : ∀ h ∈ (l, m) :: held, rank h.1 < rank l + 1 := by
    intro h' hh'
    rcases List.mem_cons.mp hh' with rfl | hh'
    · exact Nat.lt_succ_self _
    · exact (hbelow h' hh').trans (Nat.lt_succ_self _)
  have hrelease : Ordered rank ((l, m) :: held) (.release l m :: rest) :=
    ⟨List.mem_cons_self, by rwa [List.erase_cons_head]⟩
  have hends : LockOrder.within l m ops ++ rest = .acquire l m :: (ops ++ .release l m :: rest) := by
    simp [LockOrder.within]
  rw [hends]
  exact ⟨hbelow, h _ _ hbody hrelease⟩

theorem Nested.mono {low low' : ℕ} (h : Nested rank low ops) (hle : low' ≤ low) : Nested rank low' ops :=
  fun held rest hheld hrest => h held rest (fun h' hh' => (hheld h' hh').trans_le hle) hrest

theorem Nested.ordered {low : ℕ} (h : Nested rank low ops) : Ordered rank [] ops := by
  have hall := h [] [] (by simp) rfl
  rwa [List.append_nil] at hall

end Programs

section Progress

variable {Γ Λ : Type} [DecidableEq Γ] [DecidableEq Λ] {rank : Λ → ℕ} {s t : Locks Γ Λ} {g g' : Γ} {l : Λ}
  {gs : List Γ} {ops : List (LockOp Λ)} {m : Mode}

/-- Every thread goes by the ranks, and the writers in line have come to their lock. -/
structure InOrder (rank : Λ → ℕ) (s : Locks Γ Λ) : Prop where
  ordered : ∀ g, Ordered rank (s.held g) (s.rest g)
  waiting : ∀ l g, s.waiting l = some g → ∃ ops, s.rest g = .acquire l .write :: ops

theorem stable_inOrder (rank : Λ → ℕ) :
    Stable (LockStep : Locks Γ Λ → Γ → Locks Γ Λ → Prop) (InOrder rank) := by
  intro s g t hst hs
  have hown := hs.ordered g
  cases hst with
  | @announce l ops hrest hwaiting hfree =>
    refine ⟨hs.ordered, ?_⟩
    intro l' g' hw
    by_cases hl : l' = l
    · subst hl
      simp only [Function.update_self, Option.some.injEq] at hw
      exact ⟨ops, hw ▸ hrest⟩
    · simp only [Function.update_of_ne hl] at hw
      exact hs.waiting l' g' hw
  | @write l ops hrest hwaiting hfree =>
    rw [hrest] at hown
    refine ⟨?_, ?_⟩
    · intro g'
      by_cases hg : g' = g
      · subst hg
        simpa using hown.2
      · simpa [hg] using hs.ordered g'
    · intro l' g' hw
      by_cases hl : l' = l
      · subst hl
        simp at hw
      · simp only [Function.update_of_ne hl] at hw
        obtain ⟨ops', hrest'⟩ := hs.waiting l' g' hw
        have hg : g' ≠ g := by
          rintro rfl
          rw [hrest] at hrest'
          cases hrest'
          exact hl rfl
        exact ⟨ops', by simpa [hg] using hrest'⟩
  | @read l ops hrest hwaiting hfree =>
    rw [hrest] at hown
    refine ⟨?_, ?_⟩
    · intro g'
      by_cases hg : g' = g
      · subst hg
        simpa using hown.2
      · simpa [hg] using hs.ordered g'
    · intro l' g' hw
      obtain ⟨ops', hrest'⟩ := hs.waiting l' g' hw
      have hg : g' ≠ g := by
        rintro rfl
        rw [hrest] at hrest'
        cases hrest'
      exact ⟨ops', by simpa [hg] using hrest'⟩
  | @release l m ops hrest =>
    rw [hrest] at hown
    refine ⟨?_, ?_⟩
    · intro g'
      by_cases hg : g' = g
      · subst hg
        simpa using hown.2
      · simpa [hg] using hs.ordered g'
    · intro l' g' hw
      obtain ⟨ops', hrest'⟩ := hs.waiting l' g' hw
      have hg : g' ≠ g := by
        rintro rfl
        rw [hrest] at hrest'
        cases hrest'
      exact ⟨ops', by simpa [hg] using hrest'⟩

/-- A thread at a lock is kept from it by somebody who holds it, or somebody can move. -/
theorem InOrder.held_or_step (hs : InOrder rank s) (hrest : s.rest g = .acquire l m :: ops) :
    (∃ g' m', (l, m') ∈ s.held g') ∨ ∃ g' t, LockStep s g' t := by
  by_cases hheld : ∃ g' m', (l, m') ∈ s.held g'
  · exact .inl hheld
  · have hfree : ∀ g' m', (l, m') ∉ s.held g' := fun g' m' h => hheld ⟨g', m', h⟩
    refine .inr ?_
    cases hw : s.waiting l with
    | some g' =>
      obtain ⟨ops', hrest'⟩ := hs.waiting l g' hw
      exact ⟨g', _, .write hrest' hw hfree⟩
    | none =>
      cases m with
      | read => exact ⟨g, _, .read hrest hw fun g' => hfree g' .write⟩
      | write => exact ⟨g, _, .announce hrest hw fun g' => hfree g' .write⟩

/-- The holder of a lock waits at most for a lock of higher rank, and so on up to the highest. -/
theorem InOrder.exists_step_of_held {top : ℕ} (hs : InOrder rank s) (htop : ∀ l, rank l ≤ top) {n : ℕ}
    (hheld : (l, m) ∈ s.held g) (hn : top - rank l < n) : ∃ g' t, LockStep s g' t := by
  induction n generalizing g l m with
  | zero => omega
  | succ n ih =>
    have hown := hs.ordered g
    cases hrest : s.rest g with
    | nil =>
      rw [hrest] at hown
      rw [show s.held g = [] from hown] at hheld
      cases hheld
    | cons op ops =>
      cases op with
      | release l' m' => exact ⟨g, _, .release hrest⟩
      | acquire l' m' =>
        rw [hrest] at hown
        have hrank : rank l < rank l' := hown.1 _ hheld
        rcases hs.held_or_step hrest with ⟨g', m'', hheld'⟩ | hstep
        · have hle := htop l'
          exact ih hheld' (by omega)
        · exact hstep

/-- As long as a thread has something to do, some thread can go on. -/
theorem InOrder.exists_step {top : ℕ} (hs : InOrder rank s) (htop : ∀ l, rank l ≤ top)
    (hrest : s.rest g ≠ []) : ∃ g' t, LockStep s g' t := by
  cases hops : s.rest g with
  | nil => exact (hrest hops).elim
  | cons op ops =>
    cases op with
    | release l m => exact ⟨g, _, .release hops⟩
    | acquire l m =>
      rcases hs.held_or_step hops with ⟨g', m', hheld⟩ | hstep
      · exact hs.exists_step_of_held htop hheld (Nat.lt_succ_self _)
      · exact hstep

/-! How long the threads can go on. -/

/-- Two for each operation that is left, one of them spent on getting in line. -/
def Locks.left (s : Locks Γ Λ) (g : Γ) : ℕ :=
  match s.rest g with
  | .acquire l .write :: ops => if s.waiting l = some g then 2 * ops.length + 1 else 2 * ops.length + 2
  | ops => 2 * ops.length

omit [DecidableEq Λ] in
theorem left_le (s : Locks Γ Λ) (g : Γ) : s.left g ≤ 2 * (s.rest g).length := by
  unfold Locks.left
  split
  · next hrest =>
    rw [hrest, List.length_cons]
    split <;> omega
  · exact le_refl _

theorem left_of_ne (h : LockStep s g t) (hg : g' ≠ g) : t.left g' = s.left g' := by
  have hsame : t.rest g' = s.rest g' ∧
      ∀ l ops, s.rest g' = .acquire l .write :: ops → (t.waiting l = some g' ↔ s.waiting l = some g') := by
    cases h with
    | @announce l ops hrest hwaiting hfree =>
      refine ⟨rfl, fun l' ops' _ => ?_⟩
      by_cases hl : l' = l
      · subst hl
        simp [hwaiting, Ne.symm hg]
      · simp [hl]
    | @write l ops hrest hwaiting hfree =>
      refine ⟨by simp [hg], fun l' ops' _ => ?_⟩
      by_cases hl : l' = l
      · subst hl
        simp [hwaiting, Ne.symm hg]
      · simp [hl]
    | read _ _ _ => exact ⟨by simp [hg], fun _ _ _ => Iff.rfl⟩
    | release _ => exact ⟨by simp [hg], fun _ _ _ => Iff.rfl⟩
  unfold Locks.left
  rw [hsame.1]
  split
  · next hrest => simp only [hsame.2 _ _ hrest]
  · rfl

theorem left_lt (h : LockStep s g t) : t.left g < s.left g := by
  cases h with
  | announce hrest hwaiting _ => simp [Locks.left, hrest, hwaiting]
  | @write l ops hrest hwaiting _ =>
    have hle := left_le (⟨Function.update s.rest g ops, Function.update s.held g ((l, .write) :: s.held g),
      Function.update s.waiting l none⟩ : Locks Γ Λ) g
    simp only [Function.update_self] at hle
    refine hle.trans_lt ?_
    simp [Locks.left, hrest, hwaiting]
  | @read l ops hrest _ _ =>
    have hle := left_le ({ s with
      rest := Function.update s.rest g ops
      held := Function.update s.held g ((l, .read) :: s.held g) } : Locks Γ Λ) g
    simp only [Function.update_self] at hle
    refine hle.trans_lt ?_
    simp [Locks.left, hrest]
  | @release l m ops hrest =>
    have hle := left_le ({ s with
      rest := Function.update s.rest g ops
      held := Function.update s.held g ((s.held g).erase (l, m)) } : Locks Γ Λ) g
    simp only [Function.update_self] at hle
    refine hle.trans_lt ?_
    simp [Locks.left, hrest]

variable [Fintype Γ]

theorem run_length_le (h : Run LockStep s gs t) :
    gs.length + ∑ g, t.left g ≤ ∑ g, s.left g := by
  induction h with
  | refl => simp
  | @step s u t g gs hst _ ih =>
    have hlt : ∑ g', u.left g' < ∑ g', s.left g' := by
      refine Finset.sum_lt_sum (fun g' _ => ?_) ⟨g, Finset.mem_univ _, left_lt hst⟩
      by_cases hg : g' = g
      · subst hg
        exact (left_lt hst).le
      · exact (left_of_ne hst hg).le
    rw [List.length_cons]
    omega

/-- Threads that go by the ranks all get to their end, however they are interleaved: a run has only so
many steps, and one that cannot go on has left nothing to do and no lock held. -/
theorem InOrder.runs_end {top : ℕ} (hs : InOrder rank s) (htop : ∀ l, rank l ≤ top) (h : Run LockStep s gs t) :
    gs.length ≤ ∑ g, 2 * (s.rest g).length ∧
      ((∀ g u, ¬ LockStep t g u) → ∀ g, t.rest g = [] ∧ t.held g = []) := by
  constructor
  · have hle := run_length_le h
    have hsum : ∑ g, s.left g ≤ ∑ g, 2 * (s.rest g).length := Finset.sum_le_sum fun g _ => left_le s g
    omega
  · intro hstuck g
    have ht := h.invariant (stable_inOrder rank) hs
    have hrest : t.rest g = [] := by
      by_contra hne
      obtain ⟨g', u, hst⟩ := ht.exists_step htop hne
      exact hstuck g' u hst
    have hown := ht.ordered g
    rw [hrest] at hown
    exact ⟨hrest, hown⟩

end Progress

end LockOrder

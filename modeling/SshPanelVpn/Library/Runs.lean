import Mathlib.Data.List.Basic

/-! Finite runs of a labelled transition relation and the rules that carry facts along them. -/
namespace Runs

variable {σ α : Type} {Step Step' : σ → α → σ → Prop} {s t u : σ} {as bs : List α}

/-- A finite run with its labels in order. -/
inductive Run (Step : σ → α → σ → Prop) : σ → List α → σ → Prop where
  | refl (s : σ) : Run Step s [] s
  | step {s t u : σ} {a : α} {as : List α} :
      Step s a t → Run Step t as u → Run Step s (a :: as) u

/-- The steps whose label is allowed in the state it is taken from. -/
def Guarded (Step : σ → α → σ → Prop) (C : σ → α → Prop) (s : σ) (a : α) (t : σ) : Prop :=
  C s a ∧ Step s a t

/-- A predicate that every step keeps. -/
def Stable (Step : σ → α → σ → Prop) (I : σ → Prop) : Prop :=
  ∀ s a t, Step s a t → I s → I t

theorem Run.invariant {I : σ → Prop} (h : Run Step s as t) (hI : Stable Step I) (hs : I s) :
    I t := by
  induction h with
  | refl => exact hs
  | step hst _ ih => exact ih (hI _ _ _ hst hs)

/-- A run of guarded steps is in particular a run. -/
theorem Run.mono (h : Run Step s as t) (hm : ∀ s a t, Step s a t → Step' s a t) :
    Run Step' s as t := by
  induction h with
  | refl => exact .refl _
  | step hst _ ih => exact .step (hm _ _ _ hst) ih

theorem Run.of_guarded {C : σ → α → Prop} (h : Run (Guarded Step C) s as t) : Run Step s as t :=
  h.mono fun _ _ _ hst => hst.2

theorem Run.append (h : Run Step s as t) (h' : Run Step t bs u) : Run Step s (as ++ bs) u := by
  induction h with
  | refl => exact h'
  | step hst _ ih => exact .step hst (ih h')

theorem Run.snoc {a : α} (h : Run Step s as t) (hst : Step t a u) : Run Step s (as ++ [a]) u :=
  h.append (.step hst (.refl _))

theorem Run.split (h : Run Step s (as ++ bs) u) : ∃ t, Run Step s as t ∧ Run Step t bs u := by
  induction as generalizing s with
  | nil => exact ⟨s, .refl s, h⟩
  | cons a as ih =>
    cases h with
    | step hst h =>
      obtain ⟨t, has, hbs⟩ := ih h
      exact ⟨t, .step hst has, hbs⟩

/-- Where a label has at most one result, a run is guarded if the guard holds after each of its
beginnings. -/
theorem Run.guarded_iff {C : σ → α → Prop}
    (hunique : ∀ s a t u, Step s a t → Step s a u → t = u) (h : Run Step s as t) :
    Run (Guarded Step C) s as t ↔ ∀ bs a cs u, as = bs ++ a :: cs → Run Step s bs u → C u a := by
  induction h with
  | refl s =>
    refine iff_of_true (.refl s) fun bs a cs u has => ?_
    simp at has
  | @step s v t b as hst _ ih =>
    constructor
    · rintro (_ | @⟨_, w, _, _, _, ⟨hC, hst'⟩, hrest⟩) bs a cs u has hbs
      obtain rfl := hunique _ _ _ _ hst hst'
      cases hbs with
      | refl =>
        obtain ⟨rfl, -⟩ := List.cons.inj has
        exact hC
      | step hst'' hbs =>
        rw [List.cons_append] at has
        obtain ⟨rfl, htail⟩ := List.cons.inj has
        obtain rfl := hunique _ _ _ _ hst hst''
        exact ih.mp hrest _ _ _ _ htail hbs
    · intro hall
      refine .step ⟨hall [] b as s rfl (.refl s), hst⟩ (ih.mpr fun bs a cs u has hbs => ?_)
      exact hall (b :: bs) a cs u (by rw [has]; rfl) (.step hst hbs)

/-- Where each step of one system is one of the other, so is each run. How the states belong together
may depend on the number of steps still to come. -/
theorem Run.simulated {τ β : Type} {Step' : τ → β → τ → Prop} {R : ℕ → σ → τ → Prop}
    (h : Run Step s as t)
    (hstep : ∀ n s a t u, Step s a t → R (n + 1) s u → ∃ b v, Step' u b v ∧ R n t v) {u : τ}
    (hs : R as.length s u) : ∃ bs v, Run Step' u bs v ∧ R 0 t v := by
  induction h generalizing u with
  | refl => exact ⟨[], u, .refl u, hs⟩
  | step hst _ ih =>
    obtain ⟨b, v, hb, hv⟩ := hstep _ _ _ _ _ hst hs
    obtain ⟨bs, x, hbs, hx⟩ := ih hv
    exact ⟨b :: bs, x, .step hb hbs, hx⟩

/-- Where some step always comes nearer to the goal, there is a run that reaches it. -/
theorem exists_run_of_measure {I G : σ → Prop} (μ : σ → ℕ)
    (hstep : ∀ s, I s → ¬ G s → ∃ a t, Step s a t ∧ I t ∧ μ t < μ s) (hs : I s) :
    ∃ as t, Run Step s as t ∧ I t ∧ G t ∧ as.length ≤ μ s := by
  induction hn : μ s using Nat.strongRecOn generalizing s with
  | ind n ih =>
    subst hn
    by_cases hg : G s
    · exact ⟨[], s, .refl s, hs, hg, Nat.zero_le _⟩
    · obtain ⟨a, t, hst, ht, hlt⟩ := hstep s hs hg
      obtain ⟨as, u, hrun, hu, hgoal, hlen⟩ := ih (μ t) hlt ht rfl
      refine ⟨a :: as, u, .step hst hrun, hu, hgoal, ?_⟩
      rw [List.length_cons]
      omega

/-! Runs of a relation whose different steps commute. -/

section Commuting

/-- Nothing steps from a stopped state. -/
def Stopped (Step : σ → α → σ → Prop) (s : σ) : Prop := ∀ a t, ¬ Step s a t

/-- A label has at most one result, and two labels can be taken in either order. -/
structure Commuting (Step : σ → α → σ → Prop) : Prop where
  unique : ∀ {s a t u}, Step s a t → Step s a u → t = u
  swap : ∀ {s a b t u}, a ≠ b → Step s a t → Step s b u → ∃ v, Step t b v ∧ Step u a v

/-- A step taken early leaves one step less to the same stopped state. -/
theorem Commuting.run_after_step (hc : Commuting Step) {b : α} (h : Run Step s as t)
    (ht : Stopped Step t) (hb : Step s b u) : ∃ cs, Run Step u cs t ∧ as.length = cs.length + 1 := by
  induction h generalizing u with
  | refl s => exact (ht b u hb).elim
  | @step s v w a as hst hrest ih =>
    by_cases hab : a = b
    · subst hab
      obtain rfl := hc.unique hst hb
      exact ⟨as, hrest, rfl⟩
    · obtain ⟨x, hvx, hux⟩ := hc.swap hab hst hb
      obtain ⟨cs, hcs, hl⟩ := ih ht hvx
      exact ⟨a :: cs, .step hux hcs, by simp [hl]⟩

/-- Every run is the beginning of one that ends where a given stopped run ends. -/
theorem Commuting.run_extends (hc : Commuting Step) (h : Run Step s as t) (ht : Stopped Step t)
    (hb : Run Step s bs u) : ∃ cs, Run Step u cs t ∧ as.length = bs.length + cs.length := by
  induction hb generalizing as with
  | refl => exact ⟨as, h, by simp⟩
  | step hst _ ih =>
    obtain ⟨cs, hcs, hl⟩ := hc.run_after_step h ht hst
    obtain ⟨ds, hds, hl'⟩ := ih hcs
    exact ⟨ds, hds, by simp only [List.length_cons]; omega⟩

end Commuting

/-! Two runs seen by one observer. -/

section Unwinding

variable {ω : Type} {view : σ → ω} {own : α → Bool} {I : σ → Prop} {s' t' : σ} {as' : List α}

/-- The observer sees no step but its own, and what it sees of those depends on what it saw. -/
structure Unwinding (Step : σ → α → σ → Prop) (I : σ → Prop) (view : σ → ω) (own : α → Bool) :
    Prop where
  stable : Stable Step I
  other : ∀ {s a t}, I s → own a = false → Step s a t → view t = view s
  own : ∀ {s s' a t t'}, I s → I s' → own a = true → view s = view s' →
    Step s a t → Step s' a t' → view t = view t'

theorem Unwinding.view_of_no_own (hu : Unwinding Step I view own) (h : Run Step s as t) (hs : I s)
    (hown : as.filter own = []) : view t = view s := by
  induction h with
  | refl => rfl
  | @step s u t a as hst _ ih =>
    have ha : own a = false := by
      cases ha : own a with
      | false => rfl
      | true => simp [ha] at hown
    rw [ih (hu.stable _ _ _ hst hs) (by simpa [ha] using hown), hu.other hs ha hst]

/-- A run up to its first own step. -/
theorem Unwinding.split (hu : Unwinding Step I view own) {a : α} {bs : List α}
    (h : Run Step s as t) (hs : I s) (hown : as.filter own = a :: bs) :
    ∃ u v cs, I u ∧ view u = view s ∧ Step u a v ∧ Run Step v cs t ∧ cs.filter own = bs := by
  induction h with
  | refl => simp at hown
  | @step s u t b as hst hrest ih =>
    cases hb : own b with
    | true =>
      simp only [List.filter_cons, hb, if_true, List.cons.injEq] at hown
      obtain ⟨rfl, hbs⟩ := hown
      exact ⟨s, u, as, hs, rfl, hst, hrest, hbs⟩
    | false =>
      obtain ⟨v, w, cs, hv, hview, hstep, hrun, hcs⟩ :=
        ih (hu.stable _ _ _ hst hs) (by simpa [hb] using hown)
      exact ⟨v, w, cs, hv, hview.trans (hu.other hs hb hst), hstep, hrun, hcs⟩

/-- Runs with the same own steps look the same to the observer. -/
theorem Unwinding.noninterference (hu : Unwinding Step I view own) (h : Run Step s as t)
    (h' : Run Step s' as' t') (hs : I s) (hs' : I s') (hview : view s = view s')
    (hown : as.filter own = as'.filter own) : view t = view t' := by
  induction h generalizing s' as' with
  | refl => rw [hview, hu.view_of_no_own h' hs' hown.symm]
  | @step s u t a as hst _ ih =>
    cases ha : own a with
    | false =>
      exact ih h' (hu.stable _ _ _ hst hs) hs' ((hu.other hs ha hst).trans hview)
        (by simpa [ha] using hown)
    | true =>
      have hfirst : as'.filter own = a :: as.filter own := by
        rw [← hown]
        simp [ha]
      obtain ⟨v, w, cs, hv, hvs, hstep, hrun, hcs⟩ := hu.split h' hs' hfirst
      exact ih hrun (hu.stable _ _ _ hst hs) (hu.stable _ _ _ hstep hv)
        (hu.own hs hv ha (hview.trans hvs.symm) hst hstep) hcs.symm

end Unwinding

/-! Runs of a step function. -/

section Deterministic

variable {f : σ → α → σ} {P Q : σ → α → Prop}

/-- The state after a list of inputs. -/
def after (f : σ → α → σ) (s : σ) (as : List α) : σ := as.foldl f s

@[simp] theorem after_nil (s : σ) : after f s [] = s := rfl
@[simp] theorem after_cons (s : σ) (a : α) (as : List α) :
    after f s (a :: as) = after f (f s a) as := rfl

theorem after_append (s : σ) (as bs : List α) :
    after f s (as ++ bs) = after f (after f s as) bs := List.foldl_append

/-- `P` holds of every input in the state it meets. -/
def Along (f : σ → α → σ) (P : σ → α → Prop) : σ → List α → Prop
  | _, [] => True
  | s, a :: as => P s a ∧ Along f P (f s a) as

theorem along_append {s : σ} {as bs : List α} :
    Along f P s (as ++ bs) ↔ Along f P s as ∧ Along f P (after f s as) bs := by
  induction as generalizing s with
  | nil => simp [Along]
  | cons a as ih => simp [Along, ih, and_assoc]

theorem Along.imp {s : σ} {as : List α} (h : Along f P s as) (hpq : ∀ s a, P s a → Q s a) :
    Along f Q s as := by
  induction as generalizing s with
  | nil => trivial
  | cons a as ih => exact ⟨hpq _ _ h.1, ih h.2⟩

/-- Conditions that agree under an invariant. -/
theorem along_congr {J : σ → Prop} {s : σ} {as : List α} (hpq : ∀ s a, J s → (P s a ↔ Q s a))
    (hJ : ∀ s a, J s → J (f s a)) (hs : J s) : Along f P s as ↔ Along f Q s as := by
  induction as generalizing s with
  | nil => exact Iff.rfl
  | cons a as ih => exact and_congr (hpq s a hs) (ih (hJ s a hs))

/-- Inputs that keep an invariant step by step keep it over the whole list. -/
theorem Along.invariant {I : σ → Prop} {s : σ} {as : List α} (h : Along f P s as)
    (hI : ∀ s a, P s a → I s → I (f s a)) (hs : I s) : I (after f s as) := by
  induction as generalizing s with
  | nil => exact hs
  | cons a as ih => exact ih h.2 (hI _ _ h.1 hs)

/-- Where `P` says of each input whether it keeps `I`, it holds along the inputs exactly if `I` holds
at every point; `J` may be used on the way. -/
theorem along_iff_prefixes {I J : σ → Prop} {s : σ} {as : List α}
    (hstep : ∀ s a, J s → I s → (I (f s a) ↔ P s a)) (hJ : ∀ s a, J s → J (f s a)) (hj : J s) (hs : I s) :
    (∀ bs, bs <+: as → I (after f s bs)) ↔ Along f P s as := by
  induction as generalizing s with
  | nil =>
    constructor
    · exact fun _ => trivial
    · intro _ bs hbs
      rwa [List.prefix_nil.mp hbs]
  | cons a as ih =>
    constructor
    · intro h
      have hnext : I (f s a) := h [a] (List.prefix_append [a] as)
      refine ⟨(hstep s a hj hs).mp hnext, (ih (hJ s a hj) hnext).mp fun bs hbs => ?_⟩
      exact h (a :: bs) ((List.prefix_cons_inj a).mpr hbs)
    · rintro ⟨ha, has⟩ bs hbs
      have hnext : I (f s a) := (hstep s a hj hs).mpr ha
      cases bs with
      | nil => exact hs
      | cons b bs =>
        obtain ⟨rfl, htail⟩ := List.cons_prefix_cons.mp hbs
        exact (ih (hJ s b hj) hnext).mpr has bs htail

/-- Facts that every step of a run keeps are the facts that last from each of its points on. -/
theorem along_keeps_iff {ι : Type} {K : ι → σ → Prop} {s : σ} {as : List α} :
    Along f (fun s a => ∀ i, K i s → K i (f s a)) s as ↔
      ∀ bs cs ds, as = bs ++ cs ++ ds → ∀ i, K i (after f s bs) → K i (after f s (bs ++ cs)) := by
  constructor
  · rintro h bs cs ds rfl i hi
    rw [after_append]
    exact (along_append.mp (along_append.mp h).1).2.invariant (fun _ _ hk => hk i) hi
  · intro h
    induction as generalizing s with
    | nil => trivial
    | cons a as ih =>
      refine ⟨fun i hi => h [] [a] as rfl i hi, ih ?_⟩
      rintro bs cs ds rfl i hi
      exact h (a :: bs) cs ds rfl i hi

end Deterministic

end Runs

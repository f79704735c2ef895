import Mathlib.Data.List.Basic

/-! Programs over an interface of effects: a program is the tree of the calls it makes, with one
branch for each reply. Handlers give the effects their meaning. -/
namespace Effects

/-- A program that calls effects `E`, raises `ε` and returns `α`. -/
inductive Prog (E : Type) (R : E → Type) (ε α : Type) : Type where
  | ret (a : α) : Prog E R ε α
  | raise (e : ε) : Prog E R ε α
  | call (e : E) (k : R e → Prog E R ε α) : Prog E R ε α

namespace Prog

variable {E : Type} {R : E → Type} {ε ε' α β σ : Type}

def bind : Prog E R ε α → (α → Prog E R ε β) → Prog E R ε β
  | ret a, f => f a
  | raise e, _ => raise e
  | call e k, f => call e fun r => (k r).bind f

instance : Monad (Prog E R ε) where
  pure := ret
  bind := bind

@[simp] theorem pure_eq (a : α) : (pure a : Prog E R ε α) = ret a := rfl
@[simp] theorem ret_bind (a : α) (f : α → Prog E R ε β) : (ret a >>= f) = f a := rfl
@[simp] theorem raise_bind (e : ε) (f : α → Prog E R ε β) :
    (raise e >>= f) = (raise e : Prog E R ε β) := rfl
@[simp] theorem call_bind (e : E) (k : R e → Prog E R ε α) (f : α → Prog E R ε β) :
    (call e k >>= f) = call e fun r => k r >>= f := rfl

theorem bind_bind {γ : Type} (p : Prog E R ε α) (f : α → Prog E R ε β) (g : β → Prog E R ε γ) :
    ((p >>= f) >>= g) = p >>= fun a => f a >>= g := by
  induction p with
  | ret a => rfl
  | raise e => rfl
  | call e k ih => exact congrArg (call e) (funext ih)

/-- One effect, its reply returned. -/
def perform (e : E) : Prog E R ε (R e) := call e ret

@[simp] theorem perform_bind (e : E) (f : R e → Prog E R ε β) :
    ((perform e : Prog E R ε (R e)) >>= f) = call e f := rfl

/-- The value of a fallible computation, or its error raised. -/
def ofExcept : Except ε α → Prog E R ε α
  | .ok a => ret a
  | .error e => raise e

@[simp] theorem ofExcept_ok (a : α) : (ofExcept (.ok a) : Prog E R ε α) = ret a := rfl
@[simp] theorem ofExcept_error (e : ε) :
    (ofExcept (.error e : Except ε α) : Prog E R ε α) = raise e := rfl

/-- `try p except h`: the handler runs where `p` raises. -/
def handle : Prog E R ε α → (ε → Prog E R ε' α) → Prog E R ε' α
  | ret a, _ => ret a
  | raise e, h => h e
  | call e k, h => call e fun r => (k r).handle h

@[simp] theorem handle_ret (a : α) (h : ε → Prog E R ε' α) : (ret a).handle h = ret a := rfl
@[simp] theorem handle_raise (e : ε) (h : ε → Prog E R ε' α) : (raise e).handle h = h e := rfl
@[simp] theorem handle_call (e : E) (k : R e → Prog E R ε α) (h : ε → Prog E R ε' α) :
    (call e k).handle h = call e fun r => (k r).handle h := rfl

/-- Run to the end, each effect answered by the handler. -/
def run (H : (e : E) → σ → R e × σ) : Prog E R ε α → σ → Except ε α × σ
  | ret a, s => (.ok a, s)
  | raise e, s => (.error e, s)
  | call e k, s => (k (H e s).1).run H (H e s).2

variable {H : (e : E) → σ → R e × σ}

@[simp] theorem run_ret (a : α) (s : σ) : (ret a : Prog E R ε α).run H s = (.ok a, s) := rfl
@[simp] theorem run_raise (e : ε) (s : σ) :
    (raise e : Prog E R ε α).run H s = (.error e, s) := rfl
@[simp] theorem run_call (e : E) (k : R e → Prog E R ε α) (s : σ) :
    (call e k).run H s = (k (H e s).1).run H (H e s).2 := rfl

/-- A sequence runs its first part, then the rest from the state that leaves. -/
theorem run_bind (p : Prog E R ε α) (f : α → Prog E R ε β) (s : σ) :
    (p >>= f).run H s = match p.run H s with
      | (.ok a, t) => (f a).run H t
      | (.error e, t) => (.error e, t) := by
  induction p generalizing s with
  | ret a => rfl
  | raise e => rfl
  | call e k ih => simpa using ih (H e s).1 (H e s).2

/-- The first part returns. -/
theorem run_bind_ok {p : Prog E R ε α} {f : α → Prog E R ε β} {s t : σ} {a : α}
    (h : p.run H s = (.ok a, t)) : (p >>= f).run H s = (f a).run H t := by
  rw [run_bind, h]

/-- The first part raises. -/
theorem run_bind_error {p : Prog E R ε α} {f : α → Prog E R ε β} {s t : σ} {e : ε}
    (h : p.run H s = (.error e, t)) : (p >>= f).run H s = (.error e, t) := by
  rw [run_bind, h]

/-- A value that is thrown away. -/
theorem run_discard (p : Prog E R ε α) (s : σ) :
    ((p >>= fun _ => pure () : Prog E R ε Unit).run H s).2 = (p.run H s).2 := by
  rw [run_bind]
  rcases p.run H s with ⟨_ | _, t⟩ <;> rfl

theorem run_handle (p : Prog E R ε α) (h : ε → Prog E R ε' α) (s : σ) :
    (p.handle h).run H s = match p.run H s with
      | (.ok a, t) => (.ok a, t)
      | (.error e, t) => (h e).run H t := by
  induction p generalizing s with
  | ret a => rfl
  | raise e => rfl
  | call e k ih => simpa using ih (H e s).1 (H e s).2

/-! What is seen along a run. -/

section Recording

variable {ω : Type} {obs : (e : E) → σ → Option ω}

/-- The handler with a record of what each effect is seen to do, newest first. -/
def recording (H : (e : E) → σ → R e × σ) (obs : (e : E) → σ → Option ω) :
    (e : E) → σ × List ω → R e × (σ × List ω) :=
  fun e s => ((H e s.1).1, (H e s.1).2, (obs e s.1).toList ++ s.2)

@[simp] theorem recording_apply (e : E) (s : σ) (ds : List ω) :
    recording H obs e (s, ds) = ((H e s).1, (H e s).2, (obs e s).toList ++ ds) := rfl

/-- A record changes nothing. -/
theorem run_recording (p : Prog E R ε α) (s : σ) (ds : List ω) :
    ((p.run (recording H obs) (s, ds)).1, (p.run (recording H obs) (s, ds)).2.1) = p.run H s := by
  induction p generalizing s ds with
  | ret a => rfl
  | raise e => rfl
  | call e k ih => exact ih _ _ _

end Recording

/-! The calls a program can make. -/

/-- Every call on every path satisfies `P`. -/
def AllCalls (P : E → Prop) : Prog E R ε α → Prop
  | ret _ => True
  | raise _ => True
  | call e k => P e ∧ ∀ r, (k r).AllCalls P

/-- Some path makes the call. -/
inductive MayCall (e : E) : Prog E R ε α → Prop
  | now (k : R e → Prog E R ε α) : MayCall e (call e k)
  | later {d : E} {k : R d → Prog E R ε α} (r : R d) : MayCall e (k r) → MayCall e (call d k)

variable {P Q : E → Prop} {p : Prog E R ε α}

@[simp] theorem allCalls_ret (a : α) : (ret a : Prog E R ε α).AllCalls P := trivial
@[simp] theorem allCalls_raise (e : ε) : (raise e : Prog E R ε α).AllCalls P := trivial
@[simp] theorem allCalls_call (e : E) (k : R e → Prog E R ε α) :
    (call e k).AllCalls P ↔ P e ∧ ∀ r, (k r).AllCalls P := Iff.rfl

@[simp] theorem allCalls_ofExcept (x : Except ε α) : (ofExcept x : Prog E R ε α).AllCalls P := by
  cases x <;> trivial

theorem AllCalls.bind {f : α → Prog E R ε β} (hp : p.AllCalls P) (hf : ∀ a, (f a).AllCalls P) :
    (p >>= f).AllCalls P := by
  induction p with
  | ret a => exact hf a
  | raise e => trivial
  | call e k ih => exact ⟨hp.1, fun r => ih r (hp.2 r)⟩

theorem AllCalls.handle {h : ε → Prog E R ε' α} (hp : p.AllCalls P) (hh : ∀ e, (h e).AllCalls P) :
    (p.handle h).AllCalls P := by
  induction p with
  | ret a => trivial
  | raise e => exact hh e
  | call e k ih => exact ⟨hp.1, fun r => ih r (hp.2 r)⟩

theorem AllCalls.mono (hp : p.AllCalls P) (hpq : ∀ e, P e → Q e) : p.AllCalls Q := by
  induction p with
  | ret a => trivial
  | raise e => trivial
  | call e k ih => exact ⟨hpq e hp.1, fun r => ih r (hp.2 r)⟩

theorem AllCalls.mayCall {e : E} (hp : p.AllCalls P) (h : p.MayCall e) : P e := by
  induction h with
  | now k => exact hp.1
  | later r _ ih => exact ih (hp.2 r)

/-- A relation that the calls of a program keep holds between the ends of its run. -/
theorem AllCalls.run_related {r : σ → σ → Prop} (hp : p.AllCalls P) (hrefl : ∀ s, r s s)
    (htrans : ∀ {s t u}, r s t → r t u → r s u) (hP : ∀ e s, P e → r s (H e s).2) (s : σ) :
    r s (p.run H s).2 := by
  induction p generalizing s with
  | ret a => exact hrefl s
  | raise e => exact hrefl s
  | call e k ih => exact htrans (hP e s hp.1) (ih _ (hp.2 _) _)

/-! Effects that fail. -/

/-- The program where some effects raise instead of being carried out. -/
def failing (F : E → Option ε) : Prog E R ε α → Prog E R ε α
  | ret a => ret a
  | raise e => raise e
  | call e k =>
    match F e with
    | some x => raise x
    | none => call e fun r => (k r).failing F

theorem failing_bind (F : E → Option ε) (p : Prog E R ε α) (f : α → Prog E R ε β) :
    (p >>= f).failing F = p.failing F >>= fun a => (f a).failing F := by
  induction p with
  | ret a => rfl
  | raise e => rfl
  | call e k ih =>
    simp only [call_bind, failing]
    cases F e with
    | none => exact congrArg (call e) (funext ih)
    | some x => rfl

/-- A program that makes none of the calls that fail is unchanged. -/
theorem failing_of_allCalls {F : E → Option ε} {p : Prog E R ε α}
    (h : p.AllCalls fun e => F e = none) : p.failing F = p := by
  induction p with
  | ret a => rfl
  | raise e => rfl
  | call e k ih =>
    simp only [failing, h.1]
    exact congrArg (call e) (funext fun r => ih r (h.2 r))

/-! Programs over a larger interface. -/

section Embedding

variable {E' : Type} {R' : E' → Type} {g : E → E'} {back : (e : E) → R' (g e) → R e}

/-- The program with its calls made through another interface. -/
def embed (g : E → E') (back : (e : E) → R' (g e) → R e) : Prog E R ε α → Prog E' R' ε α
  | ret a => ret a
  | raise e => raise e
  | call e k => call (g e) fun r => (k (back e r)).embed g back

/-- Where the larger handler does the same behind `put`, so does the run. -/
theorem run_embed {τ : Type} {H : (e : E) → σ → R e × σ} {H' : (e : E') → τ → R' e × τ} (put : σ → τ)
    (h : ∀ e s, back e (H' (g e) (put s)).1 = (H e s).1 ∧ (H' (g e) (put s)).2 = put (H e s).2)
    (p : Prog E R ε α) (s : σ) :
    (p.embed g back).run H' (put s) = ((p.run H s).1, put (p.run H s).2) := by
  induction p generalizing s with
  | ret a => rfl
  | raise e => rfl
  | call e k ih =>
    obtain ⟨hreply, hstate⟩ := h e s
    have hk := ih (H e s).1 (H e s).2
    rw [embed, run_call, run_call, hreply, hstate, hk]

theorem AllCalls.embed {P : E' → Prop} {p : Prog E R ε α} (hp : p.AllCalls fun e => P (g e)) :
    (p.embed g back).AllCalls P := by
  induction p with
  | ret a => trivial
  | raise e => trivial
  | call e k ih => exact ⟨hp.1, fun r => ih _ (hp.2 _)⟩

end Embedding

/-! Pre- and postconditions. -/

/-- From a state in `P` the program returns in `A` or raises in `X`. -/
def Triple (H : (e : E) → σ → R e × σ) (P : σ → Prop) (p : Prog E R ε α) (A : α → σ → Prop)
    (X : ε → σ → Prop) : Prop :=
  ∀ s, P s →
    match p.run H s with
    | (.ok a, t) => A a t
    | (.error e, t) => X e t

section Triple

variable {I J : σ → Prop} {A : α → σ → Prop} {B : β → σ → Prop} {X : ε → σ → Prop}
  {Y : ε' → σ → Prop}

theorem Triple.ret {a : α} (h : ∀ s, I s → A a s) : Triple H I (.ret a) A X := h

theorem Triple.raise {e : ε} (h : ∀ s, I s → X e s) : Triple H I (.raise e) A X := h

theorem Triple.call {e : E} {k : R e → Prog E R ε α} {B : R e → σ → Prop}
    (he : ∀ s, I s → B (H e s).1 (H e s).2) (hk : ∀ r, Triple H (B r) (k r) A X) :
    Triple H I (.call e k) A X :=
  fun s hs => hk _ _ (he s hs)

theorem Triple.bind {f : α → Prog E R ε β} (hp : Triple H I p A X)
    (hf : ∀ a, Triple H (A a) (f a) B X) : Triple H I (p >>= f) B X := by
  intro s hs
  have h := hp s hs
  rw [run_bind]
  cases hr : p.run H s with
  | mk x t =>
    cases x with
    | ok a =>
      simp only [hr] at h
      exact hf a t h
    | error e => simpa only [hr] using h

theorem Triple.handle {h : ε → Prog E R ε' α} (hp : Triple H I p A X)
    (hh : ∀ e, Triple H (X e) (h e) A Y) : Triple H I (p.handle h) A Y := by
  intro s hs
  have h' := hp s hs
  rw [run_handle]
  cases hr : p.run H s with
  | mk x t =>
    cases x with
    | ok a => simpa only [hr] using h'
    | error e =>
      simp only [hr] at h'
      exact hh e t h'

theorem Triple.imp {A' : α → σ → Prop} {X' : ε → σ → Prop} (hp : Triple H I p A X)
    (hI : ∀ s, J s → I s) (hA : ∀ a s, A a s → A' a s) (hX : ∀ e s, X e s → X' e s) :
    Triple H J p A' X' := by
  intro s hs
  have h := hp s (hI s hs)
  cases hr : p.run H s with
  | mk x t =>
    cases x with
    | ok a =>
      simp only [hr] at h ⊢
      exact hA a t h
    | error e =>
      simp only [hr] at h ⊢
      exact hX e t h

/-- An assertion that every call of a program keeps holds when it ends. -/
theorem AllCalls.triple (hp : p.AllCalls P) (hP : ∀ e s, P e → I s → I (H e s).2) :
    Triple H I p (fun _ => I) (fun _ => I) := by
  induction p with
  | ret a => exact .ret fun s hs => hs
  | raise e => exact .raise fun s hs => hs
  | call e k ih => exact .call (fun s hs => hP e s hp.1 hs) fun r => ih r (hp.2 r)

end Triple

/-- What every effect keeps, every program keeps. -/
theorem run_invariant {I : σ → Prop} (hI : ∀ e s, I s → I (H e s).2) (p : Prog E R ε α) {s : σ}
    (hs : I s) : I (p.run H s).2 := by
  induction p generalizing s with
  | ret a => exact hs
  | raise e => exact hs
  | call e k ih => exact ih _ (hI e s hs)

end Prog

end Effects

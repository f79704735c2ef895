import SshPanelVpn.Library.Effects

/-! Two programs on one state, their calls in any order. Each reads a cell of the state and later saves
there what it has made of it; in between the other may have saved too. -/
namespace Effects.Prog

variable {E : Type} {R : E → Type} {ε ε' α β σ ρ : Type}

def Ended : Prog E R ε α → Prop
  | ret _ => True
  | raise _ => True
  | call _ _ => False

/-- Both programs run to their ends, the calls of the two in some order. -/
inductive Interleaved (H K : (e : E) → σ → R e × σ) :
    Prog E R ε α → Prog E R ε β → σ → σ → Prop where
  | ended {p : Prog E R ε α} {q : Prog E R ε β} {s : σ} :
      p.Ended → q.Ended → Interleaved H K p q s s
  | left {e : E} {k : R e → Prog E R ε α} {q : Prog E R ε β} {s t : σ} :
      Interleaved H K (k (H e s).1) q (H e s).2 t → Interleaved H K (call e k) q s t
  | right {p : Prog E R ε α} {e : E} {k : R e → Prog E R ε β} {s t : σ} :
      Interleaved H K p (k (K e s).1) (K e s).2 t → Interleaved H K p (call e k) s t

theorem Interleaved.symm {H K : (e : E) → σ → R e × σ} {p : Prog E R ε α} {q : Prog E R ε β}
    {s t : σ} (h : Interleaved H K p q s t) : Interleaved K H q p s t := by
  induction h with
  | ended hp hq => exact .ended hq hp
  | left _ ih => exact .right ih
  | right _ ih => exact .left ih

/-! Programs with one save. -/

section Cell

variable (H : (e : E) → σ → R e × σ) (I : σ → Prop) (cell : σ → ρ)

/-- All that the program still does to the cell is to apply `w` once, at one of its calls. -/
def Saves : Prog E R ε α → (ρ → ρ) → Prop
  | ret _, w => w = id
  | raise _, w => w = id
  | call e k, w =>
    (∀ s, I s → cell (H e s).2 = cell s ∧ (k (H e s).1).Saves w) ∨
      ∀ s, I s → cell (H e s).2 = w (cell s) ∧ (k (H e s).1).Saves id

/-- The program reads the cell, at the last time `c`, and then saves with `f c`. -/
def Reads : Prog E R ε α → (ρ → ρ → ρ) → Prop
  | ret _, f => ∀ s, I s → f (cell s) = id
  | raise _, f => ∀ s, I s → f (cell s) = id
  | call e k, f => ∀ s, I s → cell (H e s).2 = cell s ∧
      ((k (H e s).1).Reads f ∨ (k (H e s).1).Saves H I cell (f (cell s)))

variable {H I cell} {p : Prog E R ε α} {w : ρ → ρ} {f : ρ → ρ → ρ} {s t : σ}

theorem Saves.of_ended (h : p.Saves H I cell w) (hp : p.Ended) : w = id := by
  cases p with
  | ret a => exact h
  | raise e => exact h
  | call e k => exact hp.elim

theorem Reads.of_ended (h : p.Reads H I cell f) (hp : p.Ended) (hs : I s) : f (cell s) = id := by
  cases p with
  | ret a => exact h s hs
  | raise e => exact h s hs
  | call e k => exact hp.elim

/-- A program that saves nothing has nothing to read. -/
theorem Saves.reads (h : p.Saves H I cell id) (hf : ∀ s, I s → f (cell s) = id) :
    p.Reads H I cell f := by
  cases p with
  | ret a => exact hf
  | raise e => exact hf
  | call e k =>
    intro s hs
    rw [hf s hs]
    rcases h with h | h
    · exact ⟨(h s hs).1, .inr (h s hs).2⟩
    · exact ⟨(h s hs).1, .inr (h s hs).2⟩

/-- Calls that leave the cell alone. -/
theorem saves_id (h : p.AllCalls fun e => ∀ s, I s → cell (H e s).2 = cell s) :
    p.Saves H I cell id := by
  induction p with
  | ret a => rfl
  | raise e => rfl
  | call e k ih => exact .inl fun s hs => ⟨h.1 s hs, ih _ (h.2 _)⟩

theorem Saves.bind {g : α → Prog E R ε β} (h : p.Saves H I cell w)
    (hg : ∀ a, (g a).Saves H I cell id) : (p >>= g).Saves H I cell w := by
  induction p generalizing w with
  | ret a =>
    obtain rfl : w = id := h
    exact hg a
  | raise e => exact h
  | call e k ih =>
    rcases h with h | h
    · exact .inl fun s hs => ⟨(h s hs).1, ih _ (h s hs).2⟩
    · exact .inr fun s hs => ⟨(h s hs).1, ih _ (h s hs).2⟩

theorem Saves.handle {g : ε → Prog E R ε' α} (h : p.Saves H I cell w)
    (hg : ∀ e, (g e).Saves H I cell id) : (p.handle g).Saves H I cell w := by
  induction p generalizing w with
  | ret a => exact h
  | raise e =>
    obtain rfl : w = id := h
    exact hg e
  | call e k ih =>
    rcases h with h | h
    · exact .inl fun s hs => ⟨(h s hs).1, ih _ (h s hs).2⟩
    · exact .inr fun s hs => ⟨(h s hs).1, ih _ (h s hs).2⟩

theorem Reads.bind {g : α → Prog E R ε β} (h : p.Reads H I cell f)
    (hg : ∀ a, (g a).Saves H I cell id) : (p >>= g).Reads H I cell f := by
  induction p with
  | ret a => exact (hg a).reads h
  | raise e => exact h
  | call e k ih =>
    intro s hs
    obtain ⟨hcell, h⟩ := h s hs
    refine ⟨hcell, ?_⟩
    rcases h with h | h
    · exact .inl (ih _ h)
    · exact .inr (h.bind hg)

theorem Reads.handle {g : ε → Prog E R ε' α} (h : p.Reads H I cell f)
    (hg : ∀ e, (g e).Saves H I cell id) : (p.handle g).Reads H I cell f := by
  induction p with
  | ret a => exact h
  | raise e => exact (hg e).reads h
  | call e k ih =>
    intro s hs
    obtain ⟨hcell, h⟩ := h s hs
    refine ⟨hcell, ?_⟩
    rcases h with h | h
    · exact .inl (ih _ h)
    · exact .inr (h.handle hg)

end Cell

/-! Parts of a program that the state does not enter. -/

section Answered

/-- What a program returns or raises when each call gets its answer. -/
def value (answer : (e : E) → R e) : Prog E R ε α → Except ε α
  | ret a => .ok a
  | raise e => .error e
  | call e k => (k (answer e)).value answer

variable {answer : (e : E) → R e} {H : (e : E) → σ → R e × σ} {I : σ → Prop} {cell : σ → ρ}
  {p : Prog E R ε α} {g : α → Prog E R ε β} {w : ρ → ρ} {f : ρ → ρ → ρ}

@[simp] theorem value_ret (a : α) : (ret a : Prog E R ε α).value answer = .ok a := rfl
@[simp] theorem value_raise (e : ε) : (raise e : Prog E R ε α).value answer = .error e := rfl
@[simp] theorem value_call (e : E) (k : R e → Prog E R ε α) :
    (call e k).value answer = (k (answer e)).value answer := rfl

theorem value_bind_error {e : ε} (h : p.value answer = .error e) :
    (p >>= g).value answer = .error e := by
  induction p with
  | ret a => cases h
  | raise e' =>
    cases h
    rfl
  | call e' k ih => exact ih _ h

theorem value_bind_ok {a : α} (h : p.value answer = .ok a) :
    (p >>= g).value answer = (g a).value answer := by
  induction p with
  | ret a' =>
    cases h
    rfl
  | raise e => cases h
  | call e k ih => exact ih _ h

/-- An exception is not what a handler that returns leaves. -/
theorem value_handle {h : ε → Prog E R ε' α} (hh : ∀ e, ∃ a, (h e).value answer = .ok a) :
    ∃ a, (p.handle h).value answer = .ok a := by
  induction p with
  | ret a => exact ⟨a, rfl⟩
  | raise e => exact hh e
  | call e k ih => exact ih _

/-- In every state the call is answered so, and changes nothing. -/
def Fixed (answer : (e : E) → R e) (H : (e : E) → σ → R e × σ) (I : σ → Prop) (e : E) : Prop :=
  ∀ s, I s → H e s = (answer e, s)

/-- With these answers the program makes no other calls. -/
def Steady (answer : (e : E) → R e) (H : (e : E) → σ → R e × σ) (I : σ → Prop) :
    Prog E R ε α → Prop
  | ret _ => True
  | raise _ => True
  | call e k => Fixed answer H I e ∧ (k (answer e)).Steady answer H I

theorem AllCalls.steady (h : p.AllCalls (Fixed answer H I)) : p.Steady answer H I := by
  induction p with
  | ret a => trivial
  | raise e => trivial
  | call e k ih => exact ⟨h.1, ih _ (h.2 _)⟩

theorem Steady.bind (h : p.Steady answer H I)
    (hg : ∀ a, p.value answer = .ok a → (g a).Steady answer H I) :
    (p >>= g).Steady answer H I := by
  induction p with
  | ret a => exact hg a rfl
  | raise e => trivial
  | call e k ih => exact ⟨h.1, ih _ h.2 hg⟩

theorem Steady.handle {h : ε → Prog E R ε' α} (hp : p.Steady answer H I)
    (hh : ∀ e, (h e).Steady answer H I) : (p.handle h).Steady answer H I := by
  induction p with
  | ret a => trivial
  | raise e => exact hh e
  | call e k ih => exact ⟨hp.1, ih _ hp.2⟩

theorem Steady.saves (h : p.Steady answer H I) : p.Saves H I cell id := by
  induction p with
  | ret a => rfl
  | raise e => rfl
  | call e k ih =>
    refine .inl fun s hs => ?_
    simp only [h.1 s hs]
    exact ⟨trivial, ih _ h.2⟩

/-- After a part without the state, what follows it saves. -/
theorem Steady.bind_saves (h : p.Steady answer H I)
    (hok : ∀ a, p.value answer = .ok a → (g a).Saves H I cell w)
    (herror : ∀ e, p.value answer = .error e → w = id) : (p >>= g).Saves H I cell w := by
  induction p with
  | ret a => exact hok a rfl
  | raise e => exact herror e rfl
  | call e k ih =>
    refine .inl fun s hs => ?_
    simp only [h.1 s hs]
    exact ⟨trivial, ih _ h.2 hok herror⟩

theorem Steady.bind_reads (h : p.Steady answer H I)
    (hok : ∀ a, p.value answer = .ok a → (g a).Reads H I cell f)
    (herror : ∀ e, p.value answer = .error e → ∀ s, I s → f (cell s) = id) :
    (p >>= g).Reads H I cell f := by
  induction p with
  | ret a => exact hok a rfl
  | raise e => exact herror e rfl
  | call e k ih =>
    intro s hs
    simp only [h.1 s hs]
    exact ⟨trivial, .inl (ih _ h.2 hok herror)⟩

end Answered

/-! The ends of an interleaving. -/

section Ends

variable {H K : (e : E) → σ → R e × σ} {I : σ → Prop} {cell : σ → ρ} {p : Prog E R ε α}
  {q : Prog E R ε β} {v w : ρ → ρ} {f g : ρ → ρ → ρ} {s t : σ}

theorem Saves.run (hH : ∀ e s, I s → I (H e s).2) (h : p.Saves H I cell w) (hs : I s) :
    cell (p.run H s).2 = w (cell s) := by
  induction p generalizing w s with
  | ret a =>
    obtain rfl : w = id := h
    rfl
  | raise e =>
    obtain rfl : w = id := h
    rfl
  | call e k ih =>
    have hs' := hH e s hs
    rcases h with h | h
    · rw [run_call, ih _ (h s hs).2 hs', (h s hs).1]
    · rw [run_call, ih _ (h s hs).2 hs', (h s hs).1]
      rfl

/-- Alone, a program saves what it has read. -/
theorem Reads.run (hH : ∀ e s, I s → I (H e s).2) (h : p.Reads H I cell f) (hs : I s) :
    cell (p.run H s).2 = f (cell s) (cell s) := by
  induction p generalizing s with
  | ret a => rw [h s hs, run_ret, id]
  | raise e => rw [h s hs, run_raise, id]
  | call e k ih =>
    have hs' := hH e s hs
    obtain ⟨hcell, h⟩ := h s hs
    rcases h with h | h
    · rw [run_call, ih _ h hs', hcell]
    · rw [run_call, h.run hH hs', hcell]

variable (hH : ∀ e s, I s → I (H e s).2) (hK : ∀ e s, I s → I (K e s).2)

include hH hK

theorem Interleaved.of_saves (h : Interleaved H K p q s t) (hp : p.Saves H I cell v)
    (hq : q.Saves K I cell w) (hs : I s) :
    cell t = v (w (cell s)) ∨ cell t = w (v (cell s)) := by
  induction h generalizing v w with
  | ended hep heq =>
    rw [hp.of_ended hep, hq.of_ended heq]
    exact .inl rfl
  | @left e k q s t _ ih =>
    have hs' := hH e s hs
    rcases hp with hp | hp
    · have := ih (hp s hs).2 hq hs'
      rwa [(hp s hs).1] at this
    · have := ih (hp s hs).2 hq hs'
      rw [(hp s hs).1] at this
      exact .inr (this.elim id id)
  | @right p e k s t _ ih =>
    have hs' := hK e s hs
    rcases hq with hq | hq
    · have := ih hp (hq s hs).2 hs'
      rwa [(hq s hs).1] at this
    · have := ih hp (hq s hs).2 hs'
      rw [(hq s hs).1] at this
      exact .inl (this.elim id id)

/-- One program has read, the other has not. -/
theorem Interleaved.of_saves_reads (h : Interleaved H K p q s t) (hp : p.Saves H I cell v)
    (hq : q.Reads K I cell g) (hs : I s) :
    cell t = g (v (cell s)) (v (cell s)) ∨ cell t = v (g (cell s) (cell s)) ∨
      cell t = g (cell s) (v (cell s)) := by
  induction h generalizing v with
  | ended hep heq =>
    rw [hp.of_ended hep, hq.of_ended heq hs]
    exact .inr (.inl rfl)
  | @left e k q s t _ ih =>
    have hs' := hH e s hs
    rcases hp with hp | hp
    · have := ih (hp s hs).2 hq hs'
      rwa [(hp s hs).1] at this
    · have := ih (hp s hs).2 hq hs'
      rw [(hp s hs).1] at this
      exact .inl (this.elim id fun h => h.elim id id)
  | @right p e k s t hrest ih =>
    have hs' := hK e s hs
    obtain ⟨hcell, hq⟩ := hq s hs
    rcases hq with hq | hq
    · have := ih hp hq hs'
      rwa [hcell] at this
    · have := hrest.of_saves hH hK hp hq hs'
      rw [hcell] at this
      exact .inr this

/-- The save of one comes after the read of the other, or both have read the cell as it was. -/
theorem Interleaved.of_reads (h : Interleaved H K p q s t) (hp : p.Reads H I cell f)
    (hq : q.Reads K I cell g) (hs : I s) :
    cell t = g (f (cell s) (cell s)) (f (cell s) (cell s)) ∨
      cell t = f (g (cell s) (cell s)) (g (cell s) (cell s)) ∨
      cell t = g (cell s) (f (cell s) (cell s)) ∨ cell t = f (cell s) (g (cell s) (cell s)) := by
  induction h with
  | @ended p q s hep heq =>
    have hf := hp.of_ended hep hs
    have hg := hq.of_ended heq hs
    rw [hf, hg]
    exact .inr (.inr (.inl rfl))
  | @left e k q s t hrest ih =>
    have hs' := hH e s hs
    obtain ⟨hcell, hp⟩ := hp s hs
    rcases hp with hp | hp
    · have := ih hp hq hs'
      rwa [hcell] at this
    · have := hrest.of_saves_reads hH hK hp hq hs'
      rw [hcell] at this
      rcases this with h | h | h
      · exact .inl h
      · exact .inr (.inr (.inr h))
      · exact .inr (.inr (.inl h))
  | @right p e k s t hrest ih =>
    have hs' := hK e s hs
    obtain ⟨hcell, hq⟩ := hq s hs
    rcases hq with hq | hq
    · have := ih hp hq hs'
      rwa [hcell] at this
    · have := hrest.symm.of_saves_reads hK hH hq hp hs'
      rw [hcell] at this
      rcases this with h | h | h
      · exact .inr (.inl h)
      · exact .inr (.inr (.inl h))
      · exact .inr (.inr (.inr h))

end Ends

/-! Both programs read before either saves. -/

section Schedule

variable {H K : (e : E) → σ → R e × σ} {I : σ → Prop} {cell : σ → ρ} {p : Prog E R ε α}
  {q : Prog E R ε β} {w : ρ → ρ} {f g : ρ → ρ → ρ} {s : σ}

/-- The first program can go on by itself until it has read. -/
theorem Reads.go_on (hH : ∀ e s, I s → I (H e s).2) (h : p.Reads H I cell f) (hs : I s) :
    ∃ (p' : Prog E R ε α) (s' : σ), p'.Saves H I cell (f (cell s)) ∧ I s' ∧ cell s' = cell s ∧
      ∀ (q : Prog E R ε β) (t : σ), Interleaved H K p' q s' t → Interleaved H K p q s t := by
  induction p generalizing s with
  | ret a => exact ⟨.ret a, s, h s hs, hs, rfl, fun _ _ h => h⟩
  | raise e => exact ⟨.raise e, s, h s hs, hs, rfl, fun _ _ h => h⟩
  | call e k ih =>
    have hs' := hH e s hs
    obtain ⟨hcell, h⟩ := h s hs
    rcases h with h | h
    · obtain ⟨p', s', hp', hI, hc, hgo⟩ := ih _ h hs'
      rw [hcell] at hp' hc
      exact ⟨p', s', hp', hI, hc, fun q t hqt => .left (hgo q t hqt)⟩
    · exact ⟨_, _, h, hs', hcell, fun q t hqt => .left hqt⟩

/-- The first program can go on by itself to its end. -/
theorem Saves.go_on (hH : ∀ e s, I s → I (H e s).2) (h : p.Saves H I cell w) (hs : I s) :
    ∃ (p' : Prog E R ε α) (s' : σ), p'.Ended ∧ I s' ∧ cell s' = w (cell s) ∧
      ∀ (q : Prog E R ε β) (t : σ), Interleaved H K p' q s' t → Interleaved H K p q s t := by
  induction p generalizing w s with
  | ret a =>
    obtain rfl : w = id := h
    exact ⟨.ret a, s, trivial, hs, rfl, fun _ _ h => h⟩
  | raise e =>
    obtain rfl : w = id := h
    exact ⟨.raise e, s, trivial, hs, rfl, fun _ _ h => h⟩
  | call e k ih =>
    have hs' := hH e s hs
    rcases h with h | h
    · obtain ⟨p', s', hp', hI, hc, hgo⟩ := ih _ (h s hs).2 hs'
      rw [(h s hs).1] at hc
      exact ⟨p', s', hp', hI, hc, fun q t hqt => .left (hgo q t hqt)⟩
    · obtain ⟨p', s', hp', hI, hc, hgo⟩ := ih _ (h s hs).2 hs'
      rw [(h s hs).1] at hc
      exact ⟨p', s', hp', hI, hc, fun q t hqt => .left (hgo q t hqt)⟩

variable (hH : ∀ e s, I s → I (H e s).2) (hK : ∀ e s, I s → I (K e s).2)

include hH hK

/-- The second program saves over the first what it has made of the cell as it was. -/
theorem exists_interleaved (hp : p.Reads H I cell f) (hq : q.Reads K I cell g) (hs : I s) :
    ∃ t, Interleaved H K p q s t ∧ cell t = g (cell s) (f (cell s) (cell s)) := by
  obtain ⟨p₁, s₁, hp₁, hs₁, hc₁, hgo₁⟩ := hp.go_on (K := K) (β := β) hH hs
  obtain ⟨q₂, s₂, hq₂, hs₂, hc₂, hgo₂⟩ := hq.go_on (K := H) (β := α) hK hs₁
  obtain ⟨p₃, s₃, hp₃, hs₃, hc₃, hgo₃⟩ := hp₁.go_on (K := K) (β := β) hH hs₂
  obtain ⟨q₄, s₄, hq₄, hs₄, hc₄, hgo₄⟩ := hq₂.go_on (K := H) (β := α) hK hs₃
  have hsaves : Interleaved H K p₁ q₂ s₂ s₄ := hgo₃ _ _ (hgo₄ _ _ (.ended hq₄ hp₃)).symm
  have hall : Interleaved H K p q s s₄ := hgo₁ _ _ (hgo₂ _ _ hsaves.symm).symm
  refine ⟨s₄, hall, ?_⟩
  rw [hc₄, hc₃, hc₂, hc₁]

/-- The interleavings all end as one of the orders does, if the second save over the first does. -/
theorem interleaved_iff (hp : p.Reads H I cell f) (hq : q.Reads K I cell g) (hs : I s) :
    (∀ t, Interleaved H K p q s t → cell t = cell (q.run K (p.run H s).2).2 ∨
        cell t = cell (p.run H (q.run K s).2).2) ↔
      (g (cell s) (f (cell s) (cell s)) = g (f (cell s) (cell s)) (f (cell s) (cell s)) ∨
        g (cell s) (f (cell s) (cell s)) = f (g (cell s) (cell s)) (g (cell s) (cell s))) ∧
      (f (cell s) (g (cell s) (cell s)) = g (f (cell s) (cell s)) (f (cell s) (cell s)) ∨
        f (cell s) (g (cell s) (cell s)) = f (g (cell s) (cell s)) (g (cell s) (cell s))) := by
  have hfirst : cell (q.run K (p.run H s).2).2 = g (f (cell s) (cell s)) (f (cell s) (cell s)) := by
    rw [hq.run hK (run_invariant hH p hs), hp.run hH hs]
  have hsecond : cell (p.run H (q.run K s).2).2 = f (g (cell s) (cell s)) (g (cell s) (cell s)) := by
    rw [hp.run hH (run_invariant hK q hs), hq.run hK hs]
  rw [hfirst, hsecond]
  constructor
  · intro h
    obtain ⟨t, ht, hcell⟩ := exists_interleaved hH hK hp hq hs
    obtain ⟨u, hu, hcell'⟩ := exists_interleaved hK hH hq hp hs
    have h₁ := h t ht
    have h₂ := h u hu.symm
    rw [hcell] at h₁
    rw [hcell'] at h₂
    exact ⟨h₁, h₂⟩
  · rintro ⟨h₁, h₂⟩ t ht
    rcases ht.of_reads hH hK hp hq hs with h | h | h | h
    · exact .inl h
    · exact .inr h
    · rwa [h]
    · rwa [h]

end Schedule

end Effects.Prog

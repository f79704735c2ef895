import Mathlib.Logic.Function.Basic
import SshPanelVpn.Library.Mutex
import SshPanelVpn.Library.Runs
import SshPanelVpn.ShadowLink.Proxy

/-! `internal/obfuscation/traffic_shape.go`: the goroutine of the shaper, the `Client.Close` calls that
stop it, and the other writers of the session. -/
namespace SshPanelVpn.ShadowLink

open Runs Mutex

inductive Goroutine where
  | shaper
  | closer (k : Nat)
  | writer (k : Nat)
  deriving DecidableEq, Repr

/-- Where `run` stands: at its `select`, at the lock of `sendFakeFrame` or behind it, at the lock of
`WriteFrameTo` or behind it, at the deferred unlock. -/
inductive ShaperPc where
  | selecting
  | ticked
  | locked
  | waiting (call : WriteCall)
  | writing (call : WriteCall)
  | unlocking
  | returned

/-- Where a `Client.Close` stands; `stopped` is behind its `Stop`. -/
inductive ClosePc where
  | idle
  | stopping
  | locked
  | unlocking
  | stopped
  | writing
  | hangingUp
  | returned
  deriving DecidableEq, Repr

inductive WriterPc where
  | idle
  | waiting (call : WriteCall)
  | writing (call : WriteCall)

@[simp] def ShaperPc.ofDraw : Option WriteCall → ShaperPc
  | none => .unlocking
  | some call => .waiting call

def ShaperPc.holdsMu : ShaperPc → Bool
  | .locked | .waiting _ | .writing _ | .unlocking => true
  | .selecting | .ticked | .returned => false

def ShaperPc.holdsWriteMu : ShaperPc → Bool
  | .writing _ => true
  | _ => false

/-- A frame has been drawn and is still to be written. -/
def ShaperPc.drawn : ShaperPc → Bool
  | .waiting _ | .writing _ => true
  | _ => false

def ClosePc.holdsMu : ClosePc → Bool
  | .locked | .unlocking => true
  | _ => false

def ClosePc.holdsWriteMu : ClosePc → Bool
  | .writing => true
  | _ => false

/-- `Stop` has set `stopped`. -/
def ClosePc.afterStop : ClosePc → Bool
  | .idle | .stopping | .locked => false
  | .unlocking | .stopped | .writing | .hangingUp | .returned => true

def WriterPc.holdsWriteMu : WriterPc → Bool
  | .writing _ => true
  | _ => false

/-- A message on the wire, with the call that it carries out. -/
structure Written where
  goroutine : Goroutine
  call : WriteCall
  data : Octets.Bytes

/-- `closes` counts the times that `stopCh` was closed; twice is a panic. -/
structure Shaping where
  stopped : Bool
  closes : Nat
  mu : Option Goroutine
  writeMu : Option Goroutine
  run : ShaperPc
  closers : Nat → ClosePc
  writers : Nat → WriterPc
  cipher : SessionCipher
  wire : List Written
  wsClosed : Bool

/-- The padding of `DefaultTrafficShapeConfig`. -/
def defaultTrafficShapePadding : PaddingConfig := ⟨64, 512, true⟩

namespace Shaping

/-- `Connect` has started the shaper. -/
def start (cipher : SessionCipher) : Shaping :=
  ⟨false, 0, none, none, .selecting, fun _ => .idle, fun _ => .idle, cipher, [], false⟩

@[simps] def goto (s : Shaping) (pc : ShaperPc) : Shaping := { s with run := pc }

@[simps] def closer (s : Shaping) (k : Nat) (pc : ClosePc) : Shaping :=
  { s with closers := Function.update s.closers k pc }

@[simps] def writer (s : Shaping) (k : Nat) (pc : WriterPc) : Shaping :=
  { s with writers := Function.update s.writers k pc }

@[simps] def setMu (s : Shaping) (g : Option Goroutine) : Shaping := { s with mu := g }

@[simps] def setWriteMu (s : Shaping) (g : Option Goroutine) : Shaping := { s with writeMu := g }

/-- `wsConn.Close`, at the end of a `Close`. -/
@[simps] def hangUp (s : Shaping) (k : Nat) : Shaping :=
  { s with closers := Function.update s.closers k .returned, wsClosed := true }

/-- The guarded part of `Stop`. -/
def stop (s : Shaping) : Shaping :=
  if s.stopped then s else { s with stopped := true, closes := s.closes + 1 }

/-- `WriteFrameTo` under its lock. Sealing moves the counter on also where the write then fails. -/
def put (s : Shaping) (g : Goroutine) (call : WriteCall) (ok : Bool) : Shaping :=
  match call.encode s.cipher with
  | (.error _, cipher) => { s with cipher := cipher }
  | (.ok data, cipher) =>
    { s with cipher := cipher, wire := if ok then s.wire ++ [⟨g, call, data⟩] else s.wire }

end Shaping

/-- One access of one goroutine to what they share. Once `stopCh` is closed a tick may still win the
`select`. -/
inductive ShapingStep (cfg : PaddingConfig) : Shaping → Goroutine → Shaping → Prop where
  | seen {s : Shaping} (hpc : s.run = .selecting) (hclosed : 0 < s.closes) :
      ShapingStep cfg s .shaper (s.goto .returned)
  | tick {s : Shaping} (hpc : s.run = .selecting) :
      ShapingStep cfg s .shaper (s.goto .ticked)
  | lock {s : Shaping} (hpc : s.run = .ticked) (hmu : s.mu = none) :
      ShapingStep cfg s .shaper ((s.goto .locked).setMu (some .shaper))
  | skip {s : Shaping} (hpc : s.run = .locked) (hstopped : s.stopped = true) :
      ShapingStep cfg s .shaper (s.goto .unlocking)
  | draw {s : Shaping} (sizeDraw bytesDraw draw : Result Draw) (hpc : s.run = .locked)
      (hstopped : s.stopped = false) :
      ShapingStep cfg s .shaper (s.goto (.ofDraw (sendFakeFrame cfg sizeDraw bytesDraw draw)))
  | lockWrite {s : Shaping} {call : WriteCall} (hpc : s.run = .waiting call) (hmu : s.writeMu = none) :
      ShapingStep cfg s .shaper ((s.goto (.writing call)).setWriteMu (some .shaper))
  | write {s : Shaping} {call : WriteCall} {ok : Bool} (hpc : s.run = .writing call)
      (hok : ok = true → s.wsClosed = false) :
      ShapingStep cfg s .shaper (((s.put .shaper call ok).goto .unlocking).setWriteMu none)
  | unlock {s : Shaping} (hpc : s.run = .unlocking) :
      ShapingStep cfg s .shaper ((s.goto .selecting).setMu none)
  | close {s : Shaping} {k : Nat} (hpc : s.closers k = .idle) :
      ShapingStep cfg s (.closer k) (s.closer k .stopping)
  | lockStop {s : Shaping} {k : Nat} (hpc : s.closers k = .stopping) (hmu : s.mu = none) :
      ShapingStep cfg s (.closer k) ((s.closer k .locked).setMu (some (.closer k)))
  | stop {s : Shaping} {k : Nat} (hpc : s.closers k = .locked) :
      ShapingStep cfg s (.closer k) (s.stop.closer k .unlocking)
  | unlockStop {s : Shaping} {k : Nat} (hpc : s.closers k = .unlocking) :
      ShapingStep cfg s (.closer k) ((s.closer k .stopped).setMu none)
  | lockClose {s : Shaping} {k : Nat} (hpc : s.closers k = .stopped) (hmu : s.writeMu = none) :
      ShapingStep cfg s (.closer k) ((s.closer k .writing).setWriteMu (some (.closer k)))
  | writeClose {s : Shaping} {k : Nat} {draw : Result Draw} {ok : Bool}
      (hpc : s.closers k = .writing) (hok : ok = true → s.wsClosed = false) :
      ShapingStep cfg s (.closer k)
        (((s.put (.closer k) (clientCloseWrite draw) ok).closer k .hangingUp).setWriteMu none)
  | hangUp {s : Shaping} {k : Nat} (hpc : s.closers k = .hangingUp) :
      ShapingStep cfg s (.closer k) (s.hangUp k)
  | call {s : Shaping} {k : Nat} (call : WriteCall) (hpc : s.writers k = .idle) :
      ShapingStep cfg s (.writer k) (s.writer k (.waiting call))
  | lockCall {s : Shaping} {k : Nat} {call : WriteCall} (hpc : s.writers k = .waiting call)
      (hmu : s.writeMu = none) :
      ShapingStep cfg s (.writer k) ((s.writer k (.writing call)).setWriteMu (some (.writer k)))
  | writeCall {s : Shaping} {k : Nat} {call : WriteCall} {ok : Bool}
      (hpc : s.writers k = .writing call) (hok : ok = true → s.wsClosed = false) :
      ShapingStep cfg s (.writer k) (((s.put (.writer k) call ok).writer k .idle).setWriteMu none)

namespace Shaping

variable {cfg : PaddingConfig} {s t u : Shaping} {g : Goroutine} {gs hs : List Goroutine} {k : Nat}

section Put

variable (s g) (call : WriteCall) (ok : Bool)

@[simp] theorem put_stopped : (s.put g call ok).stopped = s.stopped := by
  unfold put; split <;> rfl
@[simp] theorem put_closes : (s.put g call ok).closes = s.closes := by
  unfold put; split <;> rfl
@[simp] theorem put_mu : (s.put g call ok).mu = s.mu := by
  unfold put; split <;> rfl
@[simp] theorem put_writeMu : (s.put g call ok).writeMu = s.writeMu := by
  unfold put; split <;> rfl
@[simp] theorem put_run : (s.put g call ok).run = s.run := by
  unfold put; split <;> rfl
@[simp] theorem put_closers : (s.put g call ok).closers = s.closers := by
  unfold put; split <;> rfl
@[simp] theorem put_writers : (s.put g call ok).writers = s.writers := by
  unfold put; split <;> rfl
@[simp] theorem put_wsClosed : (s.put g call ok).wsClosed = s.wsClosed := by
  unfold put; split <;> rfl

/-- At most one message, of that goroutine. -/
theorem put_wire : (s.put g call ok).wire = s.wire ∨
    ∃ data, (s.put g call ok).wire = s.wire ++ [Written.mk g call data] := by
  unfold put
  split
  · exact .inl rfl
  · next data _ _ =>
    cases ok
    · exact .inl rfl
    · exact .inr ⟨data, rfl⟩

end Put

section Stop

variable (s)

@[simp] theorem stop_stopped : s.stop.stopped = true := by
  unfold stop
  split
  · assumption
  · rfl

@[simp] theorem stop_mu : s.stop.mu = s.mu := by unfold stop; split <;> rfl
@[simp] theorem stop_writeMu : s.stop.writeMu = s.writeMu := by unfold stop; split <;> rfl
@[simp] theorem stop_run : s.stop.run = s.run := by unfold stop; split <;> rfl
@[simp] theorem stop_closers : s.stop.closers = s.closers := by unfold stop; split <;> rfl
@[simp] theorem stop_writers : s.stop.writers = s.writers := by unfold stop; split <;> rfl
@[simp] theorem stop_cipher : s.stop.cipher = s.cipher := by unfold stop; split <;> rfl
@[simp] theorem stop_wire : s.stop.wire = s.wire := by unfold stop; split <;> rfl

end Stop

/-! Who holds which lock. -/

def HoldsMu (s : Shaping) : Goroutine → Prop
  | .shaper => s.run.holdsMu = true
  | .closer k => (s.closers k).holdsMu = true
  | .writer _ => False

def HoldsWriteMu (s : Shaping) : Goroutine → Prop
  | .shaper => s.run.holdsWriteMu = true
  | .closer k => (s.closers k).holdsWriteMu = true
  | .writer k => (s.writers k).holdsWriteMu = true

/-- The locks are with the goroutines that stand behind them, and `stopped` changes only in between. -/
structure Locked (s : Shaping) : Prop where
  mu : Guards s.mu s.HoldsMu
  writeMu : Guards s.writeMu s.HoldsWriteMu
  closes : s.closes = if s.stopped then 1 else 0
  stopped : ∀ k, (s.closers k).afterStop = true → s.stopped = true
  drawn : s.run.drawn = true → s.stopped = false

theorem locked_start (cipher : SessionCipher) : (start cipher).Locked where
  mu g := by cases g <;> simp [start, HoldsMu, ShaperPc.holdsMu, ClosePc.holdsMu]
  writeMu g := by
    cases g <;> simp [start, HoldsWriteMu, ShaperPc.holdsWriteMu, ClosePc.holdsWriteMu,
      WriterPc.holdsWriteMu]
  closes := rfl
  stopped k h := by cases h
  drawn h := by cases h

/-- Of a goroutine that did not move. -/
theorem step_holdsMu_of_ne (h : ShapingStep cfg s g t) {g' : Goroutine} (hg : g' ≠ g) :
    t.HoldsMu g' ↔ s.HoldsMu g' := by
  cases h <;> cases g' <;> simp_all [HoldsMu]

theorem step_holdsWriteMu_of_ne (h : ShapingStep cfg s g t) {g' : Goroutine} (hg : g' ≠ g) :
    t.HoldsWriteMu g' ↔ s.HoldsWriteMu g' := by
  cases h <;> cases g' <;> simp_all [HoldsWriteMu]

/-- What a step does to `mu`, by where the goroutine stands before and after. -/
theorem step_mu (h : ShapingStep cfg s g t) : Moves g s.mu t.mu s.HoldsMu t.HoldsMu := by
  cases h with
  | lock hpc hmu => exact .inl ⟨hmu, rfl, rfl⟩
  | lockStop hpc hmu => exact .inl ⟨hmu, rfl, by simp [HoldsMu, ClosePc.holdsMu]⟩
  | unlock hpc =>
    exact .inr (.inl ⟨by simp [HoldsMu, hpc, ShaperPc.holdsMu], rfl, by simp [HoldsMu, ShaperPc.holdsMu]⟩)
  | unlockStop hpc =>
    exact .inr (.inl ⟨by simp [HoldsMu, hpc, ClosePc.holdsMu], rfl, by simp [HoldsMu, ClosePc.holdsMu]⟩)
  | draw sizeDraw bytesDraw draw hpc hstopped =>
    refine .inr (.inr ⟨rfl, ?_⟩)
    cases hd : sendFakeFrame cfg sizeDraw bytesDraw draw <;> simp [HoldsMu, hpc, ShaperPc.holdsMu]
  | _ =>
    refine .inr (.inr ⟨by simp, ?_⟩)
    simp [HoldsMu, ShaperPc.holdsMu, ClosePc.holdsMu, *]

theorem step_writeMu (h : ShapingStep cfg s g t) :
    Moves g s.writeMu t.writeMu s.HoldsWriteMu t.HoldsWriteMu := by
  cases h with
  | lockWrite hpc hmu => exact .inl ⟨hmu, rfl, rfl⟩
  | lockClose hpc hmu => exact .inl ⟨hmu, rfl, by simp [HoldsWriteMu, ClosePc.holdsWriteMu]⟩
  | lockCall hpc hmu => exact .inl ⟨hmu, rfl, by simp [HoldsWriteMu, WriterPc.holdsWriteMu]⟩
  | write hpc hok =>
    exact .inr (.inl ⟨by simp [HoldsWriteMu, hpc, ShaperPc.holdsWriteMu], rfl,
      by simp [HoldsWriteMu, ShaperPc.holdsWriteMu]⟩)
  | writeClose hpc hok =>
    exact .inr (.inl ⟨by simp [HoldsWriteMu, hpc, ClosePc.holdsWriteMu], rfl,
      by simp [HoldsWriteMu, ClosePc.holdsWriteMu]⟩)
  | writeCall hpc hok =>
    exact .inr (.inl ⟨by simp [HoldsWriteMu, hpc, WriterPc.holdsWriteMu], rfl,
      by simp [HoldsWriteMu, WriterPc.holdsWriteMu]⟩)
  | draw sizeDraw bytesDraw draw hpc hstopped =>
    refine .inr (.inr ⟨rfl, ?_⟩)
    cases hd : sendFakeFrame cfg sizeDraw bytesDraw draw <;>
      simp [HoldsWriteMu, hpc, ShaperPc.holdsWriteMu]
  | _ =>
    refine .inr (.inr ⟨by simp, ?_⟩)
    simp [HoldsWriteMu, ShaperPc.holdsWriteMu, ClosePc.holdsWriteMu, WriterPc.holdsWriteMu, *]

theorem step_closes (h : ShapingStep cfg s g t) (hs : s.closes = if s.stopped then 1 else 0) :
    t.closes = if t.stopped then 1 else 0 := by
  cases h with
  | stop hpc => cases hstopped : s.stopped <;> simp_all [Shaping.stop]
  | _ => simpa using hs

/-- `stopped` is set inside `Stop`, and stays. -/
theorem step_stopped (h : ShapingStep cfg s g t) :
    t.stopped = s.stopped ∨ t.stopped = true ∧ t.run = s.run ∧ ∃ k, g = .closer k ∧ s.HoldsMu g := by
  cases h with
  | stop hpc => exact .inr ⟨by simp, by simp, _, rfl, by simp [HoldsMu, hpc, ClosePc.holdsMu]⟩
  | _ => exact .inl (by simp)

theorem stopped_stable : Stable (ShapingStep cfg) fun s => s.stopped = true := by
  intro s g t h hs
  rcases step_stopped h with he | ⟨ht, -⟩
  · rw [he, hs]
  · exact ht

theorem afterStop_update {pc : ClosePc} (h : pc.afterStop = (s.closers k).afterStop) (j : Nat) :
    (Function.update s.closers k pc j).afterStop = (s.closers j).afterStop := by
  by_cases hj : j = k
  · rw [hj, Function.update_self, h]
  · rw [Function.update_of_ne hj]

/-- No `Close` comes past `Stop` but by its guarded part. -/
theorem step_afterStop (h : ShapingStep cfg s g t) (j : Nat) :
    (t.closers j).afterStop = (s.closers j).afterStop ∨ t.stopped = true := by
  cases h with
  | stop hpc => exact .inr (by simp)
  | close hpc | unlockStop hpc | hangUp hpc => exact .inl (afterStop_update (by rw [hpc]; rfl) j)
  | lockStop hpc hmu | lockClose hpc hmu => exact .inl (afterStop_update (by rw [hpc]; rfl) j)
  | writeClose hpc hok =>
    left
    simp only [setWriteMu_closers, closer_closers, put_closers]
    exact afterStop_update (by rw [hpc]; rfl) j
  | _ => exact .inl (by simp)

/-- The shaper draws a frame under `mu`, before any `Stop`. -/
theorem step_drawn (h : ShapingStep cfg s g t) (ht : t.run.drawn = true) :
    s.run.drawn = true ∧ t.run = s.run ∨ s.HoldsMu .shaper ∧ t.stopped = false ∨
      s.run.drawn = true ∧ t.stopped = s.stopped := by
  cases h with
  | draw sizeDraw bytesDraw draw hpc hstopped =>
    exact .inr (.inl ⟨by simp [HoldsMu, hpc, ShaperPc.holdsMu], hstopped⟩)
  | lockWrite hpc hmu => exact .inr (.inr ⟨by simp [hpc, ShaperPc.drawn], rfl⟩)
  | seen | tick | lock | skip | write | unlock => cases ht
  | _ => exact .inl ⟨by simpa using ht, by simp⟩

theorem holdsMu_of_drawn (h : s.run.drawn = true) : s.HoldsMu .shaper := by
  unfold HoldsMu
  cases hr : s.run <;> simp_all [ShaperPc.drawn, ShaperPc.holdsMu]

theorem locked_step (h : ShapingStep cfg s g t) (hs : s.Locked) : t.Locked where
  mu := hs.mu.step (step_mu h) fun _ hg => step_holdsMu_of_ne h hg
  writeMu := hs.writeMu.step (step_writeMu h) fun _ hg => step_holdsWriteMu_of_ne h hg
  closes := step_closes h hs.closes
  stopped k hk := by
    rcases step_afterStop h k with he | ht
    · rw [he] at hk
      exact stopped_stable s g t h (hs.stopped k hk)
    · exact ht
  drawn ht := by
    rcases step_drawn h ht with ⟨hd, -⟩ | ⟨-, ht⟩ | ⟨hd, he⟩
    · rcases step_stopped h with he | ⟨-, -, k, rfl, hk⟩
      · rw [he, hs.drawn hd]
      · have hsame := hs.mu.unique (holdsMu_of_drawn hd) hk
        cases hsame
    · exact ht
    · rw [he, hs.drawn hd]

theorem locked_stable : Stable (ShapingStep cfg) Locked := fun _ _ _ h hs => locked_step h hs

/-! Nothing of the shaper after `Stop`. -/

/-- The messages of the shaper. -/
def fake (wire : List Written) : List Written := wire.filter (·.goroutine = .shaper)

theorem fake_put (hg : g ≠ .shaper) (call : WriteCall) (ok : Bool) :
    fake (s.put g call ok).wire = fake s.wire := by
  rcases put_wire s g call ok with he | ⟨data, he⟩
  · rw [he]
  · simp [he, fake, hg]

theorem step_fake (h : ShapingStep cfg s g t) (hs : s.Locked) (hstopped : s.stopped = true) :
    fake t.wire = fake s.wire := by
  cases h with
  | write hpc hok =>
    have hfalse := hs.drawn (by rw [hpc]; rfl)
    rw [hstopped] at hfalse
    cases hfalse
  | writeClose hpc hok => exact fake_put (by simp) _ _
  | writeCall hpc hok => exact fake_put (by simp) _ _
  | _ => simp

theorem run_fake (h : Run (ShapingStep cfg) s gs t) (hs : s.Locked) (hstopped : s.stopped = true) :
    fake t.wire = fake s.wire := by
  induction h with
  | refl => rfl
  | step hst _ ih =>
    rw [ih (locked_step hst hs) (stopped_stable _ _ _ hst hstopped), step_fake hst hs hstopped]

/-- `Stop` comes before the frame that `Close` sends, and with it before everything behind that frame. -/
structure Ordered (s : Shaping) : Prop where
  stopped : ∀ w ∈ s.wire, ∀ k, w.goroutine = .closer k → s.stopped = true
  behind : s.wire.Pairwise fun w w' => ∀ k, w.goroutine = .closer k → w'.goroutine ≠ .shaper

theorem Ordered.put (ho : s.Ordered) (call : WriteCall) (ok : Bool)
    (hg : g = .shaper → s.stopped = false) (hk : ∀ k, g = .closer k → s.stopped = true) :
    (s.put g call ok).Ordered := by
  rcases put_wire s g call ok with he | ⟨data, he⟩
  · exact ⟨by rw [he, put_stopped]; exact ho.stopped, by rw [he]; exact ho.behind⟩
  · constructor
    · intro w hw k hwk
      rw [put_stopped]
      rw [he, List.mem_append, List.mem_singleton] at hw
      rcases hw with hw | rfl
      · exact ho.stopped w hw k hwk
      · exact hk k hwk
    · rw [he, List.pairwise_append]
      refine ⟨ho.behind, List.pairwise_singleton _ _, ?_⟩
      rintro w hw w' hw' k hwk
      rw [List.mem_singleton] at hw'
      subst hw'
      intro hshaper
      have htrue := ho.stopped w hw k hwk
      rw [hg hshaper] at htrue
      cases htrue

/-- A step that writes nothing. -/
theorem Ordered.congr (ho : s.Ordered) (hwire : t.wire = s.wire)
    (hstopped : s.stopped = true → t.stopped = true) : t.Ordered where
  stopped w hw k hk := hstopped (ho.stopped w (by rwa [hwire] at hw) k hk)
  behind := by rw [hwire]; exact ho.behind

theorem ordered_step (h : ShapingStep cfg s g t) (hs : s.Locked) (ho : s.Ordered) : t.Ordered := by
  cases h with
  | @write call ok hpc hok =>
    have hput := ho.put (g := .shaper) call ok (fun _ => hs.drawn (by rw [hpc]; rfl)) (by simp)
    exact hput.congr rfl id
  | @writeClose k draw ok hpc hok =>
    have hput := ho.put (g := .closer k) (clientCloseWrite draw) ok (by simp)
      fun _ _ => hs.stopped k (by rw [hpc]; rfl)
    exact hput.congr rfl id
  | @writeCall k call ok hpc hok =>
    have hput := ho.put (g := .writer k) call ok (by simp) (by simp)
    exact hput.congr rfl id
  | stop hpc => exact ho.congr (by simp) fun _ => by simp
  | _ => exact ho.congr (by simp) (by simp)

theorem ordered_start (cipher : SessionCipher) : (start cipher).Ordered :=
  ⟨by simp [start], by simp [start]⟩

theorem run_locked (h : Run (ShapingStep cfg) s gs t) (hs : s.Locked) : t.Locked :=
  h.invariant locked_stable hs

theorem run_ordered (h : Run (ShapingStep cfg) s gs t) (hs : s.Locked) (ho : s.Ordered) :
    t.Ordered := by
  have hstable : Stable (ShapingStep cfg) fun s => s.Locked ∧ s.Ordered :=
    fun s g t hst hI => ⟨locked_step hst hI.1, ordered_step hst hI.1 hI.2⟩
  exact (h.invariant hstable ⟨hs, ho⟩).2

/-- However the calls of `Close`, the ticks and the other writers fall together, `stopCh` is closed at
most once, the shaper writes nothing once one `Stop` is over, and nothing of it stands behind the
frame of a `Close`. -/
theorem shaper_stops {cipher : SessionCipher} (h : Run (ShapingStep cfg) (start cipher) gs s) :
    s.closes ≤ 1 ∧
      (∀ k, (s.closers k).afterStop = true → ∀ hs t, Run (ShapingStep cfg) s hs t →
        fake t.wire = fake s.wire) ∧
      s.wire.Pairwise fun w w' => ∀ k, w.goroutine = .closer k → w'.goroutine ≠ .shaper := by
  have hlocked := run_locked h (locked_start cipher)
  refine ⟨?_, ?_, (run_ordered h (locked_start cipher) (ordered_start cipher)).behind⟩
  · rw [hlocked.closes]
    split <;> omega
  · intro k hk hs t hrun
    exact run_fake hrun hlocked (hlocked.stopped k hk)

/-- A session with one `Close`, up to the end of its `Stop`. -/
def stoppedOnce (cipher : SessionCipher) : Shaping :=
  ((((((start cipher).closer 0 .stopping).closer 0 .locked).setMu (some (.closer 0))).stop.closer 0
    .unlocking).closer 0 .stopped).setMu none

theorem run_stoppedOnce (cfg : PaddingConfig) (cipher : SessionCipher) :
    Run (ShapingStep cfg) (start cipher) [.closer 0, .closer 0, .closer 0, .closer 0]
      (stoppedOnce cipher) := by
  refine .step (.close rfl) (.step (.lockStop ?_ rfl) (.step (.stop ?_) (.step (.unlockStop ?_) (.refl _))))
  · simp
  · simp
  · simp

theorem shaper_stops_stoppedOnce : (stoppedOnce nullCipher).closes ≤ 1 ∧ ∀ hs t,
    Run (ShapingStep defaultTrafficShapePadding) (stoppedOnce nullCipher) hs t → fake t.wire = [] := by
  obtain ⟨hcloses, hstopped, -⟩ := shaper_stops (run_stoppedOnce defaultTrafficShapePadding nullCipher)
  exact ⟨hcloses, hstopped 0 rfl⟩

/-! `Close` is never locked out for good. -/

/-- The steps of a goroutine up to the one that gives `mu` back. -/
def left (s : Shaping) : Goroutine → Nat
  | .shaper =>
    match s.run with
    | .locked => 4
    | .waiting _ => 3
    | .writing _ => 2
    | .unlocking => 1
    | _ => 0
  | .closer k =>
    match s.closers k with
    | .locked => 2
    | .unlocking => 1
    | _ => 0
  | .writer _ => 0

def muLeft (s : Shaping) : Nat := s.mu.elim 0 s.left

def writeLeft (s : Shaping) : Nat := if s.writeMu = none then 0 else 1

end Shaping

/-- The steps of a `Close` up to its end. -/
def ClosePc.left : ClosePc → Nat
  | .idle => 8
  | .stopping => 7
  | .locked => 6
  | .unlocking => 5
  | .stopped => 4
  | .writing => 3
  | .hangingUp => 2
  | .returned => 0

namespace Shaping

variable {cfg : PaddingConfig} {s t : Shaping} {g : Goroutine} {gs : List Goroutine} {k : Nat}

/-- Taking `mu` costs less than a step of `Close` brings, and taking `WriteMu` less than a step under
`mu`. -/
def closeLeft (k : Nat) (s : Shaping) : Nat :=
  10 * (s.closers k).left + 2 * s.muLeft + s.writeLeft

theorem muLeft_of_some (h : s.mu = some g) : s.muLeft = s.left g := by rw [muLeft, h, Option.elim_some]

theorem writeLeft_of_some (h : s.writeMu = some g) : s.writeLeft = 1 := by simp [writeLeft, h]

theorem write_refused {call : WriteCall} (hpc : s.run = .writing call) :
    ShapingStep cfg s .shaper (((s.put .shaper call false).goto .unlocking).setWriteMu none) :=
  .write hpc (by simp)

theorem writeClose_refused (hpc : s.closers k = .writing) :
    ShapingStep cfg s (.closer k)
      (((s.put (.closer k) (clientCloseWrite (failWith "")) false).closer k .hangingUp).setWriteMu none) :=
  .writeClose hpc (by simp)

theorem writeCall_refused {call : WriteCall} (hpc : s.writers k = .writing call) :
    ShapingStep cfg s (.writer k) (((s.put (.writer k) call false).writer k .idle).setWriteMu none) :=
  .writeCall hpc (by simp)

/-- The write under `WriteMu` ends, if need be with an error. -/
theorem exists_release (cfg : PaddingConfig) (hg : s.HoldsWriteMu g) :
    ∃ t, ShapingStep cfg s g t ∧ t.writeMu = none ∧ t.mu = s.mu ∧ t.left g ≤ s.left g ∧
      ∀ j, g ≠ .closer j → t.closers j = s.closers j := by
  cases g with
  | shaper =>
    cases hr : s.run with
    | writing call =>
      refine ⟨_, write_refused hr, rfl, by simp, ?_, fun j _ => by simp⟩
      simp [left, hr]
    | _ => simp [HoldsWriteMu, hr, ShaperPc.holdsWriteMu] at hg
  | closer k =>
    have hpc : s.closers k = .writing := by
      unfold HoldsWriteMu at hg
      cases hc : s.closers k <;> simp_all [ClosePc.holdsWriteMu]
    refine ⟨_, writeClose_refused hpc, rfl, by simp, ?_, ?_⟩
    · simp [left]
    · intro j hj
      have hne : j ≠ k := fun h => hj (by rw [h])
      simp [hne]
  | writer k =>
    cases hr : s.writers k with
    | writing call =>
      exact ⟨_, writeCall_refused hr, rfl, by simp, by simp [left], fun j _ => by simp⟩
    | _ => simp [HoldsWriteMu, hr, WriterPc.holdsWriteMu] at hg

/-- Of two goroutines, one that does not move is as far from giving `mu` back as before. -/
theorem left_of_ne (h : ShapingStep cfg s g t) {g' : Goroutine} (hg : g' ≠ g) : t.left g' = s.left g' := by
  cases h <;> cases g' <;> simp_all [left]

theorem muLeft_le (h : ShapingStep cfg s g t) (hmu : t.mu = s.mu) (hleft : t.left g ≤ s.left g) :
    t.muLeft ≤ s.muLeft := by
  unfold muLeft
  rw [hmu]
  cases s.mu with
  | none => exact le_refl _
  | some g' =>
    by_cases hg : g' = g
    · rw [hg]
      exact hleft
    · exact (left_of_ne h hg).le

/-- Whoever holds `WriteMu` gives it back without taking more time under `mu`. -/
theorem exists_writeLeft (cfg : PaddingConfig) (hs : s.Locked) (hg : s.writeMu = some g)
    (hk : (s.closers k).holdsWriteMu = false) :
    ∃ t, ShapingStep cfg s g t ∧ t.closers k = s.closers k ∧
      2 * t.muLeft + t.writeLeft < 2 * s.muLeft + s.writeLeft := by
  obtain ⟨t, hst, hnone, hmu, hleft, hclosers⟩ := exists_release cfg ((hs.writeMu g).mp hg)
  have hne : g ≠ .closer k := by
    rintro rfl
    have hholds := (hs.writeMu _).mp hg
    simp [HoldsWriteMu, hk] at hholds
  have hle := muLeft_le hst hmu hleft
  have hw : t.writeLeft = 0 := by simp [writeLeft, hnone]
  have hw' := writeLeft_of_some hg
  exact ⟨t, hst, hclosers k hne, by omega⟩

/-- Whoever holds `mu` comes nearer to giving it back, or waits for `WriteMu`, whose holder does. -/
theorem exists_muLeft (cfg : PaddingConfig) (hs : s.Locked) (hg : s.mu = some g)
    (hk : (s.closers k).holdsMu = false) (hk' : (s.closers k).holdsWriteMu = false) :
    ∃ a t, ShapingStep cfg s a t ∧ t.closers k = s.closers k ∧
      2 * t.muLeft + t.writeLeft < 2 * s.muLeft + s.writeLeft := by
  have hholds := (hs.mu g).mp hg
  have hleft := muLeft_of_some hg
  cases g with
  | writer j => exact hholds.elim
  | closer j =>
    have hne : k ≠ j := by
      rintro rfl
      simp [HoldsMu, hk] at hholds
    cases hc : s.closers j with
    | locked =>
      have hst : ShapingStep cfg s (.closer j) (s.stop.closer j .unlocking) := .stop hc
      have hmu : (s.stop.closer j .unlocking).mu = some (.closer j) := by simp [hg]
      refine ⟨_, _, hst, by simp [hne], ?_⟩
      rw [muLeft_of_some hmu, hleft]
      simp [left, hc, writeLeft]
    | unlocking =>
      refine ⟨_, _, .unlockStop hc, by simp [hne], ?_⟩
      rw [hleft]
      simp [left, hc, muLeft, writeLeft]
    | _ => simp [HoldsMu, hc, ClosePc.holdsMu] at hholds
  | shaper =>
    cases hr : s.run with
    | locked =>
      cases hstopped : s.stopped with
      | true =>
        refine ⟨_, _, .skip hr hstopped, by simp, ?_⟩
        rw [hleft, muLeft_of_some (s := s.goto .unlocking) hg]
        simp [left, hr, writeLeft]
      | false =>
        refine ⟨_, _, .draw (failWith "") (failWith "") (failWith "") hr hstopped, by simp, ?_⟩
        rw [hleft, muLeft_of_some (by rw [goto_mu]; exact hg)]
        cases sendFakeFrame cfg (failWith "") (failWith "") (failWith "") <;> simp [left, hr, writeLeft]
    | waiting call =>
      cases hw : s.writeMu with
      | none =>
        refine ⟨_, _, .lockWrite hr hw, by simp, ?_⟩
        rw [hleft, muLeft_of_some (by rw [setWriteMu_mu, goto_mu]; exact hg)]
        simp [left, hr, writeLeft, hw]
      | some g' =>
        obtain ⟨t, hst, h⟩ := exists_writeLeft cfg hs hw hk'
        exact ⟨g', t, hst, h⟩
    | writing call =>
      have hw : s.writeMu = some .shaper :=
        (hs.writeMu _).mpr (by simp [HoldsWriteMu, hr, ShaperPc.holdsWriteMu])
      obtain ⟨t, hst, h⟩ := exists_writeLeft cfg hs hw hk'
      exact ⟨_, t, hst, h⟩
    | unlocking =>
      refine ⟨_, _, .unlock hr, by simp, ?_⟩
      rw [hleft]
      simp [left, hr, muLeft, writeLeft]
    | _ => simp [HoldsMu, hr, ShaperPc.holdsMu] at hholds

/-- Some goroutine can always bring a `Close` that has begun nearer to its end. -/
theorem exists_closeLeft (cfg : PaddingConfig) (hs : s.Locked) (hbegun : s.closers k ≠ .idle)
    (hk : s.closers k ≠ .returned) :
    ∃ a t, ShapingStep cfg s a t ∧ t.closers k ≠ .idle ∧ t.closeLeft k < s.closeLeft k := by
  have hwait : ∀ {a t}, ShapingStep cfg s a t → t.closers k = s.closers k →
      2 * t.muLeft + t.writeLeft < 2 * s.muLeft + s.writeLeft →
      ∃ a t, ShapingStep cfg s a t ∧ t.closers k ≠ .idle ∧ t.closeLeft k < s.closeLeft k := by
    intro a t hst hsame hlt
    refine ⟨a, t, hst, by rwa [hsame], ?_⟩
    unfold closeLeft
    rw [hsame]
    omega
  cases hc : s.closers k with
  | idle => exact (hbegun hc).elim
  | returned => exact (hk hc).elim
  | stopping =>
    cases hmu : s.mu with
    | none =>
      refine ⟨_, _, .lockStop hc hmu, by simp, ?_⟩
      simp [closeLeft, ClosePc.left, hc, muLeft, hmu, left, writeLeft]
    | some g =>
      obtain ⟨a, t, hst, hsame, hlt⟩ := exists_muLeft cfg hs hmu (k := k) (by rw [hc]; rfl) (by rw [hc]; rfl)
      exact hwait hst hsame hlt
  | locked =>
    have hmu : s.mu = some (.closer k) := (hs.mu _).mpr (by simp [HoldsMu, hc, ClosePc.holdsMu])
    refine ⟨_, _, .stop hc, by simp, ?_⟩
    simp [closeLeft, ClosePc.left, hc, muLeft, hmu, left, writeLeft]
  | unlocking =>
    refine ⟨_, _, .unlockStop hc, by simp, ?_⟩
    simp [closeLeft, ClosePc.left, hc, muLeft, writeLeft]
    omega
  | stopped =>
    cases hw : s.writeMu with
    | none =>
      have hst : ShapingStep cfg s (.closer k) ((s.closer k .writing).setWriteMu (some (.closer k))) :=
        .lockClose hc hw
      refine ⟨_, _, hst, by simp, ?_⟩
      have hle := muLeft_le hst rfl (by simp [left])
      simp [closeLeft, ClosePc.left, hc, writeLeft, hw]
      omega
    | some g =>
      obtain ⟨t, hst, hsame, hlt⟩ := exists_writeLeft cfg hs hw (k := k) (by rw [hc]; rfl)
      exact hwait hst hsame hlt
  | writing =>
    obtain ⟨t, hst, hpc, hmu, hleft⟩ : ∃ t, ShapingStep cfg s (.closer k) t ∧ t.closers k = .hangingUp ∧
        t.mu = s.mu ∧ t.left (.closer k) ≤ s.left (.closer k) ∧ t.writeMu = none :=
      ⟨_, writeClose_refused hc, by simp, by simp,
        by simp [left], rfl⟩
    refine ⟨_, t, hst, by simp [hpc], ?_⟩
    have hle := muLeft_le hst hmu hleft.1
    simp [closeLeft, ClosePc.left, hc, hpc, writeLeft, hleft.2]
    omega
  | hangingUp =>
    have hst : ShapingStep cfg s (.closer k) (s.hangUp k) := .hangUp hc
    refine ⟨_, _, hst, by simp, ?_⟩
    have hle := muLeft_le hst rfl (by simp [left])
    simp [closeLeft, ClosePc.left, hc, writeLeft]
    omega

theorem closeLeft_le (hbegun : s.closers k ≠ .idle) : s.closeLeft k ≤ 79 := by
  have hown : (s.closers k).left ≤ 7 := by cases hc : s.closers k <;> simp_all [ClosePc.left]
  have hmu : s.muLeft ≤ 4 := by
    unfold muLeft
    rcases s.mu with _ | g
    · exact Nat.zero_le _
    · cases g with
      | shaper => cases hr : s.run <;> simp [left, hr]
      | closer j => cases hc : s.closers j <;> simp [left, hc]
      | writer j => simp [left]
  have hw : s.writeLeft ≤ 1 := by
    unfold writeLeft
    split <;> omega
  unfold closeLeft
  omega

/-- A `Close` that has begun can come to its end from wherever the other goroutines stand: the two locks
are taken in one order, so there is always somebody who can go on. -/
theorem close_can_return {cipher : SessionCipher} (h : Run (ShapingStep cfg) (start cipher) gs s)
    (hbegun : s.closers k ≠ .idle) :
    ∃ hs t, Run (ShapingStep cfg) s hs t ∧ t.closers k = .returned ∧ hs.length ≤ 79 := by
  have hstep : ∀ s : Shaping, s.Locked ∧ s.closers k ≠ .idle → ¬ s.closers k = .returned →
      ∃ a t, ShapingStep cfg s a t ∧ (t.Locked ∧ t.closers k ≠ .idle) ∧ t.closeLeft k < s.closeLeft k := by
    rintro s ⟨hs, hbegun⟩ hk
    obtain ⟨a, t, hst, ht, hlt⟩ := exists_closeLeft cfg hs hbegun hk
    exact ⟨a, t, hst, ⟨locked_step hst hs, ht⟩, hlt⟩
  obtain ⟨hs, t, hrun, -, hreturned, hlen⟩ :=
    exists_run_of_measure (closeLeft k) hstep ⟨run_locked h (locked_start cipher), hbegun⟩
  exact ⟨hs, t, hrun, hreturned, hlen.trans (closeLeft_le hbegun)⟩

theorem close_can_return_stoppedOnce : ∃ hs t,
    Run (ShapingStep defaultTrafficShapePadding) (stoppedOnce nullCipher) hs t ∧
      t.closers 0 = .returned ∧ hs.length ≤ 79 :=
  close_can_return (run_stoppedOnce defaultTrafficShapePadding nullCipher) (by simp [stoppedOnce])

end Shaping

end SshPanelVpn.ShadowLink

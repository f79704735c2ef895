import SshPanelVpn.ShadowLink.FramePadding
import SshPanelVpn.ShadowLink.Loops
import SshPanelVpn.ShadowLink.TrafficShaper

/-! What the server makes of the shaper's frames between those of the other goroutines. -/
namespace SshPanelVpn.ShadowLink

open Octets Sealing ByteStream Runs

/-- What `Encrypt` makes of the plaintext at that counter. -/
def sealedAt (aead : Aead) (seq : UInt64) (plaintext : Bytes) : Bytes :=
  nonceBytes seq ++ aead.alg.sealText aead.key (nonceBytes seq) plaintext

@[simp] theorem nonceSeq_sealedAt (aead : Aead) (seq : UInt64) (plaintext : Bytes) :
    nonceSeq (sealedAt aead seq plaintext) = seq := by
  rw [← nonceSeq_take, sealedAt, List.take_left' (length_nonceBytes seq), nonceSeq_nonceBytes]

theorem succ_le_of_lt {a b : UInt64} (h : a < b) : a + 1 ≤ b := by
  have hlt := UInt64.lt_iff_toNat_lt.mp h
  have hb := b.toNat_lt
  have h1 : (1 : UInt64).toNat = 1 := rfl
  rw [UInt64.le_iff_toNat_le, UInt64.toNat_add]
  omega

section Loop

variable {σ α : Type} {R : Reader σ Fault} {switch : Frame → Turn α} {aead : Aead} {rc : SessionCipher}
  {seq : UInt64} {p : Bytes}

theorem length_sealedAt (hA : aead.alg.Correct aeadOverhead) (seq : UInt64) :
    (sealedAt aead seq p).length = nonceSize + (p.length + aeadOverhead) := by
  simp [sealedAt, hA.length_sealText]

/-- Counters may have been skipped: only smaller ones are refused. -/
theorem decrypt_sealedAt (hA : aead.alg.Correct aeadOverhead) (hk : rc.aead = aead)
    (hn : rc.recvNonce ≤ seq) :
    rc.decrypt (sealedAt aead seq p) = (.ok p, { rc with recvNonce := seq + 1 }) := by
  have htake : (sealedAt aead seq p).take nonceSize = nonceBytes seq :=
    List.take_left' (length_nonceBytes seq)
  have hdrop : (sealedAt aead seq p).drop nonceSize = aead.alg.sealText aead.key (nonceBytes seq) p :=
    List.drop_left' (length_nonceBytes seq)
  have hlen := length_sealedAt (p := p) hA seq
  have hreach : rc.ReachesOpen (sealedAt aead seq p) := by
    refine ⟨by omega, ?_⟩
    rwa [nonceSeq_sealedAt]
  have hopen : rc.opened (sealedAt aead seq p) = some p := by
    rw [SessionCipher.opened, htake, hdrop, hk]
    exact hA.openText_sealText _ _ _
  ext1
  · exact SessionCipher.decrypt_ok_iff.mpr ⟨hreach, hopen⟩
  · rw [SessionCipher.decrypt_snd, if_pos hreach, nonceSeq_sealedAt]

/-- What the loop acts on, in order. -/
def actions (events : List (LoopEvent α)) : List α :=
  events.filterMap fun
    | .took _ (.act action) => some action
    | _ => none

/-- The same loop over plaintexts. -/
def acted (switch : Frame → Turn α) : List Bytes → List α
  | [] => []
  | p :: ps =>
    match parseFrame p with
    | .error _ => []
    | .ok frame =>
      match switch frame with
      | .stop => []
      | .skip => acted switch ps
      | .act action => action :: acted switch ps

/-- Over messages that were sealed in the order of their counters the loop does what it would do over
their plaintexts, however the reader cuts them. -/
theorem actions_frameLoop (hA : aead.alg.Correct aeadOverhead) {msgs : List (UInt64 × Bytes)} {r : σ}
    {fuel : Nat} (hk : rc.aead = aead) (hn : ∀ m ∈ msgs, rc.recvNonce ≤ m.1)
    (hmsgs : msgs.Pairwise fun m m' => m.1 < m'.1)
    (hlen : ∀ m ∈ msgs, (sealedAt aead m.1 m.2).length ≤ maxFrameLen)
    (hr : R.pending r = (msgs.map fun m =>
      leBytes 4 (sealedAt aead m.1 m.2).length ++ sealedAt aead m.1 m.2).flatten)
    (hfuel : R.weight r < fuel) :
    actions (frameLoop R switch fuel r rc) = acted switch (msgs.map Prod.snd) := by
  induction msgs generalizing rc r fuel with
  | nil =>
    obtain ⟨e, r', he⟩ := R.readFull_error (s := r) (n := 4) (by simp [hr])
    cases fuel with
    | zero => omega
    | succ fuel => simp [frameLoop, readFrameBuf, he, actions, acted]
  | cons m msgs ih =>
    cases fuel with
    | zero => omega
    | succ fuel =>
      rw [List.map_cons, List.flatten_cons] at hr
      obtain ⟨r', hread, hr'⟩ := readFrameBuf_ok R (hlen m (by simp)) hr
      have hw := readFrameBuf_weight hread
      obtain ⟨hlt, hrest⟩ := List.pairwise_cons.mp hmsgs
      have hdecrypt := decrypt_sealedAt (p := m.2) hA hk (hn m (by simp))
      have hnext : ∀ m' ∈ msgs, m.1 + 1 ≤ m'.1 := fun m' hm' => succ_le_of_lt (hlt m' hm')
      have htail : actions (frameLoop R switch fuel r' { rc with recvNonce := m.1 + 1 }) =
          acted switch (msgs.map Prod.snd) := by
        exact ih hk hnext hrest (fun m' hm' => hlen m' (List.mem_cons_of_mem _ hm')) hr' (by omega)
      simp only [frameLoop, hread, decodeFrame, hdecrypt, List.map_cons, acted]
      cases hp : parseFrame m.2 with
      | error e => rfl
      | ok frame =>
        cases hs : switch frame with
        | stop => simp [actions, hs]
        | skip => simpa [actions, hs] using htail
        | act action => simpa [actions, hs] using htail

/-- Plaintexts that the loop goes over without acting. -/
theorem acted_filter {β : Type} {plaintext : β → Bytes} {keep : β → Bool} {ws : List β}
    (h : ∀ w ∈ ws, keep w = false → ∃ frame, parseFrame (plaintext w) = .ok frame ∧ switch frame = .skip) :
    acted switch (ws.map plaintext) = acted switch ((ws.filter keep).map plaintext) := by
  induction ws with
  | nil => rfl
  | cons w ws ih =>
    have htail := ih fun w' hw' => h w' (List.mem_cons_of_mem _ hw')
    cases hw : keep w with
    | true =>
      rw [List.filter_cons_of_pos hw, List.map_cons, List.map_cons]
      simp only [acted, htail]
    | false =>
      obtain ⟨frame, hp, hs⟩ := h w (by simp) hw
      rw [List.filter_cons_of_neg (by simp [hw]), List.map_cons, ← htail]
      simp only [acted, hp, hs]

end Loop

/-! The frames that `sendFakeFrame` draws. -/

/-- A payload and a padding of this size fit into one frame. -/
abbrev maxShaping : Int := 33023

/-- The bounds of the configuration let every frame of the shaper pass the reader's cap. -/
structure PaddingConfig.Small (cfg : PaddingConfig) : Prop where
  min_nonneg : 0 ≤ cfg.minBytes
  min_le : cfg.minBytes ≤ maxShaping
  max_nonneg : 0 ≤ cfg.maxBytes
  max_le : cfg.maxBytes ≤ maxShaping

section Drawn

variable {cfg : PaddingConfig} {sizeDraw bytesDraw draw : Result Draw} {call : WriteCall} {size : Int}

theorem PaddingConfig.Small.bmod (h : cfg.Small) :
    Int.bmod (cfg.maxBytes - cfg.minBytes) (2 ^ 64) = cfg.maxBytes - cfg.minBytes := by
  obtain ⟨h0, h1, h2, h3⟩ := h
  unfold maxShaping at h1 h3
  apply Int.bmod_eq_of_le_mul_two <;> omega

theorem randInt_le {minPad maxPad bound : Int} (h0 : 0 ≤ minPad) (h1 : minPad ≤ bound)
    (h2 : maxPad ≤ bound + 1) (hbound : bound < 2 ^ 62) (h : randInt minPad maxPad draw = .ok size) :
    size ≤ bound := by
  unfold randInt at h
  split at h
  · obtain rfl : minPad = size := by simpa using h
    exact h1
  · next hlt =>
    have hmod : Int.bmod (maxPad - minPad) (2 ^ 64) = maxPad - minPad := by
      apply Int.bmod_eq_of_le_mul_two <;> omega
    simp only [hmod] at h
    split at h
    · cases h
    · next hpos =>
      cases draw with
      | error e => cases h
      | ok d =>
        obtain rfl : minPad + (d.int : Int) % (maxPad - minPad) = size := by simpa using h
        have := Int.emod_lt_of_pos (d.int : Int) (by omega : 0 < maxPad - minPad)
        omega

theorem randomPaddingSize_le (hs : cfg.Small) (h : randomPaddingSize cfg sizeDraw = .ok size) :
    size ≤ maxShaping := by
  simp only [randomPaddingSize, hs.bmod] at h
  obtain ⟨h0, h1, h2, h3⟩ := hs
  split at h
  · obtain rfl : 0 = size := by simpa using h
    decide
  · split at h
    · obtain rfl : cfg.minBytes = size := by simpa using h
      exact h1
    · next hpos =>
      cases sizeDraw with
      | error e => cases h
      | ok d =>
        obtain rfl : cfg.minBytes + (d.int : Int) % (cfg.maxBytes - cfg.minBytes) = size := by simpa using h
        have := Int.emod_lt_of_pos (d.int : Int) (by omega : 0 < cfg.maxBytes - cfg.minBytes)
        omega

theorem length_generatePadding {padding : Bytes} (h : generatePadding size bytesDraw = .ok padding)
    (hsize : size ≤ maxShaping) : (padding.length : Int) ≤ maxShaping := by
  unfold generatePadding at h
  split at h
  · obtain rfl : [] = padding := by simpa using h
    decide
  · split at h
    · cases h
    · cases bytesDraw with
      | error e => cases h
      | ok d =>
        obtain rfl : fill d.byte size.toNat = padding := by simpa using h
        rw [length_fill]
        omega

theorem length_framePadding {minPad maxPad bound : Int} {padding : Bytes} (h0 : 0 ≤ minPad)
    (h1 : minPad ≤ bound) (h2 : maxPad ≤ bound + 1) (hbound : bound < 2 ^ 62)
    (h : framePadding minPad maxPad draw = .ok padding) : (padding.length : Int) ≤ bound := by
  unfold framePadding at h
  cases hr : randInt minPad maxPad draw with
  | error e => simp [hr] at h
  | ok padSize =>
    have hle := randInt_le h0 h1 h2 hbound hr
    rw [hr] at h
    dsimp only at h
    split at h
    · cases h
    · split at h
      · cases h
        simp only [List.length_nil]
        omega
      · cases draw with
        | error e => cases h
        | ok d =>
          obtain rfl : fill d.byte padSize.toNat = padding := by simpa using h
          rw [length_fill]
          omega

/-- Whatever is drawn, the plaintext is one that the server takes for a keepalive, also where the size of
its padding does not fit into a byte, and its message is below the reader's cap. -/
theorem sendFakeFrame_plaintext {p : Bytes} (hs : cfg.Small)
    (h : sendFakeFrame cfg sizeDraw bytesDraw draw = some call) (hp : call.plaintext = some p) :
    (∃ payload, parseFrame p = .ok ⟨frameKeepalive, payload⟩) ∧
      nonceSize + (p.length + aeadOverhead) ≤ maxFrameLen := by
  unfold sendFakeFrame at h
  cases hsize : randomPaddingSize cfg sizeDraw with
  | error e => simp [hsize] at h
  | ok size =>
    cases hbytes : generatePadding size bytesDraw with
    | error e => simp [hsize, hbytes] at h
    | ok payload =>
      obtain rfl : WriteCall.mk ⟨frameKeepalive, payload⟩ cfg.minBytes cfg.maxBytes draw = call := by
        simpa [hsize, hbytes] using h
      have hpayload := length_generatePadding hbytes (randomPaddingSize_le hs hsize)
      obtain ⟨hpay, padding, hpad, rfl, -⟩ := WriteCall.eq_of_plaintext hp
      have hmax : cfg.maxBytes ≤ maxShaping + 1 := Int.le_trans hs.max_le (by decide)
      have hpadding := length_framePadding hs.min_nonneg hs.min_le hmax (by decide) hpad
      refine ⟨⟨_, parseFrame_wrapped padding hpay⟩, ?_⟩
      rw [length_framePlaintext]
      simp only [maxShaping] at hpayload hpadding
      simp only [nonceSize, aeadOverhead, frameHeaderSize, maxFrameLen, maxPayloadSize, maxPaddingSize]
      omega

end Drawn

/-- The message seals the call's plaintext at some counter. -/
def Written.Seals (w : Written) (aead : Aead) : Prop :=
  ∃ p, w.call.plaintext = some p ∧ w.data = sealedAt aead (nonceSeq w.data) p

def PaddingConfig.Draws (cfg : PaddingConfig) (call : WriteCall) : Prop :=
  ∃ sizeDraw bytesDraw draw, sendFakeFrame cfg sizeDraw bytesDraw draw = some call

/-- The frame in the hands of the shaper. -/
def ShaperPc.call : ShaperPc → Option WriteCall
  | .waiting call | .writing call => some call
  | _ => none

namespace Shaping

variable {cfg : PaddingConfig} {s t : Shaping} {g : Goroutine} {gs : List Goroutine} {aead : Aead}
  {first : UInt64}

/-- The wire is in the order of the counters, and what the shaper writes was drawn from its
configuration. -/
structure Wired (cfg : PaddingConfig) (aead : Aead) (first : UInt64) (s : Shaping) : Prop where
  keyed : s.cipher.aead = aead
  first_le : first ≤ s.cipher.sendNonce
  seals : ∀ w ∈ s.wire, w.Seals aead ∧ first ≤ nonceSeq w.data ∧ nonceSeq w.data < s.cipher.sendNonce
  ordered : s.wire.Pairwise fun w w' => nonceSeq w.data < nonceSeq w'.data
  draws : ∀ w ∈ s.wire, w.goroutine = .shaper → cfg.Draws w.call
  drawn : ∀ call, s.run.call = some call → cfg.Draws call

theorem wired_start (cfg : PaddingConfig) (cipher : SessionCipher) :
    Wired cfg cipher.aead cipher.sendNonce (start cipher) where
  keyed := rfl
  first_le := UInt64.le_refl _
  seals := by simp [start]
  ordered := by simp [start]
  draws := by simp [start]
  drawn := by simp [start, ShaperPc.call]

/-- Sealing once below the last counter. -/
theorem lt_afterSeal {c : SessionCipher} (hlt : c.sendNonce.toNat + 1 < 2 ^ 64) :
    c.sendNonce < c.afterSeal.sendNonce := by
  rw [UInt64.lt_iff_toNat_lt, SessionCipher.afterSeal_sendNonce, UInt64.toNat_add]
  have h1 : (1 : UInt64).toNat = 1 := rfl
  omega

theorem put_cipher (s : Shaping) (g : Goroutine) (call : WriteCall) (ok : Bool) :
    s.put g call ok = s ∨ ∃ p, call.plaintext = some p ∧
      (s.put g call ok).cipher = s.cipher.afterSeal ∧
      ((s.put g call ok).wire = s.wire ∨
        (s.put g call ok).wire = s.wire ++ [Written.mk g call (sealedAt s.cipher.aead s.cipher.sendNonce p)]) := by
  rcases call.encode_cases s.cipher with ⟨e, he⟩ | ⟨p, hp, he⟩
  · exact .inl (by simp [put, he])
  · refine .inr ⟨p, hp, by simp [put, he], ?_⟩
    cases ok
    · exact .inl (by simp [put, he])
    · exact .inr (by simp [put, he]; rfl)

theorem Wired.put (h : Wired cfg aead first s) (call : WriteCall) (ok : Bool)
    (hlt : s.cipher.sendNonce.toNat + 1 < 2 ^ 64) (hd : g = .shaper → cfg.Draws call) :
    Wired cfg aead first (s.put g call ok) := by
  rcases put_cipher s g call ok with he | ⟨p, hp, hc, hwire⟩
  · rw [he]
    exact h
  · have hnext := lt_afterSeal hlt
    have hold : ∀ w ∈ s.wire, w.Seals aead ∧ first ≤ nonceSeq w.data ∧
        nonceSeq w.data < s.cipher.afterSeal.sendNonce := by
      intro w hw
      obtain ⟨hseals, hle, hbelow⟩ := h.seals w hw
      exact ⟨hseals, hle, UInt64.lt_trans hbelow hnext⟩
    have hfirst := UInt64.le_of_lt (UInt64.lt_of_le_of_lt h.first_le hnext)
    rcases hwire with he | he
    · exact ⟨by rw [hc]; exact h.keyed, by rw [hc]; exact hfirst, by rw [hc, he]; exact hold,
        by rw [he]; exact h.ordered, by rw [he]; exact h.draws, by rw [put_run]; exact h.drawn⟩
    · have hnew : nonceSeq (sealedAt s.cipher.aead s.cipher.sendNonce p) = s.cipher.sendNonce :=
        nonceSeq_sealedAt _ _ _
      refine ⟨by rw [hc]; exact h.keyed, by rw [hc]; exact hfirst, ?_, ?_, ?_, by rw [put_run]; exact h.drawn⟩
      · rw [hc, he]
        intro w hw
        rcases List.mem_append.mp hw with hw | hw
        · exact hold w hw
        · obtain rfl := List.mem_singleton.mp hw
          refine ⟨⟨p, hp, ?_⟩, ?_, ?_⟩
          · rw [hnew, h.keyed]
          · rw [hnew]
            exact h.first_le
          · rw [hnew]
            exact hnext
      · rw [he, List.pairwise_append]
        refine ⟨h.ordered, List.pairwise_singleton _ _, ?_⟩
        intro w hw w' hw'
        obtain rfl := List.mem_singleton.mp hw'
        rw [hnew]
        exact (h.seals w hw).2.2
      · rw [he]
        intro w hw hg
        rcases List.mem_append.mp hw with hw | hw
        · exact h.draws w hw hg
        · obtain rfl := List.mem_singleton.mp hw
          exact hd hg

/-- A step that seals nothing. -/
theorem Wired.congr (h : Wired cfg aead first s) (hcipher : t.cipher = s.cipher) (hwire : t.wire = s.wire)
    (hdrawn : ∀ call, t.run.call = some call → cfg.Draws call) : Wired cfg aead first t :=
  ⟨by rw [hcipher]; exact h.keyed, by rw [hcipher]; exact h.first_le, by rw [hcipher, hwire]; exact h.seals,
    by rw [hwire]; exact h.ordered, by rw [hwire]; exact h.draws, hdrawn⟩

theorem wired_step (h : ShapingStep cfg s g t) (hs : Wired cfg aead first s)
    (hlt : s.cipher.sendNonce.toNat + 1 < 2 ^ 64) : Wired cfg aead first t := by
  cases h with
  | draw sizeDraw bytesDraw draw hpc hstopped =>
    refine hs.congr rfl rfl ?_
    intro call hcall
    cases hd : sendFakeFrame cfg sizeDraw bytesDraw draw with
    | none => simp [hd, ShaperPc.call] at hcall
    | some drawn =>
      obtain rfl : drawn = call := by simpa [hd, ShaperPc.call] using hcall
      exact ⟨sizeDraw, bytesDraw, draw, hd⟩
  | @lockWrite call hpc hmu =>
    refine hs.congr rfl rfl ?_
    intro call' hcall
    exact hs.drawn call' (by rw [hpc]; exact hcall)
  | @write call ok hpc hok =>
    have hput := hs.put (g := .shaper) call ok hlt fun _ => hs.drawn call (by rw [hpc]; rfl)
    exact hput.congr rfl rfl (by simp [ShaperPc.call])
  | @writeClose k draw ok hpc hok =>
    have hput := hs.put (g := .closer k) (clientCloseWrite draw) ok hlt (by simp)
    exact hput.congr rfl rfl hput.drawn
  | @writeCall k call ok hpc hok =>
    have hput := hs.put (g := .writer k) call ok hlt (by simp)
    exact hput.congr rfl rfl hput.drawn
  | stop hpc => exact hs.congr (by simp) (by simp) (by simpa using hs.drawn)
  | seen | tick | lock | skip | unlock => exact hs.congr rfl rfl (by simp [ShaperPc.call])
  | _ => exact hs.congr rfl rfl hs.drawn

/-- A step seals at most once. -/
theorem step_sendNonce (h : ShapingStep cfg s g t) (hlt : s.cipher.sendNonce.toNat + 1 < 2 ^ 64) :
    t.cipher.sendNonce.toNat ≤ s.cipher.sendNonce.toNat + 1 := by
  have hput : ∀ (g : Goroutine) (call : WriteCall) (ok : Bool),
      (s.put g call ok).cipher.sendNonce.toNat ≤ s.cipher.sendNonce.toNat + 1 := by
    intro g call ok
    rcases put_cipher s g call ok with he | ⟨p, -, hc, -⟩
    · rw [he]
      omega
    · rw [hc, SessionCipher.afterSeal_sendNonce, UInt64.toNat_add]
      have h1 : (1 : UInt64).toNat = 1 := rfl
      omega
  cases h with
  | write hpc hok => exact hput _ _ _
  | writeClose hpc hok => exact hput _ _ _
  | writeCall hpc hok => exact hput _ _ _
  | _ => simp

theorem run_wired (h : Run (ShapingStep cfg) s gs t) (hs : Wired cfg aead first s)
    (hlt : s.cipher.sendNonce.toNat + gs.length < 2 ^ 64) : Wired cfg aead first t := by
  induction h with
  | refl => exact hs
  | step hst _ ih =>
    rw [List.length_cons] at hlt
    have hnext := step_sendNonce hst (by omega)
    exact ih (wired_step hst hs (by omega)) (by omega)

end Shaping

/-- What the WebSocket carries. -/
def Written.message (w : Written) : Bytes := leBytes 4 w.data.length ++ w.data

/-- What `EncodeFrame` handed to `Encrypt`. -/
def Written.plaintext (w : Written) : Bytes := w.call.plaintext.getD []

namespace Shaping

variable {cfg : PaddingConfig} {s : Shaping} {gs : List Goroutine} {cipher rc : SessionCipher}

theorem relaySwitch_keepalive (payload : Bytes) : relaySwitch ⟨frameKeepalive, payload⟩ = .skip := rfl

/-- Whatever the shaper writes in between, the server acts on the frames of the other goroutines, and as if
they stood alone. -/
theorem shaper_unseen {σ : Type} (h : Run (ShapingStep cfg) (start cipher) gs s) (hs : cfg.Small)
    (hA : cipher.aead.alg.Correct aeadOverhead) (hlt : cipher.sendNonce.toNat + gs.length < 2 ^ 64)
    (hlen : ∀ w ∈ s.wire, w.goroutine ≠ .shaper → w.data.length ≤ maxFrameLen)
    (hk : rc.aead = cipher.aead) (hn : rc.recvNonce ≤ cipher.sendNonce) (R : Reader σ Fault) (r : σ)
    (hr : R.pending r = (s.wire.map Written.message).flatten) :
    actions (relayLoop R r rc) =
      acted relaySwitch ((s.wire.filter (·.goroutine ≠ .shaper)).map Written.plaintext) := by
  have hw := run_wired h (wired_start cfg cipher) hlt
  have hplain : ∀ w ∈ s.wire, w.data = sealedAt cipher.aead (nonceSeq w.data) w.plaintext := by
    intro w hmem
    obtain ⟨p, hp, hdata⟩ := (hw.seals w hmem).1
    rw [Written.plaintext, hp]
    exact hdata
  have hfake : ∀ w ∈ s.wire, w.goroutine = .shaper →
      (∃ payload, parseFrame w.plaintext = .ok ⟨frameKeepalive, payload⟩) ∧
        nonceSize + (w.plaintext.length + aeadOverhead) ≤ maxFrameLen := by
    intro w hmem hg
    obtain ⟨p, hp, -⟩ := (hw.seals w hmem).1
    obtain ⟨sizeDraw, bytesDraw, draw, hd⟩ := hw.draws w hmem hg
    have hp' : w.plaintext = p := by rw [Written.plaintext, hp]; rfl
    rw [hp']
    exact sendFakeFrame_plaintext hs hd hp
  let msgs := s.wire.map fun w => (nonceSeq w.data, w.plaintext)
  have hmsgs : msgs.map Prod.snd = s.wire.map Written.plaintext := by
    rw [List.map_map]
    rfl
  have hloop : actions (relayLoop R r rc) = acted relaySwitch (msgs.map Prod.snd) := by
    refine actions_frameLoop hA hk ?_ ?_ ?_ ?_ (Nat.lt_succ_self _)
    · intro m hm
      obtain ⟨w, hmem, rfl⟩ := List.mem_map.mp hm
      exact UInt64.le_trans hn (hw.seals w hmem).2.1
    · exact List.pairwise_map.mpr hw.ordered
    · intro m hm
      obtain ⟨w, hmem, rfl⟩ := List.mem_map.mp hm
      by_cases hg : w.goroutine = .shaper
      · rw [length_sealedAt hA]
        exact (hfake w hmem hg).2
      · dsimp only
        rw [← hplain w hmem]
        exact hlen w hmem hg
    · rw [hr, List.map_map]
      congr 1
      apply List.map_congr_left
      intro w hmem
      simp only [Function.comp_apply, Written.message, ← hplain w hmem]
  rw [hloop, hmsgs]
  apply acted_filter
  intro w hmem hg
  have hshaper : w.goroutine = .shaper := by simpa using hg
  obtain ⟨payload, hp⟩ := (hfake w hmem hshaper).1
  exact ⟨_, hp, relaySwitch_keepalive payload⟩

/-- What a tick draws, with 64 bytes of padding and 64 of payload. -/
def fakeCall : WriteCall :=
  ⟨⟨frameKeepalive, fill (fun _ => 7) 64⟩, 64, 512, .ok ⟨0, fun _ => 7⟩⟩

/-- After a tick whose frame gets through. -/
def ticked (s : Shaping) : Shaping :=
  ((((((((((s.goto .ticked).goto .locked).setMu (some .shaper)).goto (.waiting fakeCall)).goto
    (.writing fakeCall)).setWriteMu (some .shaper)).put .shaper fakeCall true).goto .unlocking).setWriteMu
      none).goto .selecting).setMu none

theorem run_ticked (hpc : s.run = .selecting) (hmu : s.mu = none) (hstopped : s.stopped = false)
    (hwriteMu : s.writeMu = none) (hopen : s.wsClosed = false) :
    Run (ShapingStep defaultTrafficShapePadding) s (List.replicate 6 .shaper) s.ticked :=
  .step (.tick hpc) (.step (.lock rfl hmu)
    (.step (.draw (.ok ⟨0, fun _ => 7⟩) (.ok ⟨0, fun _ => 7⟩) (.ok ⟨0, fun _ => 7⟩) rfl hstopped)
      (.step (.lockWrite rfl hwriteMu) (.step (.write rfl fun _ : true = true => hopen)
        (.step (.unlock rfl) (.refl _))))))

/-- After a frame that another goroutine gets through. -/
def wrote (s : Shaping) (k : Nat) (call : WriteCall) : Shaping :=
  (((((s.writer k (.waiting call)).writer k (.writing call)).setWriteMu (some (.writer k))).put
    (.writer k) call true).writer k .idle).setWriteMu none

theorem run_wrote (k : Nat) (call : WriteCall) (hpc : s.writers k = .idle) (hwriteMu : s.writeMu = none)
    (hopen : s.wsClosed = false) :
    Run (ShapingStep defaultTrafficShapePadding) s (List.replicate 3 (.writer k)) (s.wrote k call) :=
  .step (.call call hpc) (.step (.lockCall (Function.update_self ..) hwriteMu)
    (.step (.writeCall (Function.update_self ..) fun _ : true = true => hopen) (.refl _)))

/-- A stream is opened and written to, with a tick in between. -/
def dialCall : WriteCall :=
  dialThroughTunnelWrite ⟨16, 128, true⟩ 0 [0x74, 0x63, 0x70] [0x61, 0x3a, 0x31] zeroDraw

def dataCall : WriteCall := ⟨newDataFrame (encodeStreamID 0 ++ [7]), 16, 128, zeroDraw⟩

def tickedBetween (cipher : SessionCipher) : Shaping :=
  (((start cipher).wrote 0 dialCall).ticked).wrote 0 dataCall

theorem run_tickedBetween (cipher : SessionCipher) :
    Run (ShapingStep defaultTrafficShapePadding) (start cipher) (List.replicate 3 (.writer 0) ++
      (List.replicate 6 .shaper ++ List.replicate 3 (.writer 0))) (tickedBetween cipher) := by
  have hdial := run_wrote (s := start cipher) 0 dialCall rfl rfl rfl
  have hfake := run_ticked (s := (start cipher).wrote 0 dialCall) (by simp [wrote, start])
    (by simp [wrote, start]) (by simp [wrote, start]) (by simp [wrote, start]) (by simp [wrote, start])
  have hdata := run_wrote (s := ((start cipher).wrote 0 dialCall).ticked) 0 dataCall
    (by simp [ticked, wrote]) (by simp [ticked]) (by simp [ticked, wrote, start])
  exact hdial.append (hfake.append hdata)

theorem wire_tickedBetween : ∃ d d' d'', (tickedBetween nullCipher).wire =
    [Written.mk (.writer 0) dialCall d, Written.mk .shaper fakeCall d',
      Written.mk (.writer 0) dataCall d''] ∧ d.length ≤ 100 ∧ d''.length ≤ 100 :=
  ⟨_, _, _, rfl, by decide, by decide⟩

theorem shaper_unseen_tickedBetween :
    actions (relayLoop WSConn.reader
      ⟨[], (tickedBetween nullCipher).wire.map Written.message, 0⟩ nullCipher) =
        [.connect 0 [0x74, 0x63, 0x70] [0x61, 0x3a, 0x31], .writeStream 0 [7]] := by
  obtain ⟨d, d', d'', hwire, hd, hd''⟩ := wire_tickedBetween
  refine (shaper_unseen (run_tickedBetween nullCipher) ⟨by decide, by decide, by decide, by decide⟩
    (nullAead_correct aeadOverhead) (by decide) ?_ rfl (UInt64.le_refl _) WSConn.reader _ ?_).trans ?_
  · intro w hw hg
    rw [hwire] at hw
    simp only [List.mem_cons, List.not_mem_nil, or_false] at hw
    rcases hw with rfl | rfl | rfl
    · exact hd.trans (by decide)
    · exact (hg rfl).elim
    · exact hd''.trans (by decide)
  · exact WSConn.pending_of_accepts fun msg _ => .inl rfl
  · have hothers : (tickedBetween nullCipher).wire.filter (·.goroutine ≠ .shaper) =
        [Written.mk (.writer 0) dialCall d, Written.mk (.writer 0) dataCall d''] := by
      simp [hwire]
    have hacts : acted relaySwitch [dialCall.plaintext.getD [], dataCall.plaintext.getD []] =
        [.connect 0 [0x74, 0x63, 0x70] [0x61, 0x3a, 0x31], .writeStream 0 [7]] := by decide
    rw [hothers, ← hacts]
    rfl

end Shaping

end SshPanelVpn.ShadowLink

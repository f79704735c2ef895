import SshPanelVpn.Library.Runs
import SshPanelVpn.ShadowLink.Crypto

/-! What a receiving cipher accepts over a sequence of inputs, genuine and forged. -/
namespace SshPanelVpn.ShadowLink

open Octets Sealing Runs

namespace SessionCipher

variable {sc : SessionCipher} {data : Bytes} {inputs : List Bytes}

/-- The cipher after one `Decrypt` call, whatever it returned. -/
def afterDecrypt (sc : SessionCipher) (data : Bytes) : SessionCipher := (sc.decrypt data).2

/-- A message that `Open` authenticates under the cipher's key. -/
def Genuine (sc : SessionCipher) (data : Bytes) : Prop :=
  nonceSize + aeadOverhead ≤ data.length ∧ (sc.opened data).isSome

instance : Decidable (sc.Genuine data) := inferInstanceAs (Decidable (_ ∧ _))

def Accepts (sc : SessionCipher) (data : Bytes) : Prop :=
  sc.Genuine data ∧ sc.recvNonce ≤ nonceSeq data

instance : Decidable (sc.Accepts data) := inferInstanceAs (Decidable (_ ∧ _))

theorem accepts_iff : sc.Accepts data ↔ ∃ plaintext, (sc.decrypt data).1 = .ok plaintext := by
  simp only [decrypt_ok_iff, Accepts, Genuine, ReachesOpen, Option.isSome_iff_exists]
  constructor
  · rintro ⟨⟨hl, p, hp⟩, hn⟩
    exact ⟨p, ⟨hl, hn⟩, hp⟩
  · rintro ⟨p, ⟨hl, hn⟩, hp⟩
    exact ⟨⟨hl, p, hp⟩, hn⟩

theorem not_accepts_iff : ¬ sc.Accepts data ↔ ∃ e, (sc.decrypt data).1 = .error e := by
  rw [accepts_iff]
  cases h : (sc.decrypt data).1 <;> simp

@[simp] theorem genuine_afterDecrypt {data' : Bytes} :
    (sc.afterDecrypt data').Genuine data ↔ sc.Genuine data := by
  simp [Genuine, opened, afterDecrypt]

/-- The messages that successive `Decrypt` calls accept, in order. -/
def accepted : SessionCipher → List Bytes → List Bytes
  | _, [] => []
  | sc, data :: inputs =>
    match sc.decrypt data with
    | (.ok _, sc') => data :: accepted sc' inputs
    | (.error _, sc') => accepted sc' inputs

theorem accepted_cons_of_accepts (h : sc.Accepts data) :
    sc.accepted (data :: inputs) = data :: (sc.afterDecrypt data).accepted inputs := by
  obtain ⟨p, hp⟩ := accepts_iff.mp h
  rcases hd : sc.decrypt data with ⟨r, sc'⟩
  simp_all [accepted, afterDecrypt]

theorem accepted_cons_of_not_accepts (h : ¬ sc.Accepts data) :
    sc.accepted (data :: inputs) = (sc.afterDecrypt data).accepted inputs := by
  obtain ⟨e, he⟩ := not_accepts_iff.mp h
  rcases hd : sc.decrypt data with ⟨r, sc'⟩
  simp_all [accepted, afterDecrypt]

/-- The call leaves the receive state alone if it fails. -/
def ErrorLeavesState (sc : SessionCipher) (data : Bytes) : Prop :=
  ∀ e, (sc.decrypt data).1 = .error e → sc.afterDecrypt data = sc

/-- The bytes fail before the counter is stored, or authenticate, or would store the value that is
already there. -/
def Harmless (sc : SessionCipher) (data : Bytes) : Prop :=
  data.length < nonceSize + aeadOverhead ∨ nonceSeq data < sc.recvNonce ∨ sc.Genuine data ∨
    nonceSeq data + 1 = sc.recvNonce

/-- The successor of the header's sequence number does not wrap to zero. -/
def BelowLast (data : Bytes) : Prop := nonceSeq data ≠ UInt64.ofNat (2 ^ 64 - 1)

theorem afterDecrypt_of_accepts (h : sc.Accepts data) :
    sc.afterDecrypt data = { sc with recvNonce := nonceSeq data + 1 } := by
  rw [afterDecrypt, decrypt_snd, if_pos ⟨h.1.1, h.2⟩]

theorem errorLeavesState_iff : sc.ErrorLeavesState data ↔ sc.Harmless data := by
  by_cases ha : sc.Accepts data
  · have hg : sc.Harmless data := Or.inr (Or.inr (Or.inl ha.1))
    obtain ⟨p, hp⟩ := accepts_iff.mp ha
    simp [ErrorLeavesState, hp, hg]
  · obtain ⟨e, he⟩ := not_accepts_iff.mp ha
    have hs : sc.ErrorLeavesState data ↔ sc.afterDecrypt data = sc := by
      simp [ErrorLeavesState, he]
    rw [hs, afterDecrypt, decrypt_snd]
    by_cases hr : sc.ReachesOpen data
    · have hng : ¬ sc.Genuine data := fun hg => ha ⟨hg, hr.2⟩
      rw [if_pos hr, Harmless]
      constructor
      · intro h
        exact Or.inr (Or.inr (Or.inr (congrArg SessionCipher.recvNonce h)))
      · rintro (h | h | h | h)
        · exact (Nat.not_lt.mpr hr.1 h).elim
        · exact (UInt64.not_lt.mpr hr.2 h).elim
        · exact (hng h).elim
        · rw [h]
    · rw [if_neg hr]
      refine iff_of_true rfl ?_
      rcases Decidable.not_and_iff_not_or_not.mp hr with h | h
      · exact Or.inl (Nat.not_le.mp h)
      · exact Or.inr (Or.inl (UInt64.not_le.mp h))

theorem toNat_succ_of_belowLast (h : BelowLast data) :
    (nonceSeq data + 1).toNat = (nonceSeq data).toNat + 1 := by
  have hlt := (nonceSeq data).toNat_lt
  have hne : (nonceSeq data).toNat ≠ 2 ^ 64 - 1 := by
    intro he
    apply h
    rw [← he, UInt64.ofNat_toNat]
  have h1 : (1 : UInt64).toNat = 1 := rfl
  rw [UInt64.toNat_add, h1]
  omega

/-- The inputs for which a `Decrypt` call keeps the contract of the receive counter. -/
def Safe (sc : SessionCipher) (data : Bytes) : Prop :=
  sc.Harmless data ∧ (sc.Accepts data → BelowLast data)

/-- A safe call either accepts and moves the counter past the header, or changes nothing. -/
theorem safe_cases (h : sc.Safe data) :
    (sc.Accepts data ∧ (sc.afterDecrypt data).recvNonce.toNat = (nonceSeq data).toNat + 1 ∧
      sc.recvNonce.toNat ≤ (nonceSeq data).toNat) ∨
    (¬ sc.Accepts data ∧ sc.afterDecrypt data = sc) := by
  by_cases ha : sc.Accepts data
  · refine Or.inl ⟨ha, ?_, UInt64.le_iff_toNat_le.mp ha.2⟩
    rw [afterDecrypt_of_accepts ha]
    exact toNat_succ_of_belowLast (h.2 ha)
  · obtain ⟨e, he⟩ := not_accepts_iff.mp ha
    exact Or.inr ⟨ha, errorLeavesState_iff.mpr h.1 e he⟩

theorem opened_after : (after afterDecrypt sc inputs).opened data = sc.opened data := by
  induction inputs generalizing sc with
  | nil => rfl
  | cons d inputs ih =>
    rw [after_cons, ih]
    simp [opened, afterDecrypt]

/-- Over safe inputs every accepted header lies between the counters before and after. -/
theorem accepted_between (h : Along afterDecrypt Safe sc inputs) :
    sc.recvNonce.toNat ≤ (after afterDecrypt sc inputs).recvNonce.toNat ∧
      ∀ d ∈ sc.accepted inputs, sc.recvNonce.toNat ≤ (nonceSeq d).toNat ∧
        (nonceSeq d).toNat < (after afterDecrypt sc inputs).recvNonce.toNat := by
  induction inputs generalizing sc with
  | nil => simp [accepted]
  | cons data inputs ih =>
    obtain ⟨hle, hmem⟩ := ih h.2
    rw [after_cons]
    rcases safe_cases h.1 with ⟨ha, hn, hr⟩ | ⟨ha, hs⟩
    · rw [accepted_cons_of_accepts ha]
      refine ⟨by omega, ?_⟩
      intro d hd
      rcases List.mem_cons.mp hd with rfl | hd
      · exact ⟨hr, by omega⟩
      · have hd := hmem d hd
        exact ⟨by omega, hd.2⟩
    · rw [accepted_cons_of_not_accepts ha]
      rw [hs] at hle hmem ⊢
      exact ⟨hle, hmem⟩

/-- After safe inputs the counter stands right after the last accepted header. -/
theorem recvNonce_after (h : Along afterDecrypt Safe sc inputs) :
    (after afterDecrypt sc inputs).recvNonce.toNat =
      match (sc.accepted inputs).getLast? with
      | none => sc.recvNonce.toNat
      | some d => (nonceSeq d).toNat + 1 := by
  induction inputs generalizing sc with
  | nil => rfl
  | cons data inputs ih =>
    rw [after_cons, ih h.2]
    rcases safe_cases h.1 with ⟨ha, hn, -⟩ | ⟨ha, hs⟩
    · rw [accepted_cons_of_accepts ha, List.getLast?_cons]
      cases ((sc.afterDecrypt data).accepted inputs).getLast? <;> simp [hn]
    · rw [accepted_cons_of_not_accepts ha, hs]

/-- What a receiver owes its peer, whatever else is fed to it: failed calls leave no trace, every
genuine message newer than the last accepted one still decrypts, and none decrypts twice. -/
structure ReceiveContract (sc : SessionCipher) (inputs : List Bytes) : Prop where
  error_leaves_state : Along afterDecrypt ErrorLeavesState sc inputs
  newer_decrypts : ∀ pre, pre <+: inputs → ∀ data plaintext, sc.Genuine data →
    sc.opened data = some plaintext → sc.recvNonce ≤ nonceSeq data →
    (∀ d ∈ (sc.accepted pre).getLast?, nonceSeq d < nonceSeq data) →
    ((after afterDecrypt sc pre).decrypt data).1 = .ok plaintext
  never_twice : ∀ pre, pre <+: inputs → ∀ d ∈ sc.accepted pre,
    ∃ e, ((after afterDecrypt sc pre).decrypt d).1 = .error e

theorem newer_decrypts_of_safe {plaintext : Bytes} (h : Along afterDecrypt Safe sc inputs)
    (hg : sc.Genuine data) (ho : sc.opened data = some plaintext)
    (hr : sc.recvNonce ≤ nonceSeq data)
    (hlast : ∀ d ∈ (sc.accepted inputs).getLast?, nonceSeq d < nonceSeq data) :
    ((after afterDecrypt sc inputs).decrypt data).1 = .ok plaintext := by
  have hn := recvNonce_after h
  apply decrypt_ok_iff.mpr
  refine ⟨⟨hg.1, ?_⟩, by rw [opened_after, ho]⟩
  apply UInt64.le_iff_toNat_le.mpr
  rcases hl : (sc.accepted inputs).getLast? with _ | d
  · simp only [hl] at hn
    rw [hn]
    exact UInt64.le_iff_toNat_le.mp hr
  · simp only [hl] at hn
    rw [hn]
    exact UInt64.lt_iff_toNat_lt.mp (hlast d (by simp [hl]))

theorem never_twice_of_safe (h : Along afterDecrypt Safe sc inputs) {d : Bytes}
    (hd : d ∈ sc.accepted inputs) :
    ∃ e, ((after afterDecrypt sc inputs).decrypt d).1 = .error e := by
  apply not_accepts_iff.mp
  intro ha
  have hlt := ((accepted_between h).2 d hd).2
  have hle := UInt64.le_iff_toNat_le.mp ha.2
  omega

/-- A message accepted with the last sequence number resets the counter, so it decrypts again. -/
theorem accepts_again_of_last (ha : sc.Accepts data) (hl : ¬ BelowLast data) :
    (sc.afterDecrypt data).Accepts data := by
  refine ⟨genuine_afterDecrypt.mpr ha.1, ?_⟩
  have hz : nonceSeq data + 1 = 0 := by
    rw [not_not.mp hl]
    rfl
  rw [afterDecrypt_of_accepts ha, hz]
  exact UInt64.le_iff_toNat_le.mpr (Nat.zero_le _)

theorem safe_of_never_twice (hs : Along afterDecrypt Harmless sc inputs)
    (ht : ∀ pre, pre <+: inputs → ∀ d ∈ sc.accepted pre,
      ∃ e, ((after afterDecrypt sc pre).decrypt d).1 = .error e) :
    Along afterDecrypt Safe sc inputs := by
  induction inputs generalizing sc with
  | nil => trivial
  | cons data inputs ih =>
    refine ⟨⟨hs.1, ?_⟩, ih hs.2 ?_⟩
    · intro ha
      by_contra hl
      obtain ⟨e, he⟩ := ht [data] ⟨inputs, rfl⟩ data (by simp [accepted_cons_of_accepts ha])
      exact not_accepts_iff.mpr ⟨e, he⟩ (accepts_again_of_last ha hl)
    · rintro pre ⟨post, rfl⟩ d hd
      apply ht (data :: pre) ⟨post, rfl⟩ d
      by_cases ha : sc.Accepts data
      · rw [accepted_cons_of_accepts ha]
        exact List.mem_cons_of_mem _ hd
      · rwa [accepted_cons_of_not_accepts ha]

/-- The contract holds over exactly the input sequences all of whose calls are safe. -/
theorem receiveContract_iff_safe (sc : SessionCipher) (inputs : List Bytes) :
    sc.ReceiveContract inputs ↔ Along afterDecrypt Safe sc inputs := by
  constructor
  · intro h
    apply safe_of_never_twice _ h.never_twice
    exact h.error_leaves_state.imp fun _ _ => errorLeavesState_iff.mp
  · intro h
    refine ⟨h.imp fun _ _ hs => errorLeavesState_iff.mpr hs.1, ?_, ?_⟩
    · rintro pre ⟨post, rfl⟩ data plaintext hg ho hr hlast
      exact newer_decrypts_of_safe (along_append.mp h).1 hg ho hr hlast
    · rintro pre ⟨post, rfl⟩ d hd
      exact never_twice_of_safe (along_append.mp h).1 hd

/-- A forged header far ahead of the counter, under a tag that does not authenticate. -/
def forgedHeader : Bytes := nonceBytes 5 ++ List.replicate 16 1

/-- The forgery is rejected and yet moves the counter from 0 to 6. -/
theorem receiveContract_forgedHeader : ¬ nullCipher.ReceiveContract [forgedHeader] := by
  intro h
  have he : (nullCipher.decrypt forgedHeader).1 =
      failWith "chacha20poly1305: message authentication failed" := rfl
  have hs := h.error_leaves_state.1 _ he
  have hn : (nullCipher.afterDecrypt forgedHeader).recvNonce = 6 := rfl
  rw [hs] at hn
  exact absurd hn (by decide)

end SessionCipher

end SshPanelVpn.ShadowLink

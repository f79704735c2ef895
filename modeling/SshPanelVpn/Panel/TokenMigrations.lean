import Mathlib.Algebra.Group.Nat.Defs
import Mathlib.Data.List.Nodup
import Mathlib.Logic.Function.Basic

/-! The migrations 0002 to 0005 of the accounts: their tokens. -/
namespace SshPanelVpn.Panel

abbrev Uuid := BitVec 128

/-- The values of a column, by the keys of the rows. -/
abbrev Column (β : Type) := Nat → β

/-- The accounts during the migrations: the rows by key, with their columns of 0001, and the columns
that come later, where they are there. -/
structure MigratingTable (α : Type) where
  rows : List (Nat × α)
  ids : (rows.map Prod.fst).Nodup
  accessToken : Option (Column Uuid)
  authToken : Option (Column (Option Uuid))
  protocolType : Option (Column String)
  /-- 0002 is among the migrations that have been recorded as applied. -/
  applied : Bool
  accessUnique : applied = true →
    ∃ access, accessToken = some access ∧ (rows.map fun r => access r.1).Nodup

inductive MigrationError where
  | duplicateColumn
  | integrityError
  deriving DecidableEq, Repr

namespace MigratingTable

variable {α : Type}

/-- 0002: `AddField` evaluates the default once, for all rows. -/
def addAccessToken (default : Uuid) (t : MigratingTable α) :
    Except MigrationError (MigratingTable α) :=
  match t.accessToken with
  | some _ => .error .duplicateColumn
  | none =>
    if h : (t.rows.map fun _ => default).Nodup then
      .ok { t with accessToken := some fun _ => default, applied := true,
                   accessUnique := fun _ => ⟨_, rfl, h⟩ }
    else .error .integrityError

/-- 0003. -/
def addColumnsIfMissing (t : MigratingTable α) : MigratingTable α :=
  { t with
    authToken := some (t.authToken.getD fun _ => none)
    protocolType := some (t.protocolType.getD fun _ => "ssh") }

/-- `account.save(update_fields=["auth_token"])`. -/
def saveAuthToken (t : MigratingTable α) (id : Nat) (token : Uuid) : MigratingTable α :=
  { t with authToken := t.authToken.map fun auth => Function.update auth id (some token) }

/-- The loop of 0004; `n` calls of `uuid4` have been made before. -/
def populateUniqueAuthTokens (draw : Nat → Uuid) : Nat → List (Nat × α) → MigratingTable α →
    MigratingTable α
  | _, [], t => t
  | n, account :: accounts, t =>
    populateUniqueAuthTokens draw (n + 1) accounts (t.saveAuthToken account.1 (draw n))

/-- 0005: `AlterField` gives rows without a token the default, then makes the column unique. -/
def makeAuthTokenUnique (default : Uuid) (t : MigratingTable α) :
    Except MigrationError (MigratingTable α) :=
  let auth := t.authToken.map fun auth id => some ((auth id).getD default)
  if (t.rows.map fun r => auth.map fun auth => auth r.1).Nodup then .ok { t with authToken := auth }
  else .error .integrityError

/-- The chain, from the first migration that is not recorded. -/
def migrate (draw : Nat → Uuid) (t : MigratingTable α) : Except MigrationError (MigratingTable α) := do
  let t ← if t.applied then .ok t else t.addAccessToken (draw 0)
  let t := t.addColumnsIfMissing
  let t := populateUniqueAuthTokens draw 1 t.rows t
  t.makeAuthTokenUnique (draw (t.rows.length + 1))

/-- The chain completes, every row has its own tokens, and what was there is unchanged. -/
def Migrates (draw : Nat → Uuid) (t : MigratingTable α) : Prop :=
  ∃ t' access auth, t.migrate draw = .ok t' ∧ t'.rows = t.rows ∧
    t'.accessToken = some access ∧ (t.rows.map fun r => access r.1).Nodup ∧
    t'.authToken = some auth ∧ (∀ r ∈ t.rows, (auth r.1).isSome = true) ∧
    (t.rows.map fun r => auth r.1).Nodup ∧
    (∀ old, t.accessToken = some old → ∀ r ∈ t.rows, access r.1 = old r.1) ∧
    (∀ old, t.authToken = some old → ∀ r ∈ t.rows, (old r.1).isSome = true → auth r.1 = old r.1) ∧
    ∀ old, t.protocolType = some old → t'.protocolType = some old

/-- `uuid4` gives new values: none twice, and none that is a token already. -/
structure DrawsNew (draw : Nat → Uuid) (t : MigratingTable α) : Prop where
  distinct : ∀ i j, i ≤ t.rows.length → j ≤ t.rows.length → draw i = draw j → i = j
  unused : ∀ old, t.authToken = some old → ∀ r ∈ t.rows, ∀ i, i ≤ t.rows.length →
    old r.1 ≠ some (draw i)

/-- No row needs an access token that another needs too, and none has an auth token. -/
structure Simple (t : MigratingTable α) : Prop where
  access : t.applied = false → t.accessToken = none ∧ t.rows.length ≤ 1
  auth : ∀ old, t.authToken = some old → ∀ r ∈ t.rows, old r.1 = none

/-! The steps. -/

section Steps

variable {draw : Nat → Uuid} {t t' : MigratingTable α}

theorem nodup_const_iff {β γ : Type} {l : List β} {c : γ} :
    (l.map fun _ => c).Nodup ↔ l.length ≤ 1 := by
  rw [List.map_const', List.nodup_replicate]

theorem addAccessToken_ok_iff {default : Uuid} :
    (∃ t', t.addAccessToken default = .ok t') ↔ t.accessToken = none ∧ t.rows.length ≤ 1 := by
  unfold addAccessToken
  split
  · next access haccess => exact iff_of_false (by simp) (by simp [haccess])
  · next hnone =>
    split
    · next h => exact iff_of_true ⟨_, rfl⟩ ⟨hnone, nodup_const_iff.mp h⟩
    · next h => exact iff_of_false (by simp) fun hlen => h (nodup_const_iff.mpr hlen.2)

/-- What 0002 leaves alone. -/
theorem addAccessToken_keeps {default : Uuid} (h : t.addAccessToken default = .ok t') :
    t'.rows = t.rows ∧ t'.authToken = t.authToken ∧ t'.protocolType = t.protocolType ∧
      t'.applied = true := by
  unfold addAccessToken at h
  split at h
  · cases h
  · split at h
    · cases h
      exact ⟨rfl, rfl, rfl, rfl⟩
    · cases h

/-- The loop writes only its column. -/
theorem populate_keeps (draw : Nat → Uuid) (accounts : List (Nat × α)) (n : Nat) (t : MigratingTable α) :
    let s := populateUniqueAuthTokens draw n accounts t
    s.rows = t.rows ∧ s.accessToken = t.accessToken ∧ s.protocolType = t.protocolType := by
  induction accounts generalizing n t with
  | nil => exact ⟨rfl, rfl, rfl⟩
  | cons account accounts ih => exact ih (n + 1) (t.saveAuthToken account.1 (draw n))

/-- The `k`-th account gets the `k`-th token, and no other row is written. -/
theorem populate_auth (draw : Nat → Uuid) {accounts : List (Nat × α)}
    (hids : (accounts.map Prod.fst).Nodup) (n : Nat) {auth : Column (Option Uuid)} (h : t.authToken = some auth) :
    ∃ auth', (populateUniqueAuthTokens draw n accounts t).authToken = some auth' ∧
      (∀ id, id ∉ accounts.map Prod.fst → auth' id = auth id) ∧
      (accounts.map fun r => auth' r.1) = (List.range' n accounts.length).map (some ∘ draw) := by
  induction accounts generalizing n t auth with
  | nil => exact ⟨auth, h, fun _ _ => rfl, rfl⟩
  | cons account accounts ih =>
    obtain ⟨hnew, hids⟩ := List.nodup_cons.mp hids
    have hsaved : (t.saveAuthToken account.1 (draw n)).authToken =
        some (Function.update auth account.1 (some (draw n))) := by
      rw [saveAuthToken, h]
      rfl
    obtain ⟨auth', hauth', hother, hmap⟩ := ih hids (n + 1) hsaved
    refine ⟨auth', hauth', ?_, ?_⟩
    · intro id hid
      have hne : id ≠ account.1 := fun he => hid (he ▸ List.mem_cons_self)
      rw [hother id fun hmem => hid (List.mem_cons_of_mem _ hmem), Function.update_of_ne hne]
    · rw [List.map_cons, List.length_cons, List.range'_succ, List.map_cons, hmap,
        hother account.1 hnew, Function.update_self]
      rfl

theorem nodup_draws {n : Nat} (h : ∀ i j, i ≤ n → j ≤ n → draw i = draw j → i = j) :
    ((List.range' 1 n).map (some ∘ draw)).Nodup := by
  refine List.Nodup.map_on ?_ List.nodup_range'
  intro i hi j hj he
  rw [List.mem_range'_1] at hi hj
  exact h i j (by omega) (by omega) (Option.some.inj he)

/-- The chain after 0002 goes through, and the `k`-th row has the `k`-th token. -/
theorem migrate_applied (ht : t.applied = true)
    (hdraw : ∀ i j, i ≤ t.rows.length → j ≤ t.rows.length → draw i = draw j → i = j) :
    ∃ t' auth, t.migrate draw = .ok t' ∧ t'.rows = t.rows ∧ t'.accessToken = t.accessToken ∧
      t'.protocolType = some (t.protocolType.getD fun _ => "ssh") ∧ t'.authToken = some auth ∧
      (t.rows.map fun r => auth r.1) = (List.range' 1 t.rows.length).map (some ∘ draw) := by
  obtain ⟨hrows, haccess, hprotocol⟩ := populate_keeps draw t.rows 1 t.addColumnsIfMissing
  obtain ⟨auth, hauth, -, hmap⟩ := populate_auth draw (t := t.addColumnsIfMissing) t.ids 1 rfl
  have hmap' : (t.rows.map fun r => some ((auth r.1).getD (draw (t.rows.length + 1)))) =
      (List.range' 1 t.rows.length).map (some ∘ draw) := by
    rw [← hmap]
    refine List.map_congr_left fun r hr => ?_
    obtain ⟨i, -, hi⟩ := List.mem_map.mp (hmap ▸ List.mem_map_of_mem hr)
    rw [← hi]
    rfl
  refine ⟨{ populateUniqueAuthTokens draw 1 t.rows t.addColumnsIfMissing with
    authToken := some fun id => some ((auth id).getD (draw (t.rows.length + 1))) }, _, ?_, hrows, haccess,
    hprotocol, rfl, hmap'⟩
  have hrows' : t.addColumnsIfMissing.rows = t.rows := rfl
  simp only [migrate, ht, if_true, bind, Except.bind, hrows', makeAuthTokenUnique, hrows, hauth,
    Option.map_some]
  refine if_pos ?_
  have hsome := (hmap' ▸ nodup_draws hdraw).map fun _ _ h => Option.some.inj h
  rw [List.map_map] at hsome
  exact hsome

/-- The chain goes on from a table with 0002 applied, or it has ended. -/
theorem migrate_start (draw : Nat → Uuid) (t : MigratingTable α) :
    (t.applied = false → t.accessToken = none ∧ t.rows.length ≤ 1) ∧
      (∃ s : MigratingTable α, t.migrate draw = s.migrate draw ∧ s.applied = true ∧ s.rows = t.rows ∧
        s.authToken = t.authToken ∧ s.protocolType = t.protocolType ∧
        ∀ old, t.accessToken = some old → s.accessToken = some old) ∨
    ¬ (t.applied = false → t.accessToken = none ∧ t.rows.length ≤ 1) ∧ ∀ t', t.migrate draw ≠ .ok t' := by
  cases ht : t.applied with
  | true => exact .inl ⟨by simp, t, rfl, ht, rfl, rfl, rfl, fun _ h => h⟩
  | false =>
    cases hs : t.addAccessToken (draw 0) with
    | ok s =>
      have hsimple := addAccessToken_ok_iff.mp ⟨s, hs⟩
      obtain ⟨hrows, hauth, hprotocol, happlied⟩ := addAccessToken_keeps hs
      refine .inl ⟨fun _ => hsimple, s, ?_, happlied, hrows, hauth, hprotocol, ?_⟩
      · simp only [migrate, ht, hs, happlied, if_true, Bool.false_eq_true, if_false]
      · intro old hold
        rw [hsimple.1] at hold
        cases hold
    | error e =>
      refine .inr ⟨fun h => ?_, fun t' h => ?_⟩
      · obtain ⟨s, hok⟩ := addAccessToken_ok_iff.mpr (h rfl)
        rw [hs] at hok
        cases hok
      · simp only [migrate, ht, hs, Bool.false_eq_true, if_false, bind, Except.bind] at h
        cases h

end Steps

/-- Accounts by name, without the columns that come later. -/
def ofNames (names : List (Nat × String)) (h : (names.map Prod.fst).Nodup) : MigratingTable String :=
  ⟨names, h, none, none, none, false, fun h => by cases h⟩

theorem drawsNew_ofNat {t : MigratingTable α} (hlen : t.rows.length < 2 ^ 128)
    (hauth : t.authToken = none) : DrawsNew (BitVec.ofNat 128) t where
  distinct i j hi hj he := by
    have hnat := congrArg BitVec.toNat he
    rw [BitVec.toNat_ofNat, BitVec.toNat_ofNat, Nat.mod_eq_of_lt (by omega),
      Nat.mod_eq_of_lt (by omega)] at hnat
    exact hnat
  unused old hold := by
    rw [hauth] at hold
    cases hold

/-- A table on which 0002 has been applied, with a token for each account. -/
def appliedTable : MigratingTable String where
  rows := [(1, "alice"), (2, "bob"), (3, "carol")]
  ids := by decide
  accessToken := some (BitVec.ofNat 128)
  authToken := none
  protocolType := none
  applied := true
  accessUnique := fun _ => ⟨_, rfl, by decide⟩

def twoAccounts : MigratingTable String := ofNames [(1, "alice"), (2, "bob")] (by decide)

end MigratingTable

end SshPanelVpn.Panel

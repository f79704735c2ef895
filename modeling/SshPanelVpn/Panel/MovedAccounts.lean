import SshPanelVpn.Panel.FailedChanges
import SshPanelVpn.Panel.SucceedingSteps
import SshPanelVpn.Panel.ServiceWrites

/-! What is left of an account that `rebalance_users` has moved. -/
namespace SshPanelVpn.Panel

open Effects Runs ShadowLink
open Effects.Prog (run_bind)

/-- The owner of the account can go on using it with what the panel shows: it has the old end and the
old limit, and its server has the user with the shown password, or the bridge its token. -/
structure StillUsable (limits : Nat → Str → Option Int) (a b : Account) (t : World × List Deed) : Prop where
  expireDate : b.expireDate = a.expireDate
  maxConnections : b.maxConnections = a.maxConnections
  ssh : b.protocolType = .ssh → loginAt (limits b.server b.username) b.server b.username t =
    some ⟨⟨some b.passwordDisplay, false, some b.expireDate.isoDate⟩, some b.maxConnections⟩
  shadowlink : b.protocolType = .shadowlink → (t.1.nodes b.server).bridge.tokens.lookup b.authToken =
    some ⟨b.authToken, b.maxConnections, true⟩

/-- `rebalance_users` ran for these accounts, with every remote step succeeding: `useradd` has taken
their names, and `generate_temp_password` has drawn no line break. -/
structure AllMoved (envs : Account → Env) (accs : List Account) (t : World × List Deed) : Prop where
  steps : t.1.AllSucceeded
  names : ∀ a ∈ accs, '\n' ∉ a.username ∧ ':' ∉ a.username
  passwords : ∀ a ∈ accs, '\n' ∉ (envs a).password

/-- The account finds its server: the least loaded one, where its name is free. -/
def MovesTo (env : Env) (s : World × List Deed) (acc : Account) (target : Server) : Prop :=
  s.1.db.pickBestServer env.ties none = some target ∧ target.id ≠ acc.server ∧
    (s.1.db.accounts.move acc.id target.id).isSome = true

/-- No account of the loop gets to the server whose name the name begins with. -/
def LeftAlone (envs : Account → Env) (down : Server) (u : Str) (server : Nat) (s : World × List Deed)
    (accs : List Account) : Prop :=
  Along (rebalanceStep envs down) (fun s b => ∀ target,
    s.1.db.pickBestServer (envs b).ties none = some target → target.id = server →
      b.username.isPrefixOf u = false) s accs

/-- For every account that is moved: the password drawn for it is the one that is shown, and nobody
takes its limit away, or the new bridge has had its token all along. -/
def KeepsAccounts (envs : Account → Env) (down : Server) (s : World × List Deed)
    (accs : List Account) : Prop :=
  ∀ xs a ys, accs = xs ++ a :: ys → ∀ target,
    MovesTo (envs a) (after (rebalanceStep envs down) s xs) a target →
    match a.protocolType with
    | .ssh => (envs a).password = a.passwordDisplay ∧ LeftAlone envs down a.username target.id
        (after (rebalanceStep envs down) s (xs ++ [a])) ys
    | .shadowlink => (s.1.nodes target.id).bridge.tokens.lookup a.authToken =
        some ⟨a.authToken, a.maxConnections, true⟩

variable {env : Env} {envs : Account → Env} {down target : Server} {acc : Account}
  {s : World × List Deed}

/-! One account. -/

theorem rebalanceUser_noServer (h : s.1.db.pickBestServer env.ties none = none) :
    (rebalanceUser env down acc s).2 = s := by
  have hnone : (pickBestServer none).run (World.recorded env) s = (.error noServers, s) := by
    rw [run_pickBestServer, h]
  rw [rebalanceUser, rebalanceOn, run_bind, hnone]

theorem rebalanceUser_picked (h : s.1.db.pickBestServer env.ties none = some target) :
    rebalanceUser env down acc s =
      match (rebalanceTo target acc env.password).run (World.recorded env) s with
      | (.error e, t) => (.error e, t)
      | (.ok _, t) =>
        match t.1.db.accounts.move acc.id target.id with
        | none => (.error .integrityError, t)
        | some accounts =>
          (.ok (), { t.1 with db := { t.1.db with
            accounts := accounts
            auditLog := ⟨.rebalance, some acc.id, none, "Moved from ".toList ++ down.name ++
              " to ".toList ++ target.name⟩ :: t.1.db.auditLog } }, t.2) := by
  have hon := run_rebalanceOn env acc h
  rw [run_bind] at hon
  rw [rebalanceUser, hon]
  rcases (rebalanceTo target acc env.password).run (World.recorded env) s with ⟨e | y, t⟩ <;> rfl

/-- What one account of the loop does, if its commands succeed. -/
structure MoveDone (target : Server) (acc : Account) (password : Str) (s t : World × List Deed) :
    Prop where
  user : (t.1.nodes target.id).users.lookup acc.username =
    some ⟨some password, false, some acc.expireDate.isoDate⟩
  limits : ∀ limit i v, loginLimit limit i v t.2 =
    if target.id = i ∧ acc.username = v then some (acc.maxConnections : Int)
    else if target.id = i ∧ acc.username.isPrefixOf v then none else loginLimit limit i v s.2
  others : OnlyUser target.id acc.username s t
  accounts : t.1.db.accounts = (s.1.db.accounts.move acc.id target.id).getD s.1.db.accounts

theorem moveDone_of_succeeded (hplain : PlainPassword acc.username env.password)
    (hpick : s.1.db.pickBestServer env.ties none = some target)
    (h : (rebalanceUser env down acc s).2.1.AllSucceeded) :
    MoveDone target acc env.password s (rebalanceUser env down acc s).2 := by
  have hpicked : rebalanceUser env down acc s = _ := rebalanceUser_picked hpick
  have hkeep : KeepsRest target s
      ((rebalanceTo target acc env.password).run (World.recorded env) s).2 :=
    keepsRest_run (calls_rebalanceTo target acc env.password) s
  have hlog : (rebalanceUser env down acc s).2.1.log =
      ((rebalanceTo target acc env.password).run (World.recorded env) s).2.1.log := by
    rw [hpicked]
    split
    · next heq => rw [heq]
    · next heq =>
      rw [heq]
      split <;> rfl
  have hfine : ((rebalanceTo target acc env.password).run (World.recorded env) s).2.1.AllSucceeded := by
    intro e he
    exact h e (hlog ▸ he)
  obtain ⟨hok, huser, hlimits, hothers⟩ := rebalanceTo_of_succeeded hplain hfine
  rcases hr : (rebalanceTo target acc env.password).run (World.recorded env) s with ⟨e | y, t⟩
  · rw [hr] at hok
    cases hok
  · rw [hr] at hpicked huser hlimits hothers hkeep
    have hdb : t.1.db = s.1.db := hkeep.db
    rw [hpicked]
    dsimp only
    cases hmove : t.1.db.accounts.move acc.id target.id with
    | none =>
      rw [hdb] at hmove
      exact ⟨huser, hlimits, hothers, by rw [hdb, hmove]; rfl⟩
    | some accounts =>
      rw [hdb] at hmove
      exact ⟨huser, hlimits, hothers, by rw [hmove]; rfl⟩

theorem log_rebalanceStep (s : World × List Deed) (acc : Account) :
    s.1.log <:+ (rebalanceStep envs down s acc).1.log := by
  unfold rebalanceStep
  cases hpick : s.1.db.pickBestServer (envs acc).ties none with
  | none =>
    rw [rebalanceUser_noServer hpick]
  | some target =>
    have hlog := log_run (envs acc) (rebalanceTo target acc (envs acc).password) s
    rw [rebalanceUser_picked hpick]
    split
    · next heq =>
      rw [heq] at hlog
      exact hlog
    · next heq =>
      rw [heq] at hlog
      split <;> exact hlog

theorem allSucceeded_before (accs : List Account)
    (h : (after (rebalanceStep envs down) s accs).1.AllSucceeded) : s.1.AllSucceeded := by
  induction accs generalizing s with
  | nil => exact h
  | cons acc accs ih => exact fun e he => ih h e ((log_rebalanceStep s acc).mem he)

/-- The rows of other accounts stay in the table. -/
theorem mem_rebalanceStep {a : Account} (ha : a ∈ s.1.db.accounts) (hne : a.id ≠ acc.id)
    (hplain : PlainPassword acc.username (envs acc).password)
    (h : (rebalanceStep envs down s acc).1.AllSucceeded) :
    a ∈ (rebalanceStep envs down s acc).1.db.accounts := by
  unfold rebalanceStep at h ⊢
  cases hpick : s.1.db.pickBestServer (envs acc).ties none with
  | none =>
    rw [rebalanceUser_noServer hpick]
    exact ha
  | some target =>
    rw [(moveDone_of_succeeded hplain hpick h).accounts]
    cases hmove : s.1.db.accounts.move acc.id target.id with
    | none => exact ha
    | some accounts =>
      exact (AccountTable.mem_move hmove).mpr ⟨a, ha, by simp [AccountTable.moved, hne]⟩

/-! The accounts that come later. -/

section Later

variable {accs : List Account} {u : Str} {server : Nat}

theorem mem_after {a : Account} (ha : a ∈ s.1.db.accounts) (hne : ∀ b ∈ accs, a.id ≠ b.id)
    (hplain : ∀ b ∈ accs, PlainPassword b.username (envs b).password)
    (h : (after (rebalanceStep envs down) s accs).1.AllSucceeded) :
    a ∈ (after (rebalanceStep envs down) s accs).1.db.accounts := by
  induction accs generalizing s with
  | nil => exact ha
  | cons acc accs ih =>
    simp only [List.forall_mem_cons] at hne hplain
    exact ih (mem_rebalanceStep ha hne.1 hplain.1 (allSucceeded_before accs h)) hne.2 hplain.2 h

/-- Bridges and users stay as they are for all names but those of the loop. -/
theorem users_after (server : Nat) (hne : ∀ b ∈ accs, u ≠ b.username)
    (hplain : ∀ b ∈ accs, PlainPassword b.username (envs b).password)
    (h : (after (rebalanceStep envs down) s accs).1.AllSucceeded) :
    let t := after (rebalanceStep envs down) s accs
    (t.1.nodes server).bridge = (s.1.nodes server).bridge ∧
      (t.1.nodes server).users.lookup u = (s.1.nodes server).users.lookup u := by
  induction accs generalizing s with
  | nil => exact ⟨rfl, rfl⟩
  | cons acc accs ih =>
    simp only [List.forall_mem_cons] at hne hplain
    obtain ⟨hbridge, husers⟩ := ih hne.2 hplain.2 h
    have hstep : (rebalanceUser (envs acc) down acc s).2.1.AllSucceeded :=
      allSucceeded_before accs h
    have hone : ((rebalanceStep envs down s acc).1.nodes server).bridge = (s.1.nodes server).bridge ∧
        ((rebalanceStep envs down s acc).1.nodes server).users.lookup u =
          (s.1.nodes server).users.lookup u := by
      unfold rebalanceStep
      cases hpick : s.1.db.pickBestServer (envs acc).ties none with
      | none =>
        rw [rebalanceUser_noServer hpick]
        exact ⟨rfl, rfl⟩
      | some target =>
        have hother := (moveDone_of_succeeded hplain.1 hpick hstep).others server
        exact ⟨hother.1, hother.2 u fun _ => hne.1⟩
    exact ⟨hbridge.trans hone.1, husers.trans hone.2⟩

/-- The limit of a name is there as long as the loop leaves it alone. -/
theorem limit_after (server : Nat) (limit : Option Int) (hne : ∀ b ∈ accs, u ≠ b.username)
    (hplain : ∀ b ∈ accs, PlainPassword b.username (envs b).password)
    (h : (after (rebalanceStep envs down) s accs).1.AllSucceeded) :
    let t := after (rebalanceStep envs down) s accs
    (LeftAlone envs down u server s accs → loginLimit limit server u t.2 =
        loginLimit limit server u s.2) ∧
      (¬ LeftAlone envs down u server s accs → loginLimit limit server u t.2 = none) := by
  induction accs generalizing s with
  | nil => exact ⟨fun _ => rfl, fun hno => (hno trivial).elim⟩
  | cons acc accs ih =>
    simp only [List.forall_mem_cons] at hne hplain
    obtain ⟨halone, hlost⟩ := ih hne.2 hplain.2 h
    have hstep : (rebalanceUser (envs acc) down acc s).2.1.AllSucceeded :=
      allSucceeded_before accs h
    let t := after (rebalanceStep envs down) (rebalanceStep envs down s acc) accs
    have hkeep : (∀ target, s.1.db.pickBestServer (envs acc).ties none = some target → target.id = server →
        acc.username.isPrefixOf u = false) →
        loginLimit limit server u (rebalanceStep envs down s acc).2 = loginLimit limit server u s.2 := by
      intro hfree
      unfold rebalanceStep
      cases hpick : s.1.db.pickBestServer (envs acc).ties none with
      | none => rw [rebalanceUser_noServer hpick]
      | some target =>
        have hname : ¬ (target.id = server ∧ acc.username = u) := fun hu => hne.1 hu.2.symm
        have hclear : ¬ (target.id = server ∧ acc.username.isPrefixOf u = true) := by
          rintro ⟨hid, hpre⟩
          rw [hfree target hpick hid] at hpre
          cases hpre
        rw [(moveDone_of_succeeded hplain.1 hpick hstep).limits, if_neg hname, if_neg hclear]
    have hdrop : (¬ ∀ target, s.1.db.pickBestServer (envs acc).ties none = some target → target.id = server →
        acc.username.isPrefixOf u = false) →
        loginLimit limit server u (rebalanceStep envs down s acc).2 = none := by
      intro hhit
      simp only [not_forall, Bool.not_eq_false] at hhit
      obtain ⟨target, hpick, hid, hpre⟩ := hhit
      have hname : ¬ (target.id = server ∧ acc.username = u) := fun hu => hne.1 hu.2.symm
      have hclear : target.id = server ∧ acc.username.isPrefixOf u = true :=
        ⟨hid, hpre⟩
      rw [rebalanceStep, (moveDone_of_succeeded hplain.1 hpick hstep).limits, if_neg hname,
        if_pos hclear]
    constructor
    · rintro ⟨hfirst, hrest⟩
      exact (halone hrest).trans (hkeep hfirst)
    · intro hno
      by_cases hrest : LeftAlone envs down u server (rebalanceStep envs down s acc) accs
      · refine (halone hrest).trans (hdrop fun hfirst => hno ⟨hfirst, hrest⟩)
      · exact hlost hrest

end Later

/-! The whole loop. -/

section Loop

variable {limits : Nat → Str → Option Int} {accs xs ys : List Account} {a : Account}

/-- An account that has found its server, after the accounts behind it. -/
theorem moved_after (hsplit : accs = xs ++ a :: ys) (hids : (accs.map Account.id).Nodup)
    (hnames : (accs.map Account.username).Nodup) (hrows : ∀ b ∈ accs, b ∈ s.1.db.accounts)
    (hplain : ∀ b ∈ accs, PlainPassword b.username (envs b).password)
    (h : (after (rebalanceStep envs down) s accs).1.AllSucceeded) :
    let t := after (rebalanceStep envs down) s accs
    let s₁ := after (rebalanceStep envs down) s xs
    ((∀ target, ¬ MovesTo (envs a) s₁ a target) → ∃ b ∈ t.1.db.accounts, b.id = a.id ∧ b.server = a.server) ∧
      ∀ target, MovesTo (envs a) s₁ a target →
        { a with server := target.id } ∈ t.1.db.accounts ∧
        (t.1.nodes target.id).bridge = (s.1.nodes target.id).bridge ∧
        (t.1.nodes target.id).users.lookup a.username =
          some ⟨some (envs a).password, false, some a.expireDate.isoDate⟩ ∧
        ∀ limit, loginLimit limit target.id a.username t.2 = some (a.maxConnections : Int) ↔
          LeftAlone envs down a.username target.id
            (after (rebalanceStep envs down) s (xs ++ [a])) ys := by
  intro t s₁
  let s₂ := rebalanceStep envs down s₁ a
  have hs₂ : after (rebalanceStep envs down) s (xs ++ [a]) = s₂ := by rw [after_append]; rfl
  have ht : t = after (rebalanceStep envs down) s₂ ys := by
    simp only [t, s₂, s₁, hsplit, after_append, after_cons]
  have hfine : (after (rebalanceStep envs down) s₂ ys).1.AllSucceeded := ht ▸ h
  have hfine₂ : (rebalanceUser (envs a) down a s₁).2.1.AllSucceeded :=
    allSucceeded_before ys hfine
  have hfine₁ : s₁.1.AllSucceeded := allSucceeded_before [a] hfine₂
  have hxs : ∀ b ∈ xs, b ∈ accs := fun b hb => hsplit ▸ List.mem_append_left _ hb
  have hys : ∀ b ∈ ys, b ∈ accs := fun b hb =>
    hsplit ▸ List.mem_append_right _ (List.mem_cons_of_mem _ hb)
  have ha : a ∈ accs := hsplit ▸ List.mem_append_right _ List.mem_cons_self
  have hapart : ∀ {κ : Type} (f : Account → κ), (accs.map f).Nodup →
      (∀ b ∈ xs, f a ≠ f b) ∧ ∀ b ∈ ys, f a ≠ f b := by
    intro κ f hf
    rw [hsplit, List.map_append, List.map_cons, List.nodup_middle, List.nodup_cons,
      List.mem_append, not_or] at hf
    exact ⟨fun b hb he => hf.1.1 (he ▸ List.mem_map_of_mem hb),
      fun b hb he => hf.1.2 (he ▸ List.mem_map_of_mem hb)⟩
  obtain ⟨hidx, hidy⟩ := hapart Account.id hids
  obtain ⟨hnamex, hnamey⟩ := hapart Account.username hnames
  have hrow₁ : a ∈ s₁.1.db.accounts :=
    mem_after (hrows a ha) hidx (fun b hb => hplain b (hxs b hb)) hfine₁
  have hlast : ∀ {b : Account}, b ∈ s₂.1.db.accounts → b.id = a.id → b ∈ t.1.db.accounts := by
    intro b hb hid
    rw [ht]
    exact mem_after hb (fun c hc => hid ▸ hidy c hc) (fun c hc => hplain c (hys c hc)) hfine
  have hmove : ∀ {target : Server} {accounts : AccountTable},
      s₁.1.db.pickBestServer (envs a).ties none = some target →
      s₁.1.db.accounts.move a.id target.id = some accounts →
      { a with server := target.id } ∈ t.1.db.accounts := by
    intro target accounts hpick hacc
    refine hlast ?_ rfl
    have hdone := moveDone_of_succeeded (hplain a ha) hpick hfine₂
    have hrows₂ : s₂.1.db.accounts = accounts := by
      have := hdone.accounts
      rw [hacc] at this
      exact this
    rw [hrows₂]
    exact (AccountTable.mem_move hacc).mpr ⟨a, hrow₁, by simp [AccountTable.moved]⟩
  constructor
  · intro hno
    cases hpick : s₁.1.db.pickBestServer (envs a).ties none with
    | none =>
      have hstay : s₂ = s₁ := rebalanceUser_noServer hpick
      exact ⟨a, hlast (hstay ▸ hrow₁) rfl, rfl, rfl⟩
    | some target =>
      have hdone := moveDone_of_succeeded (hplain a ha) hpick hfine₂
      cases hacc : s₁.1.db.accounts.move a.id target.id with
      | none =>
        have hrows₂ : s₂.1.db.accounts = s₁.1.db.accounts := by
          have := hdone.accounts
          rw [hacc] at this
          exact this
        exact ⟨a, hlast (hrows₂ ▸ hrow₁) rfl, rfl, rfl⟩
      | some accounts =>
        have hid : target.id = a.server := by
          by_contra hne
          exact hno target ⟨hpick, hne, by rw [hacc]; rfl⟩
        exact ⟨_, hmove hpick hacc, rfl, hid⟩
  · rintro target ⟨hpick, -, hsome⟩
    obtain ⟨accounts, hacc⟩ := Option.isSome_iff_exists.mp hsome
    have hdone := moveDone_of_succeeded (hplain a ha) hpick hfine₂
    have hbefore := users_after target.id hnamex (fun b hb => hplain b (hxs b hb)) hfine₁
    have hbehind := users_after target.id hnamey (fun b hb => hplain b (hys b hb)) hfine
    refine ⟨hmove hpick hacc, ?_, ?_, fun limit => ?_⟩
    · rw [ht]
      exact hbehind.1.trans ((hdone.others target.id).1.trans hbefore.1)
    · rw [ht]
      exact hbehind.2.trans hdone.user
    · have hset : loginLimit limit target.id a.username s₂.2 = some (a.maxConnections : Int) := by
        refine (hdone.limits limit target.id a.username).trans ?_
        simp
      obtain ⟨halone, hlost⟩ := limit_after target.id limit hnamey
        (fun b hb => hplain b (hys b hb)) hfine
      rw [hs₂, ht]
      constructor
      · intro hkept
        by_contra hno
        rw [hlost hno] at hkept
        cases hkept
      · intro hleft
        rw [halone hleft, hset]

/-- The accounts that are moved stay usable just when all of them meet the condition. -/
theorem stillUsable_iff (hids : (accs.map Account.id).Nodup)
    (hnames : (accs.map Account.username).Nodup) (hrows : ∀ b ∈ accs, b ∈ s.1.db.accounts)
    (hplain : ∀ b ∈ accs, PlainPassword b.username (envs b).password)
    (h : (after (rebalanceStep envs down) s accs).1.AllSucceeded) :
    (∀ a ∈ accs, ∀ b ∈ (after (rebalanceStep envs down) s accs).1.db.accounts, b.id = a.id →
      b.server ≠ a.server → StillUsable limits a b (after (rebalanceStep envs down) s accs)) ↔
      KeepsAccounts envs down s accs := by
  have husable : ∀ xs a ys, accs = xs ++ a :: ys → ∀ target,
      MovesTo (envs a) (after (rebalanceStep envs down) s xs) a target →
        (StillUsable limits a { a with server := target.id } (after (rebalanceStep envs down) s accs) ↔
          match a.protocolType with
          | .ssh => (envs a).password = a.passwordDisplay ∧ LeftAlone envs down a.username target.id
              (after (rebalanceStep envs down) s (xs ++ [a])) ys
          | .shadowlink => (s.1.nodes target.id).bridge.tokens.lookup a.authToken =
              some ⟨a.authToken, a.maxConnections, true⟩) := by
    intro xs a ys hsplit target hmoves
    obtain ⟨-, hbridge, huser, hlimit⟩ :=
      (moved_after hsplit hids hnames hrows hplain h).2 target hmoves
    have hlogin : loginAt (limits target.id a.username) target.id a.username
        (after (rebalanceStep envs down) s accs) =
          some ⟨⟨some (envs a).password, false, some a.expireDate.isoDate⟩, loginLimit
            (limits target.id a.username) target.id a.username
              (after (rebalanceStep envs down) s accs).2⟩ := by
      unfold loginAt
      rw [huser]
      rfl
    have hssh : loginAt (limits target.id a.username) target.id a.username
        (after (rebalanceStep envs down) s accs) =
          some ⟨⟨some a.passwordDisplay, false, some a.expireDate.isoDate⟩, some a.maxConnections⟩ ↔
        (envs a).password = a.passwordDisplay ∧ LeftAlone envs down a.username target.id
          (after (rebalanceStep envs down) s (xs ++ [a])) ys := by
      rw [hlogin, ← hlimit (limits target.id a.username)]
      simp only [Option.some.injEq, Login.mk.injEq, UnixUser.mk.injEq, and_true]
    have hiff : StillUsable limits a { a with server := target.id }
        (after (rebalanceStep envs down) s accs) ↔
          (a.protocolType = .ssh → (envs a).password = a.passwordDisplay ∧
            LeftAlone envs down a.username target.id
              (after (rebalanceStep envs down) s (xs ++ [a])) ys) ∧
          (a.protocolType = .shadowlink → (s.1.nodes target.id).bridge.tokens.lookup a.authToken =
            some ⟨a.authToken, a.maxConnections, true⟩) := by
      rw [← hssh, ← hbridge]
      exact ⟨fun hb => ⟨hb.ssh, hb.shadowlink⟩, fun hb => ⟨rfl, rfl, hb.1, hb.2⟩⟩
    rw [hiff]
    cases a.protocolType <;> simp
  constructor
  · intro hall xs a ys hsplit target hmoves
    have hrow := ((moved_after hsplit hids hnames hrows hplain h).2 target hmoves).1
    have ha : a ∈ accs := hsplit ▸ by simp
    exact (husable xs a ys hsplit target hmoves).mp (hall a ha _ hrow rfl hmoves.2.1)
  · intro hkeeps a ha b hb hid hserver
    obtain ⟨xs, ys, hsplit⟩ := List.append_of_mem ha
    obtain ⟨hstays, hmoved⟩ := moved_after hsplit hids hnames hrows hplain h
    by_cases hmoves : ∃ target, MovesTo (envs a) (after (rebalanceStep envs down) s xs) a target
    · obtain ⟨target, hmoves⟩ := hmoves
      obtain rfl := AccountTable.eq_of_id hb (hmoved target hmoves).1 hid
      exact (husable xs a ys hsplit target hmoves).mpr (hkeeps xs a ys hsplit target hmoves)
    · obtain ⟨b', hb', hid', hserver'⟩ := hstays fun target ht => hmoves ⟨target, ht⟩
      obtain rfl := AccountTable.eq_of_id hb hb' (hid.trans hid'.symm)
      exact (hserver hserver').elim

end Loop

def downServer : Server := { sampleServer with status := .down }
def spareServer : Server := { sampleServer with id := 1, name := "spare".toList }

def downWorld : World :=
  { sampleWorld with
    db := { sampleWorld.db with
      servers := [downServer, spareServer]
      accounts := NodeChange.sampleAccounts .ssh } }

/-- The environment in which the password is drawn. -/
def drawing (password : Str) : Account → Env := fun _ => { sampleEnv 0 with password := password }

/-- The state after `rebalance_users`. -/
def downMoved (password : Str) : World × List Deed :=
  (rebalanceLoop (drawing password) downServer [NodeChange.sampleAccount .ssh] (downWorld, [])).2

theorem downMoved_run (password : Str) : ∃ count,
    rebalanceUsers (drawing password) 0 (downWorld, []) = some (count, downMoved password) :=
  ⟨_, rfl⟩

theorem downMoved_all {password : Str} (hp : '\n' ∉ password)
    (hlog : (downMoved password).1.log.all Event.succeeded = true) :
    AllMoved (drawing password) (downWorld.db.selectAccounts (.activeOn downServer.id))
      (downMoved password) := by
  have haccs : downWorld.db.selectAccounts (.activeOn downServer.id) =
      [NodeChange.sampleAccount .ssh] := rfl
  refine ⟨List.all_eq_true.mp hlog, ?_, fun _ _ => hp⟩
  rw [haccs, List.forall_mem_singleton]
  exact ⟨by decide, by decide⟩

end SshPanelVpn.Panel

import SshPanelVpn.Panel.Rebalance

/-! Creating and rebalancing accounts on nodes that already have a user of the name. -/
namespace SshPanelVpn.Panel

open Effects ShadowLink
open Effects.Prog (run_bind run_handle ofExcept)

/-! What becomes of the user. -/

/-- The password field of `/etc/shadow`, in which also a lock is kept. -/
def UnixUser.secret (user : UnixUser) : Option Str × Bool := (user.password, user.locked)

/-- Password, end and limit are the same. -/
structure Login.Same (l l' : Login) : Prop where
  secret : l'.user.secret = l.user.secret
  expiry : l'.user.expiry = l.user.expiry
  limit : l'.limit = l.limit

/-- The operation fails and leaves the login as it was. -/
def Spared {α : Type} (limit : Option Int) (server : Nat) (u : Str) (l : Login)
    (r : Except Exc α × World × List Deed) : Prop :=
  r.1.isOk = false ∧ ∃ l', loginAt limit server u r.2 = some l' ∧ l.Same l'

namespace Env

variable (env : Env) (server : Server) (u : Str)

/-- `chpasswd` is not carried out, or what it is told is the password that the user has. -/
def keepsPassword (password : Str) (n : Node) (l : Login) : Prop :=
  ((env.after server u (.chpasswd password) n).users.lookup u).map UnixUser.secret =
    some l.user.secret

/-- After the password an exception comes, and what is set until then is the end and the limit that
the user has. -/
def sparesSettings (date : Str) (maxLogins : Int) (n : Node) (l : Login) (restRaises : Bool) :
    Prop :=
  (env.carries server u (.chage date) n = true → l.user.expiry = some date) ∧
    (env.raises server u (.chage date) = true ∨
      (env.carries server u (.maxLogins maxLogins) n = true → l.limit = some maxLogins) ∧
        (env.raises server u (.maxLogins maxLogins) = true ∨ restRaises = true))

end Env

variable {env : Env} {server : Server} {u : Str} {limit : Option Int} {l : Login}

theorem Node.lookup_setPasswords {u : Str} {n n' : Node} {entries : List (Str × Str)} {user : UnixUser}
    (h : n.setPasswords entries = some n') (hu : n.users.lookup u = some user) :
    ∃ user', n'.users.lookup u = some user' ∧ user'.expiry = user.expiry := by
  induction entries generalizing n user with
  | nil =>
    cases h
    exact ⟨user, hu, rfl⟩
  | cons e entries ih =>
    simp only [setPasswords] at h
    split at h
    · next m hm =>
      obtain ⟨old, hold, rfl⟩ := Option.map_eq_some_iff.mp hm
      by_cases hname : u = e.1
      · subst hname
        obtain rfl : user = old := Option.some.inj (hu.symm.trans hold)
        have hset : (n.users.insert e.1 { user with password := some e.2, locked := false }).lookup e.1 =
            some { user with password := some e.2, locked := false } := by simp
        obtain ⟨user', hu', hexpiry⟩ := ih h hset
        exact ⟨user', hu', hexpiry⟩
      · exact ih h (by simpa [hname] using hu)
    · cases h

/-! The stages of setting up a user that is there. -/

/-- `useradd` cannot do anything. -/
theorem loginAt_useradd (env : Env) {s : World × List Deed} (h : loginAt limit server.id u s = some l) :
    (stepped env server u .useradd s).1.nodes = s.1.nodes ∧
      loginAt limit server.id u (stepped env server u .useradd s) = some l := by
  obtain ⟨user, hu, rfl⟩ := Option.map_eq_some_iff.mp h
  have hcarries : env.carries server u .useradd (s.1.nodes server.id) = false := by
    simp [Env.carries, Node.succeed, hu]
  have hnodes : (stepped env server u .useradd s).1.nodes = s.1.nodes := by
    simp [stepped, World.nodes_exec, hcarries]
  refine ⟨hnodes, ?_⟩
  unfold loginAt
  rw [hnodes, hu]
  simp [stepped, PanelProg.noted, World.deed, hcarries]

/-- `chpasswd` can change the password, and nothing else that counts. -/
theorem loginAt_chpasswd (env : Env) {s : World × List Deed} (password : Str)
    (h : loginAt limit server.id u s = some l) :
    ∃ l', loginAt limit server.id u (stepped env server u (.chpasswd password) s) = some l' ∧
      l'.user.expiry = l.user.expiry ∧ l'.limit = l.limit ∧
      (l'.user.secret = l.user.secret ↔
        env.keepsPassword server u password (s.1.nodes server.id) l) := by
  obtain ⟨user, hu, rfl⟩ := Option.map_eq_some_iff.mp h
  let n := s.1.nodes server.id
  have hafter : ∃ user', (env.after server u (.chpasswd password) n).users.lookup u = some user' ∧
      user'.expiry = user.expiry := by
    unfold Env.after
    split
    · next hc =>
      obtain ⟨n', hn'⟩ := Option.isSome_iff_exists.mp (Bool.and_eq_true_iff.mp hc).1
      rw [hn', Option.getD_some]
      simp only [Node.succeed] at hn'
      split at hn'
      · exact Node.lookup_setPasswords hn' hu
      · cases hn'
    · exact ⟨user, hu, rfl⟩
  obtain ⟨user', hu', hexpiry⟩ := hafter
  have hlimit : loginLimit limit server.id u (stepped env server u (.chpasswd password) s).2 =
      loginLimit limit server.id u s.2 := by
    simp only [stepped, PanelProg.noted, World.deed]
    split <;> rfl
  refine ⟨⟨user', loginLimit limit server.id u s.2⟩, ?_, hexpiry, rfl, ?_⟩
  · unfold loginAt
    rw [hlimit]
    simp [stepped, World.exec_nodes, n, hu']
  · simp [Env.keepsPassword, n, hu']

theorem settle_secret {n : Node} {date : Str} {maxLogins : Int} :
    (l.settle env server u date maxLogins n).user.secret = l.user.secret := by
  simp only [Login.settle]
  repeat' split
  all_goals rfl

/-- The settings keep the password, and the rest where they write nothing new. -/
theorem same_settle {l₀ : Login} {n : Node} {date : Str} {maxLogins : Int} {restRaises : Bool}
    (he : l.user.expiry = l₀.user.expiry) (hl : l.limit = l₀.limit) :
    ((!env.raises server u (.chage date) && (!env.raises server u (.maxLogins maxLogins) &&
        !restRaises)) = false ∧ l₀.Same (l.settle env server u date maxLogins n)) ↔
      l.user.secret = l₀.user.secret ∧
        env.sparesSettings server u date maxLogins n l₀ restRaises := by
  have hsame : ∀ l' : Login, l₀.Same l' ↔ l'.user.secret = l₀.user.secret ∧
      l'.user.expiry = l₀.user.expiry ∧ l'.limit = l₀.limit :=
    fun l' => ⟨fun h => ⟨h.secret, h.expiry, h.limit⟩, fun h => ⟨h.1, h.2.1, h.2.2⟩⟩
  rw [hsame, settle_secret]
  unfold Login.settle Env.sparesSettings
  cases env.carries server u (.chage date) n <;> cases env.raises server u (.chage date) <;>
    cases env.carries server u (.maxLogins maxLogins) n <;>
      cases env.raises server u (.maxLogins maxLogins) <;> cases restRaises <;>
        simp [he, hl, eq_comm, and_comm]

/-! Where a run for a user that is there can end. -/

section Ends

variable {α : Type} {r : Except Exc α × World × List Deed} {s : World × List Deed} {password : Str}

theorem spared_iff {l' : Login} (h : loginAt limit server.id u r.2 = some l') :
    Spared limit server.id u l r ↔ r.1.isOk = false ∧ l.Same l' := by
  refine and_congr_right fun _ => ⟨?_, fun hl => ⟨l', h, hl⟩⟩
  rintro ⟨l'', hl'', hsame⟩
  obtain rfl : l' = l'' := Option.some.inj (h.symm.trans hl'')
  exact hsame

/-- It stops before the password, or goes on to something that leaves the login. -/
theorem spared_unchanged (hl : loginAt limit server.id u s = some l)
    (ht : loginAt limit server.id u r.2 = loginAt limit server.id u s) :
    Spared limit server.id u l r ↔ r.1.isOk = false := by
  rw [spared_iff (ht.trans hl)]
  exact and_iff_left ⟨rfl, rfl, rfl⟩

/-- It stops at the password. -/
theorem spared_chpasswd (hl : loginAt limit server.id u s = some l) (hr : r.1.isOk = false)
    (ht : r.2 = stepped env server u (.chpasswd password) (stepped env server u .useradd s)) :
    Spared limit server.id u l r ↔ env.keepsPassword server u password (s.1.nodes server.id) l := by
  obtain ⟨hnodes, hadd⟩ := loginAt_useradd env hl
  obtain ⟨l', hl', he, hlim, hkeep⟩ := loginAt_chpasswd env password hadd
  rw [spared_iff (ht ▸ hl'), ← hnodes, ← hkeep]
  exact ⟨fun h => h.2.secret, fun h => ⟨hr, h, he, hlim⟩⟩

/-- It gets past the password. -/
theorem spared_settings (env : Env) (date : Str) (maxLogins : Int) (restRaises : Bool)
    (hl : loginAt limit server.id u s = some l)
    (hr : r.1.isOk = (!env.raises server u (.chage date) &&
      (!env.raises server u (.maxLogins maxLogins) && !restRaises)))
    (ht : loginAt limit server.id u r.2 = (loginAt limit server.id u
        (stepped env server u (.chpasswd password) (stepped env server u .useradd s))).map
      (Login.settle env server u date maxLogins
        (env.after server u (.chpasswd password) (s.1.nodes server.id)))) :
    Spared limit server.id u l r ↔
      env.keepsPassword server u password (s.1.nodes server.id) l ∧
        env.sparesSettings server u date maxLogins
          (env.after server u (.chpasswd password) (s.1.nodes server.id)) l restRaises := by
  obtain ⟨hnodes, hadd⟩ := loginAt_useradd env hl
  obtain ⟨l', hl', he, hlim, hkeep⟩ := loginAt_chpasswd env password hadd
  rw [hl', Option.map_some] at ht
  rw [spared_iff ht, hr, same_settle he hlim, ← hnodes, ← hkeep, hnodes]

theorem node_chpasswd (hl : loginAt limit server.id u s = some l) :
    (stepped env server u (.chpasswd password) (stepped env server u .useradd s)).1.nodes server.id =
      env.after server u (.chpasswd password) (s.1.nodes server.id) := by
  rw [← congrFun (loginAt_useradd env hl).1 server.id]
  simp only [stepped, World.exec_nodes, Function.update_self]

end Ends

/-- What a name has on the servers: the limits that `limits.conf` held at the start. -/
abbrev Limits : Type := Nat → Str → Option Int

/-! `create_account`. -/

namespace CreateArgs

/-- A user of the name on the server that is picked is left as it was, and there is no account. -/
def Spares (args : CreateArgs) (limits : Limits) (env : Env) (w : World) : Prop :=
  ∀ server l, w.db.pickBestServer env.ties args.server = some server →
    loginAt (limits server.id args.username) server.id args.username (w, []) = some l →
      Spared (limits server.id args.username) server.id args.username l
        ((createAccount args).run (World.recorded env) (w, []))

/-- Before anything is written an exception comes; or the password is not set, or set to what it is,
and what comes after it likewise. -/
def SparesWhen (args : CreateArgs) (limits : Limits) (env : Env) (w : World) : Prop :=
  ∀ server account t l, args.prepare env ⟨none, none, none⟩ w.db = some (server, account, t) →
    loginAt (limits server.id args.username) server.id args.username (w, []) = some l →
      let n := w.nodes server.id
      match account.protocolType with
      | .shadowlink => env.registers server account n = false
      | .ssh =>
        let u := args.username
        let password := passwordOf env args.password
        env.connects w = true → env.raises server u .useradd = false →
          env.keepsPassword server u password n l ∧
            (env.raises server u (.chpasswd password) = true ∨
              env.carries server u (.chpasswd password) n = false ∨
              env.sparesSettings server u account.expireDate.isoDate account.maxConnections
                (env.after server u (.chpasswd password) n) l
                (env.scriptRaises server u ||
                  (0 < account.bandwidthLimitGb && env.trafficRaises server u)))

end CreateArgs

theorem loginAt_congr {s t : World × List Deed} (hn : s.1.nodes server.id = t.1.nodes server.id)
    (hd : s.2 = t.2) : loginAt limit server.id u s = loginAt limit server.id u t := by
  unfold loginAt
  rw [hn, hd]

/-- The bridge has nothing to do with the users. -/
theorem loginAt_http {s : World × List Deed} {request : BridgeRequest} :
    loginAt limit server.id u ((s.1.http env server request).2,
      (World.deed env (.http server request) s.1).toList ++ s.2) = loginAt limit server.id u s := by
  have husers : ((s.1.http env server request).2.nodes server.id).users =
      (s.1.nodes server.id).users := by
    rw [World.nodes_http]
    split
    · simp [World.serve, World.updateNode]
    · rfl
  have hlimit : loginLimit limit server.id u
      ((World.deed env (.http server request) s.1).toList ++ s.2) =
        loginLimit limit server.id u s.2 := by
    simp only [World.deed]
    split <;> rfl
  unfold loginAt
  rw [husers, hlimit]

/-- The commands for a new user, where the user is there. -/
theorem spared_provision {s : World × List Deed} {password : Str} {date : DateTime}
    {maxConn bwLimit : Nat} {n : Node} (hn : s.1.nodes server.id = n)
    (hl : loginAt limit server.id u s = some l) :
    Spared limit server.id u l
        ((provisionSshAccount server u password date maxConn bwLimit).run (World.recorded env) s) ↔
      (env.connects s.1 = true → env.raises server u .useradd = false →
        env.keepsPassword server u password n l ∧
          (env.raises server u (.chpasswd password) = true ∨
            env.carries server u (.chpasswd password) n = false ∨
            env.sparesSettings server u date.isoDate maxConn
              (env.after server u (.chpasswd password) n) l
              (env.scriptRaises server u || (0 < bwLimit && env.trafficRaises server u)))) := by
  have hconnect : loginAt limit server.id u ((s.1.connect env server).2, s.2) =
      loginAt limit server.id u s := loginAt_congr (congrFun World.connect_nodes _) rfl
  have hl₀ := hconnect.trans hl
  have hn₀ : (s.1.connect env server).2.nodes server.id = n :=
    (congrFun World.connect_nodes _).trans hn
  obtain ⟨hnodes, hadd⟩ := loginAt_useradd env hl₀
  have hn₁ := (congrFun hnodes server.id).trans hn₀
  rcases run_provisionSshAccount env server u s password date maxConn
      bwLimit with
    ⟨hc, hok, ht⟩ | ⟨hc, ⟨hu, hok, ht⟩ | ⟨hu, ⟨hp, hok, ht⟩ | ⟨hp, hset, hok, ht⟩⟩⟩
  · rw [spared_unchanged hl (ht ▸ hconnect)]
    simp [hok, hc]
  · rw [spared_unchanged hl (by rw [ht, hadd, hl])]
    simp [hok, hu]
  · rw [hn₁] at hp
    rw [spared_chpasswd hl₀ hok ht, hn₀]
    simp only [hc, hu, forall_const]
    rw [← or_assoc]
    exact (and_iff_left (.inl hp)).symm
  · rw [hn₁] at hset
    have ht' := ht limit
    rw [node_chpasswd hl₀, hn₀] at ht'
    rw [spared_settings env date.isoDate maxConn
      (env.scriptRaises server u || (0 < bwLimit && env.trafficRaises server u)) hl₀
      (by rw [hok]; simp [Env.setUpRaises, Bool.and_assoc]) (by rw [hn₀]; exact ht'), hn₀]
    simp only [hc, hu, hp, hset, forall_const, Bool.false_eq_true, Bool.true_eq_false, false_or]

theorem spared_congr {α β : Type} {r : Except Exc α × World × List Deed}
    {r' : Except Exc β × World × List Deed} (hok : r.1.isOk = r'.1.isOk)
    (ht : loginAt limit server.id u r.2 = loginAt limit server.id u r'.2) :
    Spared limit server.id u l r ↔ Spared limit server.id u l r' := by
  unfold Spared
  rw [hok, ht]

theorem createAccount_spares_iff (args : CreateArgs) (limits : Limits) (env : Env) (w : World) :
    args.Spares limits env w ↔ args.SparesWhen limits env w := by
  rw [CreateArgs.Spares, ← createAccountWhere_none]
  cases hprep : args.prepare env ⟨none, none, none⟩ w.db with
  | none =>
    obtain ⟨e, he⟩ := run_unprepared hprep
    refine iff_of_true ?_ fun server account t l h => ?_
    · intro server l _ hl
      rw [he]
      exact ⟨rfl, l, hl, rfl, rfl, rfl⟩
    · rw [hprep] at h
      cases h
  | some prepared =>
    obtain ⟨server, account, t⟩ := prepared
    obtain ⟨-, -, hpick, date, -, -, hrow⟩ := prepare_eq_some hprep
    have hname : account.username = args.username := by rw [hrow]; rfl
    obtain ⟨hok, hds, hnodes, -⟩ := run_prepared hprep
    have hsteps : ∀ l, Spared (limits server.id args.username) server.id args.username l
          ((createAccountWhere ⟨none, none, none⟩ args).run (World.recorded env) (w, [])) ↔
        Spared (limits server.id args.username) server.id args.username l
          ((provision account server (passwordOf env args.password)).run (World.recorded env)
            (w.opened t, [])) := fun l =>
      spared_congr (by rw [hok]; exact Bool.and_true _) (loginAt_congr (congrFun hnodes _) hds)
    have hall : ∀ P : Server → Login → Prop, (∀ server' l, w.db.pickBestServer env.ties args.server =
        some server' → loginAt (limits server'.id args.username) server'.id args.username (w, []) =
          some l → P server' l) ↔
        ∀ l, loginAt (limits server.id args.username) server.id args.username (w, []) = some l →
          P server l := by
      intro P
      rw [hpick]
      exact ⟨fun h l => h server l rfl, fun h server' l hs => by cases hs; exact h l⟩
    rw [hall]
    have hwhen : args.SparesWhen limits env w ↔ _ :=
      ⟨fun h l => h server account t l hprep, fun h server' account' t' l heq => by
        rw [hprep] at heq
        cases heq
        exact h l⟩
    rw [hwhen]
    refine forall_congr' fun l => forall_congr' fun hl => ?_
    rw [hsteps]
    cases hp : account.protocolType with
    | shadowlink =>
      obtain ⟨hreg, ht⟩ := run_provision_shadowlink env hp server
        (passwordOf env args.password) (w.opened t, [])
      rw [spared_unchanged hl (by rw [ht]; exact loginAt_http), hreg]
      rfl
    | ssh =>
      rw [provision_ssh hp, hname]
      exact spared_provision rfl hl

/-! `rebalance_users`. -/

/-- One account of the loop: a user of its name on the target is left as it was, and the account is
not moved. -/
def RebalanceSpares (limits : Limits) (env : Env) (down : Server) (acc : Account)
    (s : World × List Deed) : Prop :=
  ∀ target l, s.1.db.pickBestServer env.ties none = some target →
    loginAt (limits target.id acc.username) target.id acc.username s = some l →
      Spared (limits target.id acc.username) target.id acc.username l (rebalanceUser env down acc s)

/-- As for a new account, but a password that could not be set stops nothing, and after the settings
only the name in the database can. -/
def RebalanceSparesWhen (limits : Limits) (env : Env) (acc : Account) (s : World × List Deed) :
    Prop :=
  ∀ target l, s.1.db.pickBestServer env.ties none = some target →
    loginAt (limits target.id acc.username) target.id acc.username s = some l →
      let u := acc.username
      let n := s.1.nodes target.id
      env.connects s.1 = true → env.raises target u .useradd = false →
        env.keepsPassword target u env.password n l ∧
          (env.raises target u (.chpasswd env.password) = true ∨
            env.sparesSettings target u acc.expireDate.isoDate acc.maxConnections
              (env.after target u (.chpasswd env.password) n) l
              (env.scriptRaises target u || (s.1.db.accounts.move acc.id target.id).isNone))

theorem rebalanceUser_spares_iff (limits : Limits) (env : Env) (down : Server) (acc : Account)
    (s : World × List Deed) :
    RebalanceSpares limits env down acc s ↔ RebalanceSparesWhen limits env acc s := by
  unfold RebalanceSpares RebalanceSparesWhen
  refine forall_congr' fun target => forall_congr' fun l => forall_congr' fun hpick =>
    forall_congr' fun hl => ?_
  obtain ⟨hok, hds, hnodes, -⟩ := run_rebalanceUser env down acc hpick
  let u := acc.username
  let limit := limits target.id u
  let r := (rebalanceTo target acc env.password).run (World.recorded env) s
  let moved := s.1.db.accounts.move acc.id target.id
  let rest : PanelProg Unit := do
    let _ ← SSHManager.setExpiry target u acc.expireDate.isoDate
    let _ ← SSHManager.setMaxLogins target u acc.maxConnections
    return ()
  have hlogin : loginAt limit target.id u (rebalanceUser env down acc s).2 =
      loginAt limit target.id u r.2 := loginAt_congr (congrFun hnodes target.id) hds
  have hfails : r.1.isOk = false → (rebalanceUser env down acc s).1.isOk = false := by
    intro h
    rw [hok, h, Bool.false_and]
  have hconnect : loginAt limit target.id u ((s.1.connect env target).2, s.2) =
      loginAt limit target.id u s := loginAt_congr (congrFun World.connect_nodes _) rfl
  have hl₀ := hconnect.trans hl
  have hn₀ : (s.1.connect env target).2.nodes target.id = s.1.nodes target.id :=
    congrFun World.connect_nodes _
  obtain ⟨hnodes₁, hadd⟩ := loginAt_useradd env hl₀
  rcases run_newUser s env.password fun _ => rest with ⟨hc, hend, ht⟩ | ⟨hc, ⟨hu, hend, ht⟩ | ⟨hu,
    ⟨hp, hend, ht⟩ | ⟨hp, result, -, hend⟩⟩⟩
  · have ht' : r.2 = _ := ht
    rw [spared_unchanged hl (by rw [hlogin, ht', hconnect]), hfails hend]
    simp [hc]
  · have ht' : r.2 = _ := ht
    rw [spared_unchanged hl (by rw [hlogin, ht', hadd, hl]), hfails hend]
    simp [hu]
  · rw [spared_congr ((hfails hend).trans hend.symm) hlogin, spared_chpasswd hl₀ hend ht, hn₀]
    simp only [hc, hu, forall_const]
    exact (and_iff_left (.inl hp)).symm
  · have hdone : Settled target u (pure () : PanelProg Unit) := trivial
    have hdoneOk : ∀ t, ((pure () : PanelProg Unit).run (World.recorded env) t).1.isOk = true :=
      fun _ => rfl
    have hend' : r = _ := hend
    have hsettle := run_settle limit (stepped env target u (.chpasswd env.password)
      (stepped env target u .useradd ((s.1.connect env target).2, s.2))) acc.expireDate.isoDate
      acc.maxConnections hdone hdoneOk
    have hr : r.1.isOk = _ := (congrArg (fun x => x.1.isOk) hend').trans hsettle.1
    have ht : loginAt limit target.id u r.2 = _ :=
      (congrArg (fun x => loginAt limit target.id u x.2) hend').trans hsettle.2
    rw [node_chpasswd hl₀] at ht
    have hall : (rebalanceUser env down acc s).1.isOk =
        (!env.raises target u (.chage acc.expireDate.isoDate) &&
          (!env.raises target u (.maxLogins acc.maxConnections) &&
            !(env.scriptRaises target u || moved.isNone))) := by
      rw [hok, hr]
      simp [moved, Bool.and_assoc]
    rw [spared_settings env acc.expireDate.isoDate acc.maxConnections _ hl₀ hall (hlogin.trans ht),
      hn₀]
    simp only [hc, hu, hp, forall_const, Bool.false_eq_true, false_or]
    rfl

/-- Every account of `rebalance_users`, as its turn comes. -/
def RebalanceUsersAlong (P : Server → World × List Deed → Account → Prop) (envs : Account → Env)
    (downServerId : Nat) (s : World × List Deed) : Prop :=
  ∀ down, s.1.db.getServer downServerId = some down →
    Runs.Along (rebalanceStep envs down) (P down) s (s.1.db.selectAccounts (.activeOn down.id))

/-- Both operations spare the users that are there under exactly these conditions, for each new
account and along every run of the loop. -/
theorem spares_iff (args : CreateArgs) (limits : Limits) (env : Env) (w : World)
    (envs : Account → Env) (downServerId : Nat) (s : World × List Deed) :
    (args.Spares limits env w ↔ args.SparesWhen limits env w) ∧
      (RebalanceUsersAlong (fun down t acc => RebalanceSpares limits (envs acc) down acc t) envs
          downServerId s ↔
        RebalanceUsersAlong (fun _ t acc => RebalanceSparesWhen limits (envs acc) acc t) envs
          downServerId s) := by
  constructor
  · exact createAccount_spares_iff args limits env w
  · refine forall_congr' fun down => forall_congr' fun _ => ?_
    constructor
    · intro h
      exact h.imp fun t acc => (rebalanceUser_spares_iff limits (envs acc) down acc t).mp
    · intro h
      exact h.imp fun t acc => (rebalanceUser_spares_iff limits (envs acc) down acc t).mpr

/-- An account named after the administrator of the node: its password is overwritten, and the account
created. -/
theorem not_spares :
    ¬ ((∀ (args : CreateArgs) (limits : Limits) (env : Env) (w : World),
        args.Spares limits env w) ∧
      ∀ (limits : Limits) (envs : Account → Env) (downServerId : Nat) (s : World × List Deed),
        RebalanceUsersAlong (fun down t acc => RebalanceSpares limits (envs acc) down acc t) envs
          downServerId s) := by
  intro h
  let root : UnixUser := ⟨some "toor".toList, false, none⟩
  let args : CreateArgs :=
    { CreateArgs.plain "root".toList samplePlan with
      server := some sampleServer
      protocolType := some .ssh }
  let w : World :=
    { sampleWorld with nodes := fun _ => ⟨AList.insert "root".toList root ∅, ⟨∅, []⟩⟩ }
  have hspared := h.1 args (fun _ _ => none) (sampleEnv 0) w sampleServer ⟨root, none⟩ rfl rfl
  have hok : ((createAccount args).run (World.recorded (sampleEnv 0)) (w, [])).1.isOk = true := by
    decide +kernel
  rw [hspared.1] at hok
  cases hok

end SshPanelVpn.Panel

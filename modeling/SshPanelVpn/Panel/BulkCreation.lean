import SshPanelVpn.Panel.CreateAccount

/-! `bulk_create_accounts`: what the caller gets, and what has been committed. -/
namespace SshPanelVpn.Panel

open Effects
open Effects.Prog (Triple run_bind)

/-- What `except AccountError` catches. -/
def Exc.isAccountError : Exc → Bool
  | .accountError _ => true
  | _ => false

theorem isAccountError_refusal (a : Account) : a.refusal.isAccountError = false := by
  rcases a.refusal_cases with h | h <;> rw [h] <;> rfl

/-- The loop of `bulk_create_accounts`; every call of `create_account` meets its own environment. -/
def bulkLoop (envs : Nat → Env) (args : Nat → CreateArgs) (accounts : List Account) :
    List Nat → World → Except Exc (List Account) × World
  | [], w => (.ok accounts, w)
  | i :: is, w =>
    match (createAccount (args i)).run (World.handler (envs i)) w with
    | (.ok acc, w') => bulkLoop envs args (accounts ++ [acc]) is w'
    | (.error e, w') => if e.isAccountError then (.ok accounts, w') else (.error e, w')

/-- `bulk_create_accounts`. -/
def bulkCreateAccounts (envs : Nat → Env) (r : BulkRequest) (plan : Plan) (server : Option Server)
    (w : World) : Except Exc (List Account) × World :=
  bulkLoop envs (r.args plan server) [] (List.range' 1 r.count) w

/-- The list returned is the list of the rows that are new, the last of which is the newest. -/
def ReturnsCreated (w : World) (x : Except Exc (List Account) × World) : Prop :=
  ∃ accs, x.1 = .ok accs ∧ x.2.db.accounts.rows = accs.reverse ++ w.db.accounts.rows

/-- What paramiko raises is not an `AccountError`. -/
structure Env.Foreign (env : Env) : Prop where
  connect : ∀ n e, env.connect n = .error e → e.isAccountError = false
  exec : ∀ server u cmd e applied, env.exec server u cmd = .raised e applied →
    e.isAccountError = false

/-- An exception while the user is set up on the node. -/
def Env.provisionRaises (env : Env) (server : Server) (account : Account) (password : Str)
    (w : World) : Bool :=
  let u := account.username
  !env.connects w || env.raises server u .useradd || env.raises server u (.chpasswd password) ||
    (env.carries server u (.chpasswd password) (env.after server u .useradd (w.nodes server.id)) &&
      env.setUpRaises server u account.expireDate.isoDate account.maxConnections
        account.bandwidthLimitGb)

/-- Something other than an `AccountError` comes out of `create_account`: the new end is out of range,
the row breaks a unique constraint or does not fit its columns, or a step over SSH raises. -/
def CreateArgs.Escapes (args : CreateArgs) (env : Env) (w : World) : Prop :=
  ∃ server, w.db.pickBestServer env.ties args.server = some server ∧
    match env.now.addDays (args.durationDays.getD args.plan.durationDays) with
    | .error _ => True
    | .ok date =>
      let password := passwordOf env args.password
      let row := newAccount args server password date env.tokens
      w.db.accounts.insert row = none ∨
        row.protocolType = .ssh ∧ env.provisionRaises server row password w = true

/-- No call that is made lets another exception out. -/
def Contained (envs : Nat → Env) (args : Nat → CreateArgs) : List Nat → World → Prop
  | [], _ => True
  | i :: is, w => ¬ (args i).Escapes (envs i) w ∧
      let x := (createAccount (args i)).run (World.handler (envs i)) w
      (x.1.isOk = true → Contained envs args is x.2)

/-! The exceptions of `create_account`. -/

section Exceptions

variable {env : Env} {server : Server} {u : Str} {α β : Type}

/-- Only exceptions that are no `AccountError` come out of the program. -/
abbrev Foreign (env : Env) (p : PanelProg α) : Prop :=
  Triple (World.recorded env) (fun _ => True) p (fun _ _ => True) fun e _ => e.isAccountError = false

theorem Foreign.bind {p : PanelProg α} {f : α → PanelProg β} (hp : Foreign env p)
    (hf : ∀ a, Foreign env (f a)) : Foreign env (p >>= f) :=
  Triple.bind hp hf

theorem Foreign.pure (a : α) : Foreign env (pure a) := Triple.ret fun _ _ => trivial

theorem foreign_connect (h : env.Foreign) (server : Server) : Foreign env (SSHManager.connect server) := by
  rintro ⟨w, ds⟩ -
  cases hc : env.connect w.log.length with
  | ok x => simp [SSHManager.connect, World.handler, World.connect, hc]
  | error e => simpa [SSHManager.connect, World.handler, World.connect, hc] using h.connect _ _ hc

theorem foreign_run (h : env.Foreign) (server : Server) (u : Str) (cmd : Cmd) :
    Foreign env (SSHManager.run server u cmd) := by
  rintro ⟨w, ds⟩ -
  cases he : env.exec server u cmd with
  | raised e applied =>
    simpa [SSHManager.run, World.handler, World.exec, he] using h.exec _ _ _ _ _ he
  | finished result =>
    have hr : env.raises server u cmd = false := by simp [Env.raises, he]
    obtain ⟨result', hr', -⟩ := World.exec_finishes w hr
    simp [SSHManager.run, World.handler, hr']

theorem foreign_createUser (h : env.Foreign) (server : Server) (u password : Str) :
    Foreign env (SSHManager.createUser server u password) :=
  (foreign_run h server u _).bind fun _ => foreign_run h server u _

theorem foreign_setMaxLogins (h : env.Foreign) (server : Server) (u : Str) (maxLogins : Int) :
    Foreign env (SSHManager.setMaxLogins server u maxLogins) := by
  refine (foreign_run h server u _).bind fun _ => Foreign.bind ?_ fun _ => .pure _
  refine (foreign_run h server u _).bind fun check => ?_
  split
  · exact .pure _
  · exact (foreign_run h server u _).bind fun _ => (foreign_run h server u _).bind fun _ =>
      (foreign_run h server u _).bind fun _ => .pure _

theorem foreign_setupTrafficAccounting (h : env.Foreign) (server : Server) (u : Str) :
    Foreign env (SSHManager.setupTrafficAccounting server u) := by
  refine (foreign_run h server u _).bind fun result => ?_
  dsimp only
  split
  · exact .pure _
  · refine (foreign_run h server u _).bind fun present => ?_
    split
    · exact (foreign_run h server u _).bind fun _ => (foreign_run h server u _).bind fun _ =>
        (foreign_run h server u _).bind fun _ => .pure _
    · exact .pure _

/-- An exception other than an `AccountError`. -/
def Except.Escaped (x : Except Exc α) : Prop := ∃ e, x = .error e ∧ e.isAccountError = false

theorem escaped_of_foreign {p : PanelProg α} (h : Foreign env p) (s : World × List Deed) :
    Except.Escaped (p.run (World.recorded env) s).1 ↔
      (p.run (World.recorded env) s).1.isOk = false := by
  have hs := h s trivial
  rcases hr : p.run (World.recorded env) s with ⟨e | a, t⟩
  · rw [hr] at hs
    exact ⟨fun _ => rfl, fun _ => ⟨e, rfl, hs⟩⟩
  · constructor
    · rintro ⟨e, he, -⟩
      cases he
    · intro he
      cases he

theorem escaped_bind {p : PanelProg α} {f : α → PanelProg β} {s : World × List Deed}
    (h : Except.Escaped (p.run (World.recorded env) s).1) :
    Except.Escaped ((p >>= f).run (World.recorded env) s).1 := by
  obtain ⟨e, he, hkind⟩ := h
  rcases hr : p.run (World.recorded env) s with ⟨x, t⟩
  rw [hr] at he
  cases he
  rw [Prog.run_bind_error hr]
  exact ⟨e, rfl, hkind⟩

/-- What follows the password: the node raises, or nothing does. -/
theorem escaped_settle (h : env.Foreign) (s : World × List Deed) (date : Str) (maxConn bwLimit : Nat) :
    Except.Escaped ((do
      let _ ← SSHManager.setExpiry server u date
      let _ ← SSHManager.setMaxLogins server u maxConn
      if 0 < bwLimit then SSHManager.setupTrafficAccounting server u else return () :
        PanelProg Unit).run (World.recorded env) s).1 ↔
      env.setUpRaises server u date maxConn bwLimit = true := by
  let traffic : PanelProg Unit :=
    if 0 < bwLimit then SSHManager.setupTrafficAccounting server u else return ()
  have htraffic : Settled server u traffic ∧ Foreign env traffic ∧
      ∀ t, (traffic.run (World.recorded env) t).1.isOk =
        !(0 < bwLimit && env.trafficRaises server u) := by
    simp only [traffic]
    split
    · next hbw =>
      exact ⟨settled_setupTrafficAccounting, foreign_setupTrafficAccounting h server u,
        fun t => by simp [isOk_setupTrafficAccounting, hbw]⟩
    · next hbw => exact ⟨trivial, .pure _, fun t => by simp [hbw]; rfl⟩
  have hforeign : Foreign env (do
      let _ ← SSHManager.setExpiry server u date
      let _ ← SSHManager.setMaxLogins server u maxConn
      traffic : PanelProg Unit) :=
    (foreign_run h server u _).bind fun _ => (foreign_setMaxLogins h server u _).bind fun _ =>
      htraffic.2.1
  have hok := (run_settle none s date maxConn htraffic.1 htraffic.2.2).1
  refine (escaped_of_foreign hforeign s).trans ?_
  rw [hok]
  simp only [Env.setUpRaises]
  cases env.raises server u (.chage date) <;> cases env.raises server u (.maxLogins maxConn) <;>
    cases env.scriptRaises server u <;> simp

/-- The bridge's failures are all turned into `AccountError`s. -/
theorem not_escaped_shadowlink (account : Account) (maxConns : Nat) (s : World × List Deed) :
    ¬ Except.Escaped ((provisionShadowlinkAccount account server maxConns).run
      (World.recorded env) s).1 := by
  rintro ⟨e, he, hno⟩
  rw [provisionShadowlinkAccount, Prog.run_handle] at he
  split at he
  · cases he
  · cases he
    cases hno

theorem escaped_provisionSshAccount (h : env.Foreign) (s : World × List Deed) (password : Str)
    (date : DateTime) (maxConn bwLimit : Nat) :
    Except.Escaped ((provisionSshAccount server u password date maxConn bwLimit).run
      (World.recorded env) s).1 ↔
      (!env.connects s.1 || env.raises server u .useradd || env.raises server u (.chpasswd password) ||
        (env.carries server u (.chpasswd password) (env.after server u .useradd (s.1.nodes server.id)) &&
          env.setUpRaises server u date.isoDate maxConn bwLimit)) = true := by
  let newUser : PanelProg CommandResult :=
    SSHManager.connect server >>= fun _ => SSHManager.createUser server u password >>= Prog.ret
  have hforeign : Foreign env newUser :=
    (foreign_connect h server).bind fun _ => (foreign_createUser h server u password).bind fun _ => .pure _
  let check : CommandResult → PanelProg Unit := fun result =>
    if result.ok = false then
      .raise (.accountError ("Remote user creation failed: ".toList ++ result.stderr))
    else do
      let _ ← SSHManager.setExpiry server u date.isoDate
      let _ ← SSHManager.setMaxLogins server u maxConn
      if 0 < bwLimit then SSHManager.setupTrafficAccounting server u else return ()
  have hprog : provisionSshAccount server u password date maxConn bwLimit = newUser >>= check := by
    simp only [newUser, check, provisionSshAccount, Prog.bind_bind, Prog.pure_eq, Prog.ret_bind]
  rw [hprog]
  have hnode : (stepped env server u .useradd ((s.1.connect env server).2, s.2)).1.nodes server.id =
      env.after server u .useradd (s.1.nodes server.id) := by
    simp only [stepped, World.exec_nodes, Function.update_self, World.connect_nodes]
  have hfailed : (newUser.run (World.recorded env) s).1.isOk = false →
      Except.Escaped ((newUser >>= check).run (World.recorded env) s).1 :=
    fun hno => escaped_bind ((escaped_of_foreign hforeign s).mpr hno)
  rcases run_newUser s password Prog.ret with
    ⟨hc, hok, -⟩ | ⟨hc, ⟨hu, hok, -⟩ | ⟨hu, ⟨hp, hok, -⟩ | ⟨hp, result, hresult, hend⟩⟩⟩
  · exact iff_of_true (hfailed hok) (by simp [hc])
  · exact iff_of_true (hfailed hok) (by simp [hu])
  · exact iff_of_true (hfailed hok) (by simp [hp])
  · have hrun : newUser.run (World.recorded env) s = (.ok result, _) := hend
    rw [Prog.run_bind_ok hrun]
    rw [hnode] at hresult
    simp only [hc, hu, hp, Bool.not_true, Bool.or_false, Bool.false_or]
    cases hres : result.ok with
    | false =>
      have hno : env.carries server u (.chpasswd password)
          (env.after server u .useradd (s.1.nodes server.id)) = false := by
        rw [← Bool.not_eq_true, ← hresult, hres]
        exact Bool.false_ne_true
      refine iff_of_false ?_ (by simp [hno])
      rintro ⟨e, he, hkind⟩
      simp only [check, hres, if_true] at he
      cases he
      cases hkind
    | true =>
      simp only [check, hres, Bool.true_eq_false, if_false, hresult.mp hres, Bool.true_and]
      exact escaped_settle h _ _ _ _

theorem escaped_provision (h : env.Foreign) (account : Account) (password : Str)
    (s : World × List Deed) :
    Except.Escaped ((provision account server password).run (World.recorded env) s).1 ↔
      account.protocolType = .ssh ∧ env.provisionRaises server account password s.1 = true := by
  cases hp : account.protocolType with
  | shadowlink =>
    rw [provision_shadowlink hp]
    exact iff_of_false (not_escaped_shadowlink _ _ _) (by simp)
  | ssh =>
    rw [provision_ssh hp, escaped_provisionSshAccount h]
    simp [Env.provisionRaises]

theorem addDays_error {d : DateTime} {days : Int} {e : Exc} (h : d.addDays days = .error e) :
    e = .overflowError := by
  unfold DateTime.addDays at h
  split at h
  · cases h
  · cases h
    rfl

theorem escaped_map {x : Except Exc α} {f : α → β} : Except.Escaped (x.map f) ↔ Except.Escaped x := by
  cases x with
  | ok a => simp [Except.Escaped, Except.map]
  | error x => simp [Except.Escaped, Except.map]

theorem escaped_error {x : Exc} : Except.Escaped (.error x : Except Exc α) ↔ x.isAccountError = false := by
  constructor
  · rintro ⟨e, he, hkind⟩
    cases he
    exact hkind
  · exact fun h => ⟨x, rfl, h⟩

/-- An exception that is no `AccountError` comes out of `create_account` where the inputs say so. -/
theorem escaped_createAccount (h : env.Foreign) (args : CreateArgs) (w : World) :
    Except.Escaped ((createAccount args).run (World.handler env) w).1 ↔ args.Escapes env w := by
  rw [run_handler]
  dsimp only
  cases hprep : args.prepared env w.db with
  | none =>
    obtain ⟨e, hrefused, he⟩ := CreateArgs.run_refused hprep
    rw [he, escaped_error]
    cases hrefused with
    | noServers hpick => simp [CreateArgs.Escapes, hpick, noServers, Exc.isAccountError]
    | overflow hpick hdate =>
      obtain rfl := addDays_error hdate
      simp [CreateArgs.Escapes, hpick, hdate, Exc.isAccountError]
    | taken hpick hdate htaken =>
      simp [CreateArgs.Escapes, hpick, hdate, htaken, isAccountError_refusal]
  | some x =>
    rcases x with ⟨server, account, t⟩
    obtain ⟨-, -, hpick, date, hdate, hinsert, haccount⟩ := prepare_eq_some hprep
    rw [CreateArgs.run_of_prepared hprep]
    dsimp only
    rw [escaped_map, escaped_provision h, haccount]
    simp only [CreateArgs.Escapes, hpick, hdate, Option.some.injEq, exists_eq_left', hinsert]
    simp only [reduceCtorEq, false_or]
    rfl

end Exceptions

/-! The loop. -/

section Loop

variable {envs : Nat → Env} {args : Nat → CreateArgs}

/-- A list that is returned holds what has been committed since the loop began. -/
theorem bulkLoop_ok {accounts l : List Account} {is : List Nat} {w w' : World}
    (h : bulkLoop envs args accounts is w = (.ok l, w')) :
    ∃ accs, l = accounts ++ accs ∧ w'.db.accounts.rows = accs.reverse ++ w.db.accounts.rows := by
  induction is generalizing accounts w with
  | nil =>
    cases h
    exact ⟨[], by simp, by simp⟩
  | cons i is ih =>
    rw [bulkLoop] at h
    rcases hr : (createAccount (args i)).run (World.handler (envs i)) w with ⟨e | acc, u⟩
    · rw [hr] at h
      dsimp only at h
      split at h
      · cases h
        exact ⟨[], by simp, by simp [CreateArgs.db_failed hr]⟩
      · cases h
    · rw [hr] at h
      obtain ⟨accs, rfl, hrows⟩ := ih h
      refine ⟨acc :: accs, by simp, ?_⟩
      rw [hrows, CreateArgs.rows_created hr]
      simp

theorem bulkLoop_isOk_iff (henvs : ∀ i, (envs i).Foreign) (accounts : List Account) (is : List Nat)
    (w : World) : (bulkLoop envs args accounts is w).1.isOk = true ↔ Contained envs args is w := by
  induction is generalizing accounts w with
  | nil => exact iff_of_true rfl trivial
  | cons i is ih =>
    have hescaped := escaped_createAccount (henvs i) (args i) w
    rw [bulkLoop, Contained, ← hescaped]
    rcases hr : (createAccount (args i)).run (World.handler (envs i)) w with ⟨e | acc, u⟩
    · dsimp only
      rw [escaped_error]
      cases e.isAccountError with
      | true =>
        refine iff_of_true rfl ⟨by simp, ?_⟩
        intro h
        cases h
      | false => exact iff_of_false (fun h => by cases h) fun h => h.1 rfl
    · have hno : ¬ Except.Escaped (.ok acc : Except Exc Account) := by
        rintro ⟨e, he, -⟩
        cases he
      dsimp only
      rw [ih]
      exact ⟨fun h => ⟨hno, fun _ => h⟩, fun h => h.2 rfl⟩

end Loop

/-- The whole list comes back just when no call lets another exception out. -/
theorem bulkCreateAccounts_returnsCreated_iff (envs : Nat → Env) (henvs : ∀ i, (envs i).Foreign)
    (r : BulkRequest) (plan : Plan) (server : Option Server) (w : World) :
    ReturnsCreated w (bulkCreateAccounts envs r plan server w) ↔
      Contained envs (r.args plan server) (List.range' 1 r.count) w := by
  rw [← bulkLoop_isOk_iff henvs []]
  constructor
  · rintro ⟨accs, haccs, -⟩
    rw [bulkCreateAccounts] at haccs
    rw [haccs]
    rfl
  · intro hok
    rcases hr : bulkCreateAccounts envs r plan server w with ⟨e | l, w'⟩
    · rw [bulkCreateAccounts] at hr
      rw [hr] at hok
      cases hok
    · obtain ⟨accs, hl, hrows⟩ := bulkLoop_ok hr
      exact ⟨accs, congrArg Except.ok hl, hrows⟩

/-- The loop leaves the world that `bulkCreate` leaves. -/
theorem bulkLoop_world (envs : Nat → Env) (args : Nat → CreateArgs) (accounts : List Account)
    (is : List Nat) (w : World) :
    (bulkLoop envs args accounts is w).2 = World.bulkCreate envs args is w := by
  induction is generalizing accounts w with
  | nil => rfl
  | cons i is ih =>
    rw [bulkLoop, World.bulkCreate]
    rcases (createAccount (args i)).run (World.handler (envs i)) w with ⟨e | acc, u⟩
    · dsimp only
      split <;> rfl
    · exact ih _ _

/-! Two accounts, the second of which is there already. -/

/-- Every call draws other tokens. -/
def numberedEnv (i : Nat) : Env :=
  { sampleEnv 0 with tokens := ("access".toList ++ decimal i, "auth".toList ++ decimal i) }

theorem numberedEnv_foreign (i : Nat) : (numberedEnv i).Foreign where
  connect _ _ h := by cases h
  exec _ _ _ _ _ h := by cases h

def twoUsers : BulkRequest := ⟨"user".toList, 2, 0, none, none⟩

theorem bulkCreateAccounts_returnsCreated_iff_sample :
    ReturnsCreated sampleWorld (bulkCreateAccounts numberedEnv twoUsers samplePlan none sampleWorld) ↔
      Contained numberedEnv (twoUsers.args samplePlan none) (List.range' 1 2) sampleWorld :=
  bulkCreateAccounts_returnsCreated_iff numberedEnv numberedEnv_foreign twoUsers samplePlan none
    sampleWorld

/-- The world with the second account. -/
def secondTaken : World :=
  ((createAccount (.plain "user002".toList samplePlan)).run (World.handler (numberedEnv 9))
    sampleWorld).2

/-- The first account is committed, then `IntegrityError` leaves the caller without it. -/
theorem not_bulkCreateAccounts_returnsCreated : ¬ ∀ (envs : Nat → Env) (r : BulkRequest) (plan : Plan)
    (server : Option Server) (w : World), (∀ i, (envs i).Foreign) →
      ReturnsCreated w (bulkCreateAccounts envs r plan server w) := by
  intro h
  obtain ⟨accs, haccs, -⟩ := h numberedEnv twoUsers samplePlan none secondTaken numberedEnv_foreign
  have hraises : (bulkCreateAccounts numberedEnv twoUsers samplePlan none secondTaken).1.isOk =
      false := by decide +kernel
  rw [haccs] at hraises
  cases hraises

end SshPanelVpn.Panel

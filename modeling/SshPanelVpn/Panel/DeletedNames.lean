import SshPanelVpn.Panel.BulkCreation
import SshPanelVpn.Panel.SetupServer

/-! The name of a deleted account, when it is asked for again. -/
namespace SshPanelVpn.Panel

open Effects
open Effects.Prog (run_bind run_handle)

/-- An account of the name was on the server, and is deleted. -/
structure Db.DeletedName (db : Db) (username : Str) (server : Nat) : Prop where
  row : ∃ a ∈ db.accounts, a.username = username ∧ a.server = server
  deleted : ∀ a ∈ db.accounts, a.username = username → a.server = server → a.status = .deleted

/-- A connection; the other steps run something on the node. -/
def Event.isConnection : Event → Bool
  | .connected _ _ => true
  | _ => false

/-- No command and no request between the two. -/
def World.Quiet (w w' : World) : Prop := ∃ es, w'.log = es ++ w.log ∧ es.all Event.isConnection = true

/-- A success, or the failure that is announced, with nothing run. -/
def Orderly {ε α : Type} (announced : ε → Bool) (quiet : Prop) : Except ε α → Prop
  | .ok _ => True
  | .error e => announced e = true ∧ quiet

/-- The calls that may ask for the name. -/
inductive LaterCall where
  | createAccount (args : CreateArgs)
  | paymentWebhook (username : Str) (planId : Nat)
  | bulkCreateAccounts (r : BulkRequest) (plan : Plan) (server : Option Server)
  | setupServer (o : SetupOptions)

namespace LaterCall

/-- The call comes to the name and the server: to a creation there, at some number of a bulk
creation, or to the options of the command. -/
def Asks (envs : Nat → SetupEnv) (w : World) (username : Str) (server : Server) : LaterCall → Prop
  | .createAccount args => args.username = username ∧
    w.db.pickBestServer (envs 0).ties args.server = some server
  | .paymentWebhook u planId => u = username ∧ (w.db.getPlan planId).isSome = true ∧
      w.db.selectAccounts (.renewable u) = [] ∧ w.db.pickBestServer (envs 0).ties none = some server
  | .bulkCreateAccounts r plan given => ∃ i accs w', i < r.count ∧
      bulkLoop (fun i => (envs i).toEnv) (r.args plan given) [] (List.range' 1 i) w = (.ok accs, w') ∧
      accs.length = i ∧ (r.args plan given (i + 1)).username = username ∧
      w'.db.pickBestServer (envs (i + 1)).ties given = some server
  | .setupServer o => o.defaultUsername = username ∧ w.db.serverByIp o.ip = some server

/-- The call succeeds, or it fails as its caller expects before anything has run on a node. -/
def EndsOrderly (envs : Nat → SetupEnv) (w : World) : LaterCall → Prop
  | .createAccount args =>
    let x := (Panel.createAccount args).run (World.handler (envs 0).toEnv) w
    Orderly Exc.isAccountError (w.Quiet x.2) x.1
  | .paymentWebhook username planId =>
    let x := (Panel.paymentWebhook username planId .paid).run (World.handler (envs 0).toEnv) w
    match x.1 with
    | .ok (.badRequest _) => w.Quiet x.2
    | .ok _ => True
    | .error _ => False
  | .bulkCreateAccounts r plan given =>
    let x := Panel.bulkCreateAccounts (fun i => (envs i).toEnv) r plan given w
    Orderly Exc.isAccountError (w.Quiet x.2) x.1
  | .setupServer o =>
    let x := (SetupServer.handle o).run (SetupState.handler (envs 0)) ⟨w, []⟩
    Orderly SetupExc.isCommandError (w.Quiet x.2.world ∧ x.2.tested = []) x.1

end LaterCall

/-- The command ends before it comes to the row: no user is asked for, or the first connection
fails. -/
def SetupOptions.EndsEarly (o : SetupOptions) (env : SetupEnv) (w : World) (server : Server) : Prop :=
  ∃ saved db, w.db.saveServer server o.name o.maxUsers = some (saved, db) ∧
    if o.skipSshTest = true then
      o.skipUser = true ∨ (env.now.addDays o.defaultDays).isOk = true ∧
        (db.firstActivePlan.isSome = true ∨
          (db.createPlan o.defaultDays o.defaultMaxConns o.defaultBandwidthGb).isSome = true) ∧
        env.connects w = false
    else
      env.connects w = false ∨ o.skipUser = true ∧
        ∃ result, env.echo saved = .ok result ∧ result.ok = true

/-- An account that `delete_account` has deleted. -/
theorem deletedName_deleteAccount {env : Env} {w w' : World} {a : Account} {adminUser : Option Nat}
    (ha : a ∈ w.db.accounts)
    (h : (deleteAccount a adminUser).run (World.handler env) w = (.ok (), w')) :
    w'.db.DeletedName a.username a.server := by
  have hspec : tables.Spec env (fun v => v.db = w.db) (deleteAccount a adminUser)
      (fun _ v => v.db = w.db.write { a with status := .deleted } [.status]
        (some ⟨.delete, some a.id, adminUser, []⟩)) fun v => v.db = w.db :=
    tables_changeStatus (fun _ _ => quiet_bridgeRequest _ _) quiet_deleteUser w.db
  have hdb : w'.db = w.db.write { a with status := .deleted } [.status]
      (some ⟨.delete, some a.id, adminUser, []⟩) := by
    have hw := hspec w fun _ => rfl
    rw [h] at hw
    exact hw fun _ _ => rfl
  rw [hdb]
  refine ⟨⟨{ a with status := .deleted }, AccountTable.mem_save.mpr ⟨a, ha, ?_⟩, rfl, rfl⟩, ?_⟩
  · simp [Account.write, Account.writeField]
  · intro b hb hu hs
    obtain ⟨a', ha', rfl⟩ := AccountTable.mem_save.mp hb
    split at hu
    · next hid =>
      obtain rfl := AccountTable.eq_of_id ha' ha hid
      simp [Account.write, Account.writeField]
    · next hid =>
      rw [if_neg hid] at hs
      exact absurd (congrArg Account.id (AccountTable.eq_of_name ha' ha hu hs)) hid

/-- The table refuses a second row of a name. -/
theorem AccountTable.insert_eq_none {t : AccountTable} {a : Account}
    (h : ∃ b ∈ t, b.username = a.username ∧ b.server = a.server) : t.insert a = none := by
  obtain ⟨b, hb, hu, hs⟩ := h
  exact dif_neg fun hnew => hnew.1 (List.mem_map.mpr ⟨b, hb, by rw [hu, hs]⟩)

/-! `setup_server`. -/

namespace SetupServer

variable {env : SetupEnv} {o : SetupOptions} {s : SetupState} {server : Server}

theorem run_panel {α : Type} (p : PanelProg α) (s : SetupState) :
    (panel p).run (SetupState.handler env) s =
      (match (p.run (World.handler env.toEnv) s.world).1 with
        | .ok a => .ok a
        | .error e => .error (.other e),
        { s with world := (p.run (World.handler env.toEnv) s.world).2 }) := by
  have hembed : (p.embed SetupCall.panel fun _ r => r).run (SetupState.handler env) s =
      ((p.run (World.handler env.toEnv) s.world).1,
        { s with world := (p.run (World.handler env.toEnv) s.world).2 }) :=
    Prog.run_embed (fun w => { s with world := w }) (fun _ _ => ⟨rfl, rfl⟩) p s.world
  rw [panel, run_handle, hembed]
  rcases p.run (World.handler env.toEnv) s.world with ⟨a | e, w⟩ <;> rfl

theorem run_orRaise {α : Type} (x : Except Exc α) (s : SetupState) :
    (orRaise x).run (SetupState.handler env) s =
      (match x with
        | .ok a => .ok a
        | .error e => .error (.other e), s) := by
  rw [orRaise, run_panel]
  cases x <;> rfl

/-- A connection, or what it raises. -/
theorem run_connect (env : SetupEnv) (server : Server) (s : SetupState) :
    ∃ w', w'.db = s.world.db ∧ s.world.Quiet w' ∧
      (env.connects s.world = true ∧
        (panel (SSHManager.connect server)).run (SetupState.handler env) s =
          (.ok (), { s with world := w' }) ∨
      env.connects s.world = false ∧ ∃ e,
        (panel (SSHManager.connect server)).run (SetupState.handler env) s =
          (.error (.other e), { s with world := w' })) := by
  rw [run_panel]
  cases hc : env.connect s.world.log.length with
  | ok x =>
    refine ⟨s.world.logged (.connected server.id true), rfl, ⟨[_], rfl, rfl⟩, .inl ⟨?_, ?_⟩⟩
    · simp [Env.connects, hc, Except.isOk, Except.toBool]
    · simp [SSHManager.connect, World.handler, World.connect, hc]
  | error e =>
    refine ⟨s.world.logged (.connected server.id false), rfl, ⟨[_], rfl, rfl⟩, .inr ⟨?_, e, ?_⟩⟩
    · simp [Env.connects, hc, Except.isOk, Except.toBool]
    · simp [SSHManager.connect, World.handler, World.connect, hc]

theorem run_saveAccount (hrow : ∃ a ∈ s.world.db.accounts, a.username = o.defaultUsername ∧
    a.server = server.id) (plan : Plan) (password : Str) (date : DateTime) :
    ∃ e, (saveAccount o server plan password date).run (SetupState.handler env) s =
      (.error (.other e), s) := by
  have hnone : s.world.db.accounts.insert (row o server plan password date env.tokens) = none :=
    AccountTable.insert_eq_none hrow
  have hinsert : (ask (.insertAccount (row o server plan password date env.tokens)) >>=
      Prog.ofExcept : PanelProg Account).run (World.handler env.toEnv) s.world =
        (.error (row o server plan password date env.tokens).refusal, s.world) := by
    simp only [Prog.perform_bind, Prog.run_call, World.handler, World.insertAccount, hnone,
      Prog.ofExcept_error, Prog.run_raise]
  have htokens : (ask .newTokens : PanelProg (Str × Str)).run (World.handler env.toEnv) s.world =
      (.ok env.tokens, s.world) := rfl
  rw [saveAccount, run_bind, run_panel, htokens]
  dsimp only
  split
  · exact ⟨_, rfl⟩
  · rw [run_bind, run_panel, hinsert]
    exact ⟨_, rfl⟩

/-- Steps on a node. -/
def Remote : SetupCall → Prop
  | .panel (.connect _) => True
  | .panel (.exec _ _ _) => True
  | .echoOk _ => True
  | .userExists _ _ => True
  | _ => False

/-- The tables stay, and what has been sent to the node has been sent. -/
structure Keeps (s t : SetupState) : Prop where
  db : t.world.db = s.world.db
  tested : s.tested <:+ t.tested

theorem Keeps.trans {s t u : SetupState} (hst : Keeps s t) (htu : Keeps t u) : Keeps s u :=
  ⟨htu.db.trans hst.db, hst.tested.trans htu.tested⟩

theorem keeps_handler {c : SetupCall} (hc : Remote c) (s : SetupState) :
    Keeps s (SetupState.handler env c s).2 := by
  cases c with
  | panel c =>
    cases c with
    | connect server =>
      refine ⟨?_, List.suffix_rfl⟩
      simp only [SetupState.handler, World.handler, World.connect]
      split <;> rfl
    | exec server u cmd =>
      refine ⟨?_, List.suffix_rfl⟩
      simp only [SetupState.handler, World.handler, World.exec]
      split
      · rfl
      · split
        · split <;> rfl
        · rfl
    | _ => exact hc.elim
  | echoOk server => exact ⟨rfl, List.suffix_cons _ _⟩
  | userExists server u => exact ⟨rfl, List.suffix_cons _ _⟩
  | _ => exact hc.elim

theorem keeps_run {α : Type} {p : SetupProg α} (hp : p.AllCalls Remote) (s : SetupState) :
    Keeps s (p.run (SetupState.handler env) s).2 :=
  hp.run_related (r := Keeps) (fun _ => ⟨rfl, List.suffix_rfl⟩) Keeps.trans (fun _ s hc => keeps_handler hc s) s

theorem remote_panel {α : Type} {p : PanelProg α} (hp : p.AllCalls fun c => Remote (.panel c)) :
    (panel p).AllCalls Remote :=
  hp.embed.handle fun _ => trivial

theorem remote_orRaise {α : Type} (x : Except Exc α) : (orRaise x).AllCalls Remote :=
  remote_panel (Prog.allCalls_ofExcept x)

theorem remote_createUser (server : Server) (u password : Str) :
    (createUser server u password).AllCalls Remote := by
  refine Prog.AllCalls.bind ⟨trivial, fun _ => remote_orRaise _⟩ fun present => ?_
  split
  · trivial
  · refine (remote_panel (SSHManager.allCalls_createUser (fun _ _ => trivial) password)).bind
      fun result => ?_
    split <;> trivial

theorem remote_prepareUser (password : Str) (date : DateTime) :
    (prepareUser o server password date).AllCalls Remote := by
  refine (remote_createUser _ _ _).bind fun _ => ?_
  refine (remote_panel (SSHManager.allCalls_run fun _ _ => trivial)).bind fun _ => ?_
  refine (remote_panel (SSHManager.allCalls_setMaxLogins (fun _ _ => trivial) _)).bind fun _ => ?_
  split
  · exact remote_panel (SSHManager.allCalls_setupTrafficAccounting fun _ _ => trivial)
  · trivial

/-- The first command asks the node for the user. -/
theorem keeps_prepareUser (env : SetupEnv) (o : SetupOptions) (server : Server) (password : Str)
    (date : DateTime) (s : SetupState) :
    Keeps { s with tested := .userExists server.id o.defaultUsername :: s.tested }
      ((prepareUser o server password date).run (SetupState.handler env) s).2 := by
  have hcalls : (prepareUser o server password date).AllCalls Remote := remote_prepareUser password date
  exact keeps_run (hcalls.2 _) _

/-- Without a connection nothing is run; after one the node is asked for the user. -/
theorem run_provision (env : SetupEnv) (o : SetupOptions) (server : Server) (password : Str)
    (date : DateTime) (s : SetupState) :
    ∃ w', s.world.Quiet w' ∧
      (env.connects s.world = false ∧ (∃ text,
        (provision o server password date).run (SetupState.handler env) s =
          (.error (.commandError text), { s with world := w' })) ∨
      env.connects s.world = true ∧
        Keeps { s with tested := .userExists server.id o.defaultUsername :: s.tested }
          ((provision o server password date).run (SetupState.handler env) s).2) := by
  obtain ⟨w', hdb, hquiet, ⟨hc, hrun⟩ | ⟨hc, e, hrun⟩⟩ := run_connect env server s
  · refine ⟨w', hquiet, .inr ⟨hc, ?_⟩⟩
    have hkeeps := keeps_prepareUser env o server password date
      { s with world := w' }
    have hsame : ((provision o server password date).run (SetupState.handler env) s).2 =
        ((prepareUser o server password date).run (SetupState.handler env) { s with world := w' }).2 := by
      rw [provision, run_handle, run_bind, hrun]
      dsimp only
      rcases (prepareUser o server password date).run (SetupState.handler env) { s with world := w' } with
        ⟨x | x, t⟩
      · cases x <;> rfl
      · rfl
    rw [hsame]
    exact ⟨hkeeps.db.trans hdb, hkeeps.tested⟩
  · refine ⟨w', hquiet, .inl ⟨hc, "Remote provisioning failed: ".toList ++ e.text, ?_⟩⟩
    rw [provision, run_handle, run_bind, hrun]
    rfl

/-- There is an active plan, or one can be made. -/
def Planned (o : SetupOptions) (db : Db) : Prop :=
  db.firstActivePlan.isSome = true ∨
    (db.createPlan o.defaultDays o.defaultMaxConns o.defaultBandwidthGb).isSome = true

theorem run_getPlan (env : SetupEnv) (o : SetupOptions) (s : SetupState) :
    (∃ plan db, Planned o s.world.db ∧ db.accounts = s.world.db.accounts ∧
      (getPlan o).run (SetupState.handler env) s =
        (.ok plan, { s with world := { s.world with db := db } })) ∨
    ¬ Planned o s.world.db ∧
      (getPlan o).run (SetupState.handler env) s = (.error (.other .integrityError), s) := by
  unfold getPlan Planned
  simp only [Prog.perform_bind, Prog.run_call, SetupState.handler]
  cases hplan : s.world.db.firstActivePlan with
  | some plan => exact .inl ⟨plan, s.world.db, .inl rfl, rfl, rfl⟩
  | none =>
    simp only [Prog.run_call, SetupState.handler, run_orRaise]
    cases hnew : s.world.db.createPlan o.defaultDays o.defaultMaxConns o.defaultBandwidthGb with
    | none => exact .inr ⟨by simp, rfl⟩
    | some x =>
      refine .inl ⟨x.1, x.2, .inr rfl, ?_, rfl⟩
      unfold Db.createPlan at hnew
      split at hnew
      · cases hnew
      · cases hnew
        rfl

/-- A new user of a name that has a row is refused by the table, if by nothing before. -/
theorem run_newUser (env : SetupEnv) (hrow : ∃ a ∈ s.world.db.accounts, a.username = o.defaultUsername ∧
    a.server = server.id) (password : Str) (date : DateTime) :
    let x := (newUser o server password date).run (SetupState.handler env) s
    (∃ e, x.1 = .error e) ∧ s.tested <:+ x.2.tested ∧
      ((∃ text, x.1 = .error (.commandError text)) ∧ s.world.Quiet x.2.world ∧ x.2.tested = s.tested ↔
        Planned o s.world.db ∧ env.connects s.world = false) := by
  intro x
  obtain ⟨plan, db, hplanned, haccounts, hplan⟩ | ⟨hnone, hplan⟩ := run_getPlan env o s
  · let s' : SetupState := { s with world := { s.world with db := db } }
    have hx : x = (provision o server password date >>= fun _ =>
        saveAccount o server plan password date).run (SetupState.handler env) s' := by
      simp only [x, newUser]
      rw [run_bind, hplan]
    rw [hx, run_bind]
    obtain ⟨w', hquiet, ⟨hc, text, hrun⟩ | ⟨hc, hkeeps⟩⟩ :=
      run_provision env o server password date s'
    · rw [hrun]
      exact ⟨⟨_, rfl⟩, List.suffix_rfl, iff_of_true ⟨⟨text, rfl⟩, hquiet, rfl⟩ ⟨hplanned, hc⟩⟩
    · have hmore : ∀ t, Keeps { s' with tested := .userExists server.id o.defaultUsername :: s'.tested } t →
          s.tested <:+ t.tested ∧ t.tested ≠ s.tested := by
        intro t ht
        refine ⟨(List.suffix_cons _ _).trans ht.tested, fun h => ?_⟩
        have hlen := ht.tested.length_le
        rw [h] at hlen
        exact absurd hlen (Nat.not_succ_le_self _)
      have hno : ∀ {p : Prop}, ¬ (p ∧ env.connects s.world = false) := by
        rintro p ⟨-, h⟩
        exact absurd (hc.symm.trans h) (by simp)
      rcases hr : (provision o server password date).run (SetupState.handler env) s' with ⟨e | u, t⟩
      · rw [hr] at hkeeps
        obtain ⟨hsuffix, hne⟩ := hmore t hkeeps
        exact ⟨⟨_, rfl⟩, hsuffix, iff_of_false (fun h => hne h.2.2) hno⟩
      · rw [hr] at hkeeps
        obtain ⟨hsuffix, hne⟩ := hmore t hkeeps
        have hrow' : ∃ a ∈ t.world.db.accounts, a.username = o.defaultUsername ∧ a.server = server.id := by
          rw [hkeeps.db]
          exact haccounts ▸ hrow
        obtain ⟨e, hsave⟩ : ∃ e, (saveAccount o server plan password date).run (SetupState.handler env) t =
            (.error (.other e), t) := run_saveAccount hrow' plan password date
        dsimp only
        rw [hsave]
        exact ⟨⟨_, rfl⟩, hsuffix, iff_of_false (fun h => hne h.2.2) hno⟩
  · have hx : x = (.error (.other .integrityError), s) := by
      simp only [x, newUser]
      rw [run_bind, hplan]
    rw [hx]
    refine ⟨⟨_, rfl⟩, List.suffix_rfl, iff_of_false ?_ fun h => hnone h.1⟩
    rintro ⟨⟨text, h⟩, -⟩
    cases h

/-- No account of the name is found among those that are not deleted. -/
theorem undeletedExists_eq_false {db : Db} {u : Str} {k : Nat} (h : db.DeletedName u k) :
    db.undeletedExists u k = false := by
  refine List.any_eq_false.mpr fun a ha => ?_
  simp only [decide_eq_true_eq, not_and, not_not]
  exact fun hu hk => h.deleted a ha hu hk

theorem run_defaultUser (env : SetupEnv) (h : s.world.db.DeletedName o.defaultUsername server.id) :
    let x := (defaultUser o server).run (SetupState.handler env) s
    (∃ e, x.1 = .error e) ∧ s.tested <:+ x.2.tested ∧
      ((∃ text, x.1 = .error (.commandError text)) ∧ s.world.Quiet x.2.world ∧ x.2.tested = s.tested ↔
        (env.now.addDays o.defaultDays).isOk = true ∧ Planned o s.world.db ∧
          env.connects s.world = false) := by
  intro x
  obtain ⟨password, hpassword⟩ : ∃ password, (panel (passwordOr (some o.defaultPassword))).run
      (SetupState.handler env) s = (.ok password, s) := by
    rw [run_panel]
    cases o.defaultPassword with
    | nil => exact ⟨env.password, rfl⟩
    | cons c cs => exact ⟨c :: cs, rfl⟩
  have hnow : (panel (ask .now)).run (SetupState.handler env) s = (.ok env.now, s) := run_panel _ _
  cases hdate : env.now.addDays o.defaultDays with
  | error e =>
    have hx : x = (.error (.other e), s) := by
      simp only [x, defaultUser]
      rw [run_bind, hpassword]
      dsimp only
      rw [run_bind, hnow]
      dsimp only
      rw [run_bind, run_orRaise, hdate]
    rw [hx]
    refine ⟨⟨_, rfl⟩, List.suffix_rfl, iff_of_false ?_ fun h => by cases h.1⟩
    rintro ⟨⟨text, h⟩, -⟩
    cases h
  | ok date =>
    have hx : x = (newUser o server password date).run (SetupState.handler env) s := by
      simp only [x, defaultUser]
      rw [run_bind, hpassword]
      dsimp only
      rw [run_bind, hnow]
      dsimp only
      rw [run_bind, run_orRaise, hdate]
      dsimp only
      rw [Prog.perform_bind, Prog.run_call]
      simp only [SetupState.handler, undeletedExists_eq_false h, Bool.false_eq_true, if_false]
    rw [hx]
    obtain ⟨herror, hsuffix, hiff⟩ := run_newUser env h.row password date
    exact ⟨herror, hsuffix, hiff.trans ⟨fun h => ⟨rfl, h⟩, fun h => h.2⟩⟩

/-- `echo ok` answers. -/
def Echoes (env : SetupEnv) (server : Server) : Prop :=
  ∃ result, env.echo server = .ok result ∧ result.ok = true

theorem run_testConnection (env : SetupEnv) (server : Server) (s : SetupState) :
    ∃ w', w'.db = s.world.db ∧ s.world.Quiet w' ∧
      (env.connects s.world = false ∧ (∃ text,
        (testConnection server).run (SetupState.handler env) s =
          (.error (.commandError text), { s with world := w' })) ∨
      env.connects s.world = true ∧ ∃ r,
        (testConnection server).run (SetupState.handler env) s =
          (r, ⟨w', .echoOk server.id :: s.tested⟩) ∧
        (r = .ok () ∧ Echoes env server ∨
          (∃ text, r = .error (.commandError text)) ∧ ¬ Echoes env server)) := by
  obtain ⟨w', hdb, hquiet, ⟨hc, hrun⟩ | ⟨hc, e, hrun⟩⟩ := run_connect env server s
  · refine ⟨w', hdb, hquiet, .inr ⟨hc, ?_⟩⟩
    rw [testConnection, run_handle, run_bind, hrun]
    dsimp only
    rw [run_bind, Prog.perform_bind, Prog.run_call]
    simp only [SetupState.handler, run_orRaise, Echoes]
    cases env.echo server with
    | error e => exact ⟨_, rfl, .inr ⟨⟨_, rfl⟩, by simp⟩⟩
    | ok result =>
      dsimp only
      by_cases hok : result.ok = false
      · rw [if_pos hok]
        exact ⟨_, rfl, .inr ⟨⟨_, rfl⟩, by simp [hok]⟩⟩
      · rw [if_neg hok]
        exact ⟨_, rfl, .inl ⟨rfl, result, rfl, by simpa using hok⟩⟩
  · refine ⟨w', hdb, hquiet, .inl ⟨hc, "SSH connection failed: ".toList ++ e.text, ?_⟩⟩
    rw [testConnection, run_handle, run_bind, hrun]
    rfl

theorem isCommandError_iff {e : SetupExc} : e.isCommandError = true ↔ ∃ text, e = .commandError text := by
  cases e with
  | commandError text => exact iff_of_true rfl ⟨text, rfl⟩
  | other e => exact iff_of_false (by simp [SetupExc.isCommandError]) (by simp)

/-- Where no test has been made, the user decides. -/
theorem run_rest (env : SetupEnv) (h : s.world.db.DeletedName o.defaultUsername server.id) :
    let x := (if o.skipUser = true then Prog.ret () else defaultUser o server).run
      (SetupState.handler env) s
    s.tested <:+ x.2.tested ∧ (x.1.isOk = true ↔ o.skipUser = true) ∧
      (Orderly SetupExc.isCommandError (s.world.Quiet x.2.world ∧ x.2.tested = s.tested) x.1 ↔
        o.skipUser = true ∨ (env.now.addDays o.defaultDays).isOk = true ∧ Planned o s.world.db ∧
          env.connects s.world = false) := by
  by_cases hskip : o.skipUser = true
  · simp only [if_pos hskip]
    exact ⟨List.suffix_rfl, iff_of_true rfl hskip, iff_of_true trivial (.inl hskip)⟩
  · simp only [if_neg hskip]
    obtain ⟨⟨e, he⟩, hsuffix, hiff⟩ := run_defaultUser env h
    refine ⟨hsuffix, iff_of_false (fun hok => by rw [he] at hok; cases hok) hskip, ?_⟩
    rw [or_iff_right hskip, ← hiff, he]
    simp only [Orderly, isCommandError_iff, Except.error.injEq]

theorem saveServer_keeps {db db' : Db} {server saved : Server} {name : Str} {maxUsers : Int}
    (h : db.saveServer server name maxUsers = some (saved, db')) :
    db'.accounts = db.accounts ∧ saved.id = server.id := by
  unfold Db.saveServer at h
  split at h
  · cases h
  · cases h
    exact ⟨rfl, rfl⟩

/-- The command comes to an end in order just when it does not come to the row. -/
theorem handle_orderly_iff (env : SetupEnv) {w : World} (h : w.db.DeletedName o.defaultUsername server.id)
    (hserver : w.db.serverByIp o.ip = some server) :
    let x := (handle o).run (SetupState.handler env) ⟨w, []⟩
    Orderly SetupExc.isCommandError (w.Quiet x.2.world ∧ x.2.tested = []) x.1 ↔
      o.EndsEarly env w server := by
  intro x
  have hget : (getServer o).run (SetupState.handler env) ⟨w, []⟩ =
      match w.db.saveServer server o.name o.maxUsers with
      | some (saved, db) => (.ok saved, ⟨{ w with db := db }, []⟩)
      | none => (.error (.other .integrityError), ⟨w, []⟩) := by
    simp only [getServer, Prog.perform_bind, Prog.run_call, SetupState.handler, hserver]
    cases w.db.saveServer server o.name o.maxUsers <;> simp only [SetupState.orIntegrityError, run_orRaise]
  cases hsave : w.db.saveServer server o.name o.maxUsers with
  | none =>
    have hx : x = (.error (.other .integrityError), ⟨w, []⟩) := by
      simp only [x, handle]
      rw [run_bind, hget, hsave]
    rw [hx]
    refine iff_of_false (fun h => by cases h.1) ?_
    rintro ⟨saved, db, hsome, -⟩
    rw [hsave] at hsome
    cases hsome
  | some y =>
    rcases y with ⟨saved, db⟩
    have hx : x = (do
        if o.skipSshTest = true then Prog.ret () else testConnection saved
        if o.skipUser = true then Prog.ret () else defaultUser o saved : SetupProg Unit).run
          (SetupState.handler env) ⟨{ w with db := db }, []⟩ := by
      simp only [x, handle]
      rw [run_bind, hget, hsave]
    obtain ⟨haccounts, hid⟩ := saveServer_keeps hsave
    have hends : o.EndsEarly env w server ↔
        if o.skipSshTest = true then
          o.skipUser = true ∨ (env.now.addDays o.defaultDays).isOk = true ∧ Planned o db ∧
            env.connects w = false
        else env.connects w = false ∨ o.skipUser = true ∧ Echoes env saved := by
      simp only [SetupOptions.EndsEarly, hsave, Option.some.injEq, Prod.mk.injEq, exists_and_left,
        exists_eq_left', and_assoc]
      rfl
    have hrest : ∀ w' tested, w'.db.accounts = w.db.accounts →
        (⟨w', tested⟩ : SetupState).world.db.DeletedName o.defaultUsername saved.id := by
      intro w' tested hw'
      rw [hid]
      exact ⟨hw' ▸ h.row, hw' ▸ h.deleted⟩
    rw [hx, hends]
    by_cases hskip : o.skipSshTest = true
    · rw [if_pos hskip, if_pos hskip]
      exact (run_rest env (hrest { w with db := db } [] haccounts)).2.2
    · rw [if_neg hskip, if_neg hskip, run_bind]
      obtain ⟨w', hdb, hquiet, ⟨hc, text, hrun⟩ | ⟨hc, r, hrun, hr⟩⟩ :=
        run_testConnection env saved ⟨{ w with db := db }, []⟩
      · rw [hrun]
        exact iff_of_true ⟨rfl, hquiet, rfl⟩ (.inl hc)
      · have hconnects : ¬ env.connects w = false := fun hno => absurd (hc.symm.trans hno) (by simp)
        rw [hrun, or_iff_right hconnects]
        obtain ⟨rfl, hecho⟩ | ⟨⟨text, rfl⟩, hecho⟩ := hr
        · obtain ⟨hsuffix, hok, -⟩ := run_rest env
            (hrest w' [.echoOk saved.id] (by rw [hdb]; exact haccounts))
          dsimp only
          rcases hend : (if o.skipUser = true then Prog.ret () else defaultUser o saved).run
              (SetupState.handler env) ⟨w', [.echoOk saved.id]⟩ with ⟨e | u, t⟩
          · rw [hend] at hsuffix hok
            refine iff_of_false ?_ fun h => by cases hok.mpr h.1
            rintro ⟨-, -, hnil⟩
            rw [hnil] at hsuffix
            cases List.suffix_nil.mp hsuffix
          · rw [hend] at hok
            exact iff_of_true trivial ⟨hok.mp rfl, hecho⟩
        · refine iff_of_false ?_ fun h => hecho h.2
          rintro ⟨-, -, hnil⟩
          cases hnil

end SetupServer

/-! `create_account` and what calls it. -/

section Creating

variable {w : World} {server : Server}

/-- No row can be made of a name that has one; the exception is not the announced one. -/
theorem run_createAccount_taken (env : Env) {args : CreateArgs}
    (hrow : ∃ a ∈ w.db.accounts, a.username = args.username ∧ a.server = server.id)
    (hpick : w.db.pickBestServer env.ties args.server = some server) :
    ∃ e, e.isAccountError = false ∧
      (createAccount args).run (World.handler env) w = (.error e, w) := by
  have hnone : args.prepared env w.db = none := by
    cases hprep : args.prepared env w.db with
    | none => rfl
    | some x =>
      rcases x with ⟨server', account, t⟩
      obtain ⟨-, -, hpick', date, -, hinsert, -⟩ := prepare_eq_some hprep
      cases hpick.symm.trans hpick'
      rw [AccountTable.insert_eq_none hrow] at hinsert
      cases hinsert
  obtain ⟨e, hrefused, he⟩ := CreateArgs.run_refused hnone
  refine ⟨e, ?_, by rw [run_handler, he]⟩
  cases hrefused with
  | noServers hnot =>
    rw [hpick] at hnot
    cases hnot
  | overflow _ hdate =>
    obtain rfl := addDays_error hdate
    rfl
  | taken _ _ _ => exact isAccountError_refusal _

theorem run_paymentWebhook_taken (env : Env) {u : Str} {planId : Nat}
    (hrow : ∃ a ∈ w.db.accounts, a.username = u ∧ a.server = server.id)
    (hplan : (w.db.getPlan planId).isSome = true) (hnone : w.db.selectAccounts (.renewable u) = [])
    (hpick : w.db.pickBestServer env.ties none = some server) :
    ∃ e, (paymentWebhook u planId .paid).run (World.handler env) w = (.error e, w) := by
  obtain ⟨plan, hplan⟩ := Option.isSome_iff_exists.mp hplan
  obtain ⟨e, hkind, he⟩ := run_createAccount_taken env (show ∃ a ∈ w.db.accounts,
    a.username = (CreateArgs.plain u plan).username ∧ a.server = server.id from hrow) hpick
  refine ⟨e, ?_⟩
  unfold paymentWebhook
  simp only [ne_eq, not_true_eq_false, if_false, Prog.perform_bind, Prog.run_call, World.handler, hplan,
    orHttp404, Prog.ret_bind, hnone, List.head?_nil]
  rw [run_handle, run_bind, he]
  dsimp only
  cases e <;> first | rfl | cases hkind

/-- The loop goes on where all its calls have returned. -/
theorem bulkLoop_append {envs : Nat → Env} {args : Nat → CreateArgs} {accounts l : List Account}
    {is js : List Nat} {w w' : World} (h : bulkLoop envs args accounts is w = (.ok l, w'))
    (hall : l.length = accounts.length + is.length) :
    bulkLoop envs args accounts (is ++ js) w = bulkLoop envs args l js w' := by
  induction is generalizing accounts w with
  | nil =>
    cases h
    rfl
  | cons i is ih =>
    rw [List.cons_append, bulkLoop]
    rw [bulkLoop] at h
    rcases hr : (createAccount (args i)).run (World.handler (envs i)) w with ⟨e | acc, u⟩
    · rw [hr] at h
      dsimp only at h
      split at h
      · cases h
        simp at hall
      · cases h
    · rw [hr] at h
      refine ih h ?_
      simp only [List.length_append, List.length_cons, List.length_nil] at hall ⊢
      omega

end Creating

/-- A later call that asks for the name of a deleted account ends in order just when it is the command
`setup_server` and does not come to the row. -/
theorem laterCall_endsOrderly_iff (c : LaterCall) (envs : Nat → SetupEnv) (w : World) (username : Str)
    (server : Server) (hdeleted : w.db.DeletedName username server.id)
    (hasks : c.Asks envs w username server) :
    c.EndsOrderly envs w ↔ ∃ o, c = .setupServer o ∧ o.EndsEarly (envs 0) w server := by
  cases c with
  | createAccount args =>
    obtain ⟨rfl, hpick⟩ := hasks
    obtain ⟨e, hkind, he⟩ := run_createAccount_taken (envs 0).toEnv hdeleted.row hpick
    refine iff_of_false ?_ (by rintro ⟨o, ho, -⟩; cases ho)
    simp only [LaterCall.EndsOrderly, he, Orderly, hkind]
    simp
  | paymentWebhook u planId =>
    obtain ⟨rfl, hplan, hnone, hpick⟩ := hasks
    obtain ⟨e, he⟩ := run_paymentWebhook_taken (envs 0).toEnv hdeleted.row hplan hnone hpick
    refine iff_of_false ?_ (by rintro ⟨o, ho, -⟩; cases ho)
    simp only [LaterCall.EndsOrderly, he, not_false_eq_true]
  | bulkCreateAccounts r plan given =>
    obtain ⟨i, accs, w', hi, hloop, hlen, rfl, hpick⟩ := hasks
    have hrange : List.range' 1 r.count =
        List.range' 1 i ++ (i + 1) :: List.range' (i + 2) (r.count - i - 1) := by
      have hcons : List.range' (1 + i) (r.count - i) =
          (i + 1) :: List.range' (i + 2) (r.count - i - 1) := by
        obtain ⟨k, hk⟩ := Nat.exists_eq_add_of_lt hi
        rw [hk, Nat.add_assoc, Nat.add_sub_cancel_left, List.range'_succ, Nat.add_comm 1 i]
        simp
      rw [← hcons, List.range'_append_1, Nat.add_sub_cancel' hi.le]
    have hrow : ∃ a ∈ w'.db.accounts, a.username = (r.args plan given (i + 1)).username ∧
        a.server = server.id := by
      obtain ⟨a, ha, hu⟩ := hdeleted.row
      obtain ⟨new, -, hrows⟩ := bulkLoop_ok hloop
      refine ⟨a, ?_, hu⟩
      rw [AccountTable.mem_rows, hrows]
      exact List.mem_append_right _ ha
    obtain ⟨e, hkind, he⟩ := run_createAccount_taken (envs (i + 1)).toEnv hrow hpick
    refine iff_of_false ?_ (by rintro ⟨o, ho, -⟩; cases ho)
    simp only [LaterCall.EndsOrderly, bulkCreateAccounts]
    rw [hrange, bulkLoop_append hloop (by simp [hlen]), bulkLoop, he]
    simp only [hkind, Bool.false_eq_true, if_false, Orderly, false_and, not_false_eq_true]
  | setupServer o =>
    obtain ⟨rfl, hserver⟩ := hasks
    have hiff := SetupServer.handle_orderly_iff (envs 0) hdeleted hserver
    exact hiff.trans ⟨fun h => ⟨o, rfl, h⟩, by rintro ⟨o', ho, h⟩; cases ho; exact h⟩

/-! The account of the sample world, deleted. -/

def sampleSetupEnv : SetupEnv :=
  { sampleEnv 0 with
    tokens := ("access2".toList, "auth2".toList)
    echo := fun _ => .ok ⟨0, "ok".toList, []⟩
    lookup := fun _ _ => .ok ⟨0, [], []⟩ }

def sampleSetup : SetupOptions :=
  ⟨"node".toList, "10.0.0.1".toList, 10, "alice".toList, "secret".toList, 30, 1, 0, false, false⟩

def afterDelete : World := (NodeChange.sampleAccountWorld .ssh).run [(.delete 1 none, sampleEnv 0)]

theorem deletedName_afterDelete : afterDelete.db.DeletedName "alice".toList sampleServer.id :=
  ⟨by decide +kernel, by decide +kernel⟩

theorem asks_sampleSetup :
    (LaterCall.setupServer sampleSetup).Asks (fun _ => sampleSetupEnv) afterDelete "alice".toList
      sampleServer := ⟨rfl, by decide +kernel⟩

theorem laterCall_endsOrderly_iff_sample :
    (LaterCall.setupServer sampleSetup).EndsOrderly (fun _ => sampleSetupEnv) afterDelete ↔
      ∃ o, LaterCall.setupServer sampleSetup = .setupServer o ∧
        o.EndsEarly sampleSetupEnv afterDelete sampleServer :=
  laterCall_endsOrderly_iff _ (fun _ => sampleSetupEnv) _ _ _ deletedName_afterDelete asks_sampleSetup

/-- The command sets the user up on the node and then cannot save the row. -/
theorem not_laterCall_endsOrderly :
    ¬ ∀ (c : LaterCall) (envs : Nat → SetupEnv) (w : World) (username : Str) (server : Server),
      w.db.DeletedName username server.id → c.Asks envs w username server → c.EndsOrderly envs w := by
  intro h
  have horderly := h _ _ _ _ _ deletedName_afterDelete asks_sampleSetup
  have hrun : ((SetupServer.handle sampleSetup).run (SetupState.handler sampleSetupEnv)
      ⟨afterDelete, []⟩).1 = .error (.other .integrityError) := by decide +kernel
  simp only [LaterCall.EndsOrderly, hrun, Orderly] at horderly
  cases horderly.1

end SshPanelVpn.Panel

import SshPanelVpn.Panel.DeletedNames
import SshPanelVpn.Panel.ShownPasswords

/-! `ServerListView`: a new server with its default user, in between the operations on accounts. -/
namespace SshPanelVpn.Panel

open Effects Runs
open Effects.Prog (Triple ofExcept)

/-- A request to add a server, as far as it reaches the tables or the node here. -/
structure ServerRequest where
  name : Str
  ipAddress : Str
  maxUsers : Option Int
  deriving DecidableEq, Repr

namespace ServerRequest

def limit (r : ServerRequest) : Int := r.maxUsers.getD 100

/-- `is_valid` of `ServerCreateSerializer`. -/
def valid (r : ServerRequest) (db : Db) : Bool :=
  0 ≤ r.limit && db.servers.all fun s => s.name ≠ r.name && s.ipAddress ≠ r.ipAddress

end ServerRequest

namespace ServerListView

def defaultUsername : Str := "default_user".toList

/-- The user is created unless the node has it; `false` where that fails. -/
def createUser (server : Server) (password : Str) : SetupProg Bool := do
  let present ← (SetupCall.userExists server defaultUsername).ask >>= SetupServer.orRaise
  if present.ok then Prog.ret true
  else
    let result ← SetupServer.panel (SSHManager.createUser server defaultUsername password)
    Prog.ret result.ok

def prepareUser (server : Server) (password : Str) (expireDate : DateTime) : SetupProg Bool := do
  SetupServer.panel (SSHManager.connect server)
  if ← createUser server password then
    let _ ← SetupServer.panel (SSHManager.setExpiry server defaultUsername expireDate.isoDate)
    let _ ← SetupServer.panel (SSHManager.setMaxLogins server defaultUsername 1)
    Prog.ret true
  else Prog.ret false

/-- The row; its key is given by the table. -/
def row (server : Server) (plan : Plan) (password : Str) (expireDate : DateTime) (tokens : Str × Str) :
    Account where
  id := 0
  username := defaultUsername
  passwordDisplay := password
  server := server.id
  plan := some plan.id
  protocolType := .ssh
  status := .active
  expireDate := expireDate
  maxConnections := 1
  bandwidthLimitGb := 0
  bandwidthUsedGb := 0
  accessToken := tokens.1
  authToken := tokens.2
  createdBy := none
  note := "Auto-created default user.".toList

/-- `SSHAccount.objects.create`. -/
def saveAccount (server : Server) (plan : Plan) (password : Str) (expireDate : DateTime) :
    SetupProg Unit := do
  let tokens ← SetupServer.panel (ask .newTokens)
  let _ ← SetupServer.panel
    (ask (.insertAccount (row server plan password expireDate tokens)) >>= ofExcept)
  Prog.ret ()

/-- `_provision_default_user`. -/
def provisionDefaultUser (server : Server) : SetupProg Unit := do
  let password ← SetupServer.panel (ask .generatePassword)
  let now ← SetupServer.panel (ask .now)
  let expireDate ← SetupServer.orRaise (now.addDays 30)
  SetupCall.firstActivePlan.ask >>= fun
    | none => Prog.ret ()
    | some plan => do
      if ← (prepareUser server password expireDate).handle fun _ => Prog.ret false then
        saveAccount server plan password expireDate
      else Prog.ret ()

/-- `perform_create`. -/
def performCreate (r : ServerRequest) : SetupProg Unit := do
  let server ← (SetupCall.createServer r.ipAddress r.name r.limit).ask >>= SetupServer.orRaise
  provisionDefaultUser server

end ServerListView

/-- `ServerListView.post`. -/
def World.registerServer (env : SetupEnv) (r : ServerRequest) (w : World) : World :=
  if r.valid w.db then
    ((ServerListView.performCreate r).run (SetupState.handler env) ⟨w, []⟩).2.world
  else w

/-- An operation on accounts, or a new server. -/
inductive PanelAct where
  | account (op : AccountOp) (envs : Nat → Env)
  | registerServer (r : ServerRequest) (env : SetupEnv)

def World.panelAct (w : World) : PanelAct → World
  | .account op envs => w.act (op, envs)
  | .registerServer r env => w.registerServer env r

/-! The default user on its node. -/

/-- From `I` the function returns in `A` or raises in `X`, whatever fails. -/
def SetupServer.Spec {α : Type} (env : SetupEnv) (I : PasswordView → Prop) (p : SetupProg α)
    (A : α → PasswordView → Prop) (X : PasswordView → Prop) : Prop :=
  Triple (SetupState.handler env) (fun s => I (passwords.view s.world)) p
    (fun a s => A a (passwords.view s.world)) fun _ s => X (passwords.view s.world)

/-- `id` finds the user on the node. -/
def SetupEnv.Finds (env : SetupEnv) (server : Server) (u : Str) (v : PasswordView) : Prop :=
  (∃ result, env.lookup server u = .ok result ∧ result.ok = true) ∧ (v.remote server.id u).isSome = true

namespace SetupServer.Spec

variable {env : SetupEnv} {α β : Type} {I J X : PasswordView → Prop} {A : α → PasswordView → Prop}
  {B : β → PasswordView → Prop}

theorem panel {p : PanelProg α} (h : passwords.Spec env.toEnv I p A X) :
    SetupServer.Spec env I (SetupServer.panel p) A X := by
  intro s hs
  have hrun := h s.world fun _ => hs
  rw [SetupServer.run_panel]
  rcases hr : p.run (World.handler env.toEnv) s.world with ⟨a | a, w⟩ <;>
    rw [hr] at hrun <;> exact hrun (passwords.ok w)

theorem orRaise {x : Except Exc α} (hok : ∀ a v, x = .ok a → I v → A a v) (herr : ∀ v, I v → X v) :
    SetupServer.Spec env I (SetupServer.orRaise x) A X :=
  panel (.ofExcept hok fun _ v _ hv => herr v hv)

theorem ret {a : α} (h : ∀ v, I v → A a v) : SetupServer.Spec env I (Prog.ret a) A X :=
  Triple.ret fun _ hs => h _ hs

theorem bind {p : SetupProg α} {f : α → SetupProg β} (hp : SetupServer.Spec env I p A X)
    (hf : ∀ a, SetupServer.Spec env (A a) (f a) B X) : SetupServer.Spec env I (p >>= f) B X :=
  Triple.bind hp hf

theorem handle {p : SetupProg α} {h : SetupExc → SetupProg α} {Y : PasswordView → Prop}
    (hp : SetupServer.Spec env I p A X) (hh : ∀ e, SetupServer.Spec env X (h e) A Y) :
    SetupServer.Spec env I (p.handle h) A Y := Triple.handle hp hh

theorem imp {p : SetupProg α} {Y : PasswordView → Prop} {A' : α → PasswordView → Prop}
    (hp : SetupServer.Spec env I p A X) (hI : ∀ v, J v → I v) (hA : ∀ a v, A a v → A' a v)
    (hX : ∀ v, X v → Y v) : SetupServer.Spec env J p A' Y :=
  Triple.imp hp (fun _ hs => hI _ hs) (fun _ _ hs => hA _ _ hs) fun _ _ hs => hX _ hs

theorem pre {p : SetupProg α} (hp : SetupServer.Spec env I p A X) (hI : ∀ v, J v → I v) :
    SetupServer.Spec env J p A X := hp.imp hI (fun _ _ h => h) fun _ h => h

/-- A fact of the precondition that does not depend on the state. -/
theorem pure {φ : Prop} {p : SetupProg α} (h : φ → SetupServer.Spec env I p A X) :
    SetupServer.Spec env (fun v => φ ∧ I v) p A X :=
  fun s hs => h hs.1 s hs.2

/-- A call that only reads. -/
theorem read {c : Call} (value : Reply c) (hc : ∀ w, World.handler env.toEnv c w = (value, w)) :
    SetupServer.Spec env I (SetupServer.panel (ask c)) (fun x v => x = value ∧ I v) X :=
  panel (.read (fun _ => value) hc)

/-- The node is asked for the user. -/
theorem userExists {v₀ : PasswordView} (server : Server) (u : Str) :
    SetupServer.Spec env (fun v => v = v₀)
      ((SetupCall.userExists server u).ask >>= SetupServer.orRaise)
      (fun result v => (result.ok = true ↔ env.Finds server u v₀) ∧ v = v₀) fun v => v = v₀ := by
  have hask : SetupServer.Spec env (fun v => v = v₀) (SetupCall.userExists server u).ask
      (fun x v => (∀ result, x = .ok result → (result.ok = true ↔ env.Finds server u v₀)) ∧ v = v₀)
      fun v => v = v₀ := by
    rintro s rfl
    refine ⟨fun result hresult => ?_, rfl⟩
    obtain ⟨given, hgiven, rfl⟩ : ∃ given, env.lookup server u = .ok given ∧
        SetupState.found (s.world.nodes server.id) u given = result := by
      cases hl : env.lookup server u with
      | error e => simp [SetupState.handler, hl, Except.map] at hresult
      | ok given => exact ⟨given, rfl, by simpa [SetupState.handler, hl, Except.map] using hresult⟩
    have husers : ((passwords.view s.world).remote server.id u).isSome =
        ((s.world.nodes server.id).users.lookup u).isSome := Option.isSome_map
    simp only [SetupEnv.Finds, hgiven, husers, SetupState.found]
    by_cases hu : ((s.world.nodes server.id).users.lookup u).isSome = true
    · simp [hu]
    · simp only [hu]
      by_cases hcode : given.exitCode = 0 <;> simp [CommandResult.ok, hcode]
  exact hask.bind fun x => .pure fun hx =>
    .orRaise (fun result v he hv => ⟨hx result he, hv⟩) fun v hv => hv

end SetupServer.Spec

namespace ServerListView

variable {env : SetupEnv} {server : Server} {password : Str} {v₀ : PasswordView}

/-- Nothing but the password of the default user is new. -/
def Apart (server : Server) (v₀ v : PasswordView) : Prop :=
  passwords.OffUser server.id defaultUsername v₀ v ∧ v.db = v₀.db

/-- A user that was found keeps its password, and another one gets the new one. -/
structure Ready (env : SetupEnv) (server : Server) (password : Str) (v₀ v : PasswordView) : Prop where
  found : env.Finds server defaultUsername v₀ →
    v.remote server.id defaultUsername = v₀.remote server.id defaultUsername
  made : ¬ env.Finds server defaultUsername v₀ →
    v.remote server.id defaultUsername = some (some password)

theorem apart_refl (server : Server) (v : PasswordView) : Apart server v v := ⟨fun _ _ _ => rfl, rfl⟩

theorem apart_onServer {v : PasswordView} (h : Apart server v₀ v) (x : Option (Option Str)) :
    Apart server v₀ { v with
      remote := onServer v.remote server.id fun f => Function.update f defaultUsername x } :=
  ⟨passwords.offUser_onServer h.1 x, h.2⟩

theorem plainName_defaultUsername : PlainName defaultUsername := ⟨by decide, by decide⟩

theorem plainPassword_defaultUsername (h : '\n' ∉ password) : PlainPassword defaultUsername password :=
  plainName_defaultUsername.plainPassword h

/-- `useradd` may fail, and `chpasswd` tells of its success. -/
theorem spec_createUser' (h : '\n' ∉ password) :
    passwords.Spec env.toEnv (fun v => v = v₀) (SSHManager.createUser server defaultUsername password)
      (fun result v => Apart server v₀ v ∧
        (result.ok = true → v.remote server.id defaultUsername = some (some password)))
      (Apart server v₀) := by
  have hadd : passwords.Spec env.toEnv (fun v => v = v₀) (SSHManager.run server defaultUsername .useradd)
      (fun _ => Apart server v₀) (Apart server v₀) := by
    refine (passwords.run (I := Apart server v₀) ?_).pre ?_
    · intro p hp
      cases hp
    · rintro v rfl
      exact ⟨apart_refl server v, apart_onServer (apart_refl server v) _⟩
  refine hadd.bind fun _ => .of_view fun v₁ hv₁ => ?_
  refine (passwords.chpasswd (plainPassword_defaultUsername h)).imp (fun _ hv => hv) ?_ ?_
  · intro result v hv
    cases hok : result.ok with
    | false =>
      rw [hok] at hv
      obtain rfl : v = v₁ := hv
      exact ⟨hv₁, by intro hfalse; cases hfalse⟩
    | true =>
      rw [hok] at hv
      obtain rfl : v = passwords.set v₁ server.id defaultUsername password := hv
      exact ⟨apart_onServer hv₁ _, fun _ => by simp [passwords.set, onServer]⟩
  · rintro v (rfl | ⟨-, rfl⟩)
    · exact hv₁
    · exact apart_onServer hv₁ _

theorem spec_createUser (h : '\n' ∉ password) :
    SetupServer.Spec env (fun v => v = v₀) (createUser server password)
      (fun ready v => Apart server v₀ v ∧ (ready = true → Ready env server password v₀ v))
      (Apart server v₀) := by
  have hexists : SetupServer.Spec env (fun v => v = v₀)
      ((SetupCall.userExists server defaultUsername).ask >>= SetupServer.orRaise)
      (fun result v => (result.ok = true ↔ env.Finds server defaultUsername v₀) ∧ v = v₀)
      (Apart server v₀) :=
    (SetupServer.Spec.userExists server defaultUsername).imp (fun _ hv => hv) (fun _ _ hv => hv)
      (by rintro v rfl; exact apart_refl server v)
  refine hexists.bind fun present => .pure fun hfinds => ?_
  split
  · next hok =>
    refine .ret ?_
    rintro v rfl
    exact ⟨apart_refl server v, fun _ => ⟨fun _ => rfl, fun hno => (hno (hfinds.mp hok)).elim⟩⟩
  · next hok =>
    refine (SetupServer.Spec.panel (spec_createUser' h)).bind fun result => .ret ?_
    rintro v ⟨hapart, hset⟩
    exact ⟨hapart, fun hresult => ⟨fun hyes => (hok (hfinds.mpr hyes)).elim, fun _ => hset hresult⟩⟩

theorem spec_prepareUser (h : '\n' ∉ password) (expireDate : DateTime) :
    SetupServer.Spec env (fun v => v = v₀) (prepareUser server password expireDate)
      (fun ready v => Apart server v₀ v ∧ (ready = true → Ready env server password v₀ v))
      (Apart server v₀) := by
  have hweak : ∀ v, v = v₀ → Apart server v₀ v := by
    rintro v rfl
    exact apart_refl server v
  have hkeep : ∀ {α : Type} {p : PanelProg α},
      (∀ I : PasswordView → Prop, passwords.Spec env.toEnv I p (fun _ => I) I) →
      SetupServer.Spec env (fun v => Apart server v₀ v ∧ Ready env server password v₀ v)
        (SetupServer.panel p) (fun _ v => Apart server v₀ v ∧ Ready env server password v₀ v)
        (Apart server v₀) :=
    fun hp => (SetupServer.Spec.panel (hp _)).imp (fun _ hv => hv) (fun _ _ hv => hv) fun _ hv => hv.1
  have hconnect : SetupServer.Spec env (fun v => v = v₀) (SetupServer.panel (SSHManager.connect server))
      (fun _ v => v = v₀) (Apart server v₀) :=
    (SetupServer.Spec.panel passwords.connect).imp (fun _ hv => hv) (fun _ _ hv => hv) hweak
  refine hconnect.bind fun _ => (spec_createUser h).bind fun ready => ?_
  cases ready with
  | false => exact .ret fun v hv => ⟨hv.1, by intro hfalse; cases hfalse⟩
  | true =>
    refine SetupServer.Spec.pre (I := fun v => Apart server v₀ v ∧ Ready env server password v₀ v) ?_
      fun v hv => ⟨hv.1, hv.2 rfl⟩
    refine (hkeep fun I => passwords.unchanged_run rfl (by simp)).bind fun _ => ?_
    refine (hkeep fun I => passwords.unchanged_setMaxLogins 1).bind fun _ => .ret ?_
    exact fun v hv => ⟨hv.1, fun _ => hv.2⟩

/-- There is no new row, or one whose user is on the node. -/
def Provisioned (env : SetupEnv) (server : Server) (v₀ v : PasswordView) : Prop :=
  Apart server v₀ v ∨ ∃ v₁ plan date t, Apart server v₀ v₁ ∧ Ready env server env.password v₀ v₁ ∧
    v₀.db.accounts.insert (row server plan env.password date env.tokens) = some t ∧
    v = v₁.setAccounts t

theorem spec_saveAccount (plan : Plan) (date : DateTime) :
    SetupServer.Spec env (fun v => Apart server v₀ v ∧ Ready env server env.password v₀ v)
      (saveAccount server plan env.password date) (fun _ => Provisioned env server v₀)
      (Provisioned env server v₀) := by
  let I : PasswordView → Prop := fun v => Apart server v₀ v ∧ Ready env server env.password v₀ v
  have htokens : SetupServer.Spec env I (SetupServer.panel (ask .newTokens))
      (fun tokens v => tokens = env.tokens ∧ I v) (Provisioned env server v₀) :=
    .read (c := .newTokens) env.tokens fun _ => rfl
  refine htokens.bind fun tokens => .pure ?_
  rintro rfl
  have hinsert : passwords.Spec env.toEnv I
      (ask (.insertAccount (row server plan env.password date env.tokens)) >>= ofExcept)
      (fun _ => Provisioned env server v₀) (Provisioned env server v₀) := by
    refine (Observation.Spec.insertAccount _).bind fun x => ?_
    cases x with
    | error e => exact .raise fun v hv => .inl hv.1
    | ok a =>
      refine .ret ?_
      rintro v ⟨v₁, t, ⟨hapart, hready⟩, ht, rfl, -⟩
      exact .inr ⟨v₁, plan, date, t, hapart, hready, hapart.2 ▸ ht, rfl⟩
  exact (SetupServer.Spec.panel hinsert).bind fun _ => .ret fun _ hv => hv

theorem spec_provisionDefaultUser (h : '\n' ∉ env.password) :
    SetupServer.Spec env (fun v => v = v₀) (provisionDefaultUser server)
      (fun _ => Provisioned env server v₀) (Provisioned env server v₀) := by
  have hweak : ∀ v, v = v₀ → Provisioned env server v₀ v := by
    rintro v rfl
    exact .inl (apart_refl server v)
  refine (SetupServer.Spec.read (c := .generatePassword) env.password fun _ => rfl).bind
    fun password => .pure ?_
  rintro rfl
  refine (SetupServer.Spec.read (c := .now) env.now fun _ => rfl).bind fun now => .pure fun _ => ?_
  refine (SetupServer.Spec.orRaise (A := fun _ v => v = v₀) (fun _ _ _ hv => hv) hweak).bind
    fun date => ?_
  have hplan : SetupServer.Spec env (fun v => v = v₀) SetupCall.firstActivePlan.ask
      (fun _ v => v = v₀) (Provisioned env server v₀) := fun s hs => hs
  refine hplan.bind fun plan => ?_
  cases plan with
  | none => exact .ret hweak
  | some plan =>
    have hready : SetupServer.Spec env (fun v => v = v₀)
        ((prepareUser server env.password date).handle fun _ => Prog.ret false)
        (fun ready v => Apart server v₀ v ∧ (ready = true → Ready env server env.password v₀ v))
        (Provisioned env server v₀) :=
      (spec_prepareUser h date).handle fun _ =>
        .ret fun v hv => ⟨hv, by intro hfalse; cases hfalse⟩
    refine hready.bind fun ready => ?_
    cases ready with
    | false => exact .ret fun v hv => .inl hv.1
    | true => exact (spec_saveAccount plan date).pre fun v hv => ⟨hv.1, hv.2 rfl⟩

end ServerListView

/-! The table of the servers. -/

/-- The unique columns, and the server of every account. -/
structure Db.Served (db : Db) : Prop where
  ids : (db.servers.map Server.id).Nodup
  names : (db.servers.map Server.name).Nodup
  addresses : (db.servers.map Server.ipAddress).Nodup
  accounts : ∀ a ∈ db.accounts, ∃ s ∈ db.servers, s.id = a.server

section Served

variable {db db' : Db}

/-- The rows are others, on servers of the table. -/
theorem Db.Served.of_accounts (h : db.Served) (hservers : db'.servers = db.servers)
    (haccounts : ∀ b ∈ db'.accounts, ∃ s ∈ db.servers, s.id = b.server) : db'.Served := by
  obtain ⟨hids, hnames, haddresses, -⟩ := h
  rw [← hservers] at hids hnames haddresses haccounts
  exact ⟨hids, hnames, haddresses, haccounts⟩

theorem Db.Served.write (h : db.Served) (obj : Account) (fields : List AccountField)
    (entry : Option AuditLog) : (db.write obj fields entry).Served := by
  refine h.of_accounts rfl ?_
  intro b hb
  obtain ⟨a, ha, rfl⟩ := Db.mem_write.mp hb
  split
  · rw [(a.write_keys obj fields).server]
    exact h.accounts a ha
  · exact h.accounts a ha

theorem TableStep.served {l : TableWrite} (hst : TableStep db l db') (h : db.Served) : db'.Served := by
  cases hst with
  | @created server row accounts entry hserver _ hrow _ hinsert _ _ =>
    refine h.of_accounts rfl ?_
    intro b hb
    rcases (AccountTable.mem_insert hinsert).mp hb with rfl | hb
    · exact ⟨server, hserver, hrow.symm⟩
    · exact h.accounts b hb
  | status _ _ _ _ => exact h.write _ _ _
  | columns _ _ _ _ => exact h.write _ _ _
  | @moved row target accounts entry _ htarget _ hmove _ =>
    refine h.of_accounts rfl ?_
    intro b hb
    obtain ⟨a, ha, rfl⟩ := (AccountTable.mem_move hmove).mp hb
    unfold AccountTable.moved
    split
    · exact ⟨target, htarget, rfl⟩
    · exact h.accounts a ha

theorem World.act_served {w : World} (x : AccountOp × (Nat → Env)) (h : w.db.Served) :
    (w.act x).db.Served :=
  (World.act_wrote w x).keeps (fun _ _ _ hst _ hd => hst.served hd) h

theorem Db.createServer_eq_some {ip name : Str} {maxUsers : Int} {server : Server}
    (h : db.createServer ip name maxUsers = some (server, db')) :
    server.id ∉ db.servers.map Server.id ∧ server.name = name ∧ server.ipAddress = ip ∧
      name ∉ db.servers.map Server.name ∧ db'.servers.Perm (server :: db.servers) ∧
      db'.accounts = db.accounts := by
  unfold createServer at h
  split at h
  · cases h
  · next hguard =>
    obtain ⟨-, hname⟩ := not_or.mp hguard
    have hfresh : (db.servers.map Server.id).foldr max 0 + 1 ∉ db.servers.map Server.id := by
      intro hmem
      have hle := AccountTable.le_foldr_max hmem
      omega
    cases h
    refine ⟨hfresh, rfl, rfl, ?_, ?_, rfl⟩
    · intro hmem
      obtain ⟨s, hs, rfl⟩ := List.mem_map.mp hmem
      exact hname (List.any_eq_true.mpr ⟨s, hs, by simp⟩)
    · have hall : (db.servers.filter fun s => s.id ≠ (db.servers.map Server.id).foldr max 0 + 1) =
          db.servers := by
        rw [List.filter_eq_self]
        intro s hs
        have hne : s.id ≠ (db.servers.map Server.id).foldr max 0 + 1 := by
          intro hid
          exact hfresh (hid ▸ List.mem_map_of_mem hs)
        exact decide_eq_true hne
      refine (List.perm_orderedInsert _ _ _).trans ?_
      exact List.Perm.of_eq (congrArg _ hall)

/-- A request that is valid gives the server a name and an address of its own. -/
theorem Db.Served.createServer {r : ServerRequest} {server : Server} (h : db.Served)
    (hvalid : r.valid db = true)
    (hcreate : db.createServer r.ipAddress r.name r.limit = some (server, db')) : db'.Served := by
  obtain ⟨hid, hname, haddress, hfree, hperm, haccounts⟩ := Db.createServer_eq_some hcreate
  have hip : server.ipAddress ∉ db.servers.map Server.ipAddress := by
    rintro hmem
    obtain ⟨s, hs, hsip⟩ := List.mem_map.mp hmem
    have hall := List.all_eq_true.mp (Bool.and_eq_true_iff.mp hvalid).2 s hs
    simp only [Bool.and_eq_true, decide_eq_true_eq] at hall
    exact hall.2 (hsip.trans haddress)
  refine ⟨?_, ?_, ?_, ?_⟩
  · exact (hperm.map Server.id).nodup_iff.mpr (List.nodup_cons.mpr ⟨hid, h.ids⟩)
  · refine (hperm.map Server.name).nodup_iff.mpr (List.nodup_cons.mpr ⟨?_, h.names⟩)
    rwa [hname]
  · exact (hperm.map Server.ipAddress).nodup_iff.mpr (List.nodup_cons.mpr ⟨hip, h.addresses⟩)
  · intro a ha
    rw [haccounts] at ha
    obtain ⟨s, hs, hsa⟩ := h.accounts a ha
    exact ⟨s, hperm.mem_iff.mpr (List.mem_cons_of_mem _ hs), hsa⟩

/-- No account is on the server yet. -/
theorem Db.Served.free {ip name : Str} {maxUsers : Int} {server : Server} (h : db.Served)
    (hcreate : db.createServer ip name maxUsers = some (server, db')) {a : Account}
    (ha : a ∈ db.accounts) : a.server ≠ server.id := by
  intro heq
  obtain ⟨s, hs, hsa⟩ := h.accounts a ha
  refine (Db.createServer_eq_some hcreate).1 ?_
  rw [← heq, ← hsa]
  exact List.mem_map_of_mem hs

end Served

/-! The registrations in a run. -/

/-- The request fails before it saves the server, or the default user is tried. -/
theorem World.registerServer_cases {env : SetupEnv} (h : '\n' ∉ env.password) (r : ServerRequest)
    (w : World) : w.registerServer env r = w ∨ ∃ server db, r.valid w.db = true ∧
      w.db.createServer r.ipAddress r.name r.limit = some (server, db) ∧
      ServerListView.Provisioned env server (passwords.view { w with db := db })
        (passwords.view (w.registerServer env r)) := by
  unfold World.registerServer
  split
  · next hvalid =>
    cases hcreate : w.db.createServer r.ipAddress r.name r.limit with
    | none =>
      refine .inl ?_
      simp [ServerListView.performCreate, Prog.run_bind, SetupState.handler, SetupState.orIntegrityError,
        hcreate, SetupServer.run_orRaise]
    | some x =>
      obtain ⟨server, db⟩ := x
      refine .inr ⟨server, db, hvalid, rfl, ?_⟩
      let v : PasswordView := passwords.view { w with db := db }
      have hspec : SetupServer.Spec env (fun v' => v' = v) (ServerListView.provisionDefaultUser server)
          (fun _ => ServerListView.Provisioned env server v) (ServerListView.Provisioned env server v) :=
        ServerListView.spec_provisionDefaultUser h
      have hrun := hspec ⟨{ w with db := db }, []⟩ rfl
      have hperform : ((ServerListView.performCreate r).run (SetupState.handler env) ⟨w, []⟩) =
          (ServerListView.provisionDefaultUser server).run (SetupState.handler env)
            ⟨{ w with db := db }, []⟩ := by
        simp [ServerListView.performCreate, Prog.run_bind, SetupState.handler, SetupState.orIntegrityError,
          hcreate, SetupServer.run_orRaise]
      rw [hperform]
      rcases hr : (ServerListView.provisionDefaultUser server).run (SetupState.handler env)
        ⟨{ w with db := db }, []⟩ with ⟨a | e, s⟩ <;> rw [hr] at hrun <;> exact hrun
  · exact .inl rfl

/-- What a step must not meet. -/
def PanelAct.SavesPasswords : PanelAct → Prop
  | .account op envs => op.SavesPasswords envs
  | .registerServer _ env => '\n' ∉ env.password

/-- A row is made for a user that the node has had before, with another password. -/
def PanelAct.Adopts (w : World) : PanelAct → Prop
  | .account _ _ => False
  | .registerServer r env => ∃ server db,
      w.db.createServer r.ipAddress r.name r.limit = some (server, db) ∧
      (w.registerServer env r).db.accounts ≠ w.db.accounts ∧
      env.Finds server ServerListView.defaultUsername (passwords.view w) ∧
      (w.nodes server.id).passwords ServerListView.defaultUsername ≠ some (some env.password)

theorem World.registerServer_served {env : SetupEnv} {w : World} (hpassword : '\n' ∉ env.password)
    (r : ServerRequest) (h : w.db.Served) : (w.registerServer env r).db.Served := by
  rcases World.registerServer_cases hpassword r w with hsame | ⟨server, db, hvalid, hcreate, hprov⟩
  · rwa [hsame]
  · have hserved : db.Served := h.createServer hvalid hcreate
    rcases hprov with ⟨-, hdb⟩ | ⟨v₁, plan, date, t, ⟨-, hdb₁⟩, -, ht, hv⟩
    · have hdb' : (w.registerServer env r).db = db := hdb
      rwa [hdb']
    · have hdb' : (w.registerServer env r).db = { v₁.db with accounts := t } := congrArg View.db hv
      rw [hdb', hdb₁]
      refine hserved.of_accounts rfl ?_
      intro b hb
      rcases (AccountTable.mem_insert ht).mp hb with rfl | hb
      · refine ⟨server, ?_, rfl⟩
        exact (Db.createServer_eq_some hcreate).2.2.2.2.1.mem_iff.mpr List.mem_cons_self
      · exact hserved.accounts b hb

/-- The panel shows the passwords after a new server exactly if no user is adopted. -/
theorem World.registerServer_shown {env : SetupEnv} {w : World} (hpassword : '\n' ∉ env.password)
    (r : ServerRequest) (hserved : w.db.Served) (h : shownPasswords (passwords.view w)) :
    shownPasswords (passwords.view (w.registerServer env r)) ↔
      ¬ (PanelAct.registerServer r env).Adopts w := by
  rcases World.registerServer_cases hpassword r w with hsame | ⟨server, db, hvalid, hcreate, hprov⟩
  · rw [hsame]
    refine iff_of_true h ?_
    rintro ⟨server, db, -, hne, -⟩
    exact hne (by rw [hsame])
  · have hrows : db.accounts = w.db.accounts := (Db.createServer_eq_some hcreate).2.2.2.2.2
    have hshown : PasswordsShown db (passwords.remote w.nodes) :=
      PasswordsShown.of_rows h fun b hb => ⟨b, hrows ▸ hb, ⟨rfl, rfl, rfl, rfl, rfl, rfl⟩, rfl⟩
    have hapart : ∀ {v : PasswordView}, ServerListView.Apart server (passwords.view { w with db := db }) v →
        PasswordsShown db v.remote := by
      intro v hv
      refine hshown.elsewhere fun a ha => ?_
      exact hv.1 a.server a.username fun hs => (hserved.free hcreate (hrows ▸ ha) hs).elim
    rcases hprov with hv | ⟨v₁, plan, date, t, hv₁, hready, ht, hv⟩
    · have hdb : (w.registerServer env r).db = db := hv.2
      refine iff_of_true ?_ ?_
      · have hkept := hapart hv
        rw [← hdb] at hkept
        exact hkept
      · rintro ⟨-, -, -, hne, -⟩
        exact hne (by rw [hdb, hrows])
    · have hdb₁ : v₁.db = db := hv₁.2
      have hafter : shownPasswords (passwords.view (w.registerServer env r)) ↔
          PasswordsShown { db with accounts := t } v₁.remote := by
        rw [hv, ← hdb₁]
        rfl
      have hdb : (w.registerServer env r).db = { v₁.db with accounts := t } := congrArg View.db hv
      rw [hafter]
      constructor
      · rintro hend ⟨server', db', hcreate', -, hfinds, hne⟩
        obtain ⟨rfl, -⟩ := Prod.mk.inj (Option.some.inj (hcreate.symm.trans hcreate'))
        obtain ⟨p, hp⟩ := Option.isSome_iff_exists.mp hfinds.2
        have hkept := (hready.found hfinds).trans hp
        have hnew := hend.shown _ ((AccountTable.mem_insert ht).mpr (.inl rfl)) rfl p hkept
        rw [hnew] at hp
        exact hne hp
      · intro hno
        have hset : v₁.remote server.id ServerListView.defaultUsername = some (some env.password) := by
          by_cases hfinds : env.Finds server ServerListView.defaultUsername
              (passwords.view { w with db := db })
          · refine (hready.found hfinds).trans ?_
            by_contra hne
            refine hno ⟨server, db, hcreate, ?_, hfinds, hne⟩
            rw [hdb]
            intro heq
            have hcons := (AccountTable.rows_insert ht).symm.trans (congrArg AccountTable.rows heq)
            rw [← hrows] at hcons
            exact List.cons_ne_self _ _ hcons
          · exact hready.made hfinds
        exact (hapart hv₁).insert ht ServerListView.plainName_defaultUsername (fun _ => hset) db.auditLog

/-- A step that meets none of it. -/
abbrev SavingAct := { x : PanelAct // x.SavesPasswords }

def World.savingAct (w : World) (x : SavingAct) : World := w.panelAct x.1

theorem World.savingAct_served {w : World} (x : SavingAct) (h : w.db.Served) :
    (w.savingAct x).db.Served := by
  obtain ⟨⟨op, envs⟩ | ⟨r, env⟩, hx⟩ := x
  · exact World.act_served (op, envs) h
  · exact World.registerServer_served hx r h

theorem World.savingAct_shown {w : World} (x : SavingAct) (hserved : w.db.Served)
    (h : shownPasswords (passwords.view w)) :
    shownPasswords (passwords.view (w.savingAct x)) ↔ ¬ x.1.Adopts w := by
  obtain ⟨⟨op, envs⟩ | ⟨r, env⟩, hx⟩ := x
  · exact iff_of_true (shown_act (op, envs) hx h) id
  · exact World.registerServer_shown hx r hserved h

theorem World.after_served {w : World} (xs : List SavingAct) (h : w.db.Served) :
    (after World.savingAct w xs).db.Served := by
  induction xs generalizing w with
  | nil => exact h
  | cons x xs ih => exact ih (World.savingAct_served x h)

/-- Over any run of new servers and of operations on accounts, whatever fails in it, the panel shows at
every point the passwords that the users have, exactly if no default user is adopted. The servers keep
keys, names and addresses of their own, and every account is on one of them. -/
theorem World.registrations_show (w : World) (xs : List SavingAct) (hserved : w.db.Served)
    (h : PasswordsShown w.db fun server => (w.nodes server).passwords) :
    (after World.savingAct w xs).db.Served ∧
    ((∀ ys, ys <+: xs → PasswordsShown (after World.savingAct w ys).db fun server =>
        ((after World.savingAct w ys).nodes server).passwords) ↔
      Along World.savingAct (fun w x => ¬ x.1.Adopts w) w xs) :=
  ⟨World.after_served xs hserved,
    along_iff_prefixes (I := fun w => shownPasswords (passwords.view w))
      (fun _ x => World.savingAct_shown x) (fun _ x => World.savingAct_served x) hserved h⟩

theorem newline_sampleSetupEnv : '\n' ∉ sampleSetupEnv.password := by decide

theorem savesPasswords_createAlice :
    (AccountOp.op (.create (sampleRequest "alice" .ssh))).SavesPasswords fun _ => sampleEnv 0 where
  plain := ⟨⟨by decide, by decide⟩, by simp [sampleRequest]⟩
  generated := fun _ => newline_sampleSetupEnv
  stays := rfl
  heard := by
    intro pk adminUser hop
    cases hop

/-- An account is created, and a server is added. -/
def createAlice : SavingAct :=
  ⟨.account (.op (.create (sampleRequest "alice" .ssh))) fun _ => sampleEnv 0,
    savesPasswords_createAlice⟩

def freshServer : SavingAct :=
  ⟨.registerServer ⟨"fresh".toList, "10.0.0.2".toList, none⟩ sampleSetupEnv, newline_sampleSetupEnv⟩

/-- The node of the new server has had the default user before. -/
def usedWorld : World :=
  { sampleWorld with
    nodes := Function.update sampleWorld.nodes 1
      ⟨AList.insert ServerListView.defaultUsername ⟨some "old".toList, false, none⟩ ∅, ⟨∅, []⟩⟩ }

theorem World.registrations_show_createAlice :
    (∀ ys, ys <+: [createAlice, freshServer] →
      PasswordsShown (after World.savingAct sampleWorld ys).db fun server =>
        ((after World.savingAct sampleWorld ys).nodes server).passwords) ∧
    ¬ ∀ ys, ys <+: [createAlice, freshServer] →
      PasswordsShown (after World.savingAct usedWorld ys).db fun server =>
        ((after World.savingAct usedWorld ys).nodes server).passwords := by
  have hempty : ∀ users, PasswordsShown sampleWorld.db users := by
    intro users
    constructor
    · intro a ha
      cases ha
    · intro a ha
      cases ha
  have hserved : sampleWorld.db.Served := ⟨by decide, by decide, by decide, by
    intro a ha
    cases ha⟩
  constructor
  · have hid : ((sampleWorld.savingAct createAlice).db.createServer "10.0.0.2".toList "fresh".toList
        100).map (fun x => x.1.id) = some 1 := by decide +kernel
    have hfree : ((sampleWorld.savingAct createAlice).nodes 1).passwords
        ServerListView.defaultUsername = none := by decide +kernel
    refine (World.registrations_show sampleWorld [createAlice, freshServer] hserved
      (hempty _)).2.mpr ⟨id, ?_, trivial⟩
    rintro ⟨server, db, hcreate, -, ⟨-, hfinds⟩, -⟩
    have hserver : some server.id = some 1 := by
      rw [← hid]
      exact (congrArg (Option.map fun x : Server × Db => x.1.id) hcreate).symm
    rw [Option.some.inj hserver] at hfinds
    exact absurd (hfinds.symm.trans (congrArg Option.isSome hfree)) (by decide)
  · intro hshown
    have hadopts := (World.registrations_show usedWorld [createAlice, freshServer] hserved
      (hempty _)).2.mp hshown
    have hid : ((usedWorld.savingAct createAlice).db.createServer "10.0.0.2".toList "fresh".toList
        100).map (fun x => x.1.id) = some 1 := by decide +kernel
    have hused : ((usedWorld.savingAct createAlice).nodes 1).passwords
        ServerListView.defaultUsername = some (some "old".toList) := by decide +kernel
    obtain ⟨⟨server, db⟩, hcreate, hserver⟩ := Option.map_eq_some_iff.mp hid
    change server.id = 1 at hserver
    rw [← hserver] at hused
    refine hadopts.2.1 ⟨server, db, hcreate, ?_, ⟨⟨_, rfl, rfl⟩, congrArg Option.isSome hused⟩, ?_⟩
    · intro heq
      have hrows := congrArg (fun t => t.rows.length) heq
      revert hrows
      decide +kernel
    · rw [hused]
      decide

end SshPanelVpn.Panel

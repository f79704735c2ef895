import SshPanelVpn.Panel.SucceedingSteps
import SshPanelVpn.Panel.AccountIdentity

/-! `password_display`: the password that the panel shows for an SSH account, and the one that its user
has on the node. -/
namespace SshPanelVpn.Panel

open Effects Runs

/-- The users on a node, with their passwords. -/
def Node.passwords (n : Node) (u : Str) : Option (Option Str) := (n.users.lookup u).map UnixUser.password

/-- `chpasswd` reads such a name as a whole. -/
def PlainName (u : Str) : Prop := '\n' ∉ u ∧ ':' ∉ u

/-- A user that is on the node of its account has the password of the row. -/
structure PasswordsShown (db : Db) (users : Nat → Str → Option (Option Str)) : Prop where
  names : ∀ a ∈ db.accounts, PlainName a.username
  shown : ∀ a ∈ db.accounts, a.protocolType = .ssh → ∀ password ∈ users a.server a.username,
    password = some a.passwordDisplay

/-- The names and the passwords that an operation brings in. -/
def AccountOp.Plain : AccountOp → Prop
  | .op (.create r) => PlainName r.username ∧ ∀ password ∈ r.password, '\n' ∉ password
  | .op (.webhook username _ _) => PlainName username
  | .bulkCreate r => PlainName r.pre
  | _ => True

/-- What an operation must not meet: `rebalance_users` makes a password that it does not save, and of a
`chpasswd` that is carried out `reset_password` has to hear. -/
structure AccountOp.SavesPasswords (op : AccountOp) (envs : Nat → Env) : Prop where
  plain : op.Plain
  generated : ∀ i, '\n' ∉ (envs i).password
  stays : op.isRebalance = false
  heard : ∀ pk adminUser, op = .resetPassword pk adminUser → ∀ server u password e,
    (envs 0).exec server u (.chpasswd password) ≠ .raised e true

/-! The commands and the passwords. -/

/-- The passwords after a command for `u` that is carried out. -/
def Cmd.passwordsAfter (cmd : Cmd) (u : Str) (users : Str → Option (Option Str)) :
    Str → Option (Option Str) :=
  match cmd with
  | .useradd => Function.update users u (some none)
  | .chpasswd password => Function.update users u (some (some password))
  | .userdel => Function.update users u none
  | _ => users

namespace Node

variable {n n' : Node} {u : Str} {cmd : Cmd}

theorem passwords_insert (user : UnixUser) :
    Node.passwords { n with users := n.users.insert u user } =
      Function.update n.passwords u (some user.password) := by
  funext v
  by_cases hv : v = u
  · subst hv
    simp [passwords]
  · simp [passwords, hv]

/-- A change that leaves the password. -/
theorem passwords_modifyUser {f : UnixUser → UnixUser} (hf : ∀ user, (f user).password = user.password)
    (h : n.modifyUser u f = some n') : n'.passwords = n.passwords := by
  obtain ⟨user, hu, rfl⟩ := Option.map_eq_some_iff.mp h
  have hpassword : n.passwords u = some user.password := by rw [passwords, hu, Option.map_some]
  rw [passwords_insert, hf, ← hpassword, Function.update_eq_self]

theorem passwords_succeed (hplain : ∀ password, cmd = .chpasswd password → PlainPassword u password)
    (h : n.succeed u cmd = some n') : n'.passwords = cmd.passwordsAfter u n.passwords := by
  cases cmd with
  | useradd =>
    simp only [succeed] at h
    split at h
    · cases h
    · cases h
      exact passwords_insert ⟨none, true, none⟩
  | chpasswd password =>
    have hentries : chpasswdEntries u password = some [(u, password)] := hplain password rfl
    simp only [succeed, hentries, setPasswords] at h
    split at h
    · next m hm =>
      cases h
      obtain ⟨user, -, rfl⟩ := Option.map_eq_some_iff.mp hm
      exact passwords_insert _
    · cases h
  | userdel =>
    obtain ⟨user, -, rfl⟩ := Option.map_eq_some_iff.mp h
    funext v
    by_cases hv : v = u
    · subst hv
      simp [passwords, Cmd.passwordsAfter]
    · simp [passwords, Cmd.passwordsAfter, hv]
  | usermodLock =>
    exact passwords_modifyUser (f := fun user => { user with locked := true }) (fun _ => rfl) h
  | usermodUnlock =>
    exact passwords_modifyUser (f := fun user => { user with locked := false }) (fun _ => rfl) h
  | chage date =>
    exact passwords_modifyUser (f := fun user => { user with expiry := some date }) (fun _ => rfl) h
  | _ =>
    cases h
    rfl

end Node

/-! The commands over all nodes. No failure ends the account of what happens. -/

def passwords : Observation (Nat → Str → Option (Option Str)) :=
  ⟨fun nodes server => (nodes server).passwords, fun _ => false⟩

abbrev PasswordView := View (Nat → Str → Option (Option Str))

namespace passwords

variable {env : Env} {server : Server} {u : Str} {cmd : Cmd} {I X : PasswordView → Prop}

theorem ok (w : World) : passwords.Ok w := fun _ _ => rfl

theorem remote_update (nodes : Nat → Node) (s : Nat) (n : Node) :
    passwords.remote (Function.update nodes s n) =
      Function.update (passwords.remote nodes) s n.passwords := by
  funext t
  by_cases ht : t = s
  · subst ht
    simp [passwords]
  · simp [passwords, ht]

theorem view_connect (w : World) : passwords.view (w.connect env server).2 = passwords.view w := by
  unfold World.connect
  split <;> rfl

theorem view_http (w : World) (request : ShadowLink.BridgeRequest) :
    passwords.view (w.http env server request).2 = passwords.view w := by
  have hserve : passwords.view (w.serve server.id request).2 = passwords.view w := by
    have h : passwords.remote (w.serve server.id request).2.nodes = passwords.remote w.nodes :=
      (remote_update _ _ _).trans (Function.update_eq_self server.id _)
    simp only [Observation.view, h]
    rfl
  unfold World.http
  split
  · rfl
  · split
    · exact hserve
    · rfl
  · exact hserve

variable (env server) in
/-- A command is carried out or not. -/
theorem exec_cases (hplain : ∀ password, cmd = .chpasswd password → PlainPassword u password)
    (w : World) :
    passwords.view (w.exec env server u cmd).2 = passwords.view w ∨
      passwords.view (w.exec env server u cmd).2 = { passwords.view w with
        remote := onServer (passwords.remote w.nodes) server.id (cmd.passwordsAfter u) } := by
  have hview : passwords.view (w.exec env server u cmd).2 =
      { passwords.view w with remote := passwords.remote (w.exec env server u cmd).2.nodes } := by
    unfold World.exec
    dsimp only
    split
    · rfl
    · split
      · split <;> rfl
      · rfl
  rw [hview, World.exec_nodes, remote_update]
  unfold Env.after
  split
  · next hc =>
    obtain ⟨n', hn'⟩ := succeed_of_carries hc
    refine .inr ?_
    rw [hn', Option.getD_some, Node.passwords_succeed hplain hn']
    rfl
  · refine .inl ?_
    exact congrArg (fun r => { passwords.view w with remote := r })
      (Function.update_eq_self server.id (passwords.remote w.nodes))

/-- A command after which an assertion holds either way. -/
theorem run (hplain : ∀ password, cmd = .chpasswd password → PlainPassword u password) :
    passwords.Spec env
      (fun v => I v ∧ I { v with remote := onServer v.remote server.id (cmd.passwordsAfter u) })
      (SSHManager.run server u cmd) (fun _ => I) I := by
  have hcall : passwords.Spec env
      (fun v => I v ∧ I { v with remote := onServer v.remote server.id (cmd.passwordsAfter u) })
      (ask (.exec server u cmd)) (fun _ => I) I := by
    refine .ask ?_
    rintro w - ⟨hno, hyes⟩
    change I (passwords.view (w.exec env server u cmd).2)
    rcases exec_cases env server hplain w with h | h
    · rw [h]
      exact hno
    · rw [h]
      exact hyes
  exact hcall.bind fun x => Observation.Spec.bind (.ofExcept (fun _ _ _ h => h) fun _ _ _ h => h)
    fun r => .ret fun _ h => h

end passwords

/-! What makes no user and sets no password, here or on a node. -/

def Cmd.setsPassword : Cmd → Bool
  | .useradd => true
  | .chpasswd _ => true
  | _ => false

def Call.KeepsPasswords : Call → Prop
  | .exec _ _ cmd => cmd.setsPassword = false
  | .saveAccount _ fields => .passwordDisplay ∉ fields
  | .insertAccount _ => False
  | .begin => False
  | .commit => False
  | .rollback => False
  | _ => True

/-- The assertion over the tables and the nodes. -/
def shownPasswords (v : PasswordView) : Prop := PasswordsShown v.db v.remote

theorem Account.write_password {fields : List AccountField} (h : .passwordDisplay ∉ fields)
    (row obj : Account) : (row.write obj fields).passwordDisplay = row.passwordDisplay := by
  induction fields generalizing row with
  | nil => rfl
  | cons f fields ih =>
    obtain ⟨hf, hfields⟩ := not_or.mp (List.mem_cons.not.mp h)
    refine (ih hfields (row.writeField obj f)).trans ?_
    cases f <;> first | rfl | exact (hf rfl).elim

theorem Account.write_all_password (row obj : Account) :
    (row.write obj AccountField.all).passwordDisplay = obj.passwordDisplay := rfl

namespace PasswordsShown

variable {db : Db} {users : Nat → Str → Option (Option Str)}

/-- A user is deleted. -/
theorem fade (h : PasswordsShown db users) (s : Nat) (u : Str) :
    PasswordsShown db (onServer users s fun f => Function.update f u none) := by
  refine ⟨h.names, ?_⟩
  intro a ha hssh password hpassword
  refine h.shown a ha hssh password ?_
  by_cases hs : a.server = s
  · subst hs
    rw [onServer, Function.update_self] at hpassword
    by_cases hu : a.username = u
    · rw [hu, Function.update_self] at hpassword
      cases hpassword
    · rwa [Function.update_of_ne hu] at hpassword
  · rwa [onServer, Function.update_of_ne hs] at hpassword

/-- The users without a row are others. -/
theorem elsewhere {users' : Nat → Str → Option (Option Str)} (h : PasswordsShown db users)
    (hother : ∀ a ∈ db.accounts, users' a.server a.username = users a.server a.username) :
    PasswordsShown db users' := by
  refine ⟨h.names, ?_⟩
  intro a ha hssh password hpassword
  rw [hother a ha] at hpassword
  exact h.shown a ha hssh password hpassword

/-- The rows are others, with the names, the servers and the passwords of those before. -/
theorem of_rows {db' : Db} (h : PasswordsShown db users)
    (hrows : ∀ b ∈ db'.accounts, ∃ a ∈ db.accounts, a.SameKeys b ∧
      b.passwordDisplay = a.passwordDisplay) :
    PasswordsShown db' users := by
  constructor
  · intro b hb
    obtain ⟨a, ha, hk, -⟩ := hrows b hb
    rw [hk.username]
    exact h.names a ha
  · intro b hb hssh password hpassword
    obtain ⟨a, ha, hk, hshown⟩ := hrows b hb
    rw [hshown]
    rw [hk.server, hk.username] at hpassword
    exact h.shown a ha (hk.protocolType.symm.trans hssh) password hpassword

theorem save {obj : Account} {fields : List AccountField} (h : PasswordsShown db users)
    (hobj : ∀ row ∈ db.accounts, row.id = obj.id →
      (row.write obj fields).passwordDisplay = row.passwordDisplay) :
    PasswordsShown { db with accounts := db.accounts.save obj fields } users := by
  refine h.of_rows ?_
  intro b hb
  obtain ⟨a, ha, rfl⟩ := AccountTable.mem_save.mp hb
  refine ⟨a, ha, ?_⟩
  split
  · next hid => exact ⟨a.write_keys obj fields, hobj a ha hid⟩
  · exact ⟨⟨rfl, rfl, rfl, rfl, rfl, rfl⟩, rfl⟩

end PasswordsShown

theorem World.keepsPasswords_handler (env : Env) {c : Call} (hc : c.KeepsPasswords) (w : World)
    (h : shownPasswords (passwords.view w)) :
    shownPasswords (passwords.view (World.handler env c w).2) := by
  cases c with
  | connect server =>
    change shownPasswords (passwords.view (w.connect env server).2)
    rwa [passwords.view_connect]
  | http server request =>
    change shownPasswords (passwords.view (w.http env server request).2)
    rwa [passwords.view_http]
  | exec server u cmd =>
    change shownPasswords (passwords.view (w.exec env server u cmd).2)
    have hset : cmd.setsPassword = false := hc
    have hplain : ∀ password, cmd = .chpasswd password → PlainPassword u password := by
      rintro password rfl
      cases hset
    rcases passwords.exec_cases env server hplain w with hview | hview
    · rwa [hview]
    · rw [hview]
      cases cmd with
      | useradd => cases hset
      | chpasswd password => cases hset
      | userdel => exact PasswordsShown.fade h server.id u
      | _ =>
        have hsame : onServer (passwords.remote w.nodes) server.id (fun f => f) =
            passwords.remote w.nodes := Function.update_eq_self _ _
        change PasswordsShown w.db (onServer (passwords.remote w.nodes) server.id fun f => f)
        rw [hsame]
        exact h
  | saveAccount obj fields =>
    have hfields : .passwordDisplay ∉ fields := hc
    exact PasswordsShown.save h fun row _ _ => row.write_password hfields obj
  | insertAccount account => exact hc.elim
  | begin => exact hc.elim
  | commit => exact hc.elim
  | rollback => exact hc.elim
  | insertAuditLog entry => exact ⟨h.names, h.shown⟩
  | _ => exact h

section Programs

variable {env : Env} {α : Type} {server : Server} {u : Str} {a : Account}

/-- Such a program keeps the assertion, however far it gets. -/
theorem shown_of_calls {p : PanelProg α} (hp : p.AllCalls Call.KeepsPasswords) :
    passwords.Spec env shownPasswords p (fun _ => shownPasswords) shownPasswords :=
  hp.triple fun _ w hc hw _ => World.keepsPasswords_handler env hc w (hw (passwords.ok w))

abbrev KeepsPasswords (p : PanelProg α) : Prop := p.AllCalls Call.KeepsPasswords

theorem keeps_run {cmd : Cmd} (h : cmd.setsPassword = false) :
    KeepsPasswords (SSHManager.run server u cmd) :=
  ⟨h, fun _ => (Prog.allCalls_ofExcept _).bind fun _ => trivial⟩

theorem keeps_connect : KeepsPasswords (SSHManager.connect server) := SSHManager.allCalls_connect trivial

theorem keeps_accountServer : KeepsPasswords (accountServer a) := allCalls_accountServer trivial

theorem keeps_settled {p : PanelProg α} (hp : Settled server u p) : KeepsPasswords p := by
  refine hp.mono ?_
  rintro c ⟨cmd, rfl, hn⟩
  cases cmd <;> first | rfl | cases hn

theorem keeps_setMaxLogins (n : Int) : KeepsPasswords (SSHManager.setMaxLogins server u n) :=
  (keeps_run rfl).bind fun _ => (keeps_settled settled_ensureMaxloginScript).bind fun _ => trivial

theorem keeps_bridgeRequest (path : String) (data : ShadowLink.TokenRequest) :
    KeepsPasswords (ShadowLinkManager.bridgeRequest server "POST" path data) :=
  ShadowLinkManager.allCalls_bridgeRequest (fun _ => trivial) _ _ _

theorem keeps_saveStatus (status : AccountStatus) : KeepsPasswords (saveStatus a status) :=
  ⟨by change AccountField.passwordDisplay ∉ [AccountField.status]; simp, fun _ => trivial⟩

theorem keeps_changeStatus {status : AccountStatus} {action : AuditAction} {adminUser : Option Nat}
    {bridge : Server → Str → PanelProg ShadowLink.BridgeResponse}
    {ssh : Server → Str → PanelProg CommandResult}
    (hbridge : ∀ server token, KeepsPasswords (bridge server token))
    (hssh : ∀ server u, KeepsPasswords (ssh server u)) :
    KeepsPasswords (changeStatus a status action adminUser bridge ssh) := by
  have hsave : KeepsPasswords (do
      saveStatus a status
      ask (.insertAuditLog ⟨action, some a.id, adminUser, []⟩)) :=
    (keeps_saveStatus status).bind fun _ => ⟨trivial, fun _ => trivial⟩
  refine keeps_accountServer.bind fun server => ?_
  dsimp only
  split
  · exact (allCalls_logged (hbridge _ _)).bind fun _ => hsave
  · exact keeps_connect.bind fun _ => (hssh _ _).bind fun _ => hsave

theorem keeps_deleteAccount (adminUser : Option Nat) : KeepsPasswords (deleteAccount a adminUser) :=
  keeps_changeStatus (fun _ _ => keeps_bridgeRequest _ _) fun _ _ =>
    (keeps_run rfl).bind fun _ => keeps_run rfl

theorem keeps_suspendAccount (adminUser : Option Nat) : KeepsPasswords (suspendAccount a adminUser) :=
  keeps_changeStatus (fun _ _ => keeps_bridgeRequest _ _) fun _ _ => keeps_run rfl

theorem keeps_activateAccount (adminUser : Option Nat) : KeepsPasswords (activateAccount a adminUser) :=
  keeps_changeStatus (fun _ _ => keeps_bridgeRequest _ _) fun _ _ => keeps_run rfl

theorem keeps_extendAccount (days : Int) (adminUser : Option Nat) :
    KeepsPasswords (extendAccount a days adminUser) := by
  refine Prog.AllCalls.bind ?_ fun a' => ?_
  · refine ⟨trivial, fun now => (Prog.allCalls_ofExcept _).bind fun a' => ?_⟩
    exact ⟨by change AccountField.passwordDisplay ∉ [AccountField.expireDate, AccountField.status]; simp,
      fun _ => trivial⟩
  · refine keeps_accountServer.bind fun server => keeps_connect.bind fun _ => ?_
    refine (keeps_run rfl).bind fun _ => ?_
    dsimp only
    split
    · exact (keeps_run rfl).bind fun _ => ⟨trivial, fun _ => trivial⟩
    · exact ⟨trivial, fun _ => trivial⟩

theorem keeps_expireUser : KeepsPasswords (expireUser a) :=
  keeps_accountServer.bind fun _ => keeps_connect.bind fun _ => (keeps_run rfl).bind fun _ =>
    keeps_saveStatus .expired

theorem keeps_syncAccount : KeepsPasswords (syncAccount server a) := by
  refine (keeps_settled settled_setupTrafficAccounting).bind fun _ => ?_
  refine ((keeps_run rfl).bind fun _ => Prog.allCalls_ofExcept _).bind fun bytes => ?_
  refine Prog.AllCalls.bind ?_ fun _ => ?_
  · unfold saveUsage
    split
    · exact ⟨by change AccountField.passwordDisplay ∉ [AccountField.bandwidthUsedGb]; simp,
        fun _ => trivial⟩
    · trivial
  · unfold enforceLimit
    split
    · exact (keeps_run rfl).bind fun _ => keeps_saveStatus .suspended
    · trivial

theorem keeps_push (data : AccountUpdate) : KeepsPasswords (data.push a) := by
  refine keeps_accountServer.bind fun server => keeps_connect.bind fun _ => ?_
  have hlogins : KeepsPasswords (if data.maxConnections.isSome then do
      let _ ← SSHManager.setMaxLogins server a.username a.maxConnections
      else return ()) := by
    split
    · exact (keeps_setMaxLogins _).bind fun _ => trivial
    · trivial
  dsimp only
  split
  · exact (keeps_run rfl).bind fun _ => hlogins
  · exact hlogins

end Programs

/-! New passwords. -/

namespace passwords

variable {env : Env} {server : Server} {u password : Str} {cmd : Cmd} {I : PasswordView → Prop}
  {v₀ : PasswordView}

theorem connect : passwords.Spec env I (SSHManager.connect server) (fun _ => I) I := by
  have hcall : passwords.Spec env I (ask (.connect server)) (fun _ => I) I := by
    refine .ask ?_
    intro w _ hI
    change I (passwords.view (w.connect env server).2)
    rwa [view_connect]
  exact hcall.bind fun _ => .ofExcept (fun _ _ _ h => h) fun _ _ _ h => h

/-- The view with a password set. -/
def set (v : PasswordView) (s : Nat) (u password : Str) : PasswordView :=
  { v with remote := onServer v.remote s fun f => Function.update f u (some (some password)) }

/-- The panel hears of a password that is set, unless the exception comes after it. -/
theorem chpasswd (hplain : PlainPassword u password) :
    passwords.Spec env (fun v => v = v₀) (SSHManager.run server u (.chpasswd password))
      (fun result v => if result.ok then v = set v₀ server.id u password else v = v₀)
      fun v => v = v₀ ∨ (∃ e, env.exec server u (.chpasswd password) = .raised e true) ∧
        v = set v₀ server.id u password := by
  have hcall : passwords.Spec env (fun v => v = v₀) (ask (.exec server u (.chpasswd password)))
      (fun x v => match x with
        | .ok result => if result.exitCode = 0 then v = set v₀ server.id u password else v = v₀
        | .error _ => v = v₀ ∨ (∃ e, env.exec server u (.chpasswd password) = .raised e true) ∧
            v = set v₀ server.id u password)
      fun v => v = v₀ ∨ (∃ e, env.exec server u (.chpasswd password) = .raised e true) ∧
        v = set v₀ server.id u password := by
    refine .ask ?_
    rintro w - rfl
    have heach : ∀ p, Cmd.chpasswd password = .chpasswd p → PlainPassword u p := by
      rintro p ⟨⟩
      exact hplain
    simp only [World.handler, World.exec]
    cases hexec : env.exec server u (.chpasswd password) with
    | raised e applied =>
      have hview := exec_cases env server heach w
      simp only [World.exec, hexec] at hview
      cases applied with
      | false =>
        refine .inl ?_
        simp only [Bool.false_eq_true, if_false, Observation.view, World.updateNode,
          Function.update_eq_self]
        rfl
      | true => exact hview.imp_right fun h => ⟨⟨e, rfl⟩, h⟩
    | finished result =>
      by_cases hcode : result.exitCode = 0
      · simp only [hcode, if_true]
        cases hn : (w.nodes server.id).succeed u (.chpasswd password) with
        | none => simp
        | some n' =>
          have hpasswords := Node.passwords_succeed heach hn
          simp only [hcode, if_true, set, Observation.view_logged]
          simp only [Observation.view, World.updateNode, remote_update, hpasswords]
          rfl
      · simp [hcode]
  refine hcall.bind fun x => ?_
  cases x with
  | error e => exact .raise fun _ h => h
  | ok result =>
    refine .ret ?_
    intro v h
    simpa [CommandResult.ok] using h

/-- A command that leaves every password. -/
theorem unchanged_run (hset : cmd.setsPassword = false) (hdel : cmd ≠ .userdel) :
    passwords.Spec env I (SSHManager.run server u cmd) (fun _ => I) I := by
  refine (run ?_).pre ?_
  · rintro p rfl
    cases hset
  · intro v hv
    have hafter : cmd.passwordsAfter u = id := by
      cases cmd with
      | useradd => cases hset
      | chpasswd p => cases hset
      | userdel => exact (hdel rfl).elim
      | _ => rfl
    have hsame : onServer v.remote server.id (cmd.passwordsAfter u) = v.remote := by
      rw [hafter]
      exact Function.update_eq_self _ _
    rw [hsame]
    exact ⟨hv, hv⟩

theorem unchanged_settled {α : Type} {p : PanelProg α} (hp : Settled server u p) :
    passwords.Spec env I p (fun _ => I) I := by
  refine hp.triple ?_
  rintro c w ⟨cmd, rfl, hn⟩ hw -
  have hplain : ∀ p, cmd = .chpasswd p → PlainPassword u p := by
    rintro p rfl
    cases hn
  have hafter : cmd.passwordsAfter u = id := by
    cases cmd <;> first | rfl | cases hn
  change I (passwords.view (w.exec env server u cmd).2)
  rcases exec_cases env server hplain w with h | h
  · rw [h]
    exact hw (ok w)
  · have hsame : onServer (passwords.remote w.nodes) server.id (cmd.passwordsAfter u) =
        passwords.remote w.nodes := by
      rw [hafter]
      exact Function.update_eq_self _ _
    rw [h, hsame]
    exact hw (ok w)

theorem unchanged_setMaxLogins (n : Int) :
    passwords.Spec env I (SSHManager.setMaxLogins server u n) (fun _ => I) I :=
  (unchanged_run rfl (by simp)).bind fun _ =>
    (unchanged_settled settled_ensureMaxloginScript).bind fun _ => .ret fun _ h => h

/-- A user of one name is set up; the others keep their passwords. -/
def OffUser (s : Nat) (u : Str) (v₀ v : PasswordView) : Prop :=
  ∀ i name, (i = s → name ≠ u) → v.remote i name = v₀.remote i name

theorem offUser_onServer {v : PasswordView} (h : OffUser server.id u v₀ v) (x : Option (Option Str)) :
    OffUser server.id u v₀ { v with remote := onServer v.remote server.id fun f => Function.update f u x } := by
  intro i name hname
  rw [← h i name hname]
  by_cases hi : i = server.id
  · subst hi
    simp [onServer, hname rfl]
  · simp [onServer, hi]

variable (env server v₀) in
/-- A node that sets up a new user gives it the password. -/
theorem provision (account : Account) (hplain : PlainPassword account.username password) :
    passwords.Spec env (fun v => v = v₀) (provision account server password)
      (fun _ v => OffUser server.id account.username v₀ v ∧ (account.protocolType = .ssh →
        v.remote server.id account.username = some (some password)))
      fun v => OffUser server.id account.username v₀ v := by
  have hrefl : ∀ v, v = v₀ → OffUser server.id account.username v₀ v := by
    rintro v rfl i name -
    rfl
  unfold Panel.provision
  cases hprotocol : account.protocolType with
  | shadowlink =>
    have hcalls : (provisionShadowlinkAccount account server account.maxConnections).AllCalls fun c =>
        ∃ request, c = .http server request :=
      Prog.AllCalls.handle (Prog.AllCalls.bind (ShadowLinkManager.allCalls_bridgeRequest
        (fun request => ⟨request, rfl⟩) _ _ _) fun _ => trivial) fun _ => trivial
    have hkeep : passwords.Spec env (fun v => v = v₀)
        (provisionShadowlinkAccount account server account.maxConnections) (fun _ v => v = v₀)
        fun v => v = v₀ := by
      refine hcalls.triple ?_
      rintro c w ⟨request, rfl⟩ hw -
      change passwords.view (w.http env server request).2 = v₀
      rw [view_http]
      exact hw (ok w)
    refine hkeep.imp (fun _ h => h) ?_ hrefl
    intro _ v hv
    exact ⟨hrefl v hv, by intro h; cases h⟩
  | ssh =>
    let I : PasswordView → Prop := fun v => OffUser server.id account.username v₀ v
    let A : PasswordView → Prop := fun v => OffUser server.id account.username v₀ v ∧
      v.remote server.id account.username = some (some password)
    have hset : ∀ v v', I v → v' = v ∨ v' = set v server.id account.username password → I v' := by
      rintro v v' hv (rfl | rfl)
      · exact hv
      · exact offUser_onServer hv _
    have hconnect : passwords.Spec env (fun v => v = v₀) (SSHManager.connect server) (fun _ => I) I :=
      connect.imp (I := I) hrefl (fun _ _ h => h) fun _ h => h
    have hadd : passwords.Spec env I (SSHManager.run server account.username .useradd) (fun _ => I)
        I := by
      refine (run ?_).pre fun v hv => ⟨hv, offUser_onServer hv _⟩
      intro p hp
      cases hp
    have hchpasswd : passwords.Spec env I (SSHManager.run server account.username (.chpasswd password))
        (fun result v => I v ∧ (result.ok = true → A v)) I := by
      refine .of_view fun v₁ hv₁ => ?_
      refine (chpasswd hplain).imp (fun _ h => h) ?_ ?_
      · intro result v hv
        cases hok : result.ok with
        | false =>
          rw [hok] at hv
          exact ⟨hset v₁ v hv₁ (.inl hv), by intro h; cases h⟩
        | true =>
          rw [hok] at hv
          have hI : I v := hset v₁ v hv₁ (.inr hv)
          refine ⟨hI, fun _ => ⟨hI, ?_⟩⟩
          rw [show v = set v₁ server.id account.username password from hv]
          simp [set, onServer]
      · intro v hv
        exact hset v₁ v hv₁ (hv.imp_right fun h => h.2)
    have hweak : ∀ v, A v → I v := fun _ h => h.1
    unfold provisionSshAccount SSHManager.createUser
    refine hconnect.bind fun _ => (hadd.bind fun _ => hchpasswd).bind fun result => ?_
    split
    · exact .raise fun _ h => h.1
    · next hok =>
      have hok : result.ok = true := by simpa using hok
      refine Observation.Spec.pre (J := fun v => I v ∧ (result.ok = true → A v)) ?_ fun _ h => h.2 hok
      refine Observation.Spec.bind
        ((unchanged_run (I := A) rfl (by simp)).imp (fun _ h => h) (fun _ _ h => h) hweak) fun _ => ?_
      have hlogins : passwords.Spec env A
          (SSHManager.setMaxLogins server account.username account.maxConnections) (fun _ => A) I :=
        (unchanged_setMaxLogins _).imp (fun _ h => h) (fun _ _ h => h) hweak
      refine hlogins.bind fun _ => ?_
      have hend : ∀ v, A v → OffUser server.id account.username v₀ v ∧ (Protocol.ssh = .ssh →
          v.remote server.id account.username = some (some password)) := fun _ h => ⟨h.1, fun _ => h.2⟩
      split
      · exact (unchanged_settled (I := A) settled_setupTrafficAccounting).imp (fun _ h => h)
          (fun _ v h => hend v h) hweak
      · exact .ret hend

end passwords

section Services

variable {env : Env} {db : Db} {users users' : Nat → Str → Option (Option Str)} {a row : Account}
  {t : AccountTable} {password : Str}

theorem PlainName.plainPassword {u : Str} (h : PlainName u) (hp : '\n' ∉ password) :
    PlainPassword u password :=
  Panel.plainPassword h.1 h.2 hp

/-- The row of a user has the password that is set. -/
theorem PasswordsShown.reset (h : PasswordsShown db users) (ha : a ∈ db.accounts) :
    PasswordsShown { db with
      accounts := db.accounts.save { a with passwordDisplay := password } [.passwordDisplay] }
      (onServer users a.server fun f => Function.update f a.username (some (some password))) := by
  have hrow : ∀ {b}, b ∈ db.accounts.save { a with passwordDisplay := password } [.passwordDisplay] →
      ∃ c ∈ db.accounts, c.SameKeys b ∧ ((c = a ∧ b.passwordDisplay = password) ∨ (c ≠ a ∧ b = c)) := by
    intro b hb
    obtain ⟨c, hc, rfl⟩ := AccountTable.mem_save.mp hb
    refine ⟨c, hc, ?_⟩
    split
    · next hid =>
      obtain rfl := AccountTable.eq_of_id hc ha hid
      exact ⟨c.write_keys _ _, .inl ⟨rfl, rfl⟩⟩
    · next hid =>
      refine ⟨.refl c, .inr ⟨?_, rfl⟩⟩
      rintro rfl
      exact hid rfl
  constructor
  · intro b hb
    obtain ⟨c, hc, hk, -⟩ := hrow hb
    rw [hk.username]
    exact h.names c hc
  · intro b hb hssh p hp
    obtain ⟨c, hc, hk, ⟨rfl, hnew⟩ | ⟨hne, rfl⟩⟩ := hrow hb
    · rw [hk.server, hk.username, onServer, Function.update_self, Function.update_self] at hp
      rw [hnew]
      exact (Option.some.inj hp).symm
    · refine h.shown b hc hssh p ?_
      by_cases hs : b.server = a.server
      · have hu : b.username ≠ a.username := fun hu => hne (AccountTable.eq_of_name hc ha hu hs)
        rwa [hs, onServer, Function.update_self, Function.update_of_ne hu, ← hs] at hp
      · rwa [onServer, Function.update_of_ne hs] at hp

theorem shown_resetPassword (adminUser : Option Nat) (hpassword : '\n' ∉ env.password)
    (hheard : ∀ server u password e, env.exec server u (.chpasswd password) ≠ .raised e true) :
    passwords.Spec env (fun v => a ∈ v.db.accounts ∧ shownPasswords v) (resetPassword a adminUser)
      (fun _ => shownPasswords) shownPasswords := by
  refine .of_view fun v₀ h₀ => ?_
  obtain ⟨ha, hshown⟩ := h₀
  have hend : ∀ v : PasswordView, v = v₀ → shownPasswords v := by
    rintro v rfl
    exact hshown
  refine (Observation.Spec.read (fun _ => env.password) fun _ => rfl).bind fun newPw => .pure fun hnew => ?_
  subst hnew
  refine ((Observation.Spec.accountServer a).imp (fun _ h => h) (fun _ _ h => h) hend).bind fun server =>
    .pure fun hserver => ?_
  refine (passwords.connect.imp (fun _ h => h) (fun _ _ h => h) hend).bind fun _ => ?_
  refine ((passwords.chpasswd ((hshown.names a ha).plainPassword hpassword)).imp (fun _ h => h)
    (fun _ _ h => h) ?_).bind fun result => ?_
  · rintro v (hv | ⟨⟨e, he⟩, -⟩)
    · exact hend v hv
    · exact (hheard _ _ _ _ he).elim
  · cases hok : result.ok with
    | false => exact .raise fun v hv => hend v hv
    | true =>
      refine Observation.Spec.bind (.pre (.saveAccount (I := shownPasswords) _ _) ?_) fun _ =>
        (Observation.Spec.insertAuditLog (I := shownPasswords) _).pre fun v hv => ⟨hv.names, hv.shown⟩
      rintro v hv
      rw [show v = passwords.set v₀ server.id a.username env.password from hv, hserver]
      exact hshown.reset ha

theorem AccountTable.free_of_insert (ht : db.accounts.insert row = some t) {b : Account}
    (hb : b ∈ db.accounts) (hs : b.server = row.server) : b.username ≠ row.username := by
  intro hu
  unfold insert at ht
  split at ht
  · next hunique => exact hunique.1 (List.mem_map.mpr ⟨b, hb, by rw [hu, hs]⟩)
  · cases ht

/-- A user without a row. -/
theorem PasswordsShown.off (h : PasswordsShown db users) (ht : db.accounts.insert row = some t)
    (hother : ∀ i name, (i = row.server → name ≠ row.username) → users' i name = users i name) :
    PasswordsShown db users' :=
  h.elsewhere fun b hb => hother b.server b.username (AccountTable.free_of_insert ht hb)

/-- The user of a new row. -/
theorem PasswordsShown.insert (h : PasswordsShown db users) (ht : db.accounts.insert row = some t)
    (hname : PlainName row.username)
    (hnew : row.protocolType = .ssh → users row.server row.username = some (some row.passwordDisplay))
    (auditLog : List AuditLog) :
    PasswordsShown { db with accounts := t, auditLog := auditLog } users := by
  constructor
  · intro b hb
    rcases (AccountTable.mem_insert ht).mp hb with rfl | hb
    · exact hname
    · exact h.names b hb
  · intro b hb hssh p hp
    rcases (AccountTable.mem_insert ht).mp hb with rfl | hb
    · rw [hnew hssh] at hp
      exact (Option.some.inj hp).symm
    · exact h.shown b hb hssh p hp

/-- Only a user that is on the node with its password gets a row. -/
theorem shown_createAccount (args : CreateArgs) (hname : PlainName args.username)
    (hpassword : '\n' ∉ passwordOf env args.password) :
    passwords.Spec env shownPasswords (createAccount args) (fun _ => shownPasswords) shownPasswords := by
  intro w hw
  have hshown : PasswordsShown w.db (passwords.remote w.nodes) := hw (passwords.ok w)
  suffices hend : shownPasswords (passwords.view ((createAccount args).run (World.handler env) w).2) by
    rcases hr : (createAccount args).run (World.handler env) w with ⟨x | x, t⟩ <;>
      rw [hr] at hend <;> exact fun _ => hend
  rw [run_handler]
  cases hprep : args.prepared env w.db with
  | none =>
    obtain ⟨e, he⟩ := CreateArgs.run_not_prepared hprep
    rw [he]
    exact hshown
  | some x =>
    obtain ⟨server, account, t⟩ := x
    obtain ⟨-, -, -, date, -, hinsert, rfl⟩ := prepare_eq_some hprep
    let row := newAccount args server (passwordOf env args.password) date env.tokens
    have hprov := passwords.provision env server (passwords.view (w.opened t))
      { row with id := w.db.accounts.nextId } (hname.plainPassword hpassword) (w.opened t) fun _ => rfl
    rw [run_handler] at hprov
    rw [CreateArgs.run_of_prepared hprep]
    rcases hr : (provision { row with id := w.db.accounts.nextId } server (passwordOf env args.password)).run
      (World.recorded env) (w.opened t, []) with ⟨x | x, u, ds⟩
    · -- the user may be on the node, but it has no row
      rw [hr] at hprov
      exact hshown.off hinsert (hprov (passwords.ok _))
    · rw [hr] at hprov
      obtain ⟨hoff, hnew⟩ := hprov (passwords.ok _)
      refine (hshown.off hinsert hoff).insert hinsert hname ?_ _
      intro hssh
      have hdisplay : row.passwordDisplay = passwordOf env args.password := if_pos hssh
      rw [hdisplay]
      exact hnew hssh

end Services

/-! The tasks and the views. -/

section Operations

variable {env : Env} {α : Type} {w : World}

theorem keeps_expireUsers : KeepsPasswords expireUsers :=
  ⟨trivial, fun _ => ⟨trivial, allCalls_countSucceeded fun _ => keeps_expireUser⟩⟩

theorem keeps_cleanupExpiredAccounts (graceDays : Int) :
    KeepsPasswords (cleanupExpiredAccounts graceDays) :=
  ⟨trivial, fun _ => (Prog.allCalls_ofExcept _).bind fun _ =>
    ⟨trivial, allCalls_countSucceeded fun _ => keeps_deleteAccount none⟩⟩

theorem keeps_syncBandwidthUsage : KeepsPasswords syncBandwidthUsage :=
  allCalls_syncBandwidthUsage trivial (fun _ => trivial) (fun _ => trivial) fun _ _ => keeps_syncAccount

theorem keeps_adminAction (action : AdminAction) (pks : List Nat) (adminUser : Option Nat) :
    KeepsPasswords (adminAction action pks adminUser) := by
  refine allCalls_adminAction (fun _ => trivial) (fun a => ?_) pks
  cases action with
  | suspend => exact keeps_suspendAccount adminUser
  | activate => exact keeps_activateAccount adminUser
  | delete => exact keeps_deleteAccount adminUser

/-- `get_object_or_404`, then a service. -/
theorem shown_onAccount {pk : Nat} {service : Account → PanelProg Unit}
    (h : ∀ a, passwords.Spec env (fun v => a ∈ v.db.accounts ∧ shownPasswords v) (service a)
      (fun _ => shownPasswords) shownPasswords) :
    passwords.Spec env shownPasswords (onAccount pk service) (fun _ => shownPasswords) shownPasswords :=
  .onAccount (fun a => (h a).pre fun _ hv => ⟨Db.getAccount_mem hv.1, hv.2⟩) fun _ hv => hv

theorem shown_service {pk : Nat} {service : Account → PanelProg Unit}
    (h : ∀ a, KeepsPasswords (service a)) :
    passwords.Spec env shownPasswords (onAccount pk service) (fun _ => shownPasswords) shownPasswords :=
  shown_onAccount fun a => (shown_of_calls (h a)).pre fun _ hv => hv.2

/-- `account.save()` writes the password that has been read. -/
theorem shown_patchAccount (pk : Nat) (data : AccountUpdate) :
    passwords.Spec env shownPasswords (patchAccount pk data) (fun _ => shownPasswords)
      shownPasswords := by
  refine .patchAccount ?_ (fun account => shown_of_calls (keeps_push data)) fun _ hv => hv
  intro a date v ha _ hv
  have hsave : ∀ row ∈ v.db.accounts, row.id = (data.apply a date).id →
      (row.write (data.apply a date) AccountField.all).passwordDisplay = row.passwordDisplay := by
    intro row hrow hid
    have hrow' : row = a := AccountTable.eq_of_id hrow (Db.getAccount_mem ha) hid
    rw [hrow']
    exact a.write_all_password (data.apply a date)
  exact PasswordsShown.save hv hsave

theorem CreateRequest.resolve_args {r : CreateRequest} {db : Db} {args : CreateArgs}
    (h : r.resolve db = some args) : args.username = r.username ∧ args.password = r.password := by
  unfold resolve at h
  split at h
  · split at h <;> cases h
    exact ⟨rfl, rfl⟩
  · split at h <;> cases h
    exact ⟨rfl, rfl⟩
  · cases h

theorem newline_passwordOf {password : Option Str} (henv : '\n' ∉ env.password)
    (h : ∀ p ∈ password, '\n' ∉ p) : '\n' ∉ passwordOf env password := by
  rcases password with - | - | ⟨c, cs⟩
  · exact henv
  · exact henv
  · exact h _ rfl

theorem shown_createAccountView {r : CreateRequest} (henv : '\n' ∉ env.password)
    (hr : PlainName r.username ∧ ∀ password ∈ r.password, '\n' ∉ password) :
    passwords.Spec env shownPasswords (createAccountView r) (fun _ => shownPasswords)
      shownPasswords := by
  refine .createAccountView (fun args => .of_view fun v₀ hv₀ => ?_) fun _ hv => hv
  obtain ⟨husername, hpassword⟩ := CreateRequest.resolve_args hv₀.1
  have hcreate : passwords.Spec env shownPasswords (createAccount args) (fun _ => shownPasswords)
      shownPasswords := by
    apply shown_createAccount
    · rw [husername]
      exact hr.1
    · rw [hpassword]
      exact newline_passwordOf henv hr.2
  refine hcreate.pre ?_
  rintro v rfl
  exact hv₀.2

theorem shown_paymentWebhook {username : Str} (henv : '\n' ∉ env.password) (hname : PlainName username)
    (planId : Nat) (status : PaymentStatus) :
    passwords.Spec env shownPasswords (paymentWebhook username planId status) (fun _ => shownPasswords)
      shownPasswords := by
  refine .paymentWebhook (fun plan a => ?_) (fun plan => ?_) fun _ hv => hv
  · exact (shown_of_calls (keeps_extendAccount plan.durationDays none)).pre fun _ hv => hv.2.2.2
  · exact (shown_createAccount (.plain username plan) hname henv).pre fun _ hv => hv.2.2.2

theorem shown_run {p : PanelProg α}
    (hp : passwords.Spec env shownPasswords p (fun _ => shownPasswords) shownPasswords)
    (h : shownPasswords (passwords.view w)) :
    shownPasswords (passwords.view (p.run (World.handler env) w).2) := by
  have hrun := hp w fun _ => h
  rcases hr : p.run (World.handler env) w with ⟨x | x, t⟩ <;>
    rw [hr] at hrun <;> exact hrun (passwords.ok t)

theorem shown_bulkCreate {envs : Nat → Env} {args : Nat → CreateArgs} (is : List Nat)
    (henvs : ∀ i, '\n' ∉ (envs i).password)
    (hargs : ∀ i, PlainName (args i).username ∧ (args i).password = none)
    (h : shownPasswords (passwords.view w)) :
    shownPasswords (passwords.view (World.bulkCreate envs args is w)) := by
  induction is generalizing w with
  | nil => exact h
  | cons i is ih =>
    have hpassword : '\n' ∉ passwordOf (envs i) (args i).password := by
      rw [(hargs i).2]
      exact henvs i
    have hone := shown_run (shown_createAccount (args i) (hargs i).1 hpassword) h
    simp only [World.bulkCreate]
    split
    · exact ih hone
    · exact hone

theorem plainName_pad3 {pre : Str} (h : PlainName pre) (i : Nat) : PlainName (pre ++ pad3 i) := by
  have hdigits : ∀ c ∈ pad3 i, 48 ≤ c.toNat ∧ c.toNat ≤ 57 := by
    intro c hc
    have hzero : c = '0' → 48 ≤ c.toNat ∧ c.toNat ≤ 57 := by
      rintro rfl
      decide
    unfold pad3 at hc
    split at hc
    · simp only [List.mem_cons] at hc
      rcases hc with hc | hc | hc
      · exact hzero hc
      · exact hzero hc
      · exact isDigit_of_mem_decimal hc
    · split at hc
      · rcases List.mem_cons.mp hc with hc | hc
        · exact hzero hc
        · exact isDigit_of_mem_decimal hc
      · exact isDigit_of_mem_decimal hc
  constructor
  · intro hmem
    rcases List.mem_append.mp hmem with hmem | hmem
    · exact h.1 hmem
    · exact absurd (hdigits _ hmem) (by decide)
  · intro hmem
    rcases List.mem_append.mp hmem with hmem | hmem
    · exact h.2 hmem
    · exact absurd (hdigits _ hmem) (by decide)

theorem shown_act (x : AccountOp × (Nat → Env)) (hx : x.1.SavesPasswords x.2)
    (h : shownPasswords (passwords.view w)) : shownPasswords (passwords.view (w.act x)) := by
  obtain ⟨op, envs⟩ := x
  obtain ⟨hplain, hgenerated, hstays, hheard⟩ := hx
  have hdrop : ∀ {β : Type} {p : PanelProg β},
      passwords.Spec (envs 0) shownPasswords p (fun _ => shownPasswords) shownPasswords →
      passwords.Spec (envs 0) shownPasswords (p >>= fun _ => (pure () : PanelProg Unit))
        (fun _ => shownPasswords) shownPasswords := fun hp => hp.bind fun _ => .ret fun _ hv => hv
  cases op with
  | op op =>
    cases op with
    | create r => exact shown_run (hdrop (shown_createAccountView (hgenerated 0) hplain)) h
    | suspend pk adminUser => exact shown_run (shown_service fun _ => keeps_suspendAccount adminUser) h
    | activate pk adminUser => exact shown_run (shown_service fun _ => keeps_activateAccount adminUser) h
    | extend pk days adminUser => exact shown_run (shown_service fun _ => keeps_extendAccount days adminUser) h
    | delete pk adminUser => exact shown_run (shown_service fun _ => keeps_deleteAccount adminUser) h
    | patch pk data => exact shown_run (hdrop (shown_patchAccount pk data)) h
    | webhook username planId status =>
      exact shown_run (hdrop (shown_paymentWebhook (hgenerated 0) hplain planId status)) h
    | expireUsers => exact shown_run (hdrop (shown_of_calls keeps_expireUsers)) h
    | cleanupExpiredAccounts graceDays =>
      exact shown_run (hdrop (shown_of_calls (keeps_cleanupExpiredAccounts graceDays))) h
    | syncBandwidthUsage => exact shown_run (shown_of_calls keeps_syncBandwidthUsage) h
  | adminAction action pks adminUser =>
    exact shown_run (shown_of_calls (keeps_adminAction action pks adminUser)) h
  | resetPassword pk adminUser =>
    exact shown_run (shown_onAccount fun a =>
      shown_resetPassword adminUser (hgenerated 0) (hheard pk adminUser rfl)) h
  | bulkCreate r =>
    simp only [World.act, World.bulkCreateView]
    have hargs : ∀ plan server i, PlainName (r.args plan server i).username ∧
        (r.args plan server i).password = none := fun plan server i => ⟨plainName_pad3 hplain i, rfl⟩
    split
    · exact h
    · split
      · split
        · exact shown_bulkCreate _ hgenerated (hargs _ _) h
        · split
          · exact h
          · exact shown_bulkCreate _ hgenerated (hargs _ _) h
      · exact h
  | rebalanceUsers downServerId => cases hstays

end Operations

/-- Over any run, whatever fails in it, a user that is on the node of its SSH account logs in with the
password that the panel shows. -/
theorem World.passwords_shown (w : World) (xs : List (AccountOp × (Nat → Env)))
    (h : PasswordsShown w.db fun server => (w.nodes server).passwords)
    (hxs : ∀ x ∈ xs, x.1.SavesPasswords x.2) :
    PasswordsShown (w.actAll xs).db fun server => ((w.actAll xs).nodes server).passwords := by
  induction xs generalizing w with
  | nil => exact h
  | cons x xs ih =>
    exact ih (w.act x) (shown_act x (hxs x List.mem_cons_self) h)
      fun y hy => hxs y (List.mem_cons_of_mem _ hy)

/-- An account is created, and its password is reset. -/
def passwordRun : List (AccountOp × (Nat → Env)) :=
  [(.op (.create (sampleRequest "alice" .ssh)), fun _ => sampleEnv 0),
    (.resetPassword 1 none, fun _ => { sampleEnv 1 with password := "changed".toList })]

theorem World.passwords_shown_passwordRun :
    PasswordsShown (sampleWorld.actAll passwordRun).db fun server =>
      ((sampleWorld.actAll passwordRun).nodes server).passwords := by
  have hempty : PasswordsShown sampleWorld.db fun server => (sampleWorld.nodes server).passwords := by
    constructor
    · intro a ha
      cases ha
    · intro a ha
      cases ha
  have hsecret : '\n' ∉ "secret".toList := by decide
  have hchanged : '\n' ∉ "changed".toList := by decide
  refine World.passwords_shown sampleWorld passwordRun hempty ?_
  intro x hx
  simp only [passwordRun, List.mem_cons, List.not_mem_nil, or_false] at hx
  rcases hx with rfl | rfl
  · refine ⟨⟨⟨by decide, by decide⟩, by simp [sampleRequest]⟩, fun _ => hsecret, rfl, ?_⟩
    intro pk adminUser hop
    cases hop
  · refine ⟨trivial, fun _ => hchanged, rfl, ?_⟩
    intro pk adminUser _ server u password e he
    cases he

end SshPanelVpn.Panel

import SshPanelVpn.Library.Runs
import SshPanelVpn.Panel.Operations

/-! The database, the nodes and their bridges, and what the calls of the panel do to them. -/
namespace SshPanelVpn.Panel

open Effects PyString ShadowLink
open scoped Posix

/-! A node. -/

structure UnixUser where
  password : Option Str
  locked : Bool
  expiry : Option Str
  deriving DecidableEq, Repr

structure Node where
  users : AList (fun _ : Str => UnixUser)
  bridge : BridgeServer

/-- The user exists and can log in with its password. -/
def Node.access (n : Node) (u : Str) : Bool :=
  match n.users.lookup u with
  | some user => !user.locked
  | none => false

/-- A line of `chpasswd`: the user up to the first colon, and the password. -/
def chpasswdEntry : Str → Option (Str × Str)
  | [] => none
  | c :: cs => if c = ':' then some ([], cs) else (chpasswdEntry cs).map fun e => (c :: e.1, e.2)

/-- What `echo user:password` tells `chpasswd`, line by line. -/
def chpasswdEntries (username password : Str) : Option (List (Str × Str)) :=
  (splitOn '\n' (username ++ ":".toList ++ password)).mapM chpasswdEntry

/-- The users whose password is set. -/
def chpasswdNames (username password : Str) : List Str :=
  ((chpasswdEntries username password).getD []).map Prod.fst

namespace Node

/-- Change a user that exists. -/
def modifyUser (n : Node) (u : Str) (f : UnixUser → UnixUser) : Option Node :=
  (n.users.lookup u).map fun user => { n with users := n.users.insert u (f user) }

/-- Set passwords; a user with a new password is no longer locked. -/
def setPasswords (n : Node) : List (Str × Str) → Option Node
  | [] => some n
  | (u, password) :: entries =>
    match n.modifyUser u fun user => { user with password := some password, locked := false } with
    | some n' => n'.setPasswords entries
    | none => none

/-- The node after a command, read as it is written, has exited with 0; `none` where it cannot. -/
def succeed (n : Node) (u : Str) : Cmd → Option Node
  | .useradd =>
    if (n.users.lookup u).isSome then none
    else some { n with users := n.users.insert u ⟨none, true, none⟩ }
  | .chpasswd password =>
    match chpasswdEntries u password with
    | some entries => n.setPasswords entries
    | none => none
  | .userdel => (n.users.lookup u).map fun _ => { n with users := n.users.erase u }
  | .usermodLock => n.modifyUser u fun user => { user with locked := true }
  | .usermodUnlock => n.modifyUser u fun user => { user with locked := false }
  | .chage date => n.modifyUser u fun user => { user with expiry := some date }
  -- `limits.conf`, the PAM script and iptables are not part of the node here
  | _ => some n

end Node

/-! What happens outside the panel during one operation. -/

/-- How a command ends. An exception may come before or after its effect. -/
inductive ExecOutcome where
  | finished (result : CommandResult)
  | raised (e : Exc) (applied : Bool)

inductive HttpOutcome where
  | answered
  | connectionError
  | timeout (applied : Bool)

/-- No operation runs a command or sends a request twice; connections are counted. -/
structure Env where
  now : DateTime
  password : Str
  tokens : Str × Str
  /-- Where the database puts servers of equal load. -/
  ties : Nat → Nat
  connect : Nat → Except Exc Unit
  exec : Server → Str → Cmd → ExecOutcome
  http : Server → BridgeRequest → HttpOutcome

/-- The remote steps of the panel, as they ended; `none` stands for an exception. -/
inductive Event where
  | connected (server : Nat) (ok : Bool)
  | ran (server : Nat) (username : Str) (cmd : Cmd) (exitCode : Option Nat)
  | asked (server : Nat) (request : BridgeRequest) (status : Option Nat)

/-- The commands that create, delete, lock and unlock users. -/
def Cmd.managesUser : Cmd → Bool
  | .useradd => true
  | .chpasswd _ => true
  | .userdel => true
  | .usermodLock => true
  | .usermodUnlock => true
  | _ => false

/-- Who can log in after a command for `u` has succeeded. -/
def Cmd.accessAfter (cmd : Cmd) (u : Str) (access : Str → Bool) : Str → Bool :=
  match cmd with
  | .useradd => Function.update access u false
  | .chpasswd password => fun v => v ∈ chpasswdNames u password || access v
  | .userdel => Function.update access u false
  | .usermodLock => Function.update access u false
  | .usermodUnlock => Function.update access u true
  | _ => access

/-- A step over SSH that raised, or a command for a user that did not succeed. -/
def Event.sshFailed : Event → Bool
  | .connected _ ok => !ok
  | .ran _ _ cmd exitCode =>
    match exitCode with
    | none => true
    | some code => cmd.managesUser && code != 0
  | .asked _ _ _ => false

/-- A request to the bridge that was not answered, or answered with an error. -/
def Event.bridgeFailed : Event → Bool
  | .asked _ _ none => true
  | .asked _ _ (some status) => 400 ≤ status
  | _ => false

structure World where
  db : Db
  saved : List Db
  nodes : Nat → Node
  log : List Event

namespace World

def updateNode (w : World) (server : Nat) (n : Node) : World :=
  { w with nodes := Function.update w.nodes server n }

def logged (w : World) (e : Event) : World := { w with log := e :: w.log }

def connect (env : Env) (server : Server) (w : World) : Except Exc Unit × World :=
  match env.connect w.log.length with
  | .ok () => (.ok (), w.logged (.connected server.id true))
  | .error e => (.error e, w.logged (.connected server.id false))

def exec (env : Env) (server : Server) (u : Str) (cmd : Cmd) (w : World) :
    Except Exc CommandResult × World :=
  let node := w.nodes server.id
  match env.exec server u cmd with
  | .raised e applied =>
    (.error e, (w.updateNode server.id (if applied then (node.succeed u cmd).getD node else node)).logged
      (.ran server.id u cmd none))
  | .finished result =>
    if result.exitCode = 0 then
      match node.succeed u cmd with
      | some node' =>
        (.ok result, (w.updateNode server.id node').logged (.ran server.id u cmd (some 0)))
      | none => (.ok { result with exitCode := 1 }, w.logged (.ran server.id u cmd (some 1)))
    else (.ok result, w.logged (.ran server.id u cmd (some result.exitCode)))

def serve (w : World) (server : Nat) (request : BridgeRequest) : BridgeResponse × World :=
  let node := w.nodes server
  let (response, bridge) := node.bridge.serveHTTP request
  (response, w.updateNode server { node with bridge := bridge })

def http (env : Env) (server : Server) (request : BridgeRequest) (w : World) :
    Except HttpError BridgeResponse × World :=
  match env.http server request with
  | .connectionError => (.error .connectionError, w.logged (.asked server.id request none))
  | .timeout applied =>
    (.error .timeout, (if applied then (w.serve server.id request).2 else w).logged
      (.asked server.id request none))
  | .answered =>
    let (response, w') := w.serve server.id request
    (.ok response, w'.logged (.asked server.id request (some response.status)))

def setAccounts (w : World) (accounts : AccountTable) : World :=
  { w with db := { w.db with accounts := accounts } }

def insertAccount (account : Account) (w : World) : Except Exc Account × World :=
  match w.db.accounts.insert account with
  | some accounts => (.ok { account with id := w.db.accounts.nextId }, w.setAccounts accounts)
  | none => (.error account.refusal, w)

def rollback (w : World) : World :=
  match w.saved with
  | db :: saved => { w with db := db, saved := saved }
  | [] => w

/-- The reply to a call and the world after it. -/
def handler (env : Env) : (c : Call) → World → Reply c × World
  | .now, w => (env.now, w)
  | .generatePassword, w => (env.password, w)
  | .newTokens, w => (env.tokens, w)
  | .connect server, w => w.connect env server
  | .exec server u cmd, w => w.exec env server u cmd
  | .http server request, w => w.http env server request
  | .getServer pk, w => (w.db.getServer pk, w)
  | .getPlan pk, w => (w.db.getPlan pk, w)
  | .getAccount pk, w => (w.db.getAccount pk, w)
  | .activeServers, w => (w.db.activeServers, w)
  | .activeServersByLoad, w => (w.db.activeServersByLoad env.ties, w)
  | .currentUserCount server, w => (w.db.currentUserCount server, w)
  | .selectAccounts query, w => (w.db.selectAccounts query, w)
  | .insertAccount account, w => w.insertAccount account
  | .saveAccount account fields, w => ((), w.setAccounts (w.db.accounts.save account fields))
  | .insertAuditLog entry, w => ((), { w with db := { w.db with auditLog := entry :: w.db.auditLog } })
  | .begin, w => ((), { w with saved := w.db :: w.saved })
  | .commit, w => ((), { w with saved := w.saved.tail })
  | .rollback, w => ((), w.rollback)

/-- The world after an operation, whether it returned or raised. -/
def step (w : World) (x : Op × Env) : World := (x.1.prog.run (handler x.2) w).2

/-- The state after a list of operations. -/
abbrev run (w : World) (xs : List (Op × Env)) : World := Runs.after step w xs

/-! The log only grows. -/

@[simp] theorem updateNode_log (w : World) (server : Nat) (n : Node) :
    (w.updateNode server n).log = w.log := rfl

@[simp] theorem logged_log (w : World) (e : Event) : (w.logged e).log = e :: w.log := rfl

@[simp] theorem serve_log (w : World) (server : Nat) (request : BridgeRequest) :
    (w.serve server request).2.log = w.log := rfl

theorem connect_log (env : Env) (server : Server) (w : World) :
    ∃ e, (w.connect env server).2.log = e :: w.log := by
  unfold connect
  split <;> exact ⟨_, rfl⟩

theorem exec_log (env : Env) (server : Server) (u : Str) (cmd : Cmd) (w : World) :
    ∃ e, (w.exec env server u cmd).2.log = e :: w.log := by
  unfold exec
  dsimp only
  split
  · exact ⟨_, rfl⟩
  · split
    · split <;> exact ⟨_, rfl⟩
    · exact ⟨_, rfl⟩

theorem http_log (env : Env) (server : Server) (request : BridgeRequest) (w : World) :
    ∃ e, (w.http env server request).2.log = e :: w.log := by
  unfold http
  split
  · exact ⟨_, rfl⟩
  · split <;> exact ⟨_, rfl⟩
  · exact ⟨_, rfl⟩

theorem log_handler (env : Env) (c : Call) (w : World) : w.log <:+ (handler env c w).2.log := by
  cases c with
  | connect server =>
    obtain ⟨e, he⟩ := connect_log env server w
    exact ⟨[e], he.symm⟩
  | exec server u cmd =>
    obtain ⟨e, he⟩ := exec_log env server u cmd w
    exact ⟨[e], he.symm⟩
  | http server request =>
    obtain ⟨e, he⟩ := http_log env server request w
    exact ⟨[e], he.symm⟩
  | insertAccount account =>
    simp only [handler, insertAccount]
    split <;> exact List.suffix_refl _
  | rollback =>
    simp only [handler, rollback]
    split <;> exact List.suffix_refl _
  | _ => exact List.suffix_refl _

def access (w : World) (server : Nat) (u : Str) : Bool := (w.nodes server).access u

def authenticate (w : World) (server : Nat) (token : Str) : Bool × Int :=
  (w.nodes server).bridge.authenticateToken token

end World

/-! A small world for concrete runs: one server, one plan, and steps that all succeed. -/

def sampleServer : Server :=
  ⟨0, "node".toList, "10.0.0.1".toList, .ssh, .active, 10, 0, 9090, []⟩

def samplePlan : Plan := ⟨0, "monthly".toList, 30, 1, 0, true⟩

def sampleWorld : World :=
  ⟨⟨[sampleServer], [samplePlan], .empty, []⟩, [], fun _ => ⟨∅, ⟨∅, []⟩⟩, []⟩

/-- `day` days after 1970, for fewer than a thousand. -/
def sampleDay (day : Nat) : DateTime :=
  ⟨(day % 1000 : Nat) * microsPerDay, by
    have := Nat.mod_lt day (by decide : 0 < 1000)
    simp only [minMicros, maxMicros, microsPerDay]
    omega⟩

def sampleEnv (day : Nat) : Env where
  now := sampleDay day
  password := "secret".toList
  tokens := ("access".toList, "auth".toList)
  ties := id
  connect := fun _ => .ok ()
  exec := fun _ _ _ => .finished ⟨0, "ok".toList, []⟩
  http := fun _ _ => .answered

/-- A request with the plan's values for an account on any server. -/
def sampleRequest (username : String) (protocolType : Protocol) : CreateRequest :=
  ⟨username.toList, 0, none, none, none, [], none, none, none, some protocolType⟩

end SshPanelVpn.Panel

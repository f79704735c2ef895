import Mathlib.Data.List.Sort
import SshPanelVpn.Panel.Services
import SshPanelVpn.Panel.World

/-! The command `setup_server`: a server and a first account on it. -/
namespace SshPanelVpn.Panel

open Effects PyString
open Effects.Prog (ofExcept)

/-- The options, as far as they reach the tables here or the node. The port, the user, the key and the
location of the server are taken to be ones that its row can hold. -/
structure SetupOptions where
  name : Str
  ip : Str
  maxUsers : Int
  defaultUsername : Str
  defaultPassword : Str
  defaultDays : Int
  defaultMaxConns : Int
  defaultBandwidthGb : Int
  skipSshTest : Bool
  skipUser : Bool

/-- `CommandError`, or an exception that the command lets through. -/
inductive SetupExc where
  | commandError (text : Str)
  | other (e : Exc)
  deriving DecidableEq, Repr

namespace SetupExc

def text : SetupExc → Str
  | commandError text => text
  | other e => e.text

def isCommandError : SetupExc → Bool
  | commandError _ => true
  | other _ => false

end SetupExc

/-- What the command asks besides the calls of the services. -/
inductive SetupCall where
  | panel (c : Call)
  | serverByIp (ip : Str)
  | createServer (ip name : Str) (maxUsers : Int)
  | saveServer (server : Server) (name : Str) (maxUsers : Int)
  | undeletedExists (username : Str) (server : Nat)
  | firstActivePlan
  | createPlan (days maxConns bandwidthGb : Int)
  /-- `echo ok` -/
  | echoOk (server : Server)
  /-- `id username` -/
  | userExists (server : Server) (username : Str)

abbrev SetupReply : SetupCall → Type
  | .panel c => Reply c
  | .serverByIp _ => Option Server
  | .createServer _ _ _ => Except Exc Server
  | .saveServer _ _ _ => Except Exc Server
  | .undeletedExists _ _ => Bool
  | .firstActivePlan => Option Plan
  | .createPlan _ _ _ => Except Exc Plan
  | .echoOk _ => Except Exc CommandResult
  | .userExists _ _ => Except Exc CommandResult

abbrev SetupProg (α : Type) := Prog SetupCall SetupReply SetupExc α

abbrev SetupCall.ask (c : SetupCall) : SetupProg (SetupReply c) := Prog.perform c

namespace SetupServer

/-- A function of the services; its exceptions are not `CommandError`s. -/
def panel {α : Type} (p : PanelProg α) : SetupProg α :=
  (p.embed SetupCall.panel fun _ r => r).handle fun e => .raise (.other e)

def orRaise {α : Type} (x : Except Exc α) : SetupProg α := panel (ofExcept x)

/-- `get_or_create`, and the new fields where the server is there. -/
def getServer (o : SetupOptions) : SetupProg Server :=
  (SetupCall.serverByIp o.ip).ask >>= fun
    | none => (SetupCall.createServer o.ip o.name o.maxUsers).ask >>= orRaise
    | some server => (SetupCall.saveServer server o.name o.maxUsers).ask >>= orRaise

def testConnection (server : Server) : SetupProg Unit :=
  (do
    panel (SSHManager.connect server)
    let result ← (SetupCall.echoOk server).ask >>= orRaise
    if result.ok = false then
      .raise (.commandError ("SSH connected but test command failed: ".toList ++ strip result.stderr))
    else Prog.ret ()).handle fun e => .raise (.commandError ("SSH connection failed: ".toList ++ e.text))

/-- The user is created unless the node has it. -/
def createUser (server : Server) (username password : Str) : SetupProg Unit := do
  let present ← (SetupCall.userExists server username).ask >>= orRaise
  if present.ok then Prog.ret ()
  else
    let result ← panel (SSHManager.createUser server username password)
    if result.ok = false then
      .raise (.commandError ("Failed to create OS user: ".toList ++ result.stderr))
    else Prog.ret ()

/-- The commands for the user, once there is a connection. -/
def prepareUser (o : SetupOptions) (server : Server) (password : Str) (expireDate : DateTime) :
    SetupProg Unit := do
  createUser server o.defaultUsername password
  let _ ← panel (SSHManager.setExpiry server o.defaultUsername expireDate.isoDate)
  let _ ← panel (SSHManager.setMaxLogins server o.defaultUsername o.defaultMaxConns)
  if 0 < o.defaultBandwidthGb then
    panel (SSHManager.setupTrafficAccounting server o.defaultUsername)
  else Prog.ret ()

def provision (o : SetupOptions) (server : Server) (password : Str) (expireDate : DateTime) :
    SetupProg Unit :=
  (do
    panel (SSHManager.connect server)
    prepareUser o server password expireDate).handle fun
    | .commandError text => .raise (.commandError text)
    | .other e => .raise (.commandError ("Remote provisioning failed: ".toList ++ e.text))

def getPlan (o : SetupOptions) : SetupProg Plan :=
  SetupCall.firstActivePlan.ask >>= fun
    | some plan => Prog.ret plan
    | none =>
      (SetupCall.createPlan o.defaultDays o.defaultMaxConns o.defaultBandwidthGb).ask >>= orRaise

/-- The row; its key is given by the table. -/
def row (o : SetupOptions) (server : Server) (plan : Plan) (password : Str) (expireDate : DateTime)
    (tokens : Str × Str) : Account where
  id := 0
  username := o.defaultUsername
  passwordDisplay := password
  server := server.id
  plan := some plan.id
  protocolType := .ssh
  status := .active
  expireDate := expireDate
  maxConnections := o.defaultMaxConns.toNat
  bandwidthLimitGb := o.defaultBandwidthGb.toNat
  bandwidthUsedGb := 0
  accessToken := tokens.1
  authToken := tokens.2
  createdBy := none
  note := "Default account created by setup_server command.".toList

/-- `SSHAccount.objects.create`; the columns take no negative numbers. -/
def saveAccount (o : SetupOptions) (server : Server) (plan : Plan) (password : Str)
    (expireDate : DateTime) : SetupProg Unit := do
  let tokens ← panel (ask .newTokens)
  if o.defaultMaxConns < 0 ∨ o.defaultBandwidthGb < 0 then .raise (.other .integrityError)
  else
    let _ ← panel (ask (.insertAccount (row o server plan password expireDate tokens)) >>= ofExcept)
    Prog.ret ()

def newUser (o : SetupOptions) (server : Server) (password : Str) (expireDate : DateTime) :
    SetupProg Unit := do
  let plan ← getPlan o
  provision o server password expireDate
  saveAccount o server plan password expireDate

/-- Step 3 of `handle`. -/
def defaultUser (o : SetupOptions) (server : Server) : SetupProg Unit := do
  let password ← panel (passwordOr (some o.defaultPassword))
  let now ← panel (ask .now)
  let expireDate ← orRaise (now.addDays o.defaultDays)
  if ← (SetupCall.undeletedExists o.defaultUsername server.id).ask then Prog.ret ()
  else newUser o server password expireDate

/-- `handle`. -/
def handle (o : SetupOptions) : SetupProg Unit := do
  let server ← getServer o
  if o.skipSshTest then Prog.ret () else testConnection server
  if o.skipUser then Prog.ret () else defaultUser o server

end SetupServer

/-! The tables and the nodes under the command. -/

namespace Db

def serverByIp (db : Db) (ip : Str) : Option Server := db.servers.find? fun s => s.ipAddress = ip

/-- The row in the order of the names. -/
def putServer (db : Db) (server : Server) : Db :=
  { db with
    servers := (db.servers.filter fun s => s.id ≠ server.id).orderedInsert
      (fun s t => ¬ t.name.lex s.name) server }

/-- `name` is unique, and `max_users` not negative. -/
def createServer (db : Db) (ip name : Str) (maxUsers : Int) : Option (Server × Db) :=
  if maxUsers < 0 ∨ db.servers.any (fun s => s.name = name) then none
  else
    let server : Server := ⟨(db.servers.map Server.id).foldr max 0 + 1, name, ip, .ssh, .active,
      maxUsers.toNat, 0, 9090, []⟩
    some (server, db.putServer server)

def saveServer (db : Db) (server : Server) (name : Str) (maxUsers : Int) : Option (Server × Db) :=
  if maxUsers < 0 ∨ db.servers.any (fun s => s.id ≠ server.id ∧ s.name = name) then none
  else
    let saved := { server with name := name, maxUsers := maxUsers.toNat }
    some (saved, db.putServer saved)

def undeletedExists (db : Db) (username : Str) (server : Nat) : Bool :=
  db.accounts.rows.any fun a => a.username = username ∧ a.server = server ∧ a.status ≠ .deleted

/-- `order_by("duration_days").first()` of the active plans; of equal durations the first of the table,
where the database may give any. -/
def firstActivePlan (db : Db) : Option Plan :=
  ((db.plans.filter Plan.isActive).mergeSort fun p q => p.durationDays ≤ q.durationDays).head?

/-- The plan `Default`; its name is unique, and its numbers are not negative. -/
def createPlan (db : Db) (days maxConns bandwidthGb : Int) : Option (Plan × Db) :=
  if days < 0 ∨ maxConns < 0 ∨ bandwidthGb < 0 ∨
      db.plans.any (fun p => p.name = "Default".toList) then none
  else
    let plan : Plan := ⟨(db.plans.map Plan.id).foldr max 0 + 1, "Default".toList, days.toNat,
      maxConns.toNat, bandwidthGb.toNat, true⟩
    some (plan, { db with plans := plan :: db.plans })

end Db

/-- The environment of the command: how its own two commands end. -/
structure SetupEnv extends Env where
  echo : Server → Except Exc CommandResult
  lookup : Server → Str → Except Exc CommandResult

/-- A command of `setup_server` alone that has been sent to a node. -/
inductive SetupTest where
  | echoOk (server : Nat)
  | userExists (server : Nat) (username : Str)
  deriving DecidableEq, Repr

structure SetupState where
  world : World
  tested : List SetupTest

namespace SetupState

/-- A row, or `IntegrityError`. -/
def orIntegrityError {α : Type} (s : SetupState) : Option (α × Db) → Except Exc α × SetupState
  | some (a, db) => (.ok a, { s with world := { s.world with db := db } })
  | none => (.error .integrityError, s)

/-- `id` finds only a user of the node. -/
def found (n : Node) (username : Str) (result : CommandResult) : CommandResult :=
  if (n.users.lookup username).isSome ∨ result.exitCode ≠ 0 then result
  else { result with exitCode := 1 }

def handler (env : SetupEnv) : (c : SetupCall) → SetupState → SetupReply c × SetupState
  | .panel c, s =>
    let r := World.handler env.toEnv c s.world
    (r.1, { s with world := r.2 })
  | .serverByIp ip, s => (s.world.db.serverByIp ip, s)
  | .createServer ip name maxUsers, s => s.orIntegrityError (s.world.db.createServer ip name maxUsers)
  | .saveServer server name maxUsers, s =>
    s.orIntegrityError (s.world.db.saveServer server name maxUsers)
  | .undeletedExists username server, s => (s.world.db.undeletedExists username server, s)
  | .firstActivePlan, s => (s.world.db.firstActivePlan, s)
  | .createPlan days maxConns bandwidthGb, s =>
    s.orIntegrityError (s.world.db.createPlan days maxConns bandwidthGb)
  | .echoOk server, s => (env.echo server, { s with tested := .echoOk server.id :: s.tested })
  | .userExists server username, s =>
    ((env.lookup server username).map (found (s.world.nodes server.id) username),
      { s with tested := .userExists server.id username :: s.tested })

end SetupState

end SshPanelVpn.Panel

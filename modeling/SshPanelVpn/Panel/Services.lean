import SshPanelVpn.Panel.Ssh

/-! `accounts/services.py`, with the bridge requests of `servers/shadowlink.py`. -/
namespace SshPanelVpn.Panel

open Effects ShadowLink
open Effects.Prog (ofExcept)

/-! `ShadowLinkManager`. -/

namespace ShadowLinkManager

def bridgeUrl (server : Server) : Str :=
  "http://".toList ++ server.ipAddress ++ ":".toList ++ decimal server.shadowlinkBridgePort

/-- `_bridge_request` with a JSON body; the key goes into the headers where there is one. -/
def bridgeRequest (server : Server) (method path : String) (data : TokenRequest) :
    PanelProg BridgeResponse := do
  let url := bridgeUrl server ++ path.toList
  match ← ask (.http server ⟨method, path, server.shadowlinkApiKey, some data⟩) with
  | .error .connectionError =>
    .raise (.shadowLinkError ("Cannot reach ShadowLink bridge at ".toList ++ url))
  | .error .timeout => .raise (.shadowLinkError ("Bridge request timed out: ".toList ++ url))
  | .ok response =>
    -- `raise_for_status`
    if 400 ≤ response.status then
      .raise (.shadowLinkError ("Bridge API error: ".toList ++ decimal response.status ++
        " - ".toList ++ response.text.toList))
    else return response

/-- One request, whatever comes back. -/
theorem allCalls_bridgeRequest {P : Call → Prop} {server : Server}
    (h : ∀ request, P (.http server request)) (method path : String) (data : TokenRequest) :
    (bridgeRequest server method path data).AllCalls P := by
  refine ⟨h _, ?_⟩
  intro r
  rcases r with e | response
  · cases e <;> trivial
  · by_cases hs : 400 ≤ response.status <;> simp [Prog.bind, hs]

def registerToken (server : Server) (token : Str) (maxConns : Nat) : PanelProg BridgeResponse :=
  bridgeRequest server "POST" "/api/tokens" ⟨token, maxConns⟩

def deregisterToken (server : Server) (token : Str) : PanelProg BridgeResponse :=
  bridgeRequest server "POST" "/api/tokens/delete" ⟨token, 0⟩

def suspendToken (server : Server) (token : Str) : PanelProg BridgeResponse :=
  bridgeRequest server "POST" "/api/tokens/suspend" ⟨token, 0⟩

def activateToken (server : Server) (token : Str) : PanelProg BridgeResponse :=
  bridgeRequest server "POST" "/api/tokens/activate" ⟨token, 0⟩

end ShadowLinkManager

/-! Choosing a server. -/

/-- `server.is_available`. -/
def isAvailable (server : Server) : PanelProg Bool :=
  if server.status = .active then do
    let count ← ask (.currentUserCount server.id)
    return count < server.maxUsers
  else return false

def firstAvailable : List Server → PanelProg Server
  | [] => .raise (.accountError "No available servers. All are full or offline.".toList)
  | srv :: servers => do
    if ← isAvailable srv then return srv else firstAvailable servers

def leastLoaded : PanelProg Server := do
  firstAvailable (← ask .activeServersByLoad)

def pickBestServer : Option Server → PanelProg Server
  | some preferred => do
    if ← isAvailable preferred then return preferred else leastLoaded
  | none => leastLoaded

/-- The choice asks for the servers and their users only. -/
theorem allCalls_pickBestServer {P : Call → Prop} (hservers : P .activeServersByLoad)
    (hcount : ∀ server, P (.currentUserCount server)) (preferred : Option Server) :
    (pickBestServer preferred).AllCalls P := by
  have havail : ∀ server, (isAvailable server).AllCalls P := by
    intro server
    unfold isAvailable
    split
    · exact ⟨hcount _, fun _ => trivial⟩
    · trivial
  have hfirst : ∀ servers, (firstAvailable servers).AllCalls P := by
    intro servers
    induction servers with
    | nil => trivial
    | cons server servers ih =>
      refine (havail server).bind ?_
      intro b
      cases b with
      | true => trivial
      | false => exact ih
  have hleast : leastLoaded.AllCalls P := ⟨hservers, hfirst⟩
  cases preferred with
  | none => exact hleast
  | some server =>
    refine (havail server).bind ?_
    intro b
    cases b with
    | true => trivial
    | false => exact hleast

/-! The life of an account. -/

/-- The arguments of `create_account`; the defaults are `None` and `""`. -/
structure CreateArgs where
  username : Str
  plan : Plan
  server : Option Server
  password : Option Str
  adminUser : Option Nat
  note : Str
  durationDays : Option Int
  bandwidthLimitGb : Option Nat
  maxConnections : Option Nat
  protocolType : Option Protocol

/-- `create_account(username=username, plan=plan)`. -/
def CreateArgs.plain (username : Str) (plan : Plan) : CreateArgs :=
  ⟨username, plan, none, none, none, [], none, none, none, none⟩

/-- `str(account.auth_token)` goes to the bridge, and any failure becomes an `AccountError`. -/
def provisionShadowlinkAccount (account : Account) (server : Server) (maxConns : Nat) :
    PanelProg Unit :=
  (do let _ ← ShadowLinkManager.registerToken server account.authToken maxConns).handle fun e =>
    .raise (.accountError ("ShadowLink provisioning failed: ".toList ++ e.text))

/-- The commands for a new Unix user. -/
def provisionSshAccount (server : Server) (username password : Str) (expireDate : DateTime)
    (maxConn bwLimit : Nat) : PanelProg Unit := do
  SSHManager.connect server
  let result ← SSHManager.createUser server username password
  if result.ok = false then
    .raise (.accountError ("Remote user creation failed: ".toList ++ result.stderr))
  else
    let _ ← SSHManager.setExpiry server username expireDate.isoDate
    let _ ← SSHManager.setMaxLogins server username maxConn
    if 0 < bwLimit then SSHManager.setupTrafficAccounting server username else return ()

/-- Provisioning makes one connection and runs commands for the user. -/
theorem allCalls_provisionSshAccount {P : Call → Prop} {server : Server} {u password : Str}
    {date : DateTime} {maxConn bwLimit : Nat} (hc : P (.connect server))
    (h : ∀ cmd : Cmd, cmd.Numeric → P (.exec server u cmd)) :
    (provisionSshAccount server u password date maxConn bwLimit).AllCalls P := by
  refine Prog.AllCalls.bind ⟨hc, fun _ => Prog.allCalls_ofExcept _⟩ fun _ => ?_
  refine (SSHManager.allCalls_createUser h password).bind fun result => ?_
  split
  · trivial
  · refine (SSHManager.allCalls_run h).bind fun _ => ?_
    refine (SSHManager.allCalls_setMaxLogins h _).bind fun _ => ?_
    split
    · exact SSHManager.allCalls_setupTrafficAccounting h
    · trivial

/-- `password or generate_password()`. -/
def passwordOr : Option Str → PanelProg Str
  | some (c :: cs) => return c :: cs
  | _ => ask .generatePassword

/-- The row that `create_account` inserts; its key is given by the table. -/
def newAccount (args : CreateArgs) (server : Server) (password : Str) (expireDate : DateTime)
    (tokens : Str × Str) : Account where
  id := 0
  username := args.username
  passwordDisplay := if args.protocolType.getD server.protocolType = .ssh then password else []
  server := server.id
  plan := some args.plan.id
  protocolType := args.protocolType.getD server.protocolType
  status := .active
  expireDate := expireDate
  maxConnections := args.maxConnections.getD args.plan.maxConnections
  bandwidthLimitGb := args.bandwidthLimitGb.getD args.plan.bandwidthLimitGb
  bandwidthUsedGb := 0
  accessToken := tokens.1
  authToken := tokens.2
  createdBy := args.adminUser
  note := args.note

/-- The node's side of a new account. -/
def provision (account : Account) (server : Server) (password : Str) : PanelProg Unit :=
  match account.protocolType with
  | .shadowlink => provisionShadowlinkAccount account server account.maxConnections
  | .ssh => provisionSshAccount server account.username password account.expireDate
      account.maxConnections account.bandwidthLimitGb

theorem provision_shadowlink {account : Account} (h : account.protocolType = .shadowlink)
    (server : Server) (password : Str) : provision account server password =
      provisionShadowlinkAccount account server account.maxConnections := by
  simp [provision, h]

theorem provision_ssh {account : Account} (h : account.protocolType = .ssh) (server : Server)
    (password : Str) : provision account server password = provisionSshAccount server
      account.username password account.expireDate account.maxConnections account.bandwidthLimitGb := by
  simp [provision, h]

/-- The body of `create_account`, inside its transaction. -/
def createBody (args : CreateArgs) : PanelProg Account := do
  let server ← pickBestServer args.server
  let password ← passwordOr args.password
  let now ← ask .now
  let expireDate ← ofExcept (now.addDays (args.durationDays.getD args.plan.durationDays))
  let tokens ← ask .newTokens
  let account ← ofExcept (← ask (.insertAccount (newAccount args server password expireDate tokens)))
  provision account server password
  ask (.insertAuditLog ⟨.create, some account.id, args.adminUser,
    "Plan=".toList ++ args.plan.name ++ ", Server=".toList ++ server.name ++
      ", Protocol=".toList ++ account.protocolType.text⟩)
  return account

def createAccount (args : CreateArgs) : PanelProg Account := atomic (createBody args)

/-- `account.server`: the row that the foreign key points to. -/
def accountServer (account : Account) : PanelProg Server := do
  orHttp404 (← ask (.getServer account.server))

theorem allCalls_accountServer {P : Call → Prop} {account : Account}
    (h : P (.getServer account.server)) : (accountServer account).AllCalls P := by
  refine ⟨h, ?_⟩
  intro r
  cases r <;> trivial

/-- A bridge request whose failure is only logged. -/
def logged (request : PanelProg BridgeResponse) : PanelProg Unit :=
  (do let _ ← request).handle fun _ => .ret ()

theorem allCalls_logged {P : Call → Prop} {request : PanelProg BridgeResponse}
    (h : request.AllCalls P) : (logged request).AllCalls P :=
  Prog.AllCalls.handle (Prog.AllCalls.bind h fun _ => trivial) fun _ => trivial

/-- Write a status and log the action. -/
def saveStatus (account : Account) (status : AccountStatus) : PanelProg Unit :=
  ask (.saveAccount { account with status := status } [.status])

/-- The three operations that change the node, then the status. -/
def changeStatus (account : Account) (status : AccountStatus) (action : AuditAction)
    (adminUser : Option Nat) (bridge : Server → Str → PanelProg BridgeResponse)
    (ssh : Server → Str → PanelProg CommandResult) : PanelProg Unit := do
  let server ← accountServer account
  match account.protocolType with
  | .shadowlink => logged (bridge server account.authToken)
  | .ssh =>
    SSHManager.connect server
    let _ ← ssh server account.username
  saveStatus account status
  ask (.insertAuditLog ⟨action, some account.id, adminUser, []⟩)

def deleteAccount (account : Account) (adminUser : Option Nat) : PanelProg Unit :=
  changeStatus account .deleted .delete adminUser ShadowLinkManager.deregisterToken
    SSHManager.deleteUser

def suspendAccount (account : Account) (adminUser : Option Nat) : PanelProg Unit :=
  changeStatus account .suspended .suspend adminUser ShadowLinkManager.suspendToken
    SSHManager.lockUser

def activateAccount (account : Account) (adminUser : Option Nat) : PanelProg Unit :=
  changeStatus account .active .activate adminUser ShadowLinkManager.activateToken
    SSHManager.unlockUser

/-- `account.extend(days)`: the object with its new end, saved. -/
def extend (account : Account) (days : Int) : PanelProg Account := do
  let now ← ask .now
  let account ← ofExcept (account.extend now days)
  ask (.saveAccount account [.expireDate, .status])
  return account

def extendAccount (account : Account) (days : Int) (adminUser : Option Nat) : PanelProg Unit := do
  let account ← extend account days
  let server ← accountServer account
  SSHManager.connect server
  let _ ← SSHManager.setExpiry server account.username account.expireDate.isoDate
  -- `extend` has already set the status to ACTIVE
  if account.status = .expired then
    let _ ← SSHManager.unlockUser server account.username
  ask (.insertAuditLog ⟨.extend, some account.id, adminUser,
    "+".toList ++ decimal days ++ " days → ".toList ++ account.expireDate.isoDate⟩)

end SshPanelVpn.Panel

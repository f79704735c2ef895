import SshPanelVpn.Panel.Services

/-! The entry points: `accounts/tasks.py` and the account views of `api/views.py`. -/
namespace SshPanelVpn.Panel

open Effects
open Effects.Prog (ofExcept)

/-! Celery tasks. -/

/-- `try: … except Exception`: whether the body got to its end. -/
def succeeded (body : PanelProg Unit) : PanelProg Bool :=
  (do
    body
    return true).handle fun _ => .ret false

/-- Run a step for each account and count those that did not fail. -/
def countSucceeded (step : Account → PanelProg Unit) : List Account → PanelProg Nat
  | [] => return 0
  | acc :: accs => do
    let done ← succeeded (step acc)
    let count ← countSucceeded step accs
    return if done then count + 1 else count

theorem allCalls_succeeded {P : Call → Prop} {body : PanelProg Unit} (h : body.AllCalls P) :
    (succeeded body).AllCalls P :=
  Prog.AllCalls.handle (h.bind fun _ => Prog.allCalls_ret true) fun _ => Prog.allCalls_ret false

theorem allCalls_countSucceeded {P : Call → Prop} {step : Account → PanelProg Unit}
    (h : ∀ acc, (step acc).AllCalls P) (accs : List Account) :
    (countSucceeded step accs).AllCalls P := by
  induction accs with
  | nil => trivial
  | cons acc accs ih =>
    refine (allCalls_succeeded (h acc)).bind fun done => ih.bind fun count => ?_
    trivial

def expireUser (acc : Account) : PanelProg Unit := do
  let server ← accountServer acc
  SSHManager.connect server
  let _ ← SSHManager.lockUser server acc.username
  saveStatus acc .expired

def expireUsers : PanelProg Nat := do
  let now ← ask .now
  countSucceeded expireUser (← ask (.selectAccounts (.expiredBy now)))

def cleanupExpiredAccounts (graceDays : Int) : PanelProg Nat := do
  let now ← ask .now
  let cutoff ← ofExcept (now.addDays (-graceDays))
  countSucceeded (fun acc => deleteAccount acc none) (← ask (.selectAccounts (.expiredSince cutoff)))

/-- `round(bytes_used / (1024 ** 3), 6)` in millionths: ties go to the even neighbour. The quotient is
exact here; Python's is a float, which agrees below 2^53 bytes. -/
def gbUsed (bytes : Nat) : Nat :=
  let q := bytes * 1000000 / 1073741824
  let r := bytes * 1000000 % 1073741824
  if 2 * r < 1073741824 then q
  else if 1073741824 < 2 * r then q + 1
  else if q % 2 = 0 then q
  else q + 1

/-- `acc.bandwidth_limit_gb > 0 and gb_used >= acc.bandwidth_limit_gb`. -/
def overLimit (acc : Account) (gb : Nat) : Bool :=
  0 < acc.bandwidthLimitGb && acc.bandwidthLimitGb * 1000000 ≤ gb

/-- Save the usage where it has changed. -/
def saveUsage (acc : Account) (gb : Nat) : PanelProg Unit :=
  if gb ≠ acc.bandwidthUsedGb then
    ask (.saveAccount { acc with bandwidthUsedGb := gb } [.bandwidthUsedGb])
  else return ()

/-- Lock and suspend an account that is over its limit. -/
def enforceLimit (srv : Server) (acc : Account) (gb : Nat) : PanelProg Unit :=
  if overLimit acc gb then do
    let _ ← SSHManager.lockUser srv acc.username
    saveStatus acc .suspended
  else return ()

def syncAccount (srv : Server) (acc : Account) : PanelProg Unit := do
  SSHManager.setupTrafficAccounting srv acc.username
  let bytesUsed ← SSHManager.getUserBandwidthBytes srv acc.username
  saveUsage acc (gbUsed bytesUsed)
  enforceLimit srv acc (gbUsed bytesUsed)

/-- Commands for the user and saves of the row. -/
theorem allCalls_syncAccount {P : Call → Prop} {srv : Server} {acc : Account}
    (hexec : ∀ cmd : Cmd, cmd.Numeric → P (.exec srv acc.username cmd))
    (hsave : ∀ obj fields, obj.id = acc.id → P (.saveAccount obj fields)) :
    (syncAccount srv acc).AllCalls P := by
  refine (SSHManager.allCalls_setupTrafficAccounting hexec).bind fun _ => ?_
  refine (SSHManager.allCalls_getUserBandwidthBytes hexec).bind fun bytes => ?_
  refine Prog.AllCalls.bind ?_ fun _ => ?_
  · unfold saveUsage
    split
    · exact ⟨hsave _ _ rfl, fun _ => trivial⟩
    · trivial
  · unfold enforceLimit
    split
    · exact (SSHManager.allCalls_run hexec).bind fun _ => ⟨hsave _ _ rfl, fun _ => trivial⟩
    · trivial

def syncAccounts (srv : Server) : List Account → PanelProg Unit
  | [] => return ()
  | acc :: accs => do
    syncAccount srv acc
    syncAccounts srv accs

def syncServer (srv : Server) : PanelProg Unit := do
  if (← ask (.selectAccounts (.activeOn srv.id))).isEmpty then return ()
  else
    SSHManager.connect srv
    syncAccounts srv (← ask (.selectAccounts (.activeOn srv.id)))

def syncServers : List Server → PanelProg Unit
  | [] => return ()
  | srv :: servers => do
    let _ ← succeeded (syncServer srv)
    syncServers servers

def syncBandwidthUsage : PanelProg Unit := do
  syncServers (← ask .activeServers)

theorem allCalls_syncBandwidthUsage {P : Call → Prop} (hservers : P .activeServers)
    (hselect : ∀ query, P (.selectAccounts query)) (hconnect : ∀ server, P (.connect server))
    (h : ∀ srv acc, (syncAccount srv acc).AllCalls P) : syncBandwidthUsage.AllCalls P := by
  have haccounts : ∀ srv accs, (syncAccounts srv accs).AllCalls P := by
    intro srv accs
    induction accs with
    | nil => trivial
    | cons acc accs ih => exact (h srv acc).bind fun _ => ih
  have hserver : ∀ srv, (syncServer srv).AllCalls P := by
    intro srv
    refine ⟨hselect _, fun rows => ?_⟩
    change Prog.AllCalls P (if rows.isEmpty = true then _ else _)
    split
    · trivial
    · exact (SSHManager.allCalls_connect (hconnect srv)).bind fun _ => ⟨hselect _, haccounts srv⟩
  have hall : ∀ servers, (syncServers servers).AllCalls P := by
    intro servers
    induction servers with
    | nil => trivial
    | cons srv servers ih => exact (allCalls_succeeded (hserver srv)).bind fun _ => ih
  exact ⟨hservers, hall⟩

/-! Views. -/

/-- The validated data of `AccountUpdateSerializer`. -/
structure AccountUpdate where
  expireDate : Option DateTime
  durationDays : Option Int
  bandwidthLimitGb : Option Nat
  maxConnections : Option Nat
  note : Option Str

/-- The object after the assignments of `patch`; `expire_date` wins over `duration_days`. -/
def AccountUpdate.apply (data : AccountUpdate) (account : Account) (fromDuration : Option DateTime) :
    Account :=
  { account with
    expireDate := data.expireDate.getD (fromDuration.getD account.expireDate)
    bandwidthLimitGb := data.bandwidthLimitGb.getD account.bandwidthLimitGb
    maxConnections := data.maxConnections.getD account.maxConnections
    note := data.note.getD account.note }

/-- `timezone.now() + td(days=data["duration_days"])`. -/
def AccountUpdate.newDate (data : AccountUpdate) : PanelProg (Option DateTime) :=
  match data.durationDays with
  | none => return none
  | some days => do
    let now ← ask .now
    let date ← ofExcept (now.addDays days)
    return some date

/-- What `patch` then tells the node, over SSH for every account. -/
def AccountUpdate.push (data : AccountUpdate) (account : Account) : PanelProg Unit := do
  let server ← accountServer account
  SSHManager.connect server
  if data.durationDays.isSome || data.expireDate.isSome then
    let _ ← SSHManager.setExpiry server account.username account.expireDate.isoDate
  if data.maxConnections.isSome then
    let _ ← SSHManager.setMaxLogins server account.username account.maxConnections

def patchAccount (pk : Nat) (data : AccountUpdate) : PanelProg Account := do
  let account ← orHttp404 (← ask (.getAccount pk))
  let account := data.apply account (← data.newDate)
  ask (.saveAccount account AccountField.all)
  let _ ← succeeded (data.push account)
  return account

/-- `get_object_or_404(SSHAccount, pk=pk)`, then a service on the account. -/
def onAccount (pk : Nat) (service : Account → PanelProg Unit) : PanelProg Unit := do
  service (← orHttp404 (← ask (.getAccount pk)))

/-- A request to create an account: the arguments with the keys of its plan and server. -/
structure CreateRequest where
  username : Str
  planId : Nat
  serverId : Option Nat
  password : Option Str
  adminUser : Option Nat
  note : Str
  durationDays : Option Int
  bandwidthLimitGb : Option Nat
  maxConnections : Option Nat
  protocolType : Option Protocol

/-- What a view passes on to `create_account`. -/
def CreateRequest.args (r : CreateRequest) (plan : Plan) (server : Option Server) : CreateArgs :=
  ⟨r.username, plan, server, r.password, r.adminUser, r.note, r.durationDays, r.bandwidthLimitGb,
    r.maxConnections, r.protocolType⟩

/-- The server that the request names. -/
def lookupServer : Option Nat → PanelProg (Option Server)
  | none => return none
  | some pk => do
    let server ← orHttp404 (← ask (.getServer pk))
    return some server

/-- `get_object_or_404(Plan, pk=data["plan_id"], is_active=True)`. -/
def activePlan (pk : Nat) : PanelProg Plan := do
  let plan ← orHttp404 (← ask (.getPlan pk))
  if plan.isActive then return plan else .raise .http404

/-- The views that create one account. -/
def createAccountView (r : CreateRequest) : PanelProg Account := do
  let plan ← activePlan r.planId
  let server ← lookupServer r.serverId
  createAccount (r.args plan server)

inductive PaymentStatus where
  | paid
  | failed
  | pending
  deriving DecidableEq, Repr

inductive WebhookResponse where
  | notConfirmed
  | extended (username : Str) (days : Nat)
  | badRequest (text : Str)
  | created (account : Account)

def paymentWebhook (username : Str) (planId : Nat) (status : PaymentStatus) :
    PanelProg WebhookResponse := do
  if status ≠ .paid then return .notConfirmed
  else
    let plan ← orHttp404 (← ask (.getPlan planId))
    -- `.first()` takes the newest row
    match (← ask (.selectAccounts (.renewable username))).head? with
    | some existing =>
      extendAccount existing plan.durationDays none
      return .extended username plan.durationDays
    | none =>
      (do
        let account ← createAccount (.plain username plan)
        return WebhookResponse.created account).handle fun
        | .accountError text => .ret (.badRequest text)
        | e => .raise e

/-- The operations on accounts. -/
inductive Op where
  | create (r : CreateRequest)
  | suspend (pk : Nat) (adminUser : Option Nat)
  | activate (pk : Nat) (adminUser : Option Nat)
  | extend (pk : Nat) (days : Int) (adminUser : Option Nat)
  | delete (pk : Nat) (adminUser : Option Nat)
  | patch (pk : Nat) (data : AccountUpdate)
  | webhook (username : Str) (planId : Nat) (status : PaymentStatus)
  | expireUsers
  | cleanupExpiredAccounts (graceDays : Int)
  | syncBandwidthUsage

/-- The code that runs for an operation, its result dropped. -/
def Op.prog : Op → PanelProg Unit
  | create r => createAccountView r >>= fun _ => return ()
  | suspend pk adminUser => onAccount pk fun account => suspendAccount account adminUser
  | activate pk adminUser => onAccount pk fun account => activateAccount account adminUser
  | extend pk days adminUser => onAccount pk fun account => extendAccount account days adminUser
  | delete pk adminUser => onAccount pk fun account => deleteAccount account adminUser
  | patch pk data => patchAccount pk data >>= fun _ => return ()
  | webhook username planId status => paymentWebhook username planId status >>= fun _ => return ()
  | expireUsers => Panel.expireUsers >>= fun _ => return ()
  | cleanupExpiredAccounts graceDays => Panel.cleanupExpiredAccounts graceDays >>= fun _ => return ()
  | syncBandwidthUsage => Panel.syncBandwidthUsage

end SshPanelVpn.Panel

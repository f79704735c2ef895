import Mathlib.Data.List.Nodup
import SshPanelVpn.Panel.Commands

/-! The tables of the panel: `servers/models.py`, `plans/models.py` and `accounts/models.py`. -/
namespace SshPanelVpn.Panel

/-- The exceptions that the services raise or let through. -/
inductive Exc where
  | accountError (text : Str)
  | shadowLinkError (text : Str)
  | overflowError
  | valueError
  | integrityError
  /-- A value that its column does not take. -/
  | dataError
  | http404
  /-- A failed connection or command of paramiko. -/
  | sshError (text : Str)
  deriving DecidableEq, Repr

/-- `str(e)`, as far as the panel writes it itself. -/
def Exc.text : Exc → Str
  | accountError text => text
  | shadowLinkError text => text
  | sshError text => text
  | _ => []

/-! Dates. -/

def minMicros : Int := -62135596800000000
def maxMicros : Int := 253402300799999999
def microsPerDay : Int := 86400000000

/-- A `datetime` in UTC: microseconds since 1970, from year 1 to year 9999. -/
structure DateTime where
  micros : Int
  inRange : minMicros ≤ micros ∧ micros ≤ maxMicros
  deriving DecidableEq, Repr

namespace DateTime

instance : LE DateTime := ⟨fun d e => d.micros ≤ e.micros⟩
instance (d e : DateTime) : Decidable (d ≤ e) := inferInstanceAs (Decidable (d.micros ≤ e.micros))

/-- `d + timedelta(days=days)`. -/
def addDays (d : DateTime) (days : Int) : Except Exc DateTime :=
  if h : minMicros ≤ d.micros + days * microsPerDay ∧ d.micros + days * microsPerDay ≤ maxMicros then
    .ok ⟨_, h⟩
  else .error .overflowError

/-- `max(d, e)`: the first of two equal ones. -/
def latest (d e : DateTime) : DateTime := if e ≤ d then d else e

def pad2 (n : Int) : Str := if n < 10 then '0' :: decimal n else decimal n

/-- Year, month and day of a number of days since 1970. -/
def civil (days : Int) : Int × Int × Int :=
  let z := days + 719468
  let era := z / 146097
  let doe := z - era * 146097
  let yoe := (doe - doe / 1460 + doe / 36524 - doe / 146096) / 365
  let doy := doe - (365 * yoe + yoe / 4 - yoe / 100)
  let mp := (5 * doy + 2) / 153
  let month := if mp < 10 then mp + 3 else mp - 9
  (yoe + era * 400 + (if month ≤ 2 then 1 else 0), month, doy - (153 * mp + 2) / 5 + 1)

/-- `d.strftime("%Y-%m-%d")`; `%Y` does not pad years before 1000. -/
def isoDate (d : DateTime) : Str :=
  let (year, month, day) := civil (d.micros / microsPerDay)
  decimal year ++ "-".toList ++ pad2 month ++ "-".toList ++ pad2 day

example : isoDate ⟨1709251199000000, by decide⟩ = "2024-02-29".toList := by decide

end DateTime

/-! Rows. -/

inductive Protocol where
  | ssh
  | shadowlink
  deriving DecidableEq, Repr

def Protocol.text : Protocol → Str
  | ssh => "ssh".toList
  | shadowlink => "shadowlink".toList

inductive ServerStatus where
  | active
  | maintenance
  | full
  | down
  deriving DecidableEq, Repr

structure Server where
  id : Nat
  name : Str
  ipAddress : Str
  protocolType : Protocol
  status : ServerStatus
  maxUsers : Nat
  cpuUsage : Rat
  shadowlinkBridgePort : Nat
  shadowlinkApiKey : Str
  deriving DecidableEq, Repr

/-- `order_by("cpu_usage")`, with equal loads in some order of the keys. -/
def Server.loadLe (ties : Nat → Nat) (s t : Server) : Bool :=
  s.cpuUsage < t.cpuUsage || s.cpuUsage = t.cpuUsage && ties s.id ≤ ties t.id

structure Plan where
  id : Nat
  name : Str
  durationDays : Nat
  maxConnections : Nat
  bandwidthLimitGb : Nat
  isActive : Bool
  deriving DecidableEq, Repr

inductive AccountStatus where
  | active
  | suspended
  | expired
  | deleted
  deriving DecidableEq, Repr

/-- `server` and `plan` are the keys of the rows referred to. `bandwidthUsedGb` is a float rounded to
six places, kept in millionths. -/
structure Account where
  id : Nat
  username : Str
  passwordDisplay : Str
  server : Nat
  plan : Option Nat
  protocolType : Protocol
  status : AccountStatus
  expireDate : DateTime
  maxConnections : Nat
  bandwidthLimitGb : Nat
  bandwidthUsedGb : Nat
  accessToken : Str
  authToken : Str
  createdBy : Option Nat
  note : Str
  deriving DecidableEq, Repr

inductive AuditAction where
  | create
  | delete
  | suspend
  | activate
  | extend
  | expire
  | passwordReset
  | rebalance
  deriving DecidableEq, Repr

structure AuditLog where
  action : AuditAction
  account : Option Nat
  adminUser : Option Nat
  detail : Str
  deriving DecidableEq, Repr

/-- The columns that are written after an account has been created. -/
inductive AccountField where
  | passwordDisplay
  | status
  | expireDate
  | maxConnections
  | bandwidthLimitGb
  | bandwidthUsedGb
  | note
  deriving DecidableEq, Repr

/-- The columns that `account.save()` writes without `update_fields`. -/
def AccountField.all : List AccountField :=
  [passwordDisplay, status, expireDate, maxConnections, bandwidthLimitGb, bandwidthUsedGb, note]

/-- The largest `integer` of Postgres. -/
abbrev maxInteger : Nat := 2147483647

namespace Account

/-- The values are ones that the columns of Postgres take: `varchar` of the declared length, `integer`, and
no text with a zero character. -/
def Fits (a : Account) : Prop :=
  a.username.length ≤ 32 ∧ a.passwordDisplay.length ≤ 128 ∧ a.maxConnections ≤ maxInteger ∧
    a.bandwidthLimitGb ≤ maxInteger ∧ Char.ofNat 0 ∉ a.username ++ a.passwordDisplay ++ a.note

instance (a : Account) : Decidable a.Fits := inferInstanceAs (Decidable (_ ∧ _))

/-- What the database raises where it does not take the row. -/
def refusal (a : Account) : Exc := if a.Fits then .integrityError else .dataError

theorem refusal_cases (a : Account) : a.refusal = .integrityError ∨ a.refusal = .dataError := by
  unfold refusal
  split
  · exact .inl rfl
  · exact .inr rfl

/-- The row with one column taken from another object of it. -/
def writeField (row obj : Account) : AccountField → Account
  | .passwordDisplay => { row with passwordDisplay := obj.passwordDisplay }
  | .status => { row with status := obj.status }
  | .expireDate => { row with expireDate := obj.expireDate }
  | .maxConnections => { row with maxConnections := obj.maxConnections }
  | .bandwidthLimitGb => { row with bandwidthLimitGb := obj.bandwidthLimitGb }
  | .bandwidthUsedGb => { row with bandwidthUsedGb := obj.bandwidthUsedGb }
  | .note => { row with note := obj.note }

def write (row obj : Account) (fields : List AccountField) : Account :=
  fields.foldl (fun r f => r.writeField obj f) row

/-- The columns that no operation writes. -/
structure SameKeys (row row' : Account) : Prop where
  id : row'.id = row.id
  username : row'.username = row.username
  server : row'.server = row.server
  protocolType : row'.protocolType = row.protocolType
  accessToken : row'.accessToken = row.accessToken
  authToken : row'.authToken = row.authToken

theorem SameKeys.refl (row : Account) : row.SameKeys row := ⟨rfl, rfl, rfl, rfl, rfl, rfl⟩

theorem SameKeys.trans {a b c : Account} (h : a.SameKeys b) (h' : b.SameKeys c) : a.SameKeys c :=
  ⟨h'.id.trans h.id, h'.username.trans h.username, h'.server.trans h.server,
    h'.protocolType.trans h.protocolType, h'.accessToken.trans h.accessToken,
    h'.authToken.trans h.authToken⟩

theorem SameKeys.symm {a b : Account} (h : a.SameKeys b) : b.SameKeys a :=
  ⟨h.id.symm, h.username.symm, h.server.symm, h.protocolType.symm, h.accessToken.symm,
    h.authToken.symm⟩

theorem writeField_keys (row obj : Account) (f : AccountField) :
    row.SameKeys (row.writeField obj f) := by
  cases f <;> exact ⟨rfl, rfl, rfl, rfl, rfl, rfl⟩

theorem write_keys (row obj : Account) (fields : List AccountField) :
    row.SameKeys (row.write obj fields) := by
  induction fields generalizing row with
  | nil => exact .refl row
  | cons f fields ih => exact (writeField_keys row obj f).trans (ih _)

theorem write_all_status (row obj : Account) : (row.write obj AccountField.all).status = obj.status :=
  rfl

/-- `extend` before it saves: the end moves from the later of now and the old end. -/
def extend (account : Account) (now : DateTime) (days : Int) : Except Exc Account :=
  match (account.expireDate.latest now).addDays days with
  | .error e => .error e
  | .ok date => .ok { account with expireDate := date, status := .active }

theorem extend_ok {a a' : Account} {now : DateTime} {days : Int} (h : a.extend now days = .ok a') :
    a.SameKeys a' ∧ a'.status = .active := by
  unfold extend at h
  split at h
  · cases h
  · cases h
    exact ⟨⟨rfl, rfl, rfl, rfl, rfl, rfl⟩, rfl⟩

end Account

/-! The tables. -/

/-- The rows in `Meta.ordering`, newest first, with the unique columns. -/
structure AccountTable where
  rows : List Account
  ids : (rows.map Account.id).Nodup
  names : (rows.map fun a => (a.username, a.server)).Nodup
  accessTokens : (rows.map Account.accessToken).Nodup
  authTokens : (rows.map Account.authToken).Nodup

namespace AccountTable

def empty : AccountTable := ⟨[], .nil, .nil, .nil, .nil⟩

instance : Membership Account AccountTable := ⟨fun t a => a ∈ t.rows⟩

theorem mem_rows {t : AccountTable} {a : Account} : a ∈ t ↔ a ∈ t.rows := Iff.rfl

theorem nodup_cons_map {β : Type} {rows : List Account} {a : Account} {f : Account → β}
    (h : f a ∉ rows.map f) (hr : (rows.map f).Nodup) : ((a :: rows).map f).Nodup :=
  List.nodup_cons.mpr ⟨h, hr⟩

def nextId (t : AccountTable) : Nat := (t.rows.map Account.id).foldr max 0 + 1

theorem le_foldr_max {n : Nat} {ns : List Nat} (h : n ∈ ns) : n ≤ ns.foldr max 0 := by
  induction ns with
  | nil => simp at h
  | cons m ns ih =>
    simp only [List.foldr_cons]
    rcases List.mem_cons.mp h with rfl | h
    · omega
    · have := ih h
      omega

theorem nextId_notMem (t : AccountTable) : t.nextId ∉ t.rows.map Account.id := by
  intro h
  have := le_foldr_max h
  unfold nextId at this
  omega

/-- Insert a row under a new key, if the unique columns allow it and its values fit. -/
def insert (t : AccountTable) (a : Account) : Option AccountTable :=
  if h : (a.username, a.server) ∉ t.rows.map (fun b => (b.username, b.server)) ∧
      a.accessToken ∉ t.rows.map Account.accessToken ∧
      a.authToken ∉ t.rows.map Account.authToken ∧ a.Fits then
    some ⟨{ a with id := t.nextId } :: t.rows, nodup_cons_map t.nextId_notMem t.ids,
      nodup_cons_map h.1 t.names, nodup_cons_map h.2.1 t.accessTokens,
      nodup_cons_map h.2.2.1 t.authTokens⟩
  else none

theorem isSome_insert {t : AccountTable} {a : Account} : (t.insert a).isSome = true ↔
    (a.username, a.server) ∉ t.rows.map (fun b => (b.username, b.server)) ∧
      a.accessToken ∉ t.rows.map Account.accessToken ∧ a.authToken ∉ t.rows.map Account.authToken ∧
        a.Fits := by
  unfold insert
  split <;> simp_all

/-- `UPDATE … WHERE id = …`, of values that the columns take. -/
def saveRows (rows : List Account) (obj : Account) (fields : List AccountField) : List Account :=
  rows.map fun row => if row.id = obj.id then row.write obj fields else row

theorem map_saveRows {β : Type} {f : Account → β} (hf : ∀ a b : Account, a.SameKeys b → f b = f a)
    (rows : List Account) (obj : Account) (fields : List AccountField) :
    (saveRows rows obj fields).map f = rows.map f := by
  simp only [saveRows, List.map_map]
  refine List.map_congr_left ?_
  intro row _
  by_cases h : row.id = obj.id
  · simp [h, hf _ _ (row.write_keys obj fields)]
  · simp [h]

def save (t : AccountTable) (obj : Account) (fields : List AccountField) : AccountTable where
  rows := saveRows t.rows obj fields
  ids := by
    rw [map_saveRows fun a b h => h.id]
    exact t.ids
  names := by
    rw [map_saveRows fun a b h => by rw [h.username, h.server]]
    exact t.names
  accessTokens := by
    rw [map_saveRows fun a b h => h.accessToken]
    exact t.accessTokens
  authTokens := by
    rw [map_saveRows fun a b h => h.authToken]
    exact t.authTokens

theorem mem_save {t : AccountTable} {obj b : Account} {fields : List AccountField} :
    b ∈ t.save obj fields ↔ ∃ a ∈ t, b = if a.id = obj.id then a.write obj fields else a := by
  simp only [mem_rows, save, saveRows, List.mem_map]
  exact ⟨fun ⟨a, ha, h⟩ => ⟨a, ha, h.symm⟩, fun ⟨a, ha, h⟩ => ⟨a, ha, h.symm⟩⟩

theorem eq_of_map_eq {β : Type} {f : Account → β} {rows : List Account} (h : (rows.map f).Nodup)
    {a b : Account} (ha : a ∈ rows) (hb : b ∈ rows) (he : f a = f b) : a = b :=
  List.inj_on_of_nodup_map h ha hb he

theorem eq_of_id {t : AccountTable} {a b : Account} (ha : a ∈ t) (hb : b ∈ t) (h : a.id = b.id) :
    a = b :=
  eq_of_map_eq t.ids ha hb h

theorem eq_of_name {t : AccountTable} {a b : Account} (ha : a ∈ t) (hb : b ∈ t)
    (hu : a.username = b.username) (hs : a.server = b.server) : a = b :=
  eq_of_map_eq t.names ha hb (by simp [hu, hs])

theorem eq_of_authToken {t : AccountTable} {a b : Account} (ha : a ∈ t) (hb : b ∈ t)
    (h : a.authToken = b.authToken) : a = b :=
  eq_of_map_eq t.authTokens ha hb h

theorem mem_insert {t t' : AccountTable} {a b : Account} (h : t.insert a = some t') :
    b ∈ t' ↔ b = { a with id := t.nextId } ∨ b ∈ t := by
  unfold insert at h
  split at h
  · cases h
    exact List.mem_cons
  · cases h

end AccountTable

/-- The filters that the account operations query with. -/
inductive AccountQuery where
  /-- `status=ACTIVE, expire_date__lte=now` -/
  | expiredBy (now : DateTime)
  /-- `status=EXPIRED, expire_date__lte=cutoff` -/
  | expiredSince (cutoff : DateTime)
  /-- `server=srv, status=ACTIVE` -/
  | activeOn (server : Nat)
  /-- `username=username, status__in=[ACTIVE, EXPIRED]` -/
  | renewable (username : Str)
  deriving DecidableEq, Repr

def AccountQuery.filter : AccountQuery → Account → Bool
  | expiredBy now, a => a.status = .active ∧ a.expireDate ≤ now
  | expiredSince cutoff, a => a.status = .expired ∧ a.expireDate ≤ cutoff
  | activeOn server, a => a.server = server ∧ a.status = .active
  | renewable username, a => a.username = username ∧ (a.status = .active ∨ a.status = .expired)

/-- `servers` are in the order of `Meta.ordering`, their names. -/
structure Db where
  servers : List Server
  plans : List Plan
  accounts : AccountTable
  auditLog : List AuditLog

namespace Db

def getServer (db : Db) (pk : Nat) : Option Server := db.servers.find? fun s => s.id = pk

def getPlan (db : Db) (pk : Nat) : Option Plan := db.plans.find? fun p => p.id = pk

def getAccount (db : Db) (pk : Nat) : Option Account := db.accounts.rows.find? fun a => a.id = pk

def selectAccounts (db : Db) (q : AccountQuery) : List Account := db.accounts.rows.filter q.filter

/-- `Server.objects.filter(status=Server.Status.ACTIVE)`. -/
def activeServers (db : Db) : List Server := db.servers.filter fun s => s.status = .active

/-- `.order_by("cpu_usage")` takes the place of `Meta.ordering`, so that the order of equal loads is the
database's own; `ties` is where a query puts the keys. -/
def activeServersByLoad (db : Db) (ties : Nat → Nat) : List Server :=
  db.activeServers.mergeSort (Server.loadLe ties)

/-- `current_user_count`. -/
def currentUserCount (db : Db) (server : Nat) : Nat :=
  db.accounts.rows.countP fun a => a.server = server ∧ a.status ≠ .deleted

/-- `server.is_available`. -/
def isAvailable (db : Db) (server : Server) : Bool :=
  server.status = .active && db.currentUserCount server.id < server.maxUsers

/-- The server that `pick_best_server` finds. -/
def pickBestServer (db : Db) (ties : Nat → Nat) : Option Server → Option Server
  | some preferred =>
    if db.isAvailable preferred then some preferred
    else (db.activeServersByLoad ties).find? db.isAvailable
  | none => (db.activeServersByLoad ties).find? db.isAvailable

theorem getAccount_mem {db : Db} {pk : Nat} {a : Account} (h : db.getAccount pk = some a) :
    a ∈ db.accounts := List.mem_of_find?_eq_some h

theorem getAccount_id {db : Db} {pk : Nat} {a : Account} (h : db.getAccount pk = some a) :
    a.id = pk := by
  simpa using List.find?_some h

/-- The row of an account after a save. -/
theorem getAccount_save {db : Db} {pk : Nat} {a : Account} (h : db.getAccount pk = some a)
    (obj : Account) (fields : List AccountField) :
    { db with accounts := db.accounts.save obj fields }.getAccount pk =
      some (if a.id = obj.id then a.write obj fields else a) := by
  unfold getAccount at h ⊢
  have hids : ((fun row : Account => decide (row.id = pk)) ∘
      fun row => if row.id = obj.id then row.write obj fields else row) =
        fun row => decide (row.id = pk) := by
    funext row
    by_cases hrow : row.id = obj.id
    · simp [hrow, (row.write_keys obj fields).id]
    · simp [hrow]
  simp only [AccountTable.save, AccountTable.saveRows, List.find?_map, hids, h, Option.map_some]

theorem mem_selectAccounts {db : Db} {q : AccountQuery} {a : Account} :
    a ∈ db.selectAccounts q ↔ a ∈ db.accounts ∧ q.filter a = true := List.mem_filter

theorem mem_of_head? {db : Db} {q : AccountQuery} {a : Account}
    (h : (db.selectAccounts q).head? = some a) : a ∈ db.accounts :=
  (Db.mem_selectAccounts.mp (List.mem_of_head? h)).1

end Db

end SshPanelVpn.Panel

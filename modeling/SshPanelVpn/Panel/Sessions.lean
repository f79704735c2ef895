import SshPanelVpn.Library.Effects
import SshPanelVpn.Library.PyString
import SshPanelVpn.Library.Ranks
import SshPanelVpn.Panel.Model

/-! `get_active_sessions` and `sync_active_sessions`: the sessions of a node read from ps, ss and
`auth.log`, their rows, and the limit on them. -/
namespace SshPanelVpn.Panel

open Effects PyString
open Effects.Prog (perform ofExcept run_bind)
open scoped Posix

/-- The exceptions that the task meets. -/
inductive SessionExc where
  | sshError
  /-- `int(pid)`. -/
  | valueError
  /-- The database refuses the value of a column. -/
  | dataError
  | integrityError
  deriving DecidableEq, Repr

/-- An entry of the list that `get_active_sessions` returns. -/
structure Session where
  user : Str
  pid : Nat
  clientIp : Option Str
  deriving DecidableEq, Repr

/-- The commands of the task on a node. -/
inductive NodeCmd where
  /-- `ps -eo pid,user,args --no-headers | grep 'sshd:' | grep -v grep`. -/
  | ps
  /-- `ss -tnp 2>/dev/null | grep 'pid=…' | awk` with `print $5`. -/
  | ss (pid : Str)
  /-- `grep -a 'sshd.*…' /var/log/auth.log 2>/dev/null | tail -1`. -/
  | authLog (pid : Str)
  /-- `kill -9 …`. -/
  | kill (pids : List Str)
  deriving DecidableEq, Repr

structure SessionResult where
  exitCode : Nat
  stdout : Str
  deriving DecidableEq, Repr

inductive SessionCall where
  | activeServers
  | connect (server : Server)
  | run (server : Server) (cmd : NodeCmd)
  /-- `filter(server=srv, username__in=usernames, status=ACTIVE)`. -/
  | selectActive (server : Server) (usernames : List Str)
  /-- `ActiveSession.objects.filter(account__server=srv).delete()`. -/
  | deleteSessions (server : Server)
  | createSession (account : Account) (pid : Nat) (clientIp : Option Str)

abbrev SessionReply : SessionCall → Type
  | .activeServers => List Server
  | .connect _ => Except SessionExc Unit
  | .run _ _ => Except SessionExc SessionResult
  | .selectActive _ _ => List Account
  | .deleteSessions _ => Unit
  | .createSession _ _ _ => Except SessionExc Unit

abbrev SessionProg := Prog SessionCall SessionReply SessionExc

/-! Texts. -/

/-- `re.match(r"sshd:\s+(\S+?)(?:@|$)", args)`, group 1: at least one character, up to the first `@`
behind it or the end, and no blank in it. -/
def matchUser (args : Str) : Option Str :=
  if "sshd:".toList.isPrefixOf args then
    let rest := args.drop 5
    match rest.dropWhile isSpace with
    | c :: cs =>
      let more := cs.takeWhile fun d => !isSpace d && d != '@'
      if rest.head?.any isSpace && ((cs.dropWhile fun d => !isSpace d && d != '@').head?.all (· == '@'))
      then some (c :: more) else none
    | [] => none
  else none

example : matchUser "sshd: bob@notty".toList = some "bob".toList := by decide
example : matchUser "sshd: bob [priv]".toList = none := by decide

/-- The pid, as it is written, and the user of a line of ps, unless the line is skipped. -/
def parseProcess (line : Str) : Option (Str × Str) :=
  match splitMax 2 (strip line) with
  | [pid, _, args] =>
    (matchUser args).bind fun user =>
      if user ∈ ["root".toList, "sshd".toList, "priv".toList] then none else some (pid, user)
  | _ => none

/-- The address of one line of the peers. -/
def candidate (line : Str) : Option Str :=
  let addr := strip line
  if ':' ∈ addr then
    let c := beforeLast ':' addr
    if c ≠ [] ∧ c ∉ ["0.0.0.0".toList, "127.0.0.1".toList, "*".toList] then some c else none
  else none

/-- `re.match(r"\d+\.", s)`: what follows. -/
def dropOctet (s : Str) : Option Str :=
  match s.takeWhile (fun c => (digitValue c).isSome), s.dropWhile fun c => (digitValue c).isSome with
  | _ :: _, '.' :: rest => some rest
  | _, _ => none

/-- `re.match(r"from\s+(\d+\.\d+\.\d+\.\d+)", s)`, group 1. -/
def matchFrom (s : Str) : Option Str :=
  if "from".toList.isPrefixOf s && (s.drop 4).head?.any isSpace then
    let t := (s.drop 4).dropWhile isSpace
    match (dropOctet t).bind fun t => (dropOctet t).bind dropOctet with
    | some last =>
      let octet := last.takeWhile fun c => (digitValue c).isSome
      if octet = [] then none
      else some (t.take (t.length - last.length) ++ octet)
    | none => none
  else none

/-- `re.search`. -/
def searchFrom (s : Str) : Option Str := s.tails.findSome? matchFrom

example : searchFrom "Accepted password for bob from 1.2.3.4 port 5 ssh2".toList = some "1.2.3.4".toList := by
  decide +kernel

/-! `get_active_sessions`. -/

def request (c : SessionCall) : SessionProg (SessionReply c) := perform c

def runNode (server : Server) (cmd : NodeCmd) : SessionProg SessionResult := do
  let result ← ofExcept (← request (.run server cmd))
  return ⟨result.exitCode, strip result.stdout⟩

def SessionResult.ok (r : SessionResult) : Bool := r.exitCode == 0

/-- The first address that ss shows for the pid. -/
def peerAddress (r : SessionResult) : Option Str :=
  if r.ok = true ∧ r.stdout ≠ [] then (splitlines r.stdout).findSome? candidate else none

/-- The address that the last line of `auth.log` shows for it. -/
def loggedAddress (r : SessionResult) : Option Str :=
  if r.ok = true ∧ r.stdout ≠ [] then searchFrom r.stdout else none

def clientIp (server : Server) (pid : Str) : SessionProg (Option Str) := do
  let ss ← runNode server (.ss pid)
  match peerAddress ss with
  | some ip => return some ip
  | none => do
    let who ← runNode server (.authLog pid)
    return loggedAddress who

def readSessions (server : Server) : List Str → SessionProg (List Session)
  | [] => return []
  | line :: lines =>
    match parseProcess line with
    | none => readSessions server lines
    | some (pid, user) => do
      let ip ← clientIp server pid
      match int pid with
      | none => Prog.raise .valueError
      | some n => do
        let rest ← readSessions server lines
        return ⟨user, n, ip⟩ :: rest

def getActiveSessions (server : Server) : SessionProg (List Session) := do
  let result ← runNode server .ps
  if result.ok = false ∨ result.stdout = [] then return []
  else readSessions server (splitlines result.stdout)

/-! `sync_active_sessions`. -/

/-- `acc_map.get(username)`. -/
def accMap (accounts : List Account) (username : Str) : Option Account :=
  (accounts.filter fun a => a.username = username).getLast?

/-- `user_sessions.setdefault(user, []).append(sess)`; the keys are in the order of insertion. -/
def addSession (s : Session) : List (Str × List Session) → List (Str × List Session)
  | [] => [(s.user, [s])]
  | (user, sessions) :: groups =>
    if user = s.user then (user, sessions ++ [s]) :: groups
    else (user, sessions) :: addSession s groups

/-- The rows of the sessions, and the sessions by user. -/
def recordSessions (accounts : List Account) : List Session → List (Str × List Session) →
    SessionProg (List (Str × List Session))
  | [], groups => return groups
  | s :: sessions, groups =>
    match accMap accounts s.user with
    | none => recordSessions accounts sessions groups
    | some acc => do
      ofExcept (← request (.createSession acc s.pid s.clientIp))
      recordSessions accounts sessions (addSession s groups)

/-- `sorted(sess_list, key=lambda s: s["pid"])[acc.max_connections:]`. -/
def excess (acc : Account) (sessions : List Session) : List Session :=
  (Ranks.sorted Session.pid sessions).drop acc.maxConnections

def enforceLimits (server : Server) (accounts : List Account) :
    List (Str × List Session) → SessionProg Unit
  | [] => return ()
  | (user, sessions) :: groups =>
    match accMap accounts user with
    | some acc =>
      if acc.maxConnections < sessions.length then do
        let _ ← runNode server (.kill ((excess acc sessions).map fun s => decimal s.pid))
        enforceLimits server accounts groups
      else enforceLimits server accounts groups
    | none => enforceLimits server accounts groups

def syncSessionsOf (srv : Server) : SessionProg Unit := do
  ofExcept (← request (.connect srv))
  let sessions ← getActiveSessions srv
  let accounts ← request (.selectActive srv (sessions.map Session.user))
  request (.deleteSessions srv)
  let groups ← recordSessions accounts sessions []
  enforceLimits srv accounts groups

/-- An exception is logged and ends the work for its server. -/
def syncSessionsOn : List Server → SessionProg Unit
  | [] => return ()
  | srv :: servers => do
    (syncSessionsOf srv).handle fun _ => return ()
    syncSessionsOn servers

def syncActiveSessions : SessionProg Unit := do
  syncSessionsOn (← request .activeServers)

/-! A node, as the commands show it. -/

/-- A process that has a socket open. -/
structure SocketUser where
  name : Str
  pid : Nat
  fd : Nat
  deriving DecidableEq, Repr

/-- A line of `ss -tnp`. The columns before the processes hold no blanks. -/
structure Socket where
  state : Str
  recvQ : Str
  sendQ : Str
  localAddress : Str
  peer : Str
  users : List SocketUser
  columns : ∀ w ∈ [state, recvQ, sendQ, localAddress, peer], w ≠ [] ∧ ∀ c ∈ w, isSpace c = false

/-- Something, without blanks. -/
def isColumn (w : Str) : Bool := w != [] && w.all fun c => !isSpace c

theorem columns_of_all {ws : List Str} (h : ws.all isColumn = true) :
    ∀ w ∈ ws, w ≠ [] ∧ ∀ c ∈ w, isSpace c = false := by
  intro w hw
  have hcolumn := List.all_eq_true.mp h w hw
  simp only [isColumn, Bool.and_eq_true, bne_iff_ne, List.all_eq_true, Bool.not_eq_true'] at hcolumn
  exact hcolumn

namespace Socket

/-- `("sshd",pid=1234,fd=4)`. -/
def userText (u : SocketUser) : Str :=
  "(\"".toList ++ u.name ++ "\",pid=".toList ++ decimal u.pid ++ ",fd=".toList ++ decimal u.fd ++
    ")".toList

/-- The line, with a blank between its columns. -/
def line (k : Socket) : Str :=
  k.state ++ ' ' :: (k.recvQ ++ ' ' :: (k.sendQ ++ ' ' :: (k.localAddress ++ ' ' :: (k.peer ++ ' ' ::
    ("users:(".toList ++ ",".toList.intercalate (k.users.map userText) ++ ")".toList)))))

/-- The processes that own the socket. -/
def owners (k : Socket) : List Nat := k.users.map SocketUser.pid

/-- `grep 'pid=…'` finds the line. -/
def mentions (k : Socket) (pid : Str) : Bool := contains ("pid=".toList ++ pid) k.line

/-- The client's address, unless it is none that `get_active_sessions` takes. -/
def address (k : Socket) : Option Str := candidate k.peer

end Socket

/-- What awk takes for the fields of a line. -/
def awkFields (l : Str) : List Str := Words.words Posix.isBlank l

/-- `print $n`. -/
def awkField (n : Nat) (l : Str) : Str := ((awkFields l)[n - 1]?).getD []

/-- What the pipeline over the lines of ss prints; its status is that of awk. -/
def ssResult (sockets : List Socket) (pid : Str) : SessionResult :=
  ⟨0, ((sockets.filter fun k => k.mentions pid).map fun k => awkField 5 k.line).flatMap (· ++ ['\n'])⟩

/-- What the nodes show during a run, by server and by the pid that is asked for, and the addresses that
the column `client_ip` takes. -/
structure SessionEnv where
  connect : Nat → Except SessionExc Unit
  ps : Nat → SessionResult
  sockets : Nat → Str → List Socket
  authLog : Nat → Str → SessionResult
  accepts : Str → Bool

/-- A row of `ActiveSession`. -/
structure ActiveSession where
  account : Nat
  pid : Nat
  clientIp : Option Str
  deriving DecidableEq, Repr

/-- The tables, and the processes that have been killed on each server, the last command first. -/
structure SessionWorld where
  db : Db
  sessions : List ActiveSession
  killed : List (Nat × Str)

namespace SessionWorld

/-- The row belongs to an account of the server. -/
def isOn (db : Db) (server : Nat) (row : ActiveSession) : Bool :=
  (db.getAccount row.account).any fun a => a.server = server

def selectActive (db : Db) (server : Nat) (usernames : List Str) : List Account :=
  db.accounts.rows.filter fun a => a.server = server ∧ a.username ∈ usernames ∧ a.status = .active

/-- The column refuses an address, and the key of account and pid is unique. -/
def createSession (env : SessionEnv) (w : SessionWorld) (row : ActiveSession) :
    Except SessionExc Unit × SessionWorld :=
  if row.clientIp.all env.accepts = false then (.error .dataError, w)
  else if w.sessions.any fun r => r.account = row.account ∧ r.pid = row.pid then
    (.error .integrityError, w)
  else (.ok (), { w with sessions := w.sessions ++ [row] })

/-- On a node that is reached no command raises; `SSHManager.run` can, which ends the part of its
server. -/
def handler (env : SessionEnv) : (c : SessionCall) → SessionWorld → SessionReply c × SessionWorld
  | .activeServers, w => (w.db.activeServers, w)
  | .connect server, w => (env.connect server.id, w)
  | .run server .ps, w => (.ok (env.ps server.id), w)
  | .run server (.ss pid), w => (.ok (ssResult (env.sockets server.id pid) pid), w)
  | .run server (.authLog pid), w => (.ok (env.authLog server.id pid), w)
  | .run server (.kill pids), w =>
    (.ok ⟨0, []⟩, { w with killed := pids.map (fun pid => (server.id, pid)) ++ w.killed })
  | .selectActive server usernames, w => (selectActive w.db server.id usernames, w)
  | .deleteSessions server, w =>
    ((), { w with sessions := w.sessions.filter fun row => !isOn w.db server.id row })
  | .createSession account pid clientIp, w => w.createSession env ⟨account.id, pid, clientIp⟩

end SessionWorld

/-! What a node reports. -/

namespace SessionEnv

variable (env : SessionEnv) (server : Nat)

/-- The address that the sockets give a pid. -/
def ssAddress (pid : Str) : Option Str :=
  ((env.sockets server pid).filter fun k => k.mentions pid).findSome? Socket.address

/-- The address that `auth.log` gives it. -/
def logAddress (pid : Str) : Option Str :=
  loggedAddress ⟨(env.authLog server pid).exitCode, strip (env.authLog server pid).stdout⟩

def sessionIp (pid : Str) : Option Str := (env.ssAddress server pid).or (env.logAddress server pid)

/-- The lines of ps. -/
def psLines : List Str :=
  if (env.ps server).ok = false ∨ strip (env.ps server).stdout = [] then []
  else splitlines (strip (env.ps server).stdout)

/-- The session of a process, unless its pid is no number. -/
def session (process : Str × Str) : Option Session :=
  (int process.1).map fun n => ⟨process.2, n, env.sessionIp server process.1⟩

/-- The processes that are sessions. -/
def processes : List (Str × Str) := (env.psLines server).filterMap parseProcess

/-- The list that `get_active_sessions` returns, if it does. -/
def reported : Option (List Session) := (env.processes server).mapM (env.session server)

end SessionEnv

theorem map_eq_of_mapM {α β : Type} {f : α → Option β} {l : List α} {l' : List β}
    (h : l.mapM f = some l') : l.map f = l'.map some := by
  induction l generalizing l' with
  | nil =>
    obtain rfl : [] = l' := Option.some.inj h
    rfl
  | cons a l ih =>
    rw [List.mapM_cons] at h
    cases hb : f a with
    | none =>
      rw [hb] at h
      cases h
    | some b =>
      cases hl : l.mapM f with
      | none =>
        rw [hb, hl] at h
        cases h
      | some bs =>
        rw [hb, hl] at h
        obtain rfl : b :: bs = l' := Option.some.inj h
        rw [List.map_cons, List.map_cons, hb, ih hl]

section Reports

variable {env : SessionEnv} {server : Server} {w : SessionWorld} {pid : Str}

theorem isBlank_column {k : Socket} {c : Char} {v : Str}
    (hv : v ∈ [k.state, k.recvQ, k.sendQ, k.localAddress, k.peer]) (hc : c ∈ v) :
    Posix.isBlank c = false := by
  have hspace := (k.columns v hv).2 c hc
  cases hb : Posix.isBlank c with
  | false => rfl
  | true =>
    simp only [Posix.isBlank, Bool.or_eq_true, beq_iff_eq] at hb
    rcases hb with rfl | rfl <;> cases hspace

/-- The fifth field is the peer. -/
theorem awkField_line (k : Socket) : awkField 5 k.line = k.peer := by
  have hcol : ∀ {v rest : Str}, v ∈ [k.state, k.recvQ, k.sendQ, k.localAddress, k.peer] →
      Words.words Posix.isBlank (v ++ ' ' :: rest) = v :: Words.words Posix.isBlank rest :=
    fun hv => Words.words_cons (fun c hc => isBlank_column hv hc) (k.columns _ hv).1 rfl
  rw [awkField, awkFields, Socket.line, hcol (by simp), hcol (by simp), hcol (by simp),
    hcol (by simp), hcol (by simp)]
  rfl

theorem peerAddress_ssResult (sockets : List Socket) (pid : Str) :
    peerAddress ⟨(ssResult sockets pid).exitCode, strip (ssResult sockets pid).stdout⟩ =
      (sockets.filter fun k => k.mentions pid).findSome? Socket.address := by
  have hpeers : (sockets.filter fun k => k.mentions pid).map (fun k => awkField 5 k.line) =
      (sockets.filter fun k => k.mentions pid).map Socket.peer := by
    simp only [awkField_line]
  have hlines : splitlines (strip (ssResult sockets pid).stdout) =
      (sockets.filter fun k => k.mentions pid).map Socket.peer := by
    rw [ssResult, hpeers]
    apply splitlines_words
    intro v hv
    obtain ⟨k, -, rfl⟩ := List.mem_map.mp hv
    exact k.columns k.peer (by simp)
  have hok : SessionResult.ok ⟨(ssResult sockets pid).exitCode,
      strip (ssResult sockets pid).stdout⟩ = true := rfl
  unfold peerAddress
  simp only [hok, true_and, hlines, List.findSome?_map]
  split
  · rfl
  · next hnil =>
    rw [not_not] at hnil
    rw [hnil] at hlines
    have hnone : (sockets.filter fun k => k.mentions pid) = [] := by
      simpa [splitlines] using hlines.symm
    rw [hnone]
    rfl

theorem run_clientIp : (clientIp server pid).run (SessionWorld.handler env) w =
    (.ok (env.sessionIp server.id pid), w) := by
  have hss := peerAddress_ssResult (env.sockets server.id pid) pid
  have hrun : (clientIp server pid).run (SessionWorld.handler env) w = (match peerAddress
      ⟨(ssResult (env.sockets server.id pid) pid).exitCode,
        strip (ssResult (env.sockets server.id pid) pid).stdout⟩ with
      | some ip => return some ip
      | none => do
        let who ← runNode server (.authLog pid)
        return loggedAddress who : SessionProg (Option Str)).run (SessionWorld.handler env) w := rfl
  rw [hrun, hss, SessionEnv.sessionIp, SessionEnv.ssAddress]
  cases ((env.sockets server.id pid).filter fun k => k.mentions pid).findSome? Socket.address with
  | some ip => rfl
  | none => rfl

theorem run_readSessions (lines : List Str) :
    (readSessions server lines).run (SessionWorld.handler env) w =
      match (lines.filterMap parseProcess).mapM (env.session server.id) with
      | some sessions => (.ok sessions, w)
      | none => (.error .valueError, w) := by
  induction lines with
  | nil => rfl
  | cons line lines ih =>
    rw [readSessions, List.filterMap_cons]
    cases hp : parseProcess line with
    | none => exact ih
    | some process =>
      obtain ⟨pid, user⟩ := process
      rw [Prog.run_bind_ok run_clientIp]
      simp only [List.mapM_cons, SessionEnv.session]
      cases int pid with
      | none => rfl
      | some n =>
        rw [run_bind, ih]
        cases (lines.filterMap parseProcess).mapM (env.session server.id) with
        | none => rfl
        | some sessions => rfl

/-- What `get_active_sessions` returns. -/
theorem run_getActiveSessions : (getActiveSessions server).run (SessionWorld.handler env) w =
    match env.reported server.id with
    | some sessions => (.ok sessions, w)
    | none => (.error .valueError, w) := by
  have hrun : (getActiveSessions server).run (SessionWorld.handler env) w =
      (if (env.ps server.id).ok = false ∨ strip (env.ps server.id).stdout = [] then return []
        else readSessions server (splitlines (strip (env.ps server.id).stdout)) :
          SessionProg (List Session)).run (SessionWorld.handler env) w := rfl
  rw [hrun, SessionEnv.reported, SessionEnv.processes, SessionEnv.psLines]
  split
  · rfl
  · exact run_readSessions _

/-- The processes and the list that is made of them. -/
theorem map_session {id : Nat} {sessions : List Session} (h : env.reported id = some sessions) :
    (env.processes id).map (env.session id) = sessions.map some := map_eq_of_mapM h

end Reports

end SshPanelVpn.Panel

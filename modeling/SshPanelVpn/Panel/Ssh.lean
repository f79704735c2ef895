import SshPanelVpn.Panel.Calls

/-! `servers/ssh.py`: what `SSHManager` runs on a node for one user. -/
namespace SshPanelVpn.Panel

open Effects PyString
open Effects.Prog (ofExcept)

/-- The user id in a command is what `isdigit` accepts. -/
def Cmd.Numeric : Cmd → Prop
  | .chainJump uid => isdigit uid = true
  | _ => True

namespace SSHManager

/-- `with get_ssh_manager(server) as ssh`. -/
def connect (server : Server) : PanelProg Unit := do
  ofExcept (← ask (.connect server))

/-- `run` with the command for a user; the outputs are stripped. -/
def run (server : Server) (username : Str) (cmd : Cmd) : PanelProg CommandResult := do
  let result ← ofExcept (← ask (.exec server username cmd))
  return ⟨result.exitCode, strip result.stdout, strip result.stderr⟩

def createUser (server : Server) (username password : Str) : PanelProg CommandResult := do
  let _ ← run server username .useradd
  run server username (.chpasswd password)

def deleteUser (server : Server) (username : Str) : PanelProg CommandResult := do
  let _ ← run server username .pkill
  run server username .userdel

def lockUser (server : Server) (username : Str) : PanelProg CommandResult :=
  run server username .usermodLock

def unlockUser (server : Server) (username : Str) : PanelProg CommandResult :=
  run server username .usermodUnlock

def setExpiry (server : Server) (username dateStr : Str) : PanelProg CommandResult :=
  run server username (.chage dateStr)

def ensureMaxloginScript (server : Server) (username : Str) : PanelProg Unit := do
  let check ← run server username .checkMaxloginScript
  if contains "ok".toList check.stdout then return ()
  else
    let _ ← run server username .installMaxloginScript
    let _ ← run server username .chmodMaxloginScript
    let _ ← run server username .pamMaxloginScript
    return ()

def setMaxLogins (server : Server) (username : Str) (maxLogins : Int) : PanelProg CommandResult := do
  let _ ← run server username (.maxLogins maxLogins)
  ensureMaxloginScript server username
  return ⟨0, [], []⟩

def setupTrafficAccounting (server : Server) (username : Str) : PanelProg Unit := do
  let result ← run server username .idUser
  let uid := strip result.stdout
  if uid = [] ∨ isdigit uid = false then return ()
  else
    let present ← run server username .chainList
    if present.exitCode ≠ 0 then
      let _ ← run server username .chainNew
      let _ ← run server username (.chainJump uid)
      let _ ← run server username .chainReturn
      return ()
    else return ()

/-- The bytes that the last line of the chain's counters shows. -/
def bandwidthBytes (result : CommandResult) : Except Exc Nat :=
  if result.ok = false ∨ strip result.stdout = [] then .ok 0
  else
    match split (strip result.stdout) with
    | _ :: count :: _ =>
      if isdigit count then
        match int count with
        | some n => .ok n
        | none => .error .valueError
      else .ok 0
    | _ => .ok 0

def getUserBandwidthBytes (server : Server) (username : Str) : PanelProg Nat := do
  let result ← run server username .chainCounters
  ofExcept (bandwidthBytes result)

/-! The calls of each function: commands for the user on the server. -/

section Calls

variable {P : Call → Prop} {server : Server} {u : Str}

theorem allCalls_connect (h : P (.connect server)) : (connect server).AllCalls P :=
  ⟨h, fun _ => Prog.allCalls_ofExcept _⟩

variable (h : ∀ cmd : Cmd, cmd.Numeric → P (.exec server u cmd))

include h

theorem allCalls_run {cmd : Cmd} (hc : cmd.Numeric := by trivial) : (run server u cmd).AllCalls P :=
  ⟨h cmd hc, fun _ => (Prog.allCalls_ofExcept _).bind fun _ => trivial⟩

theorem allCalls_createUser (password : Str) : (createUser server u password).AllCalls P :=
  (allCalls_run h).bind fun _ => allCalls_run h

theorem allCalls_deleteUser : (deleteUser server u).AllCalls P :=
  (allCalls_run h).bind fun _ => allCalls_run h

theorem allCalls_ensureMaxloginScript : (ensureMaxloginScript server u).AllCalls P := by
  refine (allCalls_run h).bind ?_
  intro check
  split
  · trivial
  · exact (allCalls_run h).bind fun _ => (allCalls_run h).bind fun _ =>
      (allCalls_run h).bind fun _ => trivial

theorem allCalls_setMaxLogins (n : Int) : (setMaxLogins server u n).AllCalls P :=
  (allCalls_run h).bind fun _ => (allCalls_ensureMaxloginScript h).bind fun _ => trivial

/-- The user id has passed `isdigit` before it is used. -/
theorem allCalls_setupTrafficAccounting : (setupTrafficAccounting server u).AllCalls P := by
  refine (allCalls_run h).bind ?_
  intro result
  dsimp only
  split
  · trivial
  · next huid =>
    refine (allCalls_run h).bind ?_
    intro present
    split
    · have huid' : (Cmd.chainJump (strip result.stdout)).Numeric := by
        simpa [Cmd.Numeric] using (not_or.mp huid).2
      exact (allCalls_run h).bind fun _ => (allCalls_run h huid').bind fun _ =>
        (allCalls_run h).bind fun _ => trivial
    · trivial

theorem allCalls_getUserBandwidthBytes : (getUserBandwidthBytes server u).AllCalls P :=
  (allCalls_run h).bind fun _ => Prog.allCalls_ofExcept _

end Calls

end SSHManager

end SshPanelVpn.Panel

import SshPanelVpn.Panel.World

/-! What the nodes do during an operation, whatever the panel hears of it. -/
namespace SshPanelVpn.Panel

open Effects ShadowLink
open Effects.Prog (recording run_bind run_handle)

/-- A command or a request that a node has carried out. -/
inductive Deed where
  | ran (server : Nat) (username : Str) (cmd : Cmd)
  | served (server : Nat) (request : BridgeRequest)
  deriving DecidableEq, Repr

/-- The commands of `_ensure_maxlogin_script`, which are the same for every user. -/
def Cmd.managesScript : Cmd → Bool
  | .checkMaxloginScript => true
  | .installMaxloginScript => true
  | .chmodMaxloginScript => true
  | .pamMaxloginScript => true
  | _ => false

namespace Env

variable (env : Env)

/-- The command raises in the panel. -/
def raises (server : Server) (u : Str) (cmd : Cmd) : Bool :=
  match env.exec server u cmd with
  | .finished _ => false
  | .raised _ _ => true

/-- The node carries out the command: it exits with 0, or its result is lost on the way back. -/
def carries (server : Server) (u : Str) (cmd : Cmd) (n : Node) : Bool :=
  (n.succeed u cmd).isSome &&
    match env.exec server u cmd with
    | .finished result => result.exitCode = 0
    | .raised _ applied => applied

/-- The request gets to the bridge. -/
def delivers (server : Server) (request : BridgeRequest) : Bool :=
  match env.http server request with
  | .answered => true
  | .connectionError => false
  | .timeout applied => applied

end Env

/-- The bridge does what is asked; `activateToken` answers 200 for a token that it does not have. -/
def Node.grants (n : Node) (request : BridgeRequest) : Bool :=
  (n.bridge.serveHTTP request).1.status < 400 &&
    (request.path ≠ "/api/tokens/activate" ||
      request.body.any fun r => (n.bridge.held r.token).isSome)

namespace World

def deed (env : Env) : Call → World → Option Deed
  | .exec server u cmd, w =>
    if env.carries server u cmd (w.nodes server.id) then some (.ran server.id u cmd) else none
  | .http server request, w =>
    if env.delivers server request && (w.nodes server.id).grants request then
      some (.served server.id request)
    else none
  | _, _ => none

/-- The handler with a record of the deeds. -/
abbrev recorded (env : Env) : (c : Call) → World × List Deed → Reply c × (World × List Deed) :=
  recording (handler env) (deed env)

variable {env : Env} {server : Server} {u : Str} {cmd : Cmd} {w : World} {ds : List Deed}

/-- A command changes the node where it is carried out, and only there. -/
theorem nodes_exec : (w.exec env server u cmd).2.nodes =
    if env.carries server u cmd (w.nodes server.id) then
      Function.update w.nodes server.id
        (((w.nodes server.id).succeed u cmd).getD (w.nodes server.id))
    else w.nodes := by
  unfold exec Env.carries
  cases he : env.exec server u cmd with
  | raised e applied =>
    cases applied <;> cases hs : (w.nodes server.id).succeed u cmd <;> simp [hs, logged, updateNode]
  | finished result =>
    by_cases hc : result.exitCode = 0
    · cases hs : (w.nodes server.id).succeed u cmd <;> simp [hs, hc, logged, updateNode]
    · simp [hc, logged]

@[simp] theorem exec_db : (w.exec env server u cmd).2.db = w.db := by
  unfold exec
  dsimp only
  split
  · rfl
  · split
    · split <;> rfl
    · rfl

@[simp] theorem connect_db : (w.connect env server).2.db = w.db := by
  unfold connect
  split <;> rfl

@[simp] theorem connect_nodes : (w.connect env server).2.nodes = w.nodes := by
  unfold connect
  split <;> rfl

@[simp] theorem http_db {request : BridgeRequest} : (w.http env server request).2.db = w.db := by
  unfold http
  split
  · rfl
  · split <;> rfl
  · rfl

/-- A request that is not granted leaves the bridge as it is. -/
theorem serveHTTP_of_not_grants {n : Node} {request : BridgeRequest}
    (h : n.grants request = false) : (n.bridge.serveHTTP request).2 = n.bridge := by
  unfold Node.grants at h
  by_cases hs : (n.bridge.serveHTTP request).1.status < 400
  · simp only [hs, decide_true, Bool.true_and, Bool.or_eq_false_iff, decide_eq_false_iff_not,
      not_not] at h
    obtain ⟨hpath, hunknown⟩ := h
    unfold BridgeServer.serveHTTP
    split
    · rfl
    · cases hb : request.body with
      | none => simp [hpath, BridgeServer.postOnly, BridgeServer.activateToken,
          BridgeServer.withBody, BridgeServer.methodNotAllowed, hb, apply_ite Prod.snd]
      | some r =>
        have hl : n.bridge.tokens.lookup r.token = none := by
          simpa [hb, BridgeServer.held] using hunknown
        simp [hpath, BridgeServer.postOnly, BridgeServer.activateToken, BridgeServer.withBody,
          BridgeServer.methodNotAllowed, BridgeServer.setActive, hb, hl, apply_ite Prod.snd]
  · simp only [not_lt] at hs
    revert hs
    unfold BridgeServer.serveHTTP BridgeServer.postOnly BridgeServer.registerToken
      BridgeServer.deregisterToken BridgeServer.suspendToken BridgeServer.activateToken
      BridgeServer.withBody BridgeServer.methodNotAllowed BridgeServer.listTokens
    cases request.body with
    | none =>
      dsimp only
      repeat' split
      all_goals simp
    | some r =>
      dsimp only
      repeat' split
      all_goals simp

/-- A request changes the bridge where it is delivered and granted, and only there. -/
theorem nodes_http {request : BridgeRequest} : (w.http env server request).2.nodes =
    if env.delivers server request && (w.nodes server.id).grants request then
      (w.serve server.id request).2.nodes
    else w.nodes := by
  have hserve : (w.nodes server.id).grants request = false →
      (w.serve server.id request).2.nodes = w.nodes := by
    intro hg
    simp [serve, updateNode, serveHTTP_of_not_grants hg]
  unfold http Env.delivers
  cases he : env.http server request with
  | connectionError => simp [logged]
  | timeout applied =>
    cases applied with
    | false => simp [logged]
    | true =>
      cases hg : (w.nodes server.id).grants request with
      | false => simpa [logged] using hserve hg
      | true => simp [logged]
  | answered =>
    cases hg : (w.nodes server.id).grants request with
    | false => simpa [logged] using hserve hg
    | true => simp [logged]

theorem exec_raises (w : World) (h : env.raises server u cmd = true) :
    ∃ e, (w.exec env server u cmd).1 = .error e := by
  unfold Env.raises at h
  unfold exec
  split at h
  · cases h
  · next e applied he => exact ⟨e, by simp [he]⟩

theorem exec_finishes (w : World) (h : env.raises server u cmd = false) :
    ∃ result, (w.exec env server u cmd).1 = .ok result ∧
      (result.ok = true ↔ env.carries server u cmd (w.nodes server.id) = true) := by
  unfold Env.raises at h
  split at h
  · next result he =>
    unfold exec Env.carries
    by_cases hc : result.exitCode = 0
    · cases hs : (w.nodes server.id).succeed u cmd <;>
        simp [he, hs, hc, CommandResult.ok]
    · exact ⟨result, by simp [he, hc], by simp [he, hc, CommandResult.ok]⟩
  · cases h

end World

/-- The connection that is made next comes about. -/
def Env.connects (env : Env) (w : World) : Bool := (env.connect w.log.length).isOk

/-! The remote steps, run with the record. -/

namespace PanelProg

variable {α : Type} {env : Env} {server : Server} {u : Str} {cmd : Cmd} {w : World}
  {ds : List Deed}

theorem run_accountServer (env : Env) (ds : List Deed) {a : Account} (h : w.db.getServer a.server = some server)
    (k : Server → PanelProg α) :
    (accountServer a >>= k).run (World.recorded env) (w, ds) =
      (k server).run (World.recorded env) (w, ds) := by
  simp [accountServer, orHttp404, World.handler, World.deed, h]

theorem run_connect (server : Server) (ds : List Deed) (h : env.connects w = true) (k : Unit → PanelProg α) :
    (SSHManager.connect server >>= k).run (World.recorded env) (w, ds) =
      (k ()).run (World.recorded env) ((w.connect env server).2, ds) := by
  unfold Env.connects at h
  cases hc : env.connect w.log.length with
  | error e => simp [hc, Except.isOk, Except.toBool] at h
  | ok x => simp [SSHManager.connect, World.handler, World.deed, World.connect, hc]

theorem run_connect_error (server : Server) (ds : List Deed) (h : env.connects w = false)
    (k : Unit → PanelProg α) :
    ∃ e, (SSHManager.connect server >>= k).run (World.recorded env) (w, ds) =
      (.error e, (w.connect env server).2, ds) := by
  unfold Env.connects at h
  cases hc : env.connect w.log.length with
  | error e =>
    exact ⟨e, by simp [SSHManager.connect, World.handler, World.deed,
      World.connect, hc]⟩
  | ok x => simp [hc, Except.isOk, Except.toBool] at h

/-- The record of a command that may have been carried out. -/
def noted (env : Env) (server : Server) (u : Str) (cmd : Cmd) (w : World) (ds : List Deed) :
    List Deed :=
  (World.deed env (.exec server u cmd) w).toList ++ ds

theorem run_command (w : World) (ds : List Deed) (h : env.raises server u cmd = false)
    (k : CommandResult → PanelProg α) :
    ∃ result : CommandResult,
      (result.ok = true ↔ env.carries server u cmd (w.nodes server.id) = true) ∧
      (SSHManager.run server u cmd >>= k).run (World.recorded env) (w, ds) =
        (k result).run (World.recorded env)
          ((w.exec env server u cmd).2, noted env server u cmd w ds) := by
  obtain ⟨result, hr, hok⟩ := World.exec_finishes w h
  refine ⟨⟨result.exitCode, PyString.strip result.stdout, PyString.strip result.stderr⟩, hok, ?_⟩
  simp [SSHManager.run, World.handler, hr, noted]

theorem run_command_raises (w : World) (ds : List Deed) (h : env.raises server u cmd = true)
    (k : CommandResult → PanelProg α) :
    ∃ e, (SSHManager.run server u cmd >>= k).run (World.recorded env) (w, ds) =
      (.error e, (w.exec env server u cmd).2, noted env server u cmd w ds) := by
  obtain ⟨e, he⟩ := World.exec_raises w h
  exact ⟨e, by simp [SSHManager.run, World.handler, he, noted]⟩

theorem run_return {s : World × List Deed} {β : Type} (p : PanelProg β) :
    ((p >>= fun _ => pure ()).run (World.recorded env) s).2 =
      (p.run (World.recorded env) s).2 := by
  rw [run_bind]
  rcases p.run (World.recorded env) s with ⟨x | x, t⟩ <;> rfl

/-- A command is noted whether it raises or not. -/
theorem record_command :
    ((SSHManager.run server u cmd).run (World.recorded env) (w, ds)).2.2 =
      noted env server u cmd w ds := by
  rw [← run_return]
  cases hr : env.raises server u cmd with
  | true =>
    obtain ⟨e, he⟩ := run_command_raises w ds hr fun _ => Prog.ret ()
    exact congrArg (fun r => r.2.2) he
  | false =>
    obtain ⟨result, -, he⟩ := run_command w ds hr fun _ => Prog.ret ()
    exact congrArg (fun r => r.2.2) he

/-- What a program does not do is not in its record. -/
theorem mem_record {p : PanelProg α} {P : Call → Prop} {d : Deed} (hp : p.AllCalls P)
    (hd : ∀ c w, P c → World.deed env c w ≠ some d) :
    d ∈ (p.run (World.recorded env) (w, ds)).2.2 ↔ d ∈ ds := by
  refine hp.run_related
    (r := fun s t : World × List Deed => (d ∈ t.2 ↔ d ∈ s.2)) (fun s => Iff.rfl)
    (fun h h' => h'.trans h) ?_ (w, ds)
  intro c s hc
  cases hs : World.deed env c s.1 with
  | none => simp [Prog.recording, hs]
  | some d' =>
    have hne : d ≠ d' := fun h => hd c s.1 hc (h ▸ hs)
    simp [Prog.recording, hs, hne]

/-- The PAM script is installed without touching a user's own settings. -/
theorem calls_ensureMaxloginScript : (SSHManager.ensureMaxloginScript server u).AllCalls fun c =>
    ∃ cmd, c = .exec server u cmd ∧ cmd.managesScript = true := by
  have hrun : ∀ cmd : Cmd, cmd.managesScript = true → (SSHManager.run server u cmd).AllCalls
      fun c => ∃ cmd, c = .exec server u cmd ∧ cmd.managesScript = true := by
    intro cmd h
    exact ⟨⟨cmd, rfl, h⟩, fun _ => (Prog.allCalls_ofExcept _).bind fun _ => trivial⟩
  refine (hrun _ rfl).bind ?_
  intro check
  split
  · trivial
  · exact (hrun _ rfl).bind fun _ => (hrun _ rfl).bind fun _ => (hrun _ rfl).bind fun _ => trivial

/-- A login limit is written before anything else is done for it. -/
theorem mem_setMaxLogins {n : Int} {d : Deed} (hd : ∀ cmd : Cmd, cmd.managesScript = true →
    d ≠ .ran server.id u cmd) :
    d ∈ ((SSHManager.setMaxLogins server u n).run (World.recorded env) (w, ds)).2.2 ↔
      d ∈ noted env server u (.maxLogins n) w ds := by
  let rest : CommandResult → PanelProg CommandResult := fun _ => do
    SSHManager.ensureMaxloginScript server u
    return ⟨0, [], []⟩
  cases hr : env.raises server u (.maxLogins n) with
  | true =>
    obtain ⟨e, he⟩ := run_command_raises w ds hr rest
    exact iff_of_eq (congrArg (fun r => d ∈ r.2.2) he)
  | false =>
    obtain ⟨result, -, he⟩ := run_command w ds hr rest
    refine (iff_of_eq (congrArg (fun r => d ∈ r.2.2) he)).trans ?_
    refine mem_record (calls_ensureMaxloginScript.bind fun _ => trivial) ?_
    rintro c w' ⟨cmd, rfl, hcmd⟩
    simp only [World.deed]
    split
    · intro h
      exact hd cmd hcmd (Option.some.inj h).symm
    · simp

/-- A step inside `try` keeps what it has done. -/
theorem run_succeeded (env : Env) (s : World × List Deed) (body : PanelProg Unit) (k : Bool → PanelProg α) :
    ∃ b, (succeeded body >>= k).run (World.recorded env) s =
      (k b).run (World.recorded env) (body.run (World.recorded env) s).2 := by
  simp only [succeeded, run_bind, run_handle]
  rcases body.run (World.recorded env) s with ⟨x | x, t⟩
  · exact ⟨false, rfl⟩
  · exact ⟨true, rfl⟩

/-- A request whose failure is only logged. -/
theorem run_logged (env : Env) (server : Server) (w : World) (ds : List Deed) (path : String)
    (data : TokenRequest) (k : Unit → PanelProg α) :
    (logged (ShadowLinkManager.bridgeRequest server "POST" path data) >>= k).run
        (World.recorded env) (w, ds) =
      (k ()).run (World.recorded env)
        ((w.http env server ⟨"POST", path, server.shadowlinkApiKey, some data⟩).2,
          (World.deed env (.http server ⟨"POST", path, server.shadowlinkApiKey, some data⟩)
            w).toList ++ ds) := by
  unfold logged ShadowLinkManager.bridgeRequest
  cases hr : (w.http env server ⟨"POST", path, server.shadowlinkApiKey, some data⟩).1 with
  | error e => cases e <;> simp [World.handler, hr]
  | ok response =>
    by_cases hs : 400 ≤ response.status <;> simp [World.handler, hr, hs]

end PanelProg

end SshPanelVpn.Panel

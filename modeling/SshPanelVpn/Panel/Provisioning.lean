import SshPanelVpn.Panel.Deeds

/-! The commands that set up a Unix user, and what they leave of the user on the node. -/
namespace SshPanelVpn.Panel

open Effects PyString
open Effects.Prog (run_bind run_handle ofExcept)

/-- What a node holds for a name: the user, and the limit in `limits.conf`. -/
structure Login where
  user : UnixUser
  limit : Option Int
  deriving DecidableEq, Repr

/-- The limit of a name on a server after the deeds. `set_max_logins` replaces every line that begins
with the name it is for. -/
def loginLimit (limit : Option Int) (server : Nat) (u : Str) : List Deed → Option Int
  | [] => limit
  | .ran s v (.maxLogins n) :: ds =>
    if s = server ∧ v = u then some n
    else if s = server ∧ v.isPrefixOf u then none
    else loginLimit limit server u ds
  | _ :: ds => loginLimit limit server u ds

/-- The login of a name, from the limit that it had at the start. -/
def loginAt (limit : Option Int) (server : Nat) (u : Str) (s : World × List Deed) : Option Login :=
  ((s.1.nodes server).users.lookup u).map fun user => ⟨user, loginLimit limit server u s.2⟩

/-- The commands that leave every user and every limit as they are. -/
def Cmd.neutral : Cmd → Bool
  | .useradd => false
  | .chpasswd _ => false
  | .userdel => false
  | .usermodLock => false
  | .usermodUnlock => false
  | .chage _ => false
  | .maxLogins _ => false
  | _ => true

theorem Node.succeed_neutral {cmd : Cmd} (h : cmd.neutral = true) (n : Node) (u : Str) :
    n.succeed u cmd = some n := by
  cases cmd <;> first | rfl | cases h

namespace Env

variable (env : Env) (server : Server) (u : Str)

/-- An exception in `_ensure_maxlogin_script`. -/
def scriptRaises : Bool :=
  match env.exec server u .checkMaxloginScript with
  | .raised _ _ => true
  | .finished check =>
    !contains "ok".toList (strip check.stdout) &&
      (env.raises server u .installMaxloginScript || env.raises server u .chmodMaxloginScript ||
        env.raises server u .pamMaxloginScript)

/-- An exception in `setup_traffic_accounting`. -/
def trafficRaises : Bool :=
  match env.exec server u .idUser with
  | .raised _ _ => true
  | .finished result =>
    let uid := strip (strip result.stdout)
    !(uid = [] ∨ isdigit uid = false) &&
      match env.exec server u .chainList with
      | .raised _ _ => true
      | .finished present =>
        present.exitCode ≠ 0 && (env.raises server u .chainNew ||
          env.raises server u (.chainJump uid) || env.raises server u .chainReturn)

/-- The node after a command, whatever the panel hears of it. -/
def after (cmd : Cmd) (n : Node) : Node :=
  if env.carries server u cmd n then (n.succeed u cmd).getD n else n

end Env

section Steps

variable {α : Type} {env : Env} {server : Server} {u : Str} {cmd : Cmd} {w : World}
  {ds : List Deed} {limit : Option Int}

theorem World.exec_nodes : (w.exec env server u cmd).2.nodes =
    Function.update w.nodes server.id (env.after server u cmd (w.nodes server.id)) := by
  rw [World.nodes_exec]
  unfold Env.after
  split
  · rfl
  · exact (Function.update_eq_self _ _).symm

/-- The state after a command and its record. -/
def stepped (env : Env) (server : Server) (u : Str) (cmd : Cmd) (s : World × List Deed) :
    World × List Deed :=
  ((s.1.exec env server u cmd).2, PanelProg.noted env server u cmd s.1 s.2)

/-- A neutral command leaves the login. -/
theorem loginAt_neutral (h : cmd.neutral = true) (s : World × List Deed) :
    loginAt limit server.id u (stepped env server u cmd s) = loginAt limit server.id u s := by
  have hnode : env.after server u cmd (s.1.nodes server.id) = s.1.nodes server.id := by
    simp [Env.after, Node.succeed_neutral h]
  have hlimit : loginLimit limit server.id u (stepped env server u cmd s).2 =
      loginLimit limit server.id u s.2 := by
    simp only [stepped, PanelProg.noted, World.deed]
    split
    · cases cmd <;> first | rfl | cases h
    · rfl
  unfold loginAt
  rw [hlimit]
  simp only [stepped, World.exec_nodes, hnode, Function.update_self]

/-- `chage` sets the end of the user that is there. -/
theorem loginAt_chage (date : Str) (s : World × List Deed) :
    loginAt limit server.id u (stepped env server u (.chage date) s) =
      (loginAt limit server.id u s).map fun l =>
        if env.carries server u (.chage date) (s.1.nodes server.id) then
          { l with user := { l.user with expiry := some date } } else l := by
  have hlimit : loginLimit limit server.id u (stepped env server u (.chage date) s).2 =
      loginLimit limit server.id u s.2 := by
    simp only [stepped, PanelProg.noted, World.deed]
    split <;> rfl
  have hnode : (stepped env server u (.chage date) s).1.nodes server.id =
      env.after server u (.chage date) (s.1.nodes server.id) := by
    simp only [stepped, World.exec_nodes, Function.update_self]
  unfold loginAt
  rw [hlimit, hnode]
  unfold Env.after
  cases hu : (s.1.nodes server.id).users.lookup u with
  | none => simp [Env.carries, Node.succeed, Node.modifyUser, hu]
  | some user =>
    split
    · simp [Node.succeed, Node.modifyUser, hu]
    · simp [hu]

/-- The limit is written whether the user is there or not. -/
theorem loginAt_maxLogins (n : Int) (s : World × List Deed) :
    loginAt limit server.id u (stepped env server u (.maxLogins n) s) =
      (loginAt limit server.id u s).map fun l =>
        if env.carries server u (.maxLogins n) (s.1.nodes server.id) then
          { l with limit := some n } else l := by
  have hnode : (stepped env server u (.maxLogins n) s).1.nodes server.id = s.1.nodes server.id := by
    simp only [stepped, World.exec_nodes, Function.update_self]
    simp [Env.after, Node.succeed]
  have hlimit : loginLimit limit server.id u (stepped env server u (.maxLogins n) s).2 =
      if env.carries server u (.maxLogins n) (s.1.nodes server.id) then some n
      else loginLimit limit server.id u s.2 := by
    simp only [stepped, PanelProg.noted, World.deed]
    split
    · simp [loginLimit]
    · rfl
  unfold loginAt
  rw [hlimit, hnode, Option.map_map]
  split <;> rfl

theorem run_finishes (s : World × List Deed) (h : env.raises server u cmd = false)
    (k : CommandResult → PanelProg α) :
    ∃ result : CommandResult,
      (result.ok = true ↔ env.carries server u cmd (s.1.nodes server.id) = true) ∧
      (SSHManager.run server u cmd >>= k).run (World.recorded env) s =
        (k result).run (World.recorded env) (stepped env server u cmd s) :=
  PanelProg.run_command s.1 s.2 h k

theorem run_raises (s : World × List Deed) (h : env.raises server u cmd = true)
    (k : CommandResult → PanelProg α) :
    ∃ e, (SSHManager.run server u cmd >>= k).run (World.recorded env) s =
      (.error e, stepped env server u cmd s) :=
  PanelProg.run_command_raises s.1 s.2 h k

/-- The result of a neutral command comes from the node as it is. -/
theorem run_neutral (s : World × List Deed) (hn : cmd.neutral = true) {result : CommandResult}
    (h : env.exec server u cmd = .finished result) (k : CommandResult → PanelProg α) :
    (SSHManager.run server u cmd >>= k).run (World.recorded env) s =
      (k ⟨result.exitCode, strip result.stdout, strip result.stderr⟩).run (World.recorded env)
        (stepped env server u cmd s) := by
  have hexec : (s.1.exec env server u cmd).1 = .ok result := by
    unfold World.exec
    by_cases hc : result.exitCode = 0 <;> simp [h, hc, Node.succeed_neutral hn]
  simp [SSHManager.run, World.handler, Prog.recording, hexec, stepped, PanelProg.noted]

/-- What is run for its effect alone fails where it raises. -/
theorem isOk_run_then (s : World × List Deed) (p : PanelProg α) {b : Bool}
    (hp : ∀ t, (p.run (World.recorded env) t).1.isOk = b) :
    ((SSHManager.run server u cmd >>= fun _ => p).run (World.recorded env) s).1.isOk =
      (!env.raises server u cmd && b) := by
  cases hr : env.raises server u cmd with
  | true =>
    obtain ⟨e, he⟩ := run_raises s hr fun _ => p
    rw [he]
    rfl
  | false =>
    obtain ⟨result, -, he⟩ := run_finishes s hr fun _ => p
    rw [he, hp]
    rfl

theorem isOk_ensureMaxloginScript (s : World × List Deed) :
    ((SSHManager.ensureMaxloginScript server u).run (World.recorded env) s).1.isOk =
      !env.scriptRaises server u := by
  unfold SSHManager.ensureMaxloginScript Env.scriptRaises
  cases he : env.exec server u .checkMaxloginScript with
  | raised e applied =>
    have hr : env.raises server u .checkMaxloginScript = true := by simp [Env.raises, he]
    obtain ⟨x, hx⟩ := run_raises s hr _
    rw [hx]
    rfl
  | finished check =>
    rw [run_neutral s rfl he]
    dsimp only
    split
    · next hok =>
      rw [hok]
      rfl
    · next hok =>
      rw [isOk_run_then _ _ fun _ => isOk_run_then _ _ fun _ => isOk_run_then _ _ fun _ => rfl,
        eq_false_of_ne_true hok]
      simp [Bool.and_assoc]

theorem isOk_setupTrafficAccounting (s : World × List Deed) :
    ((SSHManager.setupTrafficAccounting server u).run (World.recorded env) s).1.isOk =
      !env.trafficRaises server u := by
  unfold SSHManager.setupTrafficAccounting Env.trafficRaises
  cases he : env.exec server u .idUser with
  | raised e applied =>
    have hr : env.raises server u .idUser = true := by simp [Env.raises, he]
    obtain ⟨x, hx⟩ := run_raises s hr _
    rw [hx]
    rfl
  | finished result =>
    rw [run_neutral s rfl he]
    dsimp only
    split
    · next huid =>
      simp only [huid, decide_true, Bool.not_true, Bool.false_and, Bool.not_false]
      rfl
    · next huid =>
      simp only [huid, decide_false, Bool.not_false, Bool.true_and]
      cases hl : env.exec server u .chainList with
      | raised e applied =>
        have hr : env.raises server u .chainList = true := by simp [Env.raises, hl]
        obtain ⟨x, hx⟩ := run_raises (stepped env server u .idUser s) hr _
        rw [hx]
        rfl
      | finished present =>
        rw [run_neutral _ rfl hl]
        dsimp only
        split
        · next hcode =>
          rw [isOk_run_then _ _ fun _ => isOk_run_then _ _ fun _ => isOk_run_then _ _ fun _ => rfl]
          simp [hcode, Bool.and_assoc]
        · next hcode =>
          rw [not_not.mp hcode]
          rfl

/-- A program that runs neutral commands for the name only. -/
abbrev Settled (server : Server) (u : Str) (p : PanelProg α) : Prop :=
  p.AllCalls fun c => ∃ cmd : Cmd, c = .exec server u cmd ∧ cmd.neutral = true

theorem settled_run (h : cmd.neutral = true) : Settled server u (SSHManager.run server u cmd) :=
  ⟨⟨cmd, rfl, h⟩, fun _ => (Prog.allCalls_ofExcept _).bind fun _ => trivial⟩

theorem settled_ensureMaxloginScript : Settled server u (SSHManager.ensureMaxloginScript server u) := by
  refine (settled_run rfl).bind ?_
  intro check
  split
  · trivial
  · exact (settled_run rfl).bind fun _ => (settled_run rfl).bind fun _ =>
      (settled_run rfl).bind fun _ => trivial

theorem settled_setupTrafficAccounting :
    Settled server u (SSHManager.setupTrafficAccounting server u) := by
  refine (settled_run rfl).bind ?_
  intro result
  dsimp only
  split
  · trivial
  · refine (settled_run rfl).bind ?_
    intro present
    split
    · exact (settled_run rfl).bind fun _ => (settled_run rfl).bind fun _ =>
        (settled_run rfl).bind fun _ => trivial
    · trivial

theorem loginAt_settled {p : PanelProg α} (hp : Settled server u p) (s : World × List Deed) :
    loginAt limit server.id u (p.run (World.recorded env) s).2 = loginAt limit server.id u s := by
  refine hp.run_related (r := fun s t => loginAt limit server.id u t = loginAt limit server.id u s)
    (fun _ => rfl) (fun h h' => h'.trans h) ?_ s
  rintro c t ⟨cmd, rfl, hcmd⟩
  exact loginAt_neutral hcmd t

theorem isOk_then {β : Type} {p : PanelProg α} {q : PanelProg β} (s : World × List Deed) {b b' : Bool}
    (hp : (p.run (World.recorded env) s).1.isOk = b)
    (hq : ∀ t, (q.run (World.recorded env) t).1.isOk = b') :
    ((p >>= fun _ => q).run (World.recorded env) s).1.isOk = (b && b') := by
  rw [run_bind]
  rcases hr : p.run (World.recorded env) s with ⟨x | x, t⟩
  · rw [hr] at hp
    rw [← hp]
    rfl
  · rw [hr] at hp
    rw [← hp, hq]
    rfl

/-- `set_max_logins`, and what follows without touching the login. -/
theorem run_limit (limit : Option Int) (s : World × List Deed) (maxLogins : Int) {rest : PanelProg α}
    (hrest : Settled server u rest) {b : Bool}
    (hok : ∀ t, (rest.run (World.recorded env) t).1.isOk = b) :
    let r := (SSHManager.setMaxLogins server u maxLogins >>= fun _ => rest).run
      (World.recorded env) s
    r.1.isOk = (!env.raises server u (.maxLogins maxLogins) && (!env.scriptRaises server u && b)) ∧
      loginAt limit server.id u r.2 = (loginAt limit server.id u s).map fun l =>
        if env.carries server u (.maxLogins maxLogins) (s.1.nodes server.id) then
          { l with limit := some maxLogins } else l := by
  let script : PanelProg α := SSHManager.ensureMaxloginScript server u >>= fun _ => rest
  have hscript : Settled server u script := settled_ensureMaxloginScript.bind fun _ => hrest
  have hprog : (SSHManager.setMaxLogins server u maxLogins >>= fun _ => rest) =
      (SSHManager.run server u (.maxLogins maxLogins) >>= fun _ => script) := by
    simp [SSHManager.setMaxLogins, Prog.bind_bind, script]
  intro r
  have hr : r = (SSHManager.run server u (.maxLogins maxLogins) >>= fun _ => script).run
      (World.recorded env) s := congrArg (fun p => Prog.run (World.recorded env) p s) hprog
  constructor
  · rw [hr]
    exact isOk_run_then s _ fun t => isOk_then t (isOk_ensureMaxloginScript t) hok
  · rw [← loginAt_maxLogins, hr]
    cases hm : env.raises server u (.maxLogins maxLogins) with
    | true =>
      obtain ⟨e, he⟩ := run_raises s hm fun _ => script
      rw [he]
    | false =>
      obtain ⟨result, -, he⟩ := run_finishes s hm fun _ => script
      rw [he]
      exact loginAt_settled hscript _

/-- A login once its end and its limit have been set, as far as the node carries that out. -/
def Login.settle (env : Env) (server : Server) (u date : Str) (maxLogins : Int) (n : Node)
    (l : Login) : Login :=
  let dated : Login :=
    if env.carries server u (.chage date) n then { l with user := { l.user with expiry := some date } }
    else l
  if env.raises server u (.chage date) then dated
  else if env.carries server u (.maxLogins maxLogins) n then { dated with limit := some maxLogins }
  else dated

/-- `set_expiry` and `set_max_logins`, and what follows without touching the login. -/
theorem run_settle (limit : Option Int) (s : World × List Deed) (date : Str) (maxLogins : Int)
    {rest : PanelProg α} (hrest : Settled server u rest) {b : Bool}
    (hok : ∀ t, (rest.run (World.recorded env) t).1.isOk = b) :
    let r := (do
      let _ ← SSHManager.setExpiry server u date
      let _ ← SSHManager.setMaxLogins server u maxLogins
      rest : PanelProg α).run (World.recorded env) s
    r.1.isOk = (!env.raises server u (.chage date) &&
        (!env.raises server u (.maxLogins maxLogins) && (!env.scriptRaises server u && b))) ∧
      loginAt limit server.id u r.2 = (loginAt limit server.id u s).map
        (Login.settle env server u date maxLogins (s.1.nodes server.id)) := by
  intro r
  constructor
  · exact isOk_run_then s _ fun t => (run_limit limit t maxLogins hrest hok).1
  · cases hr : env.raises server u (.chage date) with
    | true =>
      obtain ⟨e, he⟩ := run_raises s hr fun _ => (do
        let _ ← SSHManager.setMaxLogins server u maxLogins
        rest : PanelProg α)
      have hr' : r = (.error e, stepped env server u (.chage date) s) := he
      rw [hr', loginAt_chage]
      congr 1
      funext l
      simp only [Login.settle, hr, if_true]
    | false =>
      obtain ⟨result, -, he⟩ := run_finishes s hr fun _ => (do
        let _ ← SSHManager.setMaxLogins server u maxLogins
        rest : PanelProg α)
      have hr' : r = _ := he
      rw [hr', (run_limit limit _ maxLogins hrest hok).2, loginAt_chage, Option.map_map]
      congr 1
      funext l
      simp only [Login.settle, hr, Bool.false_eq_true, if_false]
      rfl

/-- An exception after the password has been set. -/
def Env.setUpRaises (env : Env) (server : Server) (u date : Str) (maxConn bwLimit : Nat) : Bool :=
  env.raises server u (.chage date) || env.raises server u (.maxLogins maxConn) ||
    env.scriptRaises server u || (0 < bwLimit && env.trafficRaises server u)

/-- How far the commands for a new user get, before what is done with their result. -/
theorem run_newUser (s : World × List Deed) (password : Str) (k : CommandResult → PanelProg α) :
    let r := (do
      SSHManager.connect server
      let result ← SSHManager.createUser server u password
      k result : PanelProg α).run (World.recorded env) s
    let s₀ : World × List Deed := ((s.1.connect env server).2, s.2)
    let s₁ := stepped env server u .useradd s₀
    let s₂ := stepped env server u (.chpasswd password) s₁
    (env.connects s.1 = false ∧ r.1.isOk = false ∧ r.2 = s₀) ∨
      env.connects s.1 = true ∧
        ((env.raises server u .useradd = true ∧ r.1.isOk = false ∧ r.2 = s₁) ∨
          env.raises server u .useradd = false ∧
            ((env.raises server u (.chpasswd password) = true ∧ r.1.isOk = false ∧ r.2 = s₂) ∨
              env.raises server u (.chpasswd password) = false ∧ ∃ result : CommandResult,
                (result.ok = true ↔
                  env.carries server u (.chpasswd password) (s₁.1.nodes server.id) = true) ∧
                r = (k result).run (World.recorded env) s₂)) := by
  intro r s₀ s₁ s₂
  let added : CommandResult → PanelProg α := fun _ => do
    let result ← SSHManager.run server u (.chpasswd password)
    k result
  have hprog : (do
      SSHManager.connect server
      let result ← SSHManager.createUser server u password
      k result : PanelProg α) = (do
        SSHManager.connect server
        let x ← SSHManager.run server u .useradd
        added x) := by
    simp only [SSHManager.createUser, Prog.bind_bind, added]
  have hr : r = _ := congrArg (fun p => Prog.run (World.recorded env) p s) hprog
  cases hc : env.connects s.1 with
  | false =>
    obtain ⟨e, he⟩ := PanelProg.run_connect_error server s.2 hc fun _ => (do
      let x ← SSHManager.run server u .useradd
      added x)
    rw [hr, he]
    exact .inl ⟨rfl, rfl, rfl⟩
  | true =>
    refine .inr ⟨rfl, ?_⟩
    have hconnect := PanelProg.run_connect server s.2 hc fun _ => (do
      let x ← SSHManager.run server u .useradd
      added x)
    cases hu : env.raises server u .useradd with
    | true =>
      obtain ⟨e, he⟩ := run_raises s₀ hu added
      rw [hr.trans (hconnect.trans he)]
      exact .inl ⟨rfl, rfl, rfl⟩
    | false =>
      refine .inr ⟨rfl, ?_⟩
      obtain ⟨x, -, hadd⟩ := run_finishes s₀ hu added
      cases hp : env.raises server u (.chpasswd password) with
      | true =>
        obtain ⟨e, he⟩ := run_raises s₁ hp k
        rw [hr.trans (hconnect.trans (hadd.trans he))]
        exact .inl ⟨rfl, rfl, rfl⟩
      | false =>
        obtain ⟨result, hok, he⟩ := run_finishes s₁ hp k
        exact .inr ⟨rfl, result, hok, hr.trans (hconnect.trans (hadd.trans he))⟩

/-- `_provision_ssh_account`: where it stops, and what login it leaves. -/
theorem run_provisionSshAccount (env : Env) (server : Server) (u : Str) (s : World × List Deed)
    (password : Str) (date : DateTime) (maxConn bwLimit : Nat) :
    let r := (provisionSshAccount server u password date maxConn bwLimit).run
      (World.recorded env) s
    let s₀ : World × List Deed := ((s.1.connect env server).2, s.2)
    let s₁ := stepped env server u .useradd s₀
    let s₂ := stepped env server u (.chpasswd password) s₁
    let set := env.carries server u (.chpasswd password) (s₁.1.nodes server.id)
    (env.connects s.1 = false ∧ r.1.isOk = false ∧ r.2 = s₀) ∨
      env.connects s.1 = true ∧
        ((env.raises server u .useradd = true ∧ r.1.isOk = false ∧ r.2 = s₁) ∨
          env.raises server u .useradd = false ∧
            (((env.raises server u (.chpasswd password) = true ∨ set = false) ∧
                r.1.isOk = false ∧ r.2 = s₂) ∨
              (env.raises server u (.chpasswd password) = false ∧ set = true ∧
                r.1.isOk = !env.setUpRaises server u date.isoDate maxConn bwLimit ∧
                ∀ limit, loginAt limit server.id u r.2 = (loginAt limit server.id u s₂).map
                  (Login.settle env server u date.isoDate maxConn (s₂.1.nodes server.id))))) := by
  intro r s₀ s₁ s₂ set
  let traffic : PanelProg Unit :=
    if 0 < bwLimit then SSHManager.setupTrafficAccounting server u else return ()
  let check : CommandResult → PanelProg Unit := fun result =>
    if result.ok = false then
      .raise (.accountError ("Remote user creation failed: ".toList ++ result.stderr))
    else do
      let _ ← SSHManager.setExpiry server u date.isoDate
      let _ ← SSHManager.setMaxLogins server u maxConn
      traffic
  have htraffic : Settled server u traffic := by
    simp only [traffic]
    split
    · exact settled_setupTrafficAccounting
    · trivial
  have htrafficOk : ∀ t, (traffic.run (World.recorded env) t).1.isOk =
      !(0 < bwLimit && env.trafficRaises server u) := by
    intro t
    simp only [traffic]
    split
    · next hbw => simp [isOk_setupTrafficAccounting, hbw]
    · next hbw =>
      simp only [hbw, decide_false, Bool.false_and, Bool.not_false]
      rfl
  rcases run_newUser s password check with ⟨hc, hok, hend⟩ | ⟨hc, ⟨hu, hok, hend⟩ | ⟨hu,
    ⟨hp, hok, hend⟩ | ⟨hp, result, hresult, hend⟩⟩⟩
  · exact .inl ⟨hc, hok, hend⟩
  · exact .inr ⟨hc, .inl ⟨hu, hok, hend⟩⟩
  · exact .inr ⟨hc, .inr ⟨hu, .inl ⟨.inl hp, hok, hend⟩⟩⟩
  · refine .inr ⟨hc, .inr ⟨hu, ?_⟩⟩
    have hr : r = (check result).run (World.recorded env) s₂ := hend
    cases hset : set with
    | false =>
      have hbad : result.ok = false := by
        cases hres : result.ok with
        | false => rfl
        | true => exact absurd (hset.symm.trans (hresult.mp hres)) Bool.false_ne_true
      simp only [check, hbad, if_true] at hr
      rw [hr]
      exact .inl ⟨.inr rfl, rfl, rfl⟩
    | true =>
      have hgood : result.ok = true := hresult.mpr hset
      simp only [check, hgood, Bool.true_eq_false, if_false] at hr
      refine .inr ⟨hp, rfl, ?_, fun limit => ?_⟩
      · rw [hr, (run_settle none s₂ date.isoDate maxConn htraffic htrafficOk).1]
        simp [Env.setUpRaises, Bool.and_assoc]
      · rw [hr]
        exact (run_settle limit s₂ date.isoDate maxConn htraffic htrafficOk).2

end Steps

end SshPanelVpn.Panel

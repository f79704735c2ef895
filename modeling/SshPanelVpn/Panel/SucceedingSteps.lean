import SshPanelVpn.Panel.PasswordLines
import SshPanelVpn.Panel.Rebalance
import SshPanelVpn.Panel.ShadowLinkAccounts

/-! Runs in which every remote step succeeds, and what setting up a user does to the logins then. -/
namespace SshPanelVpn.Panel

open Effects ShadowLink
open Effects.Prog (run_bind)

/-- A connection that came about, a command that exited with 0, or a request that was granted. -/
def Event.succeeded : Event → Bool
  | .connected _ ok => ok
  | .ran _ _ _ exitCode => exitCode = some 0
  | .asked _ _ status => status.any fun code => code < 400

/-- No remote step has failed. -/
def World.AllSucceeded (w : World) : Prop := ∀ e ∈ w.log, e.succeeded = true

variable {α β : Type} {env : Env} {server : Server} {u : Str} {cmd : Cmd} {w : World}
  {s : World × List Deed}

theorem log_run (env : Env) (p : PanelProg α) (s : World × List Deed) :
    s.1.log <:+ (p.run (World.recorded env) s).2.1.log := by
  refine Prog.run_invariant (I := fun t : World × List Deed => s.1.log <:+ t.1.log) ?_ p
    (List.suffix_refl _)
  intro c t h
  exact h.trans (World.log_handler env c t.1)

theorem World.AllSucceeded.before {p : PanelProg α}
    (h : (p.run (World.recorded env) s).2.1.AllSucceeded) : s.1.AllSucceeded :=
  fun e he => h e ((log_run env p s).mem he)

/-- A command that succeeds is carried out, and raises nothing. -/
theorem carries_of_succeeded (h : (w.exec env server u cmd).2.AllSucceeded) :
    env.raises server u cmd = false ∧ env.carries server u cmd (w.nodes server.id) = true := by
  unfold World.exec at h
  unfold Env.raises Env.carries
  cases he : env.exec server u cmd with
  | raised e applied =>
    simp only [he] at h
    exact absurd (h _ List.mem_cons_self) (by simp [Event.succeeded])
  | finished result =>
    simp only [he] at h
    by_cases hcode : result.exitCode = 0
    · cases hs : (w.nodes server.id).succeed u cmd with
      | none =>
        simp only [hcode, if_true, hs] at h
        exact absurd (h _ List.mem_cons_self) (by simp [Event.succeeded])
      | some n => simp [hcode]
    · simp only [hcode, if_false] at h
      exact absurd (h _ List.mem_cons_self) (by simp [Event.succeeded, hcode])

theorem run_of_succeeded {k : CommandResult → PanelProg α}
    (h : ((SSHManager.run server u cmd >>= k).run (World.recorded env) s).2.1.AllSucceeded) :
    env.carries server u cmd (s.1.nodes server.id) = true ∧
      ∃ result, (SSHManager.run server u cmd >>= k).run (World.recorded env) s =
        (k result).run (World.recorded env) (stepped env server u cmd s) := by
  have hstep : (stepped env server u cmd s).1.AllSucceeded := by
    cases hr : env.raises server u cmd with
    | true =>
      obtain ⟨e, he⟩ := run_raises s hr k
      rw [he] at h
      exact h
    | false =>
      obtain ⟨result, -, he⟩ := run_finishes s hr k
      rw [he] at h
      exact h.before
  obtain ⟨hr, hc⟩ := carries_of_succeeded hstep
  obtain ⟨result, -, he⟩ := run_finishes s hr k
  exact ⟨hc, result, he⟩

theorem run_connect_of_succeeded {k : Unit → PanelProg α}
    (h : ((SSHManager.connect server >>= k).run (World.recorded env) s).2.1.AllSucceeded) :
    (SSHManager.connect server >>= k).run (World.recorded env) s =
      (k ()).run (World.recorded env) ((s.1.connect env server).2, s.2) := by
  cases hc : env.connects s.1 with
  | true => exact PanelProg.run_connect server s.2 hc k
  | false =>
    obtain ⟨e, he⟩ := PanelProg.run_connect_error server s.2 hc k
    rw [he] at h
    have hfailed : (s.1.connect env server).2.log = .connected server.id false :: s.1.log := by
      unfold Env.connects at hc
      unfold World.connect
      cases hx : env.connect s.1.log.length with
      | ok x => simp [hx, Except.isOk, Except.toBool] at hc
      | error e => rfl
    have hbad := h (.connected server.id false) (hfailed ▸ List.mem_cons_self)
    cases hbad

/-! Programs that return where every step succeeds. -/

/-- Only a step that fails makes the program raise. -/
def Returns (env : Env) (p : PanelProg α) : Prop :=
  ∀ s, (p.run (World.recorded env) s).2.1.AllSucceeded → (p.run (World.recorded env) s).1.isOk = true

theorem Returns.pure (a : α) : Returns env (pure a) := fun _ _ => rfl

theorem Returns.bind {p : PanelProg α} {f : α → PanelProg β} (hp : Returns env p)
    (hf : ∀ a, Returns env (f a)) : Returns env (p >>= f) := by
  intro s h
  rcases hr : p.run (World.recorded env) s with ⟨e | a, t⟩
  · rw [Prog.run_bind_error hr] at h
    have hok := hp s (hr ▸ h)
    rw [hr] at hok
    cases hok
  · rw [Prog.run_bind_ok hr] at h ⊢
    exact hf a t h

theorem Returns.run {k : CommandResult → PanelProg α} (hk : ∀ result, Returns env (k result)) :
    Returns env (SSHManager.run server u cmd >>= k) := by
  intro s h
  obtain ⟨-, result, he⟩ := run_of_succeeded h
  rw [he] at h ⊢
  exact hk result _ h

theorem returns_ensureMaxloginScript : Returns env (SSHManager.ensureMaxloginScript server u) := by
  refine Returns.run fun check => ?_
  split
  · exact .pure _
  · exact .run fun _ => .run fun _ => .run fun _ => .pure _

/-! The logins, the limits and the bridges after a command. -/

theorem loginLimit_stepped (h : ∀ n, cmd ≠ .maxLogins n) (limit : Option Int) (i : Nat) (v : Str) :
    loginLimit limit i v (stepped env server u cmd s).2 = loginLimit limit i v s.2 := by
  simp only [stepped, PanelProg.noted, World.deed]
  split
  · cases cmd <;> first | rfl | exact (h _ rfl).elim
  · rfl

theorem loginLimit_maxLogins {n : Int} (h : env.carries server u (.maxLogins n) (s.1.nodes server.id) = true)
    (limit : Option Int) (i : Nat) (v : Str) :
    loginLimit limit i v (stepped env server u (.maxLogins n) s).2 =
      if server.id = i ∧ u = v then some n
      else if server.id = i ∧ u.isPrefixOf v then none else loginLimit limit i v s.2 := by
  simp only [stepped, PanelProg.noted, World.deed, h, if_true]
  rfl

/-- What is run for the name without touching users or limits. -/
theorem settled_keeps (env : Env) {p : PanelProg α} (hp : Settled server u p) (s : World × List Deed) :
    (p.run (World.recorded env) s).2.1.nodes = s.1.nodes ∧
      ∀ limit i v, loginLimit limit i v (p.run (World.recorded env) s).2.2 =
        loginLimit limit i v s.2 := by
  refine hp.run_related (r := fun s t : World × List Deed => t.1.nodes = s.1.nodes ∧
    ∀ limit i v, loginLimit limit i v t.2 = loginLimit limit i v s.2)
    (fun _ => ⟨rfl, fun _ _ _ => rfl⟩)
    (fun h h' => ⟨h'.1.trans h.1, fun l i v => (h'.2 l i v).trans (h.2 l i v)⟩) ?_ s
  rintro c t ⟨cmd, rfl, hcmd⟩
  refine ⟨?_, fun l i v => loginLimit_stepped ?_ l i v⟩
  · have hnode : env.after server u cmd (t.1.nodes server.id) = t.1.nodes server.id := by
      simp [Env.after, Node.succeed_neutral hcmd]
    exact World.exec_nodes.trans (by rw [hnode, Function.update_eq_self])
  · rintro n rfl
    cases hcmd

/-- The node after a command that is carried out. -/
theorem node_stepped {n : Node} (h : env.carries server u cmd (s.1.nodes server.id) = true)
    (hn : (s.1.nodes server.id).succeed u cmd = some n) :
    (stepped env server u cmd s).1.nodes server.id = n := by
  simp only [stepped, World.exec_nodes, Function.update_self, Env.after, h, if_true, hn,
    Option.getD_some]

theorem succeed_of_carries {n : Node} (h : env.carries server u cmd n = true) :
    ∃ n', n.succeed u cmd = some n' :=
  Option.isSome_iff_exists.mp (Bool.and_eq_true_iff.mp h).1

/-- Only the users of one name have changed on the nodes. -/
def OnlyUser (server : Nat) (u : Str) (s t : World × List Deed) : Prop :=
  ∀ i, (t.1.nodes i).bridge = (s.1.nodes i).bridge ∧ ∀ v, (i = server → v ≠ u) →
    (t.1.nodes i).users.lookup v = (s.1.nodes i).users.lookup v

theorem OnlyUser.refl (server : Nat) (u : Str) (s : World × List Deed) : OnlyUser server u s s :=
  fun _ => ⟨rfl, fun _ _ => rfl⟩

theorem OnlyUser.trans {i : Nat} {s t t' : World × List Deed} (h : OnlyUser i u s t)
    (h' : OnlyUser i u t t') : OnlyUser i u s t' :=
  fun j => ⟨(h' j).1.trans (h j).1, fun v hv => ((h' j).2 v hv).trans ((h j).2 v hv)⟩

/-- `chpasswd` reads one line, for the user it is meant for. -/
def PlainPassword (u password : Str) : Prop := chpasswdEntries u password = some [(u, password)]

theorem plainPassword (hu : '\n' ∉ u) (hc : ':' ∉ u) {password : Str} (hp : '\n' ∉ password) :
    PlainPassword u password := by
  have hline : '\n' ∉ u ++ ":".toList ++ password := by simp [hu, hp]
  have hentry : chpasswdEntry (u ++ ":".toList ++ password) = some (u, password) := by
    simpa using (chpasswdEntry_colon u password).mpr hc
  unfold PlainPassword chpasswdEntries
  rw [PyString.splitOn_of_not_mem hline]
  simp only [List.mapM_cons, hentry, List.mapM_nil]
  rfl

theorem lookup_succeed_other {n n' : Node} {v : Str} (h : n.succeed u cmd = some n')
    (hplain : ∀ password, cmd = .chpasswd password → PlainPassword u password) (hv : v ≠ u) :
    n'.users.lookup v = n.users.lookup v := by
  have hmodify : ∀ {f : UnixUser → UnixUser}, n.modifyUser u f = some n' →
      n'.users.lookup v = n.users.lookup v := by
    intro f hf
    obtain ⟨user, -, rfl⟩ := Option.map_eq_some_iff.mp hf
    simp [hv]
  cases cmd with
  | useradd =>
    simp only [Node.succeed] at h
    split at h
    · cases h
    · cases h
      simp [hv]
  | chpasswd password =>
    have hentries : chpasswdEntries u password = some [(u, password)] := hplain password rfl
    simp only [Node.succeed, hentries, Node.setPasswords] at h
    split at h
    · next m hm =>
      cases h
      exact hmodify hm
    · cases h
  | userdel =>
    obtain ⟨user, -, rfl⟩ := Option.map_eq_some_iff.mp h
    simp [hv]
  | usermodLock => exact hmodify h
  | usermodUnlock => exact hmodify h
  | chage date => exact hmodify h
  | _ =>
    cases h
    rfl

theorem onlyUser_stepped (hplain : ∀ password, cmd = .chpasswd password → PlainPassword u password)
    (s : World × List Deed) : OnlyUser server.id u s (stepped env server u cmd s) := by
  intro i
  by_cases hi : i = server.id
  · subst hi
    have hnode : (stepped env server u cmd s).1.nodes server.id =
        env.after server u cmd (s.1.nodes server.id) := by
      simp only [stepped, World.exec_nodes, Function.update_self]
    rw [hnode]
    unfold Env.after
    split
    · next hc =>
      obtain ⟨n', hn'⟩ := succeed_of_carries hc
      rw [hn', Option.getD_some]
      exact ⟨Node.succeed_bridge hn', fun v hv => lookup_succeed_other hn' hplain (hv rfl)⟩
    · exact ⟨rfl, fun _ _ => rfl⟩
  · have hnode : (stepped env server u cmd s).1.nodes i = s.1.nodes i := by
      simp only [stepped, World.exec_nodes, Function.update_of_ne hi]
    rw [hnode]
    exact ⟨rfl, fun _ _ => rfl⟩

/-! The commands for a new user. -/

theorem lookup_useradd (h : env.carries server u .useradd (s.1.nodes server.id) = true) :
    ((stepped env server u .useradd s).1.nodes server.id).users.lookup u = some ⟨none, true, none⟩ := by
  obtain ⟨n, hn⟩ := succeed_of_carries h
  rw [node_stepped h hn]
  simp only [Node.succeed] at hn
  split at hn
  · cases hn
  · cases hn
    simp

theorem lookup_chpasswd {password : Str} {user : UnixUser} (hplain : PlainPassword u password)
    (hu : (s.1.nodes server.id).users.lookup u = some user)
    (h : env.carries server u (.chpasswd password) (s.1.nodes server.id) = true) :
    ((stepped env server u (.chpasswd password) s).1.nodes server.id).users.lookup u =
      some { user with password := some password, locked := false } := by
  obtain ⟨n, hn⟩ := succeed_of_carries h
  rw [node_stepped h hn]
  unfold PlainPassword at hplain
  simp only [Node.succeed, hplain, Node.setPasswords, Node.modifyUser, hu, Option.map_some] at hn
  cases hn
  simp

theorem lookup_chage {date : Str} {user : UnixUser}
    (hu : (s.1.nodes server.id).users.lookup u = some user)
    (h : env.carries server u (.chage date) (s.1.nodes server.id) = true) :
    ((stepped env server u (.chage date) s).1.nodes server.id).users.lookup u =
      some { user with expiry := some date } := by
  obtain ⟨n, hn⟩ := succeed_of_carries h
  rw [node_stepped h hn]
  simp only [Node.succeed, Node.modifyUser, hu, Option.map_some] at hn
  cases hn
  simp

theorem lookup_maxLogins {n : Int} :
    (stepped env server u (.maxLogins n) s).1.nodes server.id = s.1.nodes server.id := by
  simp only [stepped, World.exec_nodes, Function.update_self]
  simp [Env.after, Node.succeed]

/-- A move that succeeds on the target: a new user with the password, the end and the limit, and
nothing else but the limits of the names that begin with this one. -/
theorem rebalanceTo_of_succeeded {target : Server} {acc : Account} {password : Str}
    (hplain : PlainPassword acc.username password)
    (h : ((rebalanceTo target acc password).run (World.recorded env) s).2.1.AllSucceeded) :
    let r := (rebalanceTo target acc password).run (World.recorded env) s
    r.1.isOk = true ∧
      (r.2.1.nodes target.id).users.lookup acc.username =
        some ⟨some password, false, some acc.expireDate.isoDate⟩ ∧
      (∀ limit i v, loginLimit limit i v r.2.2 =
        if target.id = i ∧ acc.username = v then some (acc.maxConnections : Int)
        else if target.id = i ∧ acc.username.isPrefixOf v then none else loginLimit limit i v s.2) ∧
      OnlyUser target.id acc.username s r.2 := by
  intro r
  let u := acc.username
  let script : PanelProg Unit := SSHManager.ensureMaxloginScript target u >>= fun _ => pure ()
  have hprog : rebalanceTo target acc password = (do
      SSHManager.connect target
      let _ ← SSHManager.run target u .useradd
      let _ ← SSHManager.run target u (.chpasswd password)
      let _ ← SSHManager.run target u (.chage acc.expireDate.isoDate)
      let _ ← SSHManager.run target u (.maxLogins acc.maxConnections)
      script) := by
    simp only [rebalanceTo, SSHManager.createUser, SSHManager.setExpiry, SSHManager.setMaxLogins,
      Prog.bind_bind, Prog.pure_eq, Prog.ret_bind, script, u]
  have hr : r = _ := congrArg (fun p => Prog.run (World.recorded env) p s) hprog
  rw [hprog] at h
  let s₀ : World × List Deed := ((s.1.connect env target).2, s.2)
  let s₁ := stepped env target u .useradd s₀
  let s₂ := stepped env target u (.chpasswd password) s₁
  let s₃ := stepped env target u (.chage acc.expireDate.isoDate) s₂
  let s₄ := stepped env target u (.maxLogins acc.maxConnections) s₃
  have hconnect := run_connect_of_succeeded h
  rw [hconnect] at h hr
  obtain ⟨hadd, x₁, h₁⟩ := run_of_succeeded h
  rw [h₁] at h hr
  obtain ⟨hpass, x₂, h₂⟩ := run_of_succeeded h
  rw [h₂] at h hr
  obtain ⟨hdate, x₃, h₃⟩ := run_of_succeeded h
  rw [h₃] at h hr
  obtain ⟨hmax, x₄, h₄⟩ := run_of_succeeded h
  rw [h₄] at h hr
  have hscript : Settled target u script := settled_ensureMaxloginScript.bind fun _ => trivial
  have hreturns : Returns env script := returns_ensureMaxloginScript.bind fun _ => .pure _
  obtain ⟨hnodes, hlimits⟩ := settled_keeps env hscript s₄
  have hend : r = script.run (World.recorded env) s₄ := hr
  rw [hend]
  refine ⟨hreturns s₄ h, ?_, fun limit i v => ?_, ?_⟩
  · have hlookup := lookup_chage (lookup_chpasswd hplain (lookup_useradd hadd) hpass) hdate
    rw [hnodes, lookup_maxLogins]
    exact hlookup
  · rw [hlimits, loginLimit_maxLogins hmax, loginLimit_stepped (by simp), loginLimit_stepped (by simp),
      loginLimit_stepped (by simp)]
  · have hsame : OnlyUser target.id u s₄ (script.run (World.recorded env) s₄).2 := by
      intro i
      rw [hnodes]
      exact ⟨rfl, fun _ _ => rfl⟩
    have hstart : OnlyUser target.id u s s₀ := by
      intro i
      have hnode : s₀.1.nodes = s.1.nodes := World.connect_nodes
      rw [hnode]
      exact ⟨rfl, fun _ _ => rfl⟩
    refine hstart.trans ((onlyUser_stepped ?_ s₀).trans ((onlyUser_stepped ?_ s₁).trans
      ((onlyUser_stepped ?_ s₂).trans ((onlyUser_stepped ?_ s₃).trans hsame))))
    · simp
    · intro p hp
      cases hp
      exact hplain
    · simp
    · simp

end SshPanelVpn.Panel

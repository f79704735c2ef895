import SshPanelVpn.Panel.Creation
import SshPanelVpn.Panel.ShadowLinkAccounts
import SshPanelVpn.Panel.SshAccounts

/-! What a failed `create_account` leaves behind. -/
namespace SshPanelVpn.Panel

open Effects ShadowLink

/-- The bridge lets connections with the token in. -/
def Node.admits (n : Node) (token : Str) : Bool := (n.bridge.authenticateToken token).1

namespace CreateArgs

/-- If the call fails, the database is as it was, and no user of the name and no token of the account
is usable that was not before. -/
def LeavesNothing (args : CreateArgs) (f : DbFailures) (env : Env) (w : World) : Prop :=
  let r := (createAccountWhere f args).run (World.recorded env) (w, [])
  r.1.isOk = false → r.2.1.db = w.db ∧
    ∀ server, ((r.2.1.nodes server).access args.username = true →
        (w.nodes server).access args.username = true) ∧
      ((r.2.1.nodes server).admits env.tokens.2 = true →
        (w.nodes server).admits env.tokens.2 = true)

/-- Once the user can log in, or the token has been registered, nothing fails any more. -/
def LeavesNothingWhen (args : CreateArgs) (f : DbFailures) (env : Env) (w : World) : Prop :=
  ∀ server account t, args.prepare env f w.db = some (server, account, t) →
    let n := w.nodes server.id
    match account.protocolType with
    | .shadowlink =>
      let request := account.registration server
      env.delivers server request = true → n.grants request = true →
        n.admits account.authToken = false →
          env.registers server account n = true ∧ f.audit = none
    | .ssh =>
      let u := args.username
      let password := passwordOf env args.password
      env.connects w = true → env.raises server u .useradd = false → n.access u = false →
        (env.after server u (.chpasswd password) (env.after server u .useradd n)).access u = true →
          env.raises server u (.chpasswd password) = false ∧
            env.setUpRaises server u account.expireDate.isoDate account.maxConnections
              account.bandwidthLimitGb = false ∧
            f.audit = none

end CreateArgs

variable {env : Env} {server : Server} {u : Str} {limit : Option Int} {s t : World × List Deed}

/-! The two sides of a node. -/

theorem access_eq_login (limit : Option Int) (i : Nat) (u : Str) (s : World × List Deed) :
    (s.1.nodes i).access u = (loginAt limit i u s).any fun l => !l.user.locked := by
  unfold Node.access loginAt
  cases (s.1.nodes i).users.lookup u <;> rfl

theorem Login.settle_locked (l : Login) (n : Node) (date : Str) (maxLogins : Int) :
    (l.settle env server u date maxLogins n).user.locked = l.user.locked := by
  simp only [Login.settle]
  repeat' split
  all_goals rfl

theorem Env.after_bridge (env : Env) (server : Server) (u : Str) (cmd : Cmd) (n : Node) :
    (env.after server u cmd n).bridge = n.bridge := by
  unfold Env.after
  split
  · next h =>
    obtain ⟨n', hn'⟩ := Option.isSome_iff_exists.mp (Bool.and_eq_true_iff.mp h).1
    rw [hn', Option.getD_some, Node.succeed_bridge hn']
  · rfl

theorem Env.after_of_not_carries {cmd : Cmd} {n : Node}
    (h : env.carries server u cmd n = false) : env.after server u cmd n = n := by
  simp [Env.after, h]

/-- A user who could not log in cannot after `useradd`. -/
theorem access_useradd {n : Node} (h : n.access u = false) :
    (env.after server u .useradd n).access u = false := by
  unfold Env.after
  split
  · next hc =>
    obtain ⟨n', hn'⟩ := Option.isSome_iff_exists.mp (Bool.and_eq_true_iff.mp hc).1
    rw [hn', Option.getD_some, Node.access_succeed hn']
    simp [Cmd.accessAfter]
  · exact h

theorem bridge_provisionSshAccount {password : Str} {date : DateTime} {maxConn bwLimit : Nat}
    (s : World × List Deed) (i : Nat) :
    (((provisionSshAccount server u password date maxConn bwLimit).run (World.recorded env)
      s).2.1.nodes i).bridge = (s.1.nodes i).bridge := by
  have hcalls : (provisionSshAccount server u password date maxConn bwLimit).AllCalls
      Call.OverSsh := allCalls_provisionSshAccount trivial fun _ _ => trivial
  refine hcalls.run_related
    (r := fun s t : World × List Deed => (t.1.nodes i).bridge = (s.1.nodes i).bridge)
    (fun _ => rfl) (fun h h' => h'.trans h) ?_ s
  intro c s hc
  rcases s with ⟨w, ds⟩
  cases c with
  | connect server =>
    exact congrArg Node.bridge (congrFun World.connect_nodes i)
  | exec server u cmd =>
    simp only [Prog.recording_apply, World.handler, World.exec_nodes]
    by_cases hi : i = server.id
    · subst hi
      rw [Function.update_self, Env.after_bridge]
    · rw [Function.update_of_ne hi]
  | _ => exact hc.elim

theorem users_http {request : BridgeRequest} (w : World) (i : Nat) :
    ((w.http env server request).2.nodes i).users = (w.nodes i).users := by
  rw [World.nodes_http]
  split
  · by_cases hi : i = server.id
    · subst hi
      simp [World.serve, World.updateNode]
    · simp [World.serve, World.updateNode, hi]
  · rfl

theorem access_congr {n n' : Node} (h : n'.users = n.users) (u : Str) : n'.access u = n.access u := by
  unfold Node.access
  rw [h]

/-! Up to where the node has been set up. -/

theorem access_settled {date : Str} {maxLogins : Int} {n : Node}
    (h : loginAt limit server.id u t = (loginAt limit server.id u s).map
      (Login.settle env server u date maxLogins n)) :
    (t.1.nodes server.id).access u = (s.1.nodes server.id).access u := by
  rw [access_eq_login limit server.id u t, access_eq_login limit server.id u s, h]
  cases loginAt limit server.id u s with
  | none => rfl
  | some l => simp [Login.settle_locked]

/-- Where the commands for a new user stop, and who can log in then. -/
theorem access_provisionSshAccount {w : World} {password : Str} {date : DateTime}
    {maxConn bwLimit : Nat} {audit : Bool} {n : Node} (hn : w.nodes server.id = n) :
    let r := (provisionSshAccount server u password date maxConn bwLimit).run (World.recorded env)
      (w, [])
    ((r.1.isOk && audit) = false → (r.2.1.nodes server.id).access u = true → n.access u = true) ↔
      (env.connects w = true → env.raises server u .useradd = false → n.access u = false →
        (env.after server u (.chpasswd password) (env.after server u .useradd n)).access u = true →
          env.raises server u (.chpasswd password) = false ∧
            env.setUpRaises server u date.isoDate maxConn bwLimit = false ∧ audit = true) := by
  intro r
  let s₀ : World × List Deed := ((w.connect env server).2, [])
  have hn₀ : s₀.1.nodes server.id = n := (congrFun World.connect_nodes _).trans hn
  have hn₁ : (stepped env server u .useradd s₀).1.nodes server.id =
      env.after server u .useradd n := by
    simp only [stepped, World.exec_nodes, Function.update_self, hn₀]
  have hn₂ : (stepped env server u (.chpasswd password) (stepped env server u .useradd s₀)).1.nodes
      server.id = env.after server u (.chpasswd password) (env.after server u .useradd n) := by
    rw [← hn₁]
    simp only [stepped, World.exec_nodes, Function.update_self]
  rcases run_provisionSshAccount env server u (w, []) password date maxConn bwLimit with
    ⟨hc, hok, ht⟩ | ⟨hc, ⟨hu, hok, ht⟩ | ⟨hu, ⟨hp, hok, ht⟩ | ⟨hp, hset, hok, ht⟩⟩⟩
  · have hr : r.2.1.nodes server.id = n := (congrArg (fun s => s.1.nodes server.id) ht).trans hn₀
    rw [hr]
    simp [hc]
  · have hr : r.2.1.nodes server.id = env.after server u .useradd n :=
      (congrArg (fun s => s.1.nodes server.id) ht).trans hn₁
    rw [hr]
    refine iff_of_true (fun _ h => ?_) fun _ h => ?_
    · cases hb : n.access u with
      | true => rfl
      | false => rw [access_useradd hb] at h; cases h
    · rw [hu] at h
      cases h
  · have hr : r.2.1.nodes server.id = _ := (congrArg (fun s => s.1.nodes server.id) ht).trans hn₂
    rw [hr]
    have hok' : r.1.isOk = false := hok
    simp only [hok', Bool.false_and, forall_const]
    cases hb : n.access u with
    | true => simp
    | false =>
      cases hraises : env.raises server u (.chpasswd password) with
      | true => simp [hc, hu]
      | false =>
        have hset : env.carries server u (.chpasswd password) (env.after server u .useradd n) =
            false := by
          rw [← hn₁]
          exact hp.resolve_left (by simp [hraises])
        rw [Env.after_of_not_carries hset, access_useradd hb]
        simp
  · have hr : (r.2.1.nodes server.id).access u = _ :=
      (access_settled (ht none)).trans (congrArg (fun n => n.access u) hn₂)
    have hok' : r.1.isOk = _ := hok
    rw [hr, hok']
    simp only [hc, hu, hp, forall_const, true_and]
    cases n.access u <;>
      cases (env.after server u (.chpasswd password) (env.after server u .useradd n)).access u <;>
        cases env.setUpRaises server u date.isoDate maxConn bwLimit <;> cases audit <;> simp

/-- What a request to register leaves of the token. -/
theorem admits_registration {account : Account} {w : World} :
    ((w.http env server (account.registration server)).2.nodes server.id).admits account.authToken =
      (env.delivers server (account.registration server) &&
          (w.nodes server.id).grants (account.registration server) ||
        (w.nodes server.id).admits account.authToken) := by
  rw [World.nodes_http]
  cases hd : env.delivers server (account.registration server) &&
      (w.nodes server.id).grants (account.registration server) with
  | false => rfl
  | true =>
    have hstatus : ((w.nodes server.id).bridge.serveHTTP (account.registration server)).1.status <
        400 := by
      have hg := (Bool.and_eq_true_iff.mp hd).2
      simp only [Node.grants, Bool.and_eq_true, decide_eq_true_eq] at hg
      exact hg.1
    have hheld := congrFun (BridgeServer.held_serveHTTP hstatus) account.authToken
    simp only [if_true, Bool.true_or]
    simp only [World.serve, World.updateNode, Function.update_self, Node.admits,
      BridgeServer.authenticateToken_eq]
    rw [show ((w.nodes server.id).bridge.serveHTTP (account.registration server)).2.held
      account.authToken = _ from hheld]
    simp [BridgeServer.change, BridgeServer.requestEffect, BridgeServer.answer]

/-- The node that was chosen decides, as far as it goes before the audit entry. -/
theorem leavesNothing_prepared {args : CreateArgs} {f : DbFailures} {w : World} {account : Account}
    {accounts : AccountTable} (h : args.prepare env f w.db = some (server, account, accounts)) :
    let r := (provision account server (passwordOf env args.password)).run (World.recorded env)
      (w.opened accounts, [])
    args.LeavesNothing f env w ↔ ((r.1.isOk && f.audit.isNone) = false →
      ((r.2.1.nodes server.id).access args.username = true →
        (w.nodes server.id).access args.username = true) ∧
      ((r.2.1.nodes server.id).admits env.tokens.2 = true →
        (w.nodes server.id).admits env.tokens.2 = true)) := by
  intro r
  obtain ⟨hok, -, hnodes, hdb⟩ := run_prepared h
  have hrest : KeepsRest server (w.opened accounts, []) r.2 :=
    keepsRest_run (calls_provision account server _) _
  unfold CreateArgs.LeavesNothing
  dsimp only
  rw [hok, hnodes]
  refine forall_congr' fun hfails => ⟨fun hn => hn.2 server.id, fun hn => ⟨hdb ?_, ?_⟩⟩
  · rw [hok]
    exact hfails
  · intro i
    by_cases hi : i = server.id
    · subst hi
      exact hn
    · rw [hrest.nodes i hi]
      exact ⟨fun h => h, fun h => h⟩

theorem leavesNothing_iff (args : CreateArgs) (f : DbFailures) (env : Env) (w : World) :
    args.LeavesNothing f env w ↔ args.LeavesNothingWhen f env w := by
  cases hprep : args.prepare env f w.db with
  | none =>
    obtain ⟨e, he⟩ := run_unprepared hprep
    refine iff_of_true ?_ fun server account t h => ?_
    · unfold CreateArgs.LeavesNothing
      rw [he]
      exact fun _ => ⟨rfl, fun _ => ⟨fun h => h, fun h => h⟩⟩
    · rw [hprep] at h
      cases h
  | some prepared =>
    obtain ⟨server, account, accounts⟩ := prepared
    obtain ⟨-, -, -, date, -, -, hrow⟩ := prepare_eq_some hprep
    have hname : account.username = args.username := by rw [hrow]; rfl
    have htoken : account.authToken = env.tokens.2 := by rw [hrow]; rfl
    have haudit : f.audit.isNone = true ↔ f.audit = none := Option.isNone_iff_eq_none
    have hwhen : args.LeavesNothingWhen f env w ↔ _ :=
      ⟨fun h => h server account accounts hprep, fun h server' account' t' heq => by
        rw [hprep] at heq
        cases heq
        exact h⟩
    refine (leavesNothing_prepared hprep).trans (Iff.trans ?_ hwhen.symm)
    cases hp : account.protocolType with
    | shadowlink =>
      obtain ⟨hok, ht⟩ := run_provision_shadowlink env hp server (passwordOf env args.password)
        (w.opened accounts, [])
      rw [ht]
      dsimp only
      rw [hok, access_congr (users_http _ _), ← htoken, admits_registration]
      have hnodes : (w.opened accounts).nodes = w.nodes := rfl
      rw [hnodes]
      simp only [← haudit]
      cases env.registers server account (w.nodes server.id) <;> cases f.audit.isNone <;>
        cases env.delivers server (account.registration server) <;>
          cases (w.nodes server.id).grants (account.registration server) <;>
            cases (w.nodes server.id).admits account.authToken <;> simp
    | ssh =>
      have hbridge : ∀ n n' : Node, n'.bridge = n.bridge → n'.admits env.tokens.2 =
          n.admits env.tokens.2 := by
        intro n n' h
        unfold Node.admits
        rw [h]
      rw [provision_ssh hp, hname]
      simp only [hbridge _ _ (bridge_provisionSshAccount _ _)]
      have hnodes : (w.opened accounts).nodes = w.nodes := rfl
      rw [hnodes]
      simp only [imp_self, and_true, ← haudit]
      exact access_provisionSshAccount rfl

/-- The token has reached the bridge when the request times out: the account is gone, its token lets
connections in. -/
theorem not_leavesNothing : ¬ ∀ (args : CreateArgs) (f : DbFailures) (env : Env) (w : World),
    args.LeavesNothing f env w := by
  intro h
  let args : CreateArgs :=
    { CreateArgs.plain "alice".toList samplePlan with
      server := some sampleServer
      protocolType := some .shadowlink }
  let env : Env := { sampleEnv 0 with http := fun _ _ => .timeout true }
  have hnothing := h args ⟨none, none, none⟩ env sampleWorld
  have hfails : ((createAccountWhere ⟨none, none, none⟩ args).run (World.recorded env)
      (sampleWorld, [])).1.isOk = false := by decide +kernel
  have hadmits := ((hnothing hfails).2 0).2 (by decide +kernel)
  cases hadmits

end SshPanelVpn.Panel

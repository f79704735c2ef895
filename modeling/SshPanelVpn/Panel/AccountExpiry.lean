import SshPanelVpn.Panel.ExistingUsers
import SshPanelVpn.Panel.FailedChanges
import SshPanelVpn.Panel.IsoDates

/-! The end of an SSH account in the table and on its node. -/
namespace SshPanelVpn.Panel

open Effects ShadowLink
open Effects.Prog (run_bind run_handle ofExcept)

/-- `is_expired`, at any time. -/
def Account.isExpired (account : Account) (now : DateTime) : Bool := account.expireDate ≤ now

/-- What `chage -E` has set makes the account unusable from 00:00 UTC of its day on. -/
def UnixUser.expiredAt (user : UnixUser) (t : DateTime) : Bool :=
  match user.expiry.bind dateDay with
  | some day => day * microsPerDay ≤ t.micros
  | none => false

/-- The operations that set the end of an account. -/
inductive EndSetter where
  | create (r : CreateRequest)
  | extend (pk : Nat) (days : Int) (adminUser : Option Nat)
  | patch (pk : Nat) (data : AccountUpdate)
  | webhook (username : Str) (planId : Nat) (status : PaymentStatus)

def EndSetter.op : EndSetter → Op
  | create r => .create r
  | extend pk days adminUser => .extend pk days adminUser
  | patch pk data => .patch pk data
  | webhook username planId status => .webhook username planId status

/-- The world after the operation, and what the nodes have done. -/
def EndSetter.ended (op : EndSetter) (env : Env) (w : World) : World × List Deed :=
  (op.op.prog.run (World.recorded env) (w, [])).2

/-- Some end has been set for the user of the account. -/
def Account.DateSet (row : Account) (ds : List Deed) : Prop :=
  ∃ date, .ran row.server row.username (.chage date) ∈ ds

/-- Where an end has been set on the node, it is the day of the account's end. -/
def Dated (s : World × List Deed) : Prop :=
  ∀ row ∈ s.1.db.accounts, row.DateSet s.2 →
    ∃ user, (s.1.nodes row.server).users.lookup row.username = some user ∧
      user.expiry = some row.expireDate.isoDate

/-! Programs that work on one user, with one date. -/

/-- The only user that commands are run for is `u`, the only end that is set is `date`, and the rows
stay as they are. -/
def Call.OnDate (server : Nat) (u date : Str) : Call → Prop
  | .exec s v cmd => s.id = server ∧ v = u ∧ cmd ≠ .userdel ∧ ∀ d, cmd = .chage d → d = date
  | .insertAccount _ => False
  | .saveAccount _ _ => False
  | .begin => False
  | .commit => False
  | .rollback => False
  | _ => True

/-- The rows are still these, and every end that has been set is `date`. -/
structure OnDate (accounts : AccountTable) (server : Nat) (u date : Str) (s : World × List Deed) :
    Prop where
  accounts : s.1.db.accounts = accounts
  dated : ∀ i v d, .ran i v (.chage d) ∈ s.2 → i = server ∧ v = u ∧
    ∃ user, (s.1.nodes server).users.lookup u = some user ∧ user.expiry = some date

section OneUser

variable {env : Env} {server : Server} {accounts : AccountTable} {u date : Str}
  {s : World × List Deed} {cmd : Cmd}

/-- What a command leaves of a user that has an end set. -/
theorem expiry_succeed {n n' : Node} {user : UnixUser} (h : n.succeed u cmd = some n')
    (hdel : cmd ≠ .userdel) (hdate : ∀ d, cmd = .chage d → d = date)
    (hu : n.users.lookup u = some user) (he : user.expiry = some date) :
    ∃ user', n'.users.lookup u = some user' ∧ user'.expiry = some date := by
  cases cmd with
  | useradd => simp [Node.succeed, hu] at h
  | chpasswd password =>
    simp only [Node.succeed] at h
    split at h
    · obtain ⟨user', hu', he'⟩ := Node.lookup_setPasswords h hu
      exact ⟨user', hu', he'.trans he⟩
    · cases h
  | userdel => exact (hdel rfl).elim
  | usermodLock =>
    obtain rfl : _ = n' := by simpa [Node.succeed, Node.modifyUser, hu] using h
    exact ⟨{ user with locked := true }, by simp, he⟩
  | usermodUnlock =>
    obtain rfl : _ = n' := by simpa [Node.succeed, Node.modifyUser, hu] using h
    exact ⟨{ user with locked := false }, by simp, he⟩
  | chage d =>
    obtain rfl := hdate d rfl
    obtain rfl : _ = n' := by simpa [Node.succeed, Node.modifyUser, hu] using h
    exact ⟨{ user with expiry := some d }, by simp, rfl⟩
  | _ =>
    cases h
    exact ⟨user, hu, he⟩

/-- Setting the end needs the user. -/
theorem expiry_chage {n n' : Node} (h : n.succeed u (.chage date) = some n') :
    ∃ user, n'.users.lookup u = some user ∧ user.expiry = some date := by
  obtain ⟨user, hu, rfl⟩ := Option.map_eq_some_iff.mp h
  exact ⟨{ user with expiry := some date }, by simp, rfl⟩

theorem onDate_exec (h : OnDate accounts server.id u date s) (hdel : cmd ≠ .userdel)
    (hdate : ∀ d, cmd = .chage d → d = date) :
    OnDate accounts server.id u date (World.recorded env (.exec server u cmd) s).2 := by
  rcases s with ⟨w, ds⟩
  refine ⟨(congrArg Db.accounts World.exec_db).trans h.accounts, ?_⟩
  intro i v d hd
  have hnodes : (World.recorded env (.exec server u cmd) (w, ds)).2.1.nodes =
      (w.exec env server u cmd).2.nodes := rfl
  rw [hnodes, World.nodes_exec]
  simp only [Prog.recording_apply, World.deed] at hd
  by_cases hc : env.carries server u cmd (w.nodes server.id) = true
  · obtain ⟨n', hn'⟩ := Option.isSome_iff_exists.mp (Bool.and_eq_true_iff.mp hc).1
    simp only [hc, if_true, Option.toList, List.cons_append, List.nil_append, List.mem_cons] at hd
    simp only [hc, if_true, Function.update_self, hn', Option.getD_some]
    rcases hd with heq | hd
    · cases heq
      obtain rfl := hdate d rfl
      exact ⟨rfl, rfl, expiry_chage hn'⟩
    · obtain ⟨hi, hv, user, hu, he⟩ := h.dated i v d hd
      exact ⟨hi, hv, expiry_succeed hn' hdel hdate hu he⟩
  · simp only [hc] at hd ⊢
    exact h.dated i v d hd

theorem onDate_call (h : OnDate accounts server.id u date s) {c : Call}
    (hc : c.OnDate server.id u date) :
    OnDate accounts server.id u date (World.recorded env c s).2 := by
  rcases s with ⟨w, ds⟩
  have hsame : ∀ {w' : World}, w'.db.accounts = w.db.accounts →
      (∀ i, (w'.nodes i).users = (w.nodes i).users) →
      OnDate accounts server.id u date (w', ds) := by
    intro w' hdb hnodes
    refine ⟨hdb.trans h.accounts, ?_⟩
    intro i v d hd
    rw [hnodes]
    exact h.dated i v d hd
  cases c with
  | exec s v cmd =>
    obtain ⟨hid, rfl, hdel, hdate⟩ := hc
    rw [← hid] at h ⊢
    exact onDate_exec h hdel hdate
  | connect s =>
    exact hsame (congrArg Db.accounts World.connect_db) fun i =>
      congrArg Node.users (congrFun World.connect_nodes i)
  | http s request =>
    have husers : ∀ i, ((w.http env s request).2.nodes i).users = (w.nodes i).users := by
      intro i
      rw [World.nodes_http]
      split
      · by_cases hi : i = s.id
        · subst hi
          simp [World.serve, World.updateNode]
        · simp [World.serve, World.updateNode, hi]
      · rfl
    refine ⟨(congrArg Db.accounts World.http_db).trans h.accounts, ?_⟩
    intro i v d hd
    have hold : .ran i v (.chage d) ∈ ds := by
      simp only [Prog.recording_apply, World.deed] at hd
      split at hd
      · simpa [Option.toList] using hd
      · exact hd
    have hnodes : (World.recorded env (.http s request) (w, ds)).2.1.nodes =
        (w.http env s request).2.nodes := rfl
    rw [hnodes, husers]
    exact h.dated i v d hold
  | insertAccount account => exact hc.elim
  | saveAccount account fields => exact hc.elim
  | begin => exact hc.elim
  | commit => exact hc.elim
  | rollback => exact hc.elim
  | _ => exact hsame rfl fun _ => rfl

theorem onDate_run (env : Env) {α : Type} {p : PanelProg α} (hp : p.AllCalls (Call.OnDate server.id u date))
    (w : World) :
    OnDate w.db.accounts server.id u date (p.run (World.recorded env) (w, [])).2 := by
  refine hp.run_related (r := fun s t => OnDate w.db.accounts server.id u date s →
    OnDate w.db.accounts server.id u date t) (fun _ h => h) (fun h h' hs => h' (h hs)) ?_ (w, []) ?_
  · intro c s hc hs
    exact onDate_call hs hc
  · exact ⟨rfl, by simp⟩

/-- The row that the work was for has the date. -/
theorem OnDate.dated_rows {row : Account} (h : OnDate accounts row.server row.username date s)
    (hrow : row ∈ accounts) (hdate : date = row.expireDate.isoDate) : Dated s := by
  intro row' hrow' ⟨d, hd⟩
  obtain ⟨hserver, hname, user, hu, he⟩ := h.dated _ _ _ hd
  rw [h.accounts] at hrow'
  obtain rfl := AccountTable.eq_of_name hrow' hrow hname hserver
  exact ⟨user, hu, hdate ▸ he⟩

theorem onDate_settled {α : Type} {p : PanelProg α} (hp : Settled server u p) :
    p.AllCalls (Call.OnDate server.id u date) := by
  refine hp.mono ?_
  rintro c ⟨cmd, rfl, hcmd⟩
  refine ⟨rfl, rfl, ?_, ?_⟩
  · rintro rfl
    cases hcmd
  · rintro d rfl
    cases hcmd

theorem onDate_command (hdel : cmd ≠ .userdel) (hdate : ∀ d, cmd = .chage d → d = date) :
    (SSHManager.run server u cmd).AllCalls (Call.OnDate server.id u date) :=
  ⟨⟨rfl, rfl, hdel, hdate⟩, fun _ => (Prog.allCalls_ofExcept _).bind fun _ => trivial⟩

theorem onDate_connect :
    (SSHManager.connect server).AllCalls (Call.OnDate server.id u date) :=
  ⟨trivial, fun _ => Prog.allCalls_ofExcept _⟩

theorem onDate_setExpiry :
    (SSHManager.setExpiry server u date).AllCalls (Call.OnDate server.id u date) :=
  onDate_command (by simp) fun d hd => (Cmd.chage.inj hd).symm

theorem onDate_setMaxLogins (n : Int) :
    (SSHManager.setMaxLogins server u n).AllCalls (Call.OnDate server.id u date) :=
  (onDate_command (by simp) (by simp)).bind fun _ =>
    (onDate_settled settled_ensureMaxloginScript).bind fun _ => trivial

theorem onDate_provision (account : Account) (password : Str) (hdate : date = account.expireDate.isoDate) :
    (provision account server password).AllCalls
      (Call.OnDate server.id account.username date) := by
  unfold provision
  split
  · refine Prog.AllCalls.handle (Prog.AllCalls.bind ?_ fun _ => trivial) fun _ => trivial
    exact ShadowLinkManager.allCalls_bridgeRequest (fun _ => trivial) _ _ _
  · have hcreate : (SSHManager.createUser server account.username password).AllCalls
        (Call.OnDate server.id account.username date) :=
      (onDate_command (by simp) (by simp)).bind fun _ => onDate_command (by simp) (by simp)
    subst hdate
    refine onDate_connect.bind fun _ => hcreate.bind fun result => ?_
    split
    · trivial
    · refine onDate_setExpiry.bind fun _ => (onDate_setMaxLogins _).bind fun _ => ?_
      split
      · exact onDate_settled settled_setupTrafficAccounting
      · trivial

end OneUser

/-! The three operations. -/

section Operations

variable {env : Env} {w : World}

theorem dated_nothing (w : World) : Dated (w, []) := by
  rintro row - ⟨d, hd⟩
  cases hd

theorem dated_createAccount (env : Env) (w : World) (args : CreateArgs) :
    Dated ((createAccount args).run (World.recorded env) (w, [])).2 := by
  have hwhere := createAccountWhere_none args
  rw [← hwhere]
  cases hprep : args.prepare env ⟨none, none, none⟩ w.db with
  | none =>
    obtain ⟨e, he⟩ := run_unprepared hprep
    rw [he]
    exact dated_nothing w
  | some x =>
    rcases x with ⟨server, account, t⟩
    obtain ⟨-, -, -, date, -, hinsert, haccount⟩ := prepare_eq_some hprep
    have hserver : account.server = server.id := by rw [haccount]; rfl
    have hmem : account ∈ t := (AccountTable.mem_insert hinsert).mpr (.inl haccount)
    have hcalls : (do
        provision account server (passwordOf env args.password)
        createAudit ⟨none, none, none⟩ args server account : PanelProg Account).AllCalls
          (Call.OnDate server.id account.username account.expireDate.isoDate) :=
      (onDate_provision account _ rfl).bind fun _ => ⟨trivial, fun _ => trivial⟩
    have hrun := onDate_run env hcalls (w.opened t)
    rw [← run_body_prepared hprep] at hrun
    rw [← hserver] at hrun
    have hdated := hrun.dated_rows hmem rfl
    obtain ⟨-, hds, hnodes, hdb⟩ := run_prepared hprep
    rw [createAccountWhere, run_atomic]
    cases hbody : ((createBody args).failing (DbFailures.call ⟨none, none, none⟩)).run
        (World.recorded env) ({ w with saved := w.db :: w.saved }, []) with
    | mk x s =>
      cases x with
      | ok a =>
        rw [hbody] at hdated
        exact hdated
      | error e =>
        -- the row is gone again, and no other has its name
        rw [createAccountWhere, run_atomic, hbody] at hdb
        intro row hrow hset
        obtain ⟨d, hd⟩ := hset
        rw [hbody] at hrun
        obtain ⟨hi, hv, -⟩ := hrun.dated _ _ _ hd
        rw [hdb rfl] at hrow
        have hold : row ∈ t := (AccountTable.mem_insert hinsert).mpr (.inr hrow)
        obtain rfl := AccountTable.eq_of_name hold hmem hv hi
        have hid : row.id = w.db.accounts.nextId := by rw [haccount]
        exact (w.db.accounts.nextId_notMem (hid ▸ List.mem_map_of_mem hrow)).elim

theorem getServer_id {db : Db} {pk : Nat} {server : Server} (h : db.getServer pk = some server) :
    server.id = pk := by
  simpa using List.find?_some h

/-- A step on the node of an account, which needs the server's row. -/
theorem dated_onServer {a : Account} (ha : a ∈ w.db.accounts) (rest : Server → PanelProg Unit)
    (hrest : ∀ server : Server, server.id = a.server →
      (rest server).AllCalls (Call.OnDate server.id a.username a.expireDate.isoDate)) :
    Dated ((accountServer a >>= rest).run (World.recorded env) (w, [])).2 := by
  cases hs : w.db.getServer a.server with
  | none =>
    have hnone : (accountServer a >>= rest).run (World.recorded env) (w, []) =
        (.error .http404, w, []) := by
      simp [accountServer, orHttp404, World.handler, World.deed, hs]
    rw [hnone]
    exact dated_nothing w
  | some server =>
    have hid := getServer_id hs
    rw [PanelProg.run_accountServer env [] hs]
    have hrun := onDate_run env (hrest server hid) w
    rw [hid] at hrun
    exact hrun.dated_rows ha rfl

/-- The object that is saved is the row. -/
theorem mem_saved {accounts : AccountTable} {a a' : Account} {fields : List AccountField}
    (ha : a ∈ accounts) (hid : a'.id = a.id) (hwrite : a.write a' fields = a') :
    a' ∈ accounts.save a' fields := by
  refine AccountTable.mem_save.mpr ⟨a, ha, ?_⟩
  rw [if_pos hid.symm, hwrite]

theorem dated_extendAccount (env : Env) {a : Account} (ha : a ∈ w.db.accounts) (days : Int)
    (adminUser : Option Nat) :
    Dated ((extendAccount a days adminUser).run (World.recorded env) (w, [])).2 := by
  cases hext : a.extend env.now days with
  | error e =>
    rw [extendAccount, NodeChange.run_extend_error hext]
    exact dated_nothing w
  | ok a' =>
    obtain ⟨hkeys, -⟩ := Account.extend_ok hext
    have hwrite : a.write a' [.expireDate, .status] = a' := by
      unfold Account.extend at hext
      split at hext
      · cases hext
      · cases hext
        rfl
    rw [extendAccount, NodeChange.run_extend hext]
    apply dated_onServer (w := w.setAccounts (w.db.accounts.save a' [.expireDate, .status]))
      (mem_saved ha hkeys.id hwrite)
    intro server _
    refine onDate_connect.bind fun _ => onDate_setExpiry.bind fun _ => ?_
    split
    · exact (onDate_command (by simp) (by simp)).bind fun _ => ⟨trivial, fun _ => trivial⟩
    · exact ⟨trivial, fun _ => trivial⟩

theorem write_applied (data : AccountUpdate) (a : Account) (date : Option DateTime) :
    a.write (data.apply a date) AccountField.all = data.apply a date := by
  simp only [AccountField.all, Account.write, List.foldl_cons, List.foldl_nil, Account.writeField,
    AccountUpdate.apply]

theorem dated_patchAccount (pk : Nat) (data : AccountUpdate) :
    Dated ((patchAccount pk data).run (World.recorded env) (w, [])).2 := by
  cases ha : w.db.getAccount pk with
  | none =>
    have hnone : (patchAccount pk data).run (World.recorded env) (w, []) =
        (.error .http404, w, []) := by
      simp [patchAccount, orHttp404, World.handler, World.deed, ha]
    rw [hnone]
    exact dated_nothing w
  | some a =>
    have hbegin : ∀ k : Account → PanelProg Account,
        (ask (.getAccount pk) >>= fun r => orHttp404 r >>= k).run (World.recorded env) (w, []) =
          (k a).run (World.recorded env) (w, []) := by
      intro k
      simp [World.handler, World.deed, ha, orHttp404]
    cases hd : data.dateAt env.now with
    | error e =>
      rw [patchAccount, hbegin, NodeChange.run_newDate_error hd]
      exact dated_nothing w
    | ok date =>
      let account := data.apply a date
      let w₁ := w.setAccounts (w.db.accounts.save account AccountField.all)
      obtain ⟨b, hb⟩ := PanelProg.run_succeeded env (w₁, []) (data.push account)
        fun _ => Prog.ret account
      have hpatch : ((patchAccount pk data).run (World.recorded env) (w, [])).2 =
          ((data.push account).run (World.recorded env) (w₁, [])).2 := by
        rw [patchAccount, hbegin, NodeChange.run_newDate hd]
        exact congrArg Prod.snd hb
      rw [hpatch]
      have hmem : account ∈ w₁.db.accounts :=
        @mem_saved _ a account AccountField.all (Db.getAccount_mem ha) rfl (write_applied data a date)
      apply dated_onServer hmem
      intro server _
      refine onDate_connect.bind fun _ => ?_
      split
      · have hlimit : (SSHManager.setMaxLogins server account.username account.maxConnections >>=
            fun _ => (Prog.ret () : PanelProg Unit)).AllCalls
              (Call.OnDate server.id account.username account.expireDate.isoDate) :=
          (onDate_setMaxLogins _).bind fun _ => trivial
        dsimp only
        split
        · exact onDate_setExpiry.bind fun _ => hlimit
        · exact hlimit
      · dsimp only
        split
        · exact onDate_setExpiry.bind fun _ => trivial
        · trivial

/-- The calls that only look something up. -/
def Call.LooksUp : Call → Prop
  | .getServer _ => True
  | .getPlan _ => True
  | .getAccount _ => True
  | .selectAccounts _ => True
  | _ => False

theorem run_lookups (env : Env) {α : Type} {p : PanelProg α} (hp : p.AllCalls Call.LooksUp)
    (s : World × List Deed) : (p.run (World.recorded env) s).2 = s := by
  refine hp.run_related (r := fun s t : World × List Deed => t = s) (fun _ => rfl)
    (fun h h' => h'.trans h) ?_ s
  rintro c ⟨w, ds⟩ hc
  cases c <;> first | rfl | exact hc.elim

/-- What is looked up first changes nothing. -/
theorem dated_after {α β : Type} {p : PanelProg α} {k : α → PanelProg β}
    (hp : p.AllCalls Call.LooksUp)
    (hk : ∀ a, (p.run (World.recorded env) (w, [])).1 = .ok a →
      Dated ((k a).run (World.recorded env) (w, [])).2) :
    Dated ((p >>= k).run (World.recorded env) (w, [])).2 := by
  have hsame := run_lookups env hp (w, [])
  rw [run_bind]
  rcases hr : p.run (World.recorded env) (w, []) with ⟨x | x, t⟩
  · rw [hr] at hsame
    dsimp only at hsame ⊢
    rw [hsame]
    exact dated_nothing w
  · rw [hr] at hsame hk
    dsimp only at hsame ⊢
    rw [hsame]
    exact hk x rfl

/-- A result that is dropped. -/
theorem dated_dropped {α : Type} {p : PanelProg α}
    (h : Dated (p.run (World.recorded env) (w, [])).2) :
    Dated ((p >>= fun _ => return ()).run (World.recorded env) (w, [])).2 := by
  rw [PanelProg.run_return]
  exact h

theorem looksUp_orHttp404 {α : Type} {c : Call} (hc : c.LooksUp) (f : Reply c → Option α) :
    (ask c >>= fun r => orHttp404 (f r)).AllCalls Call.LooksUp := by
  refine ⟨hc, ?_⟩
  intro r
  change (orHttp404 (f r)).AllCalls _
  cases f r <;> trivial

/-- A service on the account that a request names. -/
theorem dated_onAccount (pk : Nat) (service : Account → PanelProg Unit)
    (h : ∀ a ∈ w.db.accounts, Dated ((service a).run (World.recorded env) (w, [])).2) :
    Dated ((onAccount pk service).run (World.recorded env) (w, [])).2 := by
  cases ha : w.db.getAccount pk with
  | none =>
    have hnone : (onAccount pk service).run (World.recorded env) (w, []) =
        (.error .http404, w, []) := by
      simp [onAccount, orHttp404, World.handler, World.deed, ha]
    rw [hnone]
    exact dated_nothing w
  | some a =>
    have hsome : (onAccount pk service).run (World.recorded env) (w, []) =
        (service a).run (World.recorded env) (w, []) := by
      simp [onAccount, orHttp404, World.handler, World.deed, ha]
    rw [hsome]
    exact h a (Db.getAccount_mem ha)

theorem dated_createAccountView (r : CreateRequest) :
    Dated ((createAccountView r).run (World.recorded env) (w, [])).2 := by
  have hplan : (activePlan r.planId).AllCalls Call.LooksUp := by
    refine ⟨trivial, ?_⟩
    intro plan
    cases plan with
    | none => trivial
    | some plan =>
      change (if plan.isActive then _ else _ : PanelProg Plan).AllCalls _
      split <;> trivial
  have hserver : (lookupServer r.serverId).AllCalls Call.LooksUp := by
    cases r.serverId with
    | none => trivial
    | some pk =>
      refine ⟨trivial, ?_⟩
      intro server
      cases server <;> trivial
  apply dated_after hplan
  intro plan _
  apply dated_after hserver
  intro server _
  exact dated_createAccount env w _

theorem dated_paymentWebhook (username : Str) (planId : Nat) (status : PaymentStatus) :
    Dated ((paymentWebhook username planId status).run (World.recorded env) (w, [])).2 := by
  unfold paymentWebhook
  split
  · exact dated_nothing w
  · have hplan : (ask (.getPlan planId) >>= fun plan => orHttp404 plan :
        PanelProg Plan).AllCalls Call.LooksUp := looksUp_orHttp404 (c := .getPlan planId) trivial id
    rw [← Prog.bind_bind]
    apply dated_after hplan
    intro plan _
    have hselect : (ask (.selectAccounts (.renewable username))).AllCalls Call.LooksUp :=
      ⟨trivial, fun _ => trivial⟩
    apply dated_after hselect
    intro rows hrows
    obtain rfl : w.db.selectAccounts (.renewable username) = rows := Except.ok.inj hrows
    cases hfirst : (w.db.selectAccounts (.renewable username)).head? with
    | some existing =>
      simp only
      rw [run_bind]
      have hext := dated_extendAccount env (Db.mem_of_head? hfirst) plan.durationDays none
      rcases hr : (extendAccount existing plan.durationDays none).run (World.recorded env) (w, [])
        with ⟨x | x, t⟩
      · rw [hr] at hext
        exact hext
      · rw [hr] at hext
        exact hext
    | none =>
      simp only
      rw [run_handle, run_bind]
      have hcreate := dated_createAccount env w (.plain username plan)
      rcases hr : (createAccount (.plain username plan)).run (World.recorded env) (w, [])
        with ⟨x | x, t⟩
      · rw [hr] at hcreate
        cases x <;> exact hcreate
      · rw [hr] at hcreate
        exact hcreate

theorem dated_ended (op : EndSetter) (env : Env) (w : World) : Dated (op.ended env w) := by
  cases op with
  | create r => exact dated_dropped (dated_createAccountView r)
  | extend pk days adminUser =>
    exact dated_onAccount pk _ fun a ha => dated_extendAccount env ha days adminUser
  | patch pk data => exact dated_dropped (dated_patchAccount pk data)
  | webhook username planId status =>
    exact dated_dropped (dated_paymentWebhook username planId status)

end Operations

/-! The day and the instant. -/

/-- 00:00 UTC of the day. -/
def DateTime.midnight (d : DateTime) : Int := d.micros / microsPerDay * microsPerDay

theorem midnight_le (d : DateTime) : d.midnight ≤ d.micros := by
  simp only [DateTime.midnight, microsPerDay]
  omega

/-- Every midnight of a date in range is in range. -/
def DateTime.dayStart (d : DateTime) : DateTime :=
  ⟨d.midnight, by
    have h := d.inRange
    simp only [minMicros, maxMicros, DateTime.midnight, microsPerDay] at h ⊢
    omega⟩

/-- The node admits a user whose account has not expired at `t` for it. -/
def World.admitsAt (w : World) (row : Account) (t : DateTime) : Prop :=
  ∃ user, (w.nodes row.server).users.lookup row.username = some user ∧ user.expiredAt t = false

theorem expiredAt_isoDate {user : UnixUser} {d : DateTime} (h : user.expiry = some d.isoDate)
    (t : DateTime) : user.expiredAt t = true ↔ d.midnight ≤ t.micros := by
  simp [UnixUser.expiredAt, h, dateDay_isoDate, DateTime.midnight]

/-- The node and the panel agree on an account whose end has been set, at all times but those of the
last day before the end; and so at all times, if the end is at midnight. -/
theorem expiry_agrees_iff (op : EndSetter) (env : Env) (w : World) (row : Account)
    (hrow : row ∈ (op.ended env w).1.db.accounts) (hset : row.DateSet (op.ended env w).2) :
    (∀ t, ((op.ended env w).1.admitsAt row t ↔ row.isExpired t = false) ↔
        ¬ (row.expireDate.midnight ≤ t.micros ∧ t.micros < row.expireDate.micros)) ∧
      ((∀ t, (op.ended env w).1.admitsAt row t ↔ row.isExpired t = false) ↔
        row.expireDate.midnight = row.expireDate.micros) := by
  obtain ⟨user, hu, he⟩ := dated_ended op env w row hrow hset
  have hadmits : ∀ t, (op.ended env w).1.admitsAt row t ↔ t.micros < row.expireDate.midnight := by
    intro t
    have hexp := expiredAt_isoDate he t
    constructor
    · rintro ⟨user', hu', hn⟩
      obtain rfl : user = user' := Option.some.inj (hu.symm.trans hu')
      by_contra hle
      rw [hexp.mpr (by omega)] at hn
      cases hn
    · intro hlt
      refine ⟨user, hu, ?_⟩
      by_contra hn
      have := hexp.mp (by simpa using hn)
      omega
  have hpanel : ∀ t, row.isExpired t = false ↔ t.micros < row.expireDate.micros := by
    intro t
    simp only [Account.isExpired, decide_eq_false_iff_not]
    change ¬ row.expireDate.micros ≤ t.micros ↔ _
    omega
  have hmid := midnight_le row.expireDate
  constructor
  · intro t
    rw [hadmits, hpanel]
    constructor
    · rintro h ⟨h1, h2⟩
      have := h.mpr h2
      omega
    · intro h
      constructor
      · omega
      · intro h2
        by_contra h1
        exact h ⟨by omega, h2⟩
  · constructor
    · intro h
      by_contra hne
      have hday := (h row.expireDate.dayStart).mpr ((hpanel _).mpr (by
        change row.expireDate.midnight < row.expireDate.micros
        omega))
      have hlt := (hadmits _).mp hday
      change row.expireDate.midnight < row.expireDate.midnight at hlt
      omega
    · intro heq t
      rw [hadmits, hpanel, heq]

/-- Noon of the first day of 1970. -/
def noonEnv : Env :=
  { sampleEnv 0 with now := ⟨43200000000, by decide⟩ }

def noonCreate : EndSetter := .create (sampleRequest "alice" .ssh)

/-- Created for thirty days. -/
def noonRow : Account :=
  ⟨1, "alice".toList, "secret".toList, 0, some 0, .ssh, .active, ⟨2635200000000, by decide⟩, 1, 0, 0,
    "access".toList, "auth".toList, none, []⟩

theorem noonRow_mem : noonRow ∈ (noonCreate.ended noonEnv sampleWorld).1.db.accounts := by
  change noonRow ∈ (noonCreate.ended noonEnv sampleWorld).1.db.accounts.rows
  decide +kernel

theorem noonRow_dateSet : noonRow.DateSet (noonCreate.ended noonEnv sampleWorld).2 := by
  refine ⟨"1970-01-31".toList, ?_⟩
  decide +kernel

theorem expiry_agrees_iff_noon :
    (∀ t, ((noonCreate.ended noonEnv sampleWorld).1.admitsAt noonRow t ↔ noonRow.isExpired t = false) ↔
        ¬ (noonRow.expireDate.midnight ≤ t.micros ∧ t.micros < noonRow.expireDate.micros)) ∧
      ((∀ t, (noonCreate.ended noonEnv sampleWorld).1.admitsAt noonRow t ↔
          noonRow.isExpired t = false) ↔ noonRow.expireDate.midnight = noonRow.expireDate.micros) :=
  expiry_agrees_iff noonCreate noonEnv sampleWorld noonRow noonRow_mem noonRow_dateSet

/-- In the morning of the last day the panel counts the account as unexpired, and the node does not
admit its user. -/
theorem not_expiry_agrees : ¬ ∀ (op : EndSetter) (env : Env) (w : World) (row : Account),
    row ∈ (op.ended env w).1.db.accounts → row.DateSet (op.ended env w).2 →
      ∀ t, (op.ended env w).1.admitsAt row t ↔ row.isExpired t = false := by
  intro h
  have hmorning := (h noonCreate noonEnv sampleWorld noonRow noonRow_mem noonRow_dateSet
    noonRow.expireDate.dayStart).mpr (by decide)
  obtain ⟨user, hu, hn⟩ := hmorning
  obtain ⟨user', hu', he⟩ :=
    dated_ended noonCreate noonEnv sampleWorld noonRow noonRow_mem noonRow_dateSet
  obtain rfl : user' = user := Option.some.inj (hu'.symm.trans hu)
  rw [(expiredAt_isoDate he noonRow.expireDate.dayStart).mpr (by decide)] at hn
  cases hn

end SshPanelVpn.Panel

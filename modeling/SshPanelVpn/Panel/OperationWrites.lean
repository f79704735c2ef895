import Mathlib.Data.List.Dedup
import SshPanelVpn.Panel.FailedChanges
import SshPanelVpn.Panel.ServiceWrites

/-! The tasks and the views as steps of the tables. -/
namespace SshPanelVpn.Panel

open Effects Runs ShadowLink
open Effects.Prog (ofExcept run_bind)

/-! Runs of single services and views. -/

section Single

variable {env : Env}

/-- Where the record is not asked for. -/
theorem run_handler {α : Type} (p : PanelProg α) (w : World) :
    p.run (World.handler env) w =
      ((p.run (World.recorded env) (w, [])).1, (p.run (World.recorded env) (w, [])).2.1) :=
  (Prog.run_recording p w []).symm

/-- What a specification says of the tables after a run. -/
theorem wrote_of_spec {w : World} {P : TableWrite → Prop} {α : Type} {p : PanelProg α}
    (h : tables.Spec env (fun v => v.db = w.db) p (fun _ v => Wrote P w.db v.db)
      fun v => Wrote P w.db v.db) : Wrote P w.db (p.run (World.handler env) w).2.db := by
  have hw := h w fun _ => rfl
  rcases hr : p.run (World.handler env) w with ⟨x | x, t⟩ <;>
    rw [hr] at hw <;> exact hw fun _ _ => rfl

/-- A server that is chosen has a row with a place left. -/
theorem Db.pickBestServer_available {db : Db} {ties : Nat → Nat} {preferred : Option Server} {server : Server}
    (h : db.pickBestServer ties preferred = some server) (hp : ∀ s ∈ preferred, s ∈ db.servers) :
    server ∈ db.servers ∧ db.isAvailable server = true := by
  have hleast : (db.activeServersByLoad ties).find? db.isAvailable = some server →
      server ∈ db.servers ∧ db.isAvailable server = true := by
    intro hfind
    have hmem := List.mem_of_find?_eq_some hfind
    rw [Db.activeServersByLoad, List.mem_mergeSort] at hmem
    exact ⟨(List.mem_filter.mp hmem).1, List.find?_some hfind⟩
  cases preferred with
  | none => exact hleast h
  | some s =>
    simp only [Db.pickBestServer] at h
    split at h
    · next havail =>
      cases h
      exact ⟨hp server rfl, havail⟩
    · exact hleast h

/-- What `create_account` does once it has its server. -/
def createRest (args : CreateArgs) (server : Server) : PanelProg Account := do
  let password ← passwordOr args.password
  let now ← ask .now
  let expireDate ← ofExcept (now.addDays (args.durationDays.getD args.plan.durationDays))
  let tokens ← ask .newTokens
  let account ← ofExcept (← ask (.insertAccount (newAccount args server password expireDate tokens)))
  provision account server password
  ask (.insertAuditLog ⟨.create, some account.id, args.adminUser,
    "Plan=".toList ++ args.plan.name ++ ", Server=".toList ++ server.name ++
      ", Protocol=".toList ++ account.protocolType.text⟩)
  return account

theorem createBody_eq (args : CreateArgs) :
    createBody args = pickBestServer args.server >>= createRest args := rfl

/-- A new row on the server, with its log entry. -/
def Created (db : Db) (server : Server) (db' : Db) : Prop :=
  ∃ row accounts entry, row.server = server.id ∧ row.status = .active ∧
    db.accounts.insert row = some accounts ∧ entry.action = .create ∧
    entry.account = some db.accounts.nextId ∧
    db' = { db with accounts := accounts, auditLog := entry :: db.auditLog }

theorem Created.wrote {db db' : Db} {server : Server} (h : Created db server db')
    (hmem : server ∈ db.servers) (hroom : db.isAvailable server = true) :
    Wrote (fun l => ∃ pk, l = .created pk) db db' := by
  obtain ⟨row, accounts, entry, hserver, hstatus, hinsert, haction, haccount, rfl⟩ := h
  exact (Wrote.refl _ db).step (.created hmem hroom hserver hstatus hinsert haction haccount) ⟨_, rfl⟩

theorem quiet_provision (account : Account) (server : Server) (password : Str) :
    Quiet (provision account server password) := by
  refine (calls_provision account server password).mono ?_
  intro c hc
  cases c <;> first | exact trivial | exact hc.elim

/-- The rest of a creation, inside its transaction. -/
theorem tables_createRest (env : Env) (args : CreateArgs) (server : Server) (db₀ : Db) (saved₀ : List Db) :
    tables.Spec env (fun v => v = ⟨db₀, saved₀, ()⟩) (createRest args server)
      (fun _ v => v.saved = saved₀ ∧ Created db₀ server v.db) fun v => v.saved = saved₀ := by
  have hsaved : ∀ v : View Unit, v = ⟨db₀, saved₀, ()⟩ → v.saved = saved₀ := by
    rintro v rfl
    rfl
  refine Observation.Spec.passwordOr.bind fun password => .pure fun _ => ?_
  refine (Observation.Spec.read (fun _ => env.now) fun _ => rfl).bind fun now => .pure fun _ => ?_
  refine (Observation.Spec.ofExcept (A := fun _ v => v = ⟨db₀, saved₀, ()⟩) (fun _ _ _ hv => hv)
    fun _ v _ hv => hsaved v hv).bind fun date => ?_
  refine (Observation.Spec.read (fun _ => env.tokens) fun _ => rfl).bind fun tokens =>
    .pure fun _ => ?_
  let row := newAccount args server password date tokens
  refine (Observation.Spec.insertAccount row).bind fun r => ?_
  refine (Observation.Spec.ofExcept (A := fun account v => ∃ t, db₀.accounts.insert row = some t ∧
    v = ⟨{ db₀ with accounts := t }, saved₀, ()⟩ ∧ account.id = db₀.accounts.nextId) ?_ ?_).bind
      fun account => ?_
  · rintro account v rfl ⟨v', t, rfl, hi, hv, ha⟩
    exact ⟨t, hi, hv, congrArg Account.id ha⟩
  · rintro e v rfl hv
    exact hsaved v hv
  refine .of_view ?_
  rintro v₀ ⟨t, hi, rfl, hid⟩
  refine (Observation.Spec.imp (tables_quiet (quiet_provision account server password))
    (fun _ hv => hv) (fun _ _ hv => hv) ?_).bind fun _ => ?_
  · rintro v rfl
    rfl
  · refine Observation.Spec.bind ((Observation.Spec.insertAuditLog
      (I := fun v => v.saved = saved₀ ∧ Created db₀ server v.db) _).pre ?_) fun _ =>
        Observation.Spec.ret fun _ hv => hv
    rintro v rfl
    exact ⟨rfl, row, t, _, rfl, rfl, hi, rfl, congrArg some hid, rfl⟩

/-- Either the whole rest of a creation is committed or none of it. -/
theorem tables_commitRest (env : Env) (args : CreateArgs) (server : Server) (db₀ : Db) :
    tables.Spec env (fun v => v.db = db₀) (atomic (createRest args server))
      (fun _ v => Created db₀ server v.db) fun v => v.db = db₀ := by
  refine .of_view ?_
  rintro ⟨db, saved, ⟨⟩⟩ rfl
  refine (Observation.Spec.atomic (A := fun _ v => Created db server v.db)
    (X := fun v => v.db = db) ?_).imp (fun _ hv => hv) (fun _ _ hv => hv) fun _ hv => hv
  exact (tables_createRest env args server db (db :: saved)).imp (fun _ hv => hv) (fun _ _ hv => hv)
    fun v hv => ⟨hv, rfl⟩

/-- `create_account` writes one row with its log entry, or nothing. -/
theorem tables_createAccount (env : Env) (args : CreateArgs) (db₀ : Db)
    (hargs : ∀ s ∈ args.server, s ∈ db₀.servers) :
    tables.Spec env (fun v => v.db = db₀) (createAccount args)
      (fun _ v => Wrote (fun l => ∃ pk, l = .created pk) db₀ v.db) fun v => v.db = db₀ := by
  refine .of_view ?_
  rintro ⟨db, saved, ⟨⟩⟩ rfl
  unfold createAccount
  rw [createBody_eq]
  refine (Observation.Spec.atomic
    (A := fun _ v => Wrote (fun l => ∃ pk, l = .created pk) db v.db) (X := fun v => v.db = db) ?_).imp
      (fun _ hv => hv) (fun _ _ hv => hv) fun _ hv => hv
  refine ((Observation.Spec.pickBestServer args.server).imp (fun _ hv => hv) (fun _ _ hv => hv)
    ?_).bind fun server => .of_view ?_
  · rintro v rfl
    exact ⟨rfl, rfl⟩
  · rintro v₀ ⟨hpick, rfl⟩
    obtain ⟨hmem, hroom⟩ := Db.pickBestServer_available hpick hargs
    exact (tables_createRest env args server db (db :: saved)).imp (fun _ hv => hv)
      (fun _ v hv => ⟨hv.1, hv.2.wrote hmem hroom⟩) fun v hv => ⟨hv, rfl⟩

theorem wrote_createAccount (env : Env) (args : CreateArgs) (w : World)
    (hargs : ∀ s ∈ args.server, s ∈ w.db.servers) :
    Wrote (fun l => ∃ pk, l = .created pk) w.db ((createAccount args).run (World.handler env) w).2.db := by
  refine wrote_of_spec ((tables_createAccount env args w.db hargs).imp (fun _ hv => hv)
    (fun _ _ hv => hv) ?_)
  intro v hv
  rw [hv]
  exact Wrote.refl _ _

theorem wrote_bulkCreate (envs : Nat → Env) (args : Nat → CreateArgs) (is : List Nat) (w : World)
    (hargs : ∀ i, ∀ s ∈ (args i).server, s ∈ w.db.servers) :
    Wrote (fun l => ∃ pk, l = .created pk) w.db (World.bulkCreate envs args is w).db := by
  induction is generalizing w with
  | nil => exact Wrote.refl _ _
  | cons i is ih =>
    have hone := wrote_createAccount (envs i) (args i) w (hargs i)
    simp only [World.bulkCreate]
    split
    · refine hone.trans (ih _ ?_)
      intro j s hs
      rw [hone.servers]
      exact hargs j s hs
    · exact hone

theorem wrote_bulkCreateView (envs : Nat → Env) (r : BulkRequest) (w : World) :
    Wrote (fun l => ∃ pk, l = .created pk) w.db (World.bulkCreateView envs r w).db := by
  unfold World.bulkCreateView
  split
  · exact Wrote.refl _ _
  · split
    · split
      · refine wrote_bulkCreate _ _ _ _ ?_
        intro i s hs
        cases hs
      · split
        · exact Wrote.refl _ _
        · next pk server hserver =>
          refine wrote_bulkCreate _ _ _ _ ?_
          intro i s hs
          cases hs
          exact List.mem_of_find?_eq_some hserver
    · exact Wrote.refl _ _

theorem wrote_createAccountView (env : Env) (r : CreateRequest) (w : World) :
    Wrote (fun l => ∃ pk, l = .created pk) w.db
      ((createAccountView r).run (World.handler env) w).2.db := by
  refine wrote_of_spec (Observation.Spec.createAccountView (I := fun v => v.db = w.db) ?_ ?_)
  · intro args
    have hmem : ∀ v : View Unit, r.resolve v.db = some args ∧ v.db = w.db →
        (∀ s ∈ args.server, s ∈ w.db.servers) ∧ v.db = w.db := by
      rintro v ⟨hargs, hv⟩
      refine ⟨?_, hv⟩
      rw [hv] at hargs
      intro s hs
      unfold CreateRequest.resolve at hargs
      split at hargs
      · split at hargs <;> cases hargs
        cases hs
      · next plan server _ hserver =>
        split at hargs <;> cases hargs
        cases hs
        obtain ⟨pk, -, hpk⟩ := Option.map_eq_some_iff.mp hserver
        exact List.mem_of_find?_eq_some hpk
      · cases hargs
    refine Observation.Spec.pre (.pure fun hargs => ?_) hmem
    refine (tables_createAccount env args w.db hargs).imp (fun _ hv => hv) (fun _ _ hv => hv) ?_
    intro v hv
    rw [hv]
    exact Wrote.refl _ _
  · intro v hv
    rw [hv]
    exact Wrote.refl _ _

/-- An account is moved with its log entry, or nothing is written. -/
theorem wrote_rebalanceUser (env : Env) (down : Server) (acc : Account) (s : World × List Deed)
    (hc : s.1.db.Current acc) :
    Wrote (fun l => l = .moved acc.id) s.1.db (rebalanceUser env down acc s).2.1.db := by
  cases hp : s.1.db.pickBestServer env.ties none with
  | none =>
    have hnone : (pickBestServer none).run (World.recorded env) s = (.error noServers, s) := by
      rw [run_pickBestServer, hp]
    rw [rebalanceUser, rebalanceOn, run_bind, hnone]
    exact Wrote.refl _ _
  | some target =>
    have hkeep : KeepsRest target s ((rebalanceTo target acc env.password).run (World.recorded env) s).2 :=
      keepsRest_run (calls_rebalanceTo target acc env.password) s
    rw [rebalanceUser, run_rebalanceOn env acc hp, run_bind]
    rcases hr : (rebalanceTo target acc env.password).run (World.recorded env) s with ⟨y | y, u⟩
    · rw [hr] at hkeep
      dsimp only
      rw [hkeep.db]
      exact Wrote.refl _ _
    · rw [hr] at hkeep
      obtain ⟨row, hrow, hid, -⟩ := hc
      have hdb : u.1.db = s.1.db := hkeep.db
      simp only [Prog.pure_eq, Prog.run_ret]
      rw [hdb]
      split
      · rw [hdb]
        exact Wrote.refl _ _
      · next accounts hmove =>
        rw [← hid] at hmove ⊢
        obtain ⟨hmem, hroom⟩ := Db.pickBestServer_available hp (by simp)
        exact (Wrote.refl _ _).step (.moved hrow hmem hroom hmove rfl) rfl

theorem wrote_rebalanceUsers (envs : Account → Env) (pk : Nat) (s t : World × List Deed) (n : Nat)
    (h : rebalanceUsers envs pk s = some (n, t)) :
    Wrote (fun l => ∃ pk, l = .moved pk) s.1.db t.1.db := by
  have hloop : ∀ (down : Server) (accs : List Account) (u : World × List Deed),
      (accs.map Account.id).Nodup → (∀ a ∈ accs, u.1.db.Current a) →
        Wrote (fun l => ∃ pk, l = .moved pk) u.1.db (rebalanceLoop envs down accs u).2.1.db := by
    intro down accs
    induction accs with
    | nil => exact fun u _ _ => Wrote.refl _ _
    | cons acc accs ih =>
      intro u hids hc
      have hone := wrote_rebalanceUser (envs acc) down acc u (hc acc List.mem_cons_self)
      obtain ⟨hnot, hrest⟩ := List.nodup_cons.mp hids
      have htail := ih (rebalanceUser (envs acc) down acc u).2 hrest fun a ha => by
        refine hone.current ?_ (hc a (List.mem_cons_of_mem _ ha))
        rintro l rfl he
        have hid : acc.id = a.id := he
        exact hnot (hid ▸ List.mem_map_of_mem ha)
      obtain ⟨ls, hrun, hls⟩ := hone
      exact Wrote.trans ⟨ls, hrun, fun l hl => ⟨_, hls l hl⟩⟩ htail
  obtain ⟨down, -, hloopEq⟩ := Option.map_eq_some_iff.mp h
  have ht : t = (rebalanceLoop envs down (s.1.db.selectAccounts (.activeOn down.id)) s).2 := by
    rw [hloopEq]
  rw [ht]
  exact hloop down _ s (s.1.db.selectAccounts_ids _) fun a ha =>
    .of_mem (Db.mem_selectAccounts.mp ha).1

/-! Renewals, and how far they get. -/

/-- The server is there, it is connected to and the command does not raise. -/
def Env.gets (env : Env) (w : World) (a : Account) (cmd : Cmd) : Bool :=
  match w.db.getServer a.server with
  | none => false
  | some server => env.connects w && !env.raises server a.username cmd

/-- One command on the account's server, then the rest. -/
def onServerOf (a : Account) (cmd : Cmd) (rest : PanelProg Unit) : PanelProg Unit := do
  let server ← accountServer a
  SSHManager.connect server
  let _ ← SSHManager.run server a.username cmd
  rest

/-- The rest runs where the command gets through, on the same tables. -/
theorem run_onServerOf (env : Env) (a : Account) (cmd : Cmd) (rest : PanelProg Unit) (w : World) :
    (env.gets w a cmd = false ∧ ∃ e w' ds, w'.db = w.db ∧
      (onServerOf a cmd rest).run (World.recorded env) (w, []) = (.error e, w', ds)) ∨
    (env.gets w a cmd = true ∧ ∃ w' ds, w'.db = w.db ∧
      (onServerOf a cmd rest).run (World.recorded env) (w, []) =
        rest.run (World.recorded env) (w', ds)) := by
  unfold Env.gets onServerOf
  cases hs : w.db.getServer a.server with
  | none =>
    refine .inl ⟨rfl, .http404, w, [], rfl, ?_⟩
    simp [accountServer, orHttp404, World.handler, World.deed, hs]
  | some server =>
    rw [PanelProg.run_accountServer env [] hs]
    cases hc : env.connects w with
    | false =>
      obtain ⟨e, he⟩ := PanelProg.run_connect_error server [] hc fun _ =>
        (SSHManager.run server a.username cmd >>= fun _ => rest)
      exact .inl ⟨rfl, e, _, [], World.connect_db, he⟩
    | true =>
      rw [PanelProg.run_connect server [] hc]
      cases hr : env.raises server a.username cmd with
      | true =>
        obtain ⟨e, he⟩ := PanelProg.run_command_raises (w.connect env server).2 [] hr fun _ => rest
        exact .inl ⟨by simp [hr], e, _, _, World.exec_db.trans World.connect_db, he⟩
      | false =>
        obtain ⟨result, -, he⟩ := PanelProg.run_command (w.connect env server).2 [] hr fun _ => rest
        exact .inr ⟨by simp [hr], _, _, World.exec_db.trans World.connect_db, he⟩

/-- A renewal is saved first and logged last. -/
theorem db_extendAccount (env : Env) (a : Account) (days : Int) (adminUser : Option Nat) (w : World) :
    ((extendAccount a days adminUser).run (World.handler env) w).2.db =
      match a.extend env.now days with
      | .error _ => w.db
      | .ok a' => w.db.write a' [.expireDate, .status]
          (if env.gets w a (.chage a'.expireDate.isoDate) then
            some ⟨.extend, some a'.id, adminUser,
              "+".toList ++ decimal days ++ " days → ".toList ++ a'.expireDate.isoDate⟩
          else none) := by
  rw [run_handler]
  cases he : a.extend env.now days with
  | error e =>
    unfold extendAccount
    rw [NodeChange.run_extend_error he]
  | ok a' =>
    obtain ⟨hkeys, hstatus⟩ := Account.extend_ok he
    let entry : AuditLog := ⟨.extend, some a'.id, adminUser,
      "+".toList ++ decimal days ++ " days → ".toList ++ a'.expireDate.isoDate⟩
    let w' := w.setAccounts (w.db.accounts.save a' [.expireDate, .status])
    have hgets : env.gets w' a' (.chage a'.expireDate.isoDate) =
        env.gets w a (.chage a'.expireDate.isoDate) := by
      unfold Env.gets
      rw [hkeys.server, hkeys.username]
      rfl
    have hrun : (extendAccount a days adminUser).run (World.recorded env) (w, []) =
        (onServerOf a' (.chage a'.expireDate.isoDate) (ask (.insertAuditLog entry))).run
          (World.recorded env) (w', []) := by
      refine (NodeChange.run_extend he _).trans ?_
      have hne : ¬ a'.status = .expired := by simp [hstatus]
      simp only [onServerOf, hne, if_false, SSHManager.setExpiry]
      rfl
    rw [hrun]
    rcases run_onServerOf env a' (.chage a'.expireDate.isoDate) (ask (.insertAuditLog entry)) w' with
      ⟨hg, e, u, ds, hu, hr⟩ | ⟨hg, u, ds, hu, hr⟩
    · rw [hgets] at hg
      simp only [hr, hg, hu]
      rfl
    · rw [hgets] at hg
      simp only [hr, hg]
      change { u.db with auditLog := entry :: u.db.auditLog } = _
      rw [hu]
      rfl

theorem wrote_extendAccount (env : Env) {a : Account} {w : World} (ha : w.db.Current a) (days : Int)
    (adminUser : Option Nat) :
    Wrote (fun l => ∃ a', a.extend env.now days = .ok a' ∧ l = .status a.id a.status .active
      (if env.gets w a (.chage a'.expireDate.isoDate) then some .extend else none)) w.db
      ((extendAccount a days adminUser).run (World.handler env) w).2.db := by
  rw [db_extendAccount]
  cases he : a.extend env.now days with
  | error e => exact Wrote.refl _ _
  | ok a' =>
    obtain ⟨hkeys, hstatus⟩ := Account.extend_ok he
    refine (Wrote.refl _ w.db).step (ha.writes a' _ _ hkeys.id (by simp) ?_) ⟨a', rfl, ?_⟩
    · intro e hentry
      split at hentry
      · cases hentry
        exact congrArg some hkeys.id
      · cases hentry
    · rw [hstatus]
      split <;> rfl

/-- A payment renews the newest account of the name that is ACTIVE or EXPIRED, or creates one. -/
theorem wrote_paymentWebhook (env : Env) (username : Str) (planId : Nat) (status : PaymentStatus)
    (w : World) :
    Wrote (fun l => (∃ pk, l = .created pk) ∨ ∃ a plan a', w.db.getPlan planId = some plan ∧
      (w.db.selectAccounts (.renewable username)).head? = some a ∧ status = .paid ∧
      a.extend env.now plan.durationDays = .ok a' ∧ l = .status a.id a.status .active
        (if env.gets w a (.chage a'.expireDate.isoDate) then some .extend else none)) w.db
      ((paymentWebhook username planId status).run (World.handler env) w).2.db := by
  unfold paymentWebhook
  split
  · exact Wrote.refl _ _
  · next hpaid =>
    simp only [Prog.perform_bind, Prog.run_call, World.handler]
    cases hplan : w.db.getPlan planId with
    | none => exact Wrote.refl _ _
    | some plan =>
      simp only [orHttp404, Prog.ret_bind, Prog.run_call, World.handler]
      cases hhead : (w.db.selectAccounts (.renewable username)).head? with
      | some a =>
        have hwrote := wrote_extendAccount env (Db.Current.of_mem (Db.mem_of_head? hhead))
          plan.durationDays none
        dsimp only
        rw [run_bind]
        rcases hr : (extendAccount a plan.durationDays none).run (World.handler env) w with ⟨x | x, t⟩ <;>
        · rw [hr] at hwrote
          obtain ⟨ls, hrun, hls⟩ := hwrote
          refine ⟨ls, hrun, fun l hl => .inr ?_⟩
          obtain ⟨a', he, hl'⟩ := hls l hl
          exact ⟨a, plan, a', rfl, rfl, not_not.mp hpaid, he, hl'⟩
      | none =>
        have hwrote := wrote_createAccount env (.plain username plan) w (by simp [CreateArgs.plain])
        dsimp only
        rw [Prog.run_handle, run_bind]
        rcases hr : (createAccount (.plain username plan)).run (World.handler env) w with ⟨x | x, t⟩
        · rw [hr] at hwrote
          obtain ⟨ls, hrun, hls⟩ := hwrote
          dsimp only
          split
          · exact ⟨ls, hrun, fun l hl => .inl (hls l hl)⟩
          · exact ⟨ls, hrun, fun l hl => .inl (hls l hl)⟩
        · rw [hr] at hwrote
          obtain ⟨ls, hrun, hls⟩ := hwrote
          exact ⟨ls, hrun, fun l hl => .inl (hls l hl)⟩

end Single
/-! All operations. -/

namespace AdminAction

def status : AdminAction → AccountStatus
  | suspend => .suspended
  | activate => .active
  | delete => .deleted

def audit : AdminAction → AuditAction
  | suspend => .suspend
  | activate => .activate
  | delete => .delete

end AdminAction

/-- The node's side of a change of status gets to its end; what the bridge answers does not matter. -/
def Env.changes (env : Env) (w : World) (a : Account) (cmd : Cmd) : Bool :=
  match a.protocolType with
  | .shadowlink => (w.db.getServer a.server).isSome
  | .ssh => env.gets w a cmd

/-- The writes that an operation may come to. -/
def AccountOp.MayWrite (env : Env) (w : World) : AccountOp → TableWrite → Prop
  | .op (.create _), l => ∃ pk, l = .created pk
  | .op (.suspend pk _), l => ∃ a, w.db.getAccount pk = some a ∧
      env.changes w a .usermodLock = true ∧ l = .status a.id a.status .suspended (some .suspend)
  | .op (.activate pk _), l => ∃ a, w.db.getAccount pk = some a ∧
      env.changes w a .usermodUnlock = true ∧ l = .status a.id a.status .active (some .activate)
  | .op (.extend pk days _), l => ∃ a a', w.db.getAccount pk = some a ∧
      a.extend env.now days = .ok a' ∧ l = .status a.id a.status .active
        (if env.gets w a (.chage a'.expireDate.isoDate) then some .extend else none)
  | .op (.delete _ _), l => ∃ pk old, l = .status pk old .deleted (some .delete)
  | .op (.patch _ _), l => ∃ pk old, l = .status pk old old none
  | .op (.webhook username planId status), l => (∃ pk, l = .created pk) ∨
      ∃ a plan a', w.db.getPlan planId = some plan ∧
        (w.db.selectAccounts (.renewable username)).head? = some a ∧ status = .paid ∧
        a.extend env.now plan.durationDays = .ok a' ∧ l = .status a.id a.status .active
          (if env.gets w a (.chage a'.expireDate.isoDate) then some .extend else none)
  | .op .expireUsers, l => ∃ pk, l = .status pk .active .expired none
  | .op (.cleanupExpiredAccounts _), l => ∃ pk, l = .status pk .expired .deleted (some .delete)
  | .op .syncBandwidthUsage, l => ∃ pk, l = .columns pk none ∨ l = .status pk .active .suspended none
  | .adminAction action _ _, l => ∃ a, action.takes a = true ∧
      l = .status a.id a.status action.status (some action.audit)
  | .resetPassword _ _, l => ∃ pk, l = .columns pk (some .passwordReset)
  | .bulkCreate _, l => ∃ pk, l = .created pk
  | .rebalanceUsers _, l => ∃ pk, l = .moved pk

section All

variable {env : Env} {w : World} {P : TableWrite → Prop}

theorem Writes.run {a : Account} {p : PanelProg Unit} (h : Writes env P a p) (ha : w.db.Current a) :
    Wrote P w.db (p.run (World.handler env) w).2.db :=
  (wrote_of_spec (h w.db ha)).mono fun _ hl => hl.1

theorem wrote_onAccount {pk : Nat} {service : Account → PanelProg Unit}
    (h : ∀ a, w.db.getAccount pk = some a →
      Wrote P w.db ((service a).run (World.handler env) w).2.db) :
    Wrote P w.db ((onAccount pk service).run (World.handler env) w).2.db := by
  simp only [onAccount, Prog.perform_bind, Prog.run_call, World.handler]
  cases ha : w.db.getAccount pk with
  | none => exact Wrote.refl _ _
  | some a => exact h a ha

/-- A change of status that does not get through on the node is not written. -/
theorem db_changeStatus_stopped {a : Account} {status : AccountStatus} {action : AuditAction}
    {adminUser : Option Nat} {bridge : Server → Str → PanelProg BridgeResponse} {cmd : Cmd}
    (h : env.changes w a cmd = false) :
    ((changeStatus a status action adminUser bridge fun server u => SSHManager.run server u cmd).run
      (World.handler env) w).2.db = w.db := by
  rw [run_handler]
  unfold Env.changes at h
  cases hp : a.protocolType with
  | shadowlink =>
    simp only [hp, Option.isSome_eq_false_iff, Option.isNone_iff_eq_none] at h
    simp [changeStatus, accountServer, orHttp404, World.handler, World.deed, h]
  | ssh =>
    simp only [hp] at h
    have hprog : changeStatus a status action adminUser bridge
        (fun server u => SSHManager.run server u cmd) = onServerOf a cmd (do
          saveStatus a status
          ask (.insertAuditLog ⟨action, some a.id, adminUser, []⟩)) := by
      simp only [changeStatus, hp]
      rfl
    rw [hprog]
    rcases run_onServerOf env a cmd (do
        saveStatus a status
        ask (.insertAuditLog ⟨action, some a.id, adminUser, []⟩)) w with
      ⟨-, e, u, ds, hu, hr⟩ | ⟨hg, -⟩
    · rw [hr]
      exact hu
    · rw [h] at hg
      cases hg

theorem tables_selectPks {pks : List Nat} {I X : View Unit → Prop} :
    tables.Spec env I (selectPks pks) (fun rows v => rows = pks.filterMap v.db.getAccount ∧ I v) X := by
  induction pks generalizing I with
  | nil => exact Observation.Spec.ret fun _ hv => ⟨rfl, hv⟩
  | cons pk pks ih =>
    refine (Observation.Spec.read (fun v => v.db.getAccount pk) fun _ => rfl).bind fun row => ?_
    refine .of_view ?_
    rintro v₀ ⟨rfl, hv₀⟩
    refine Observation.Spec.bind (ih (I := fun v => v = v₀) |>.pre fun v hv => hv) fun rows => ?_
    refine Observation.Spec.ret ?_
    rintro v ⟨rfl, rfl⟩
    refine ⟨?_, hv₀⟩
    cases hrow : v.db.getAccount pk <;> simp [hrow]

theorem wrote_adminAction (action : AdminAction) (pks : List Nat) (adminUser : Option Nat) :
    Wrote (fun l => ∃ a, action.takes a = true ∧
      l = .status a.id a.status action.status (some action.audit)) w.db
      ((adminAction action pks adminUser).run (World.handler env) w).2.db := by
  refine wrote_of_spec ?_
  refine tables_selectPks.bind fun rows => .of_view ?_
  rintro v₀ ⟨rfl, hv₀⟩
  have hids : ((pks.dedup.filterMap v₀.db.getAccount).map Account.id).Nodup := by
    have hsub : ∀ ns : List Nat, ((ns.filterMap v₀.db.getAccount).map Account.id).Sublist ns := by
      intro ns
      induction ns with
      | nil => exact .slnil
      | cons n ns ih =>
        cases ha : v₀.db.getAccount n with
        | none => simpa [List.filterMap_cons, ha] using ih.cons n
        | some a => simpa [List.filterMap_cons, ha, Db.getAccount_id ha] using ih
    exact (List.nodup_dedup pks).sublist (hsub _)
  let rows := (pks.dedup.filterMap v₀.db.getAccount).filter action.takes
  have hservice : ∀ a ∈ rows, Writes env (fun l => ∃ a, action.takes a = true ∧
      l = .status a.id a.status action.status (some action.audit)) a (action.service a adminUser) := by
    intro a ha
    have htakes := (List.mem_filter.mp ha).2
    cases action with
    | suspend => exact writes_suspendAccount.mono fun l hl _ => ⟨a, htakes, hl⟩
    | activate => exact writes_activateAccount.mono fun l hl _ => ⟨a, htakes, hl⟩
    | delete => exact writes_deleteAccount.mono fun l hl _ => ⟨a, htakes, hl⟩
  refine (Writes.countSucceeded hservice (hids.sublist (List.filter_sublist.map _))).imp ?_
    (fun _ _ hv => hv) fun _ hv => hv
  rintro v rfl
  refine ⟨hv₀ ▸ Wrote.refl _ _, fun a ha => ?_⟩
  obtain ⟨pk, -, hpk⟩ := List.mem_filterMap.mp (List.mem_filter.mp ha).1
  exact .of_mem (Db.getAccount_mem hpk)

/-- The rows that a query finds, worked on one after the other. -/
theorem tables_selected {q : AccountQuery} {step : Account → PanelProg Unit} {X : View Unit → Prop}
    (h : ∀ a, q.filter a = true → Writes env P a (step a)) :
    tables.Spec env (fun v => v.db = w.db) (ask (.selectAccounts q) >>= countSucceeded step)
      (fun _ v => Wrote P w.db v.db) X := by
  refine Observation.Spec.pre (tables_select fun accs hq hids =>
    Writes.countSucceeded (fun a ha => h a (hq a ha)) hids) ?_
  intro v hv
  rw [hv]
  exact Wrote.refl P _

theorem wrote_expireUsers :
    Wrote (fun l => ∃ pk, l = .status pk .active .expired none) w.db
      (expireUsers.run (World.handler env) w).2.db := by
  refine wrote_of_spec ?_
  refine (Observation.Spec.read (fun _ => env.now) fun _ => rfl).bind fun now => .pure fun _ => ?_
  refine tables_selected fun a hq => writes_expireUser.mono ?_
  rintro l rfl -
  have hactive := (of_decide_eq_true hq).1
  exact ⟨a.id, by rw [hactive]⟩

theorem wrote_cleanupExpiredAccounts (graceDays : Int) :
    Wrote (fun l => ∃ pk, l = .status pk .expired .deleted (some .delete)) w.db
      ((cleanupExpiredAccounts graceDays).run (World.handler env) w).2.db := by
  refine wrote_of_spec ?_
  refine (Observation.Spec.read (fun _ => env.now) fun _ => rfl).bind fun now => .pure fun _ => ?_
  refine (Observation.Spec.ofExcept (A := fun _ v => v.db = w.db) (fun _ _ _ hv => hv) ?_).bind
    fun cutoff => ?_
  · intro e v _ hv
    rw [hv]
    exact Wrote.refl _ _
  · refine tables_selected fun a hq => writes_deleteAccount.mono ?_
    rintro l rfl -
    have hexpired := (of_decide_eq_true hq).1
    exact ⟨a.id, by rw [hexpired]⟩

theorem wrote_syncBandwidthUsage :
    Wrote (fun l => ∃ pk, l = .columns pk none ∨ l = .status pk .active .suspended none) w.db
      (syncBandwidthUsage.run (World.handler env) w).2.db := by
  let Q : TableWrite → Prop := fun l =>
    ∃ pk, l = .columns pk none ∨ l = .status pk .active .suspended none
  have haccount : ∀ srv a, (AccountQuery.activeOn srv.id).filter a = true →
      Writes env Q a (syncAccount srv a) := by
    intro srv a hq
    refine writes_syncAccount.mono ?_
    intro l hl _
    have hactive := (of_decide_eq_true hq).2
    rw [hactive] at hl
    exact ⟨a.id, hl⟩
  have hserver : ∀ srv, tables.Spec env (fun v => Wrote Q w.db v.db) (syncServer srv)
      (fun _ v => Wrote Q w.db v.db) fun v => Wrote Q w.db v.db := by
    intro srv
    refine (Observation.Spec.read (fun v => v.db.selectAccounts (.activeOn srv.id)) fun _ => rfl).bind
      fun rows => ?_
    split
    · exact Observation.Spec.ret fun _ hv => hv.2
    · refine Observation.Spec.pre ((tables_quiet quiet_connect).bind fun _ => ?_) fun _ hv => hv.2
      exact tables_select fun accs hq hids =>
        writes_syncAccounts (fun a ha => haccount srv a (hq a ha)) hids
  refine wrote_of_spec ?_
  refine (Observation.Spec.read (fun v => v.db.activeServers) fun _ => rfl).bind fun servers => ?_
  refine Observation.Spec.pre (Observation.Spec.syncServers fun srv _ => hserver srv) ?_
  rintro v ⟨-, hv⟩
  rw [hv]
  exact Wrote.refl _ _

theorem quiet_push {data : AccountUpdate} (account : Account) : Quiet (data.push account) := by
  refine (quiet_accountServer account).bind fun server => ?_
  refine quiet_connect.bind fun _ => ?_
  have hlogins : Quiet (if data.maxConnections.isSome then do
      let _ ← SSHManager.setMaxLogins server account.username account.maxConnections
      else return ()) := by
    split
    · exact (SSHManager.allCalls_setMaxLogins quiet_exec _).bind fun _ => trivial
    · trivial
  dsimp only
  split
  · exact (quiet_run _).bind fun _ => hlogins
  · exact hlogins

theorem wrote_patchAccount (pk : Nat) (data : AccountUpdate) :
    Wrote (fun l => ∃ pk old, l = .status pk old old none) w.db
      ((patchAccount pk data).run (World.handler env) w).2.db := by
  refine wrote_of_spec (Observation.Spec.patchAccount (I := fun v => v.db = w.db) ?_ ?_ ?_)
  · intro a date v ha _ hv
    rw [hv] at ha
    have hc : w.db.Current a := .of_mem (Db.getAccount_mem ha)
    have hstep := hc.writes (data.apply a date) AccountField.all none rfl (by decide) (by simp)
    have hdb : (v.save (data.apply a date) AccountField.all).db =
        w.db.write (data.apply a date) AccountField.all none := by
      rw [← hv]
      rfl
    rw [hdb]
    exact (Wrote.refl _ w.db).step hstep ⟨a.id, a.status, rfl⟩
  · exact fun account => tables_quiet (quiet_push account)
  · intro v hv
    rw [hv]
    exact Wrote.refl _ _

/-- What an operation does to the tables. -/
theorem World.act_wrote (w : World) (x : AccountOp × (Nat → Env)) :
    Wrote (x.1.MayWrite (x.2 0) w) w.db (w.act x).db := by
  obtain ⟨op, envs⟩ := x
  -- a change of status that is not reached writes nothing
  have hchange : ∀ {a : Account} {cmd : Cmd} {status : AccountStatus} {action : AuditAction}
      {adminUser : Option Nat} {path : String}, w.db.Current a →
      Wrote (fun l => (envs 0).changes w a cmd = true ∧ l = .status a.id a.status status (some action)) w.db
        ((changeStatus a status action adminUser (fun server token =>
          ShadowLinkManager.bridgeRequest server "POST" path ⟨token, 0⟩) fun server u =>
            SSHManager.run server u cmd).run (World.handler (envs 0)) w).2.db := by
    intro a cmd status action adminUser path hc
    cases hreach : (envs 0).changes w a cmd with
    | true =>
      exact ((writes_changeStatus (fun _ _ => quiet_bridgeRequest _ _) fun _ _ => quiet_run _).run hc).mono
        fun l hl => ⟨rfl, hl⟩
    | false =>
      rw [db_changeStatus_stopped hreach]
      exact Wrote.refl _ _
  cases op with
  | op op =>
    cases op with
    | create r => 
      change Wrote _ w.db ((createAccountView r >>= fun _ => pure () : PanelProg Unit).run _ w).2.db
      rw [Prog.run_discard]
      exact wrote_createAccountView _ r w
    | suspend pk adminUser =>
      refine wrote_onAccount fun a ha => (hchange (.of_mem (Db.getAccount_mem ha))).mono ?_
      rintro l ⟨hreach, hl⟩
      exact ⟨a, ha, hreach, hl⟩
    | activate pk adminUser =>
      refine wrote_onAccount fun a ha => (hchange (.of_mem (Db.getAccount_mem ha))).mono ?_
      rintro l ⟨hreach, hl⟩
      exact ⟨a, ha, hreach, hl⟩
    | extend pk days adminUser =>
      refine wrote_onAccount fun a ha =>
        (wrote_extendAccount _ (.of_mem (Db.getAccount_mem ha)) days adminUser).mono ?_
      rintro l ⟨a', he, hl⟩
      exact ⟨a, a', ha, he, hl⟩
    | delete pk adminUser =>
      refine wrote_onAccount fun a ha =>
        (writes_deleteAccount.run (.of_mem (Db.getAccount_mem ha))).mono ?_
      exact fun l hl => ⟨a.id, a.status, hl⟩
    | patch pk data =>
      change Wrote _ w.db ((patchAccount pk data >>= fun _ => pure () : PanelProg Unit).run _ w).2.db
      rw [Prog.run_discard]
      exact wrote_patchAccount pk data
    | webhook username planId status =>
      change Wrote _ w.db ((paymentWebhook username planId status >>= fun _ => pure () :
        PanelProg Unit).run _ w).2.db
      rw [Prog.run_discard]
      exact wrote_paymentWebhook _ username planId status w
    | expireUsers =>
      change Wrote _ w.db ((expireUsers >>= fun _ => pure () : PanelProg Unit).run _ w).2.db
      rw [Prog.run_discard]
      exact wrote_expireUsers
    | cleanupExpiredAccounts graceDays =>
      change Wrote _ w.db ((cleanupExpiredAccounts graceDays >>= fun _ => pure () :
        PanelProg Unit).run _ w).2.db
      rw [Prog.run_discard]
      exact wrote_cleanupExpiredAccounts graceDays
    | syncBandwidthUsage => exact wrote_syncBandwidthUsage
  | adminAction action pks adminUser => exact wrote_adminAction action pks adminUser
  | resetPassword pk adminUser =>
    refine wrote_onAccount fun a ha =>
      (writes_resetPassword.run (.of_mem (Db.getAccount_mem ha))).mono ?_
    exact fun l hl => ⟨a.id, hl⟩
  | bulkCreate r => exact wrote_bulkCreateView envs r w
  | rebalanceUsers downServerId =>
    simp only [World.act]
    split
    · next n t h => exact wrote_rebalanceUsers _ _ _ _ _ h
    · exact Wrote.refl _ _

end All

/-! The requests that bring a DELETED account back. -/

/-- A DELETED account is suspended or activated and its node is reached, or it is extended to an end
that is in range. -/
def AccountOp.Revives (env : Env) (w : World) : AccountOp → Account → Prop
  | .op (.suspend pk _), a => w.db.getAccount pk = some a ∧ a.status = .deleted ∧
      env.changes w a .usermodLock = true
  | .op (.activate pk _), a => w.db.getAccount pk = some a ∧ a.status = .deleted ∧
      env.changes w a .usermodUnlock = true
  | .op (.extend pk days _), a => w.db.getAccount pk = some a ∧ a.status = .deleted ∧
      ∃ a', a.extend env.now days = .ok a'
  | _, _ => False

/-- No other operation takes an account out of DELETED, and these write nothing else. -/
theorem AccountOp.MayWrite.revives {env : Env} {w : World} {op : AccountOp} {pk : Nat}
    {new : AccountStatus} {action : Option AuditAction}
    (h : op.MayWrite env w (.status pk .deleted new action)) (hnew : new ≠ .deleted) :
    ∃ a, w.db.getAccount pk = some a ∧ op.Revives env w a ∧
      ∀ l, op.MayWrite env w l → l = .status pk .deleted new action := by
  cases op with
  | op op =>
    cases op with
    | suspend pk' adminUser =>
      obtain ⟨a, ha, hreach, hl⟩ := h
      obtain ⟨rfl, hold, rfl, rfl⟩ := TableWrite.status.inj hl
      refine ⟨a, by rw [Db.getAccount_id ha]; exact ha, ⟨ha, hold.symm, hreach⟩, ?_⟩
      rintro l ⟨b, hb, -, rfl⟩
      rw [ha] at hb
      cases hb
      rw [hold]
    | activate pk' adminUser =>
      obtain ⟨a, ha, hreach, hl⟩ := h
      obtain ⟨rfl, hold, rfl, rfl⟩ := TableWrite.status.inj hl
      refine ⟨a, by rw [Db.getAccount_id ha]; exact ha, ⟨ha, hold.symm, hreach⟩, ?_⟩
      rintro l ⟨b, hb, -, rfl⟩
      rw [ha] at hb
      cases hb
      rw [hold]
    | extend pk' days adminUser =>
      obtain ⟨a, a', ha, he, hl⟩ := h
      obtain ⟨rfl, hold, rfl, rfl⟩ := TableWrite.status.inj hl
      refine ⟨a, by rw [Db.getAccount_id ha]; exact ha, ⟨ha, hold.symm, a', he⟩, ?_⟩
      rintro l ⟨b, b', hb, he', rfl⟩
      rw [ha] at hb
      cases hb
      rw [he] at he'
      cases he'
      rw [hold]
    | create r =>
      obtain ⟨_, hl⟩ := h
      cases hl
    | delete pk' adminUser =>
      obtain ⟨_, _, hl⟩ := h
      exact (hnew (TableWrite.status.inj hl).2.2.1).elim
    | patch pk' data =>
      obtain ⟨_, old, hl⟩ := h
      obtain ⟨-, hold, hnew', -⟩ := TableWrite.status.inj hl
      exact (hnew (hnew'.trans hold.symm)).elim
    | webhook username planId status =>
      rcases h with ⟨_, hl⟩ | ⟨a, plan, a', -, hhead, -, -, hl⟩
      · cases hl
      · -- the webhook looks for ACTIVE and EXPIRED accounts only
        have hfound := (Db.mem_selectAccounts.mp (List.mem_of_head? hhead)).2
        have hstatus := (of_decide_eq_true hfound).2
        rw [← (TableWrite.status.inj hl).2.1] at hstatus
        rcases hstatus with hstatus | hstatus <;> cases hstatus
    | expireUsers =>
      obtain ⟨_, hl⟩ := h
      cases hl
    | cleanupExpiredAccounts graceDays =>
      obtain ⟨_, hl⟩ := h
      cases hl
    | syncBandwidthUsage =>
      obtain ⟨_, hl | hl⟩ := h <;> cases hl
  | adminAction action' pks adminUser =>
    -- the actions filter by status before they act
    obtain ⟨a, htakes, hl⟩ := h
    obtain ⟨-, hold, -, -⟩ := TableWrite.status.inj hl
    cases action' <;> simp [AdminAction.takes, ← hold] at htakes
  | resetPassword pk' adminUser =>
    obtain ⟨_, hl⟩ := h
    cases hl
  | bulkCreate r =>
    obtain ⟨_, hl⟩ := h
    cases hl
  | rebalanceUsers downServerId =>
    obtain ⟨_, hl⟩ := h
    cases hl

end SshPanelVpn.Panel

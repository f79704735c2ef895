import SshPanelVpn.Panel.Provisioning
import SshPanelVpn.Panel.Specs

/-! `create_account` step by step, where also its database calls can fail. -/
namespace SshPanelVpn.Panel

open Effects ShadowLink
open Effects.Prog (run_bind run_handle ofExcept failing failing_bind failing_of_allCalls)

/-- The calls of `create_account` to the database that fail, and with what. -/
structure DbFailures where
  choice : Option Exc
  insert : Option Exc
  audit : Option Exc

def DbFailures.call (f : DbFailures) : Call → Option Exc
  | .currentUserCount _ => f.choice
  | .activeServersByLoad => f.choice
  | .insertAccount _ => f.insert
  | .insertAuditLog _ => f.audit
  | _ => none

/-- `create_account` on a database that fails so. -/
def createAccountWhere (f : DbFailures) (args : CreateArgs) : PanelProg Account :=
  atomic ((createBody args).failing f.call)

theorem createAccountWhere_none (args : CreateArgs) :
    createAccountWhere ⟨none, none, none⟩ args = createAccount args := by
  have hnone : ∀ c, DbFailures.call ⟨none, none, none⟩ c = none := by
    intro c
    cases c <;> rfl
  have hall : ∀ p : PanelProg Account,
      p.AllCalls fun c => DbFailures.call ⟨none, none, none⟩ c = none := by
    intro p
    induction p with
    | ret a => trivial
    | raise e => trivial
    | call c k ih => exact ⟨hnone c, ih⟩
  exact congrArg atomic (failing_of_allCalls (hall _))

/-- What `pick_best_server` raises. -/
def noServers : Exc := .accountError "No available servers. All are full or offline.".toList

variable {env : Env} {s : World × List Deed} {f : DbFailures}

theorem run_isAvailable (server : Server) :
    (isAvailable server).run (World.recorded env) s = (.ok (s.1.db.isAvailable server), s) := by
  rcases s with ⟨w, ds⟩
  unfold isAvailable
  split
  · next h =>
    simp [World.handler, World.deed, Db.isAvailable, h]
    rfl
  · next h => simp [Db.isAvailable, h]

theorem run_firstAvailable (servers : List Server) :
    (firstAvailable servers).run (World.recorded env) s =
      (match servers.find? s.1.db.isAvailable with
        | some server => .ok server
        | none => .error noServers, s) := by
  induction servers with
  | nil => rfl
  | cons server servers ih =>
    rw [firstAvailable, run_bind, run_isAvailable]
    cases h : s.1.db.isAvailable server with
    | true => simp [h]
    | false => simpa [h] using ih

theorem run_pickBestServer (preferred : Option Server) :
    (pickBestServer preferred).run (World.recorded env) s =
      (match s.1.db.pickBestServer env.ties preferred with
        | some server => .ok server
        | none => .error noServers, s) := by
  rcases s with ⟨w, ds⟩
  have hleast : leastLoaded.run (World.recorded env) (w, ds) =
      (match (w.db.activeServersByLoad env.ties).find? w.db.isAvailable with
        | some server => .ok server
        | none => .error noServers, (w, ds)) := by
    simp [leastLoaded, World.handler, World.deed, run_firstAvailable]
  cases preferred with
  | none => exact hleast
  | some server =>
    rw [pickBestServer, run_bind, run_isAvailable]
    cases h : w.db.isAvailable server with
    | true => simp [Db.pickBestServer, h]
    | false => simpa [Db.pickBestServer, h] using hleast

/-- The choice of a server asks the database at least once. -/
theorem run_pickBestServer_failing {e : Exc} (hf : f.choice = some e) (preferred : Option Server) :
    ((pickBestServer preferred).failing f.call).run (World.recorded env) s = (.error e, s) := by
  have hleast : leastLoaded.failing f.call = .raise e := by
    simp [leastLoaded, failing, DbFailures.call, hf]
  have havail : ∀ server, server.status = .active →
      (isAvailable server).failing f.call = .raise e := by
    intro server hs
    simp [isAvailable, hs, failing, DbFailures.call, hf]
  cases preferred with
  | none =>
    rw [pickBestServer, hleast]
    rfl
  | some server =>
    rw [pickBestServer, failing_bind]
    by_cases hs : server.status = .active
    · rw [havail server hs]
      rfl
    · have hunavailable : isAvailable server = .ret false := by simp [isAvailable, hs]
      rw [hunavailable]
      simp only [failing, Prog.ret_bind, Bool.false_eq_true, if_false, hleast]
      rfl

/-- The server, the inserted row and the table with it, as far as the database goes along. -/
def CreateArgs.prepare (args : CreateArgs) (env : Env) (f : DbFailures) (db : Db) :
    Option (Server × Account × AccountTable) :=
  match f.choice, f.insert, db.pickBestServer env.ties args.server with
  | none, none, some server =>
    match env.now.addDays (args.durationDays.getD args.plan.durationDays) with
    | .error _ => none
    | .ok expireDate =>
      let row := newAccount args server (passwordOf env args.password) expireDate env.tokens
      (db.accounts.insert row).map fun t => (server, { row with id := db.accounts.nextId }, t)
  | _, _, _ => none

theorem failing_choice (hf : f.choice = none) (preferred : Option Server) :
    (pickBestServer preferred).failing f.call = pickBestServer preferred :=
  failing_of_allCalls (allCalls_pickBestServer hf (fun _ => hf) preferred)

/-! What is done on the node. -/

/-- The calls to one node. -/
def Call.At (server : Server) : Call → Prop
  | .connect s => s = server
  | .exec s _ _ => s = server
  | .http s _ => s = server
  | _ => False

theorem calls_provision (account : Account) (server : Server) (password : Str) :
    (provision account server password).AllCalls (Call.At server) := by
  unfold provision
  split
  · refine Prog.AllCalls.handle (Prog.AllCalls.bind ?_ fun _ => trivial) fun _ => trivial
    exact ShadowLinkManager.allCalls_bridgeRequest (fun _ => rfl) _ _ _
  · exact allCalls_provisionSshAccount rfl fun _ _ => rfl

/-- Steps on one node leave the database and the other nodes. -/
structure KeepsRest (server : Server) (s t : World × List Deed) : Prop where
  db : t.1.db = s.1.db
  saved : t.1.saved = s.1.saved
  nodes : ∀ i, i ≠ server.id → t.1.nodes i = s.1.nodes i

theorem keepsRest_run {α : Type} {server : Server} {p : PanelProg α}
    (hp : p.AllCalls (Call.At server)) (s : World × List Deed) :
    KeepsRest server s (p.run (World.recorded env) s).2 := by
  refine hp.run_related (fun _ => ⟨rfl, rfl, fun _ _ => rfl⟩) ?_ ?_ s
  · intro s t v h h'
    exact ⟨h'.db.trans h.db, h'.saved.trans h.saved,
      fun i hi => (h'.nodes i hi).trans (h.nodes i hi)⟩
  · intro c s hc
    rcases s with ⟨w, ds⟩
    cases c with
    | connect server' =>
      refine ⟨World.connect_db, ?_, fun i _ => congrFun World.connect_nodes i⟩
      simp only [Prog.recording_apply, World.handler, World.connect]
      split <;> rfl
    | exec server' u cmd =>
      obtain rfl : server' = server := hc
      refine ⟨World.exec_db, ?_, fun i hi => ?_⟩
      · simp only [Prog.recording_apply, World.handler, World.exec]
        split
        · rfl
        · split
          · split <;> rfl
          · rfl
      · simp [World.handler, World.exec_nodes, hi]
    | http server' request =>
      obtain rfl : server' = server := hc
      refine ⟨World.http_db, ?_, fun i hi => ?_⟩
      · simp only [Prog.recording_apply, World.handler, World.http]
        split
        · rfl
        · split <;> rfl
        · rfl
      · simp only [Prog.recording_apply, World.handler, World.nodes_http]
        split
        · simp [World.serve, World.updateNode, hi]
        · rfl
    | _ => exact hc.elim

/-- The request that registers the token of an account. -/
def Account.registration (account : Account) (server : Server) : BridgeRequest :=
  ⟨"POST", "/api/tokens", server.shadowlinkApiKey, some ⟨account.authToken, account.maxConnections⟩⟩

/-- The panel hears that the token has been registered. -/
def Env.registers (env : Env) (server : Server) (account : Account) (n : Node) : Bool :=
  match env.http server (account.registration server) with
  | .answered => (n.bridge.serveHTTP (account.registration server)).1.status < 400
  | _ => false

theorem run_provision_shadowlink (env : Env) {account : Account} (h : account.protocolType = .shadowlink)
    (server : Server) (password : Str) (s : World × List Deed) :
    let r := (provision account server password).run (World.recorded env) s
    r.1.isOk = env.registers server account (s.1.nodes server.id) ∧
      r.2 = ((s.1.http env server (account.registration server)).2,
        (World.deed env (.http server (account.registration server)) s.1).toList ++ s.2) := by
  rcases s with ⟨w, ds⟩
  intro r
  have hr : r = (provisionShadowlinkAccount account server account.maxConnections).run
      (World.recorded env) (w, ds) :=
    congrArg (fun p => Prog.run (World.recorded env) p (w, ds)) (provision_shadowlink h server password)
  have hrequest : account.registration server = ⟨"POST", "/api/tokens", server.shadowlinkApiKey,
      some ⟨account.authToken, account.maxConnections⟩⟩ := rfl
  rw [hr, hrequest]
  unfold provisionShadowlinkAccount ShadowLinkManager.registerToken ShadowLinkManager.bridgeRequest
    Env.registers
  rw [hrequest]
  cases ho : env.http server ⟨"POST", "/api/tokens", server.shadowlinkApiKey,
      some ⟨account.authToken, account.maxConnections⟩⟩ with
  | connectionError =>
    have hw : (w.http env server ⟨"POST", "/api/tokens", server.shadowlinkApiKey,
        some ⟨account.authToken, account.maxConnections⟩⟩).1 = .error .connectionError := by
      simp [World.http, ho]
    simp [World.handler, hw]
    rfl
  | timeout applied =>
    have hw : (w.http env server ⟨"POST", "/api/tokens", server.shadowlinkApiKey,
        some ⟨account.authToken, account.maxConnections⟩⟩).1 = .error .timeout := by
      simp [World.http, ho]
    simp [World.handler, hw]
    rfl
  | answered =>
    let response := ((w.nodes server.id).bridge.serveHTTP ⟨"POST", "/api/tokens",
      server.shadowlinkApiKey, some ⟨account.authToken, account.maxConnections⟩⟩).1
    have hw : (w.http env server ⟨"POST", "/api/tokens", server.shadowlinkApiKey,
        some ⟨account.authToken, account.maxConnections⟩⟩).1 = .ok response := by
      simp [World.http, ho, World.serve, response]
    by_cases hs : 400 ≤ response.status
    · have hlt : ¬ response.status < 400 := by omega
      simp [World.handler, hw, hs, response, hlt]
      rfl
    · have hlt : response.status < 400 := by omega
      simp [World.handler, hw, hs]
      exact (decide_eq_true hlt).symm

/-! The whole run. -/

theorem run_atomic {α : Type} (body : PanelProg α) (w : World) (ds : List Deed) :
    (atomic body).run (World.recorded env) (w, ds) =
      match body.run (World.recorded env) ({ w with saved := w.db :: w.saved }, ds) with
      | (.ok a, t) => (.ok a, { t.1 with saved := t.1.saved.tail }, t.2)
      | (.error e, t) => (.error e, t.1.rollback, t.2) := by
  simp only [atomic, run_bind, run_handle, Prog.run_call, Prog.perform_bind, Prog.recording_apply,
    World.handler, World.deed, Option.toList, List.nil_append]
  rcases body.run (World.recorded env) ({ w with saved := w.db :: w.saved }, ds) with ⟨x | x, t⟩ <;>
    rfl

theorem run_passwordOr (password : Option Str) (s : World × List Deed) :
    (passwordOr password).run (World.recorded env) s = (.ok (passwordOf env password), s) := by
  rcases s with ⟨w, ds⟩
  rcases password with - | - | ⟨c, cs⟩ <;> rfl

/-- The end of `create_account`: its audit entry. -/
def createAudit (f : DbFailures) (args : CreateArgs) (server : Server) (account : Account) :
    PanelProg Account := do
  (ask (.insertAuditLog ⟨.create, some account.id, args.adminUser,
    "Plan=".toList ++ args.plan.name ++ ", Server=".toList ++ server.name ++
      ", Protocol=".toList ++ account.protocolType.text⟩)).failing f.call
  return account

/-- What `create_account` does from the row on that it inserts. -/
def createRow (f : DbFailures) (args : CreateArgs) (server : Server) (password : Str)
    (row : Account) : PanelProg Account := do
  let account ← ofExcept (← (ask (.insertAccount row)).failing f.call)
  provision account server password
  createAudit f args server account

/-- What `create_account` does once it has a server and a password. -/
def createOn (f : DbFailures) (args : CreateArgs) (server : Server) (password : Str) :
    PanelProg Account := do
  let now ← ask .now
  let expireDate ← ofExcept (now.addDays (args.durationDays.getD args.plan.durationDays))
  let tokens ← ask .newTokens
  createRow f args server password (newAccount args server password expireDate tokens)

theorem failing_ofExcept {α : Type} (F : Call → Option Exc) (x : Except Exc α) :
    (ofExcept x : PanelProg α).failing F = ofExcept x := by
  cases x <;> rfl

theorem failing_createBody (args : CreateArgs) :
    (createBody args).failing f.call = (do
      let server ← (pickBestServer args.server).failing f.call
      let password ← passwordOr args.password
      createOn f args server password) := by
  have hpassword : (passwordOr args.password).failing f.call = passwordOr args.password := by
    rcases args.password with - | - | ⟨c, cs⟩ <;> rfl
  have hprovision : ∀ account server password, (provision account server password).failing f.call =
      provision account server password := by
    intro account server password
    refine failing_of_allCalls ((calls_provision account server password).mono ?_)
    intro c hc
    cases c <;> first | rfl | exact hc.elim
  have hnow : (ask .now : PanelProg DateTime).failing f.call = ask .now := rfl
  have htokens : (ask .newTokens : PanelProg (Str × Str)).failing f.call = ask .newTokens := rfl
  have hret : ∀ a : Account, (pure a : PanelProg Account).failing f.call = pure a := fun _ => rfl
  simp only [createBody, createOn, createRow, createAudit, failing_bind, failing_ofExcept, hpassword,
    hprovision, hnow, htokens, hret]

/-- The world in which the node is set up: the row is in the table, the transaction open. -/
def World.opened (w : World) (t : AccountTable) : World :=
  { w with saved := w.db :: w.saved }.setAccounts t

theorem run_createOn_error {args : CreateArgs} {server : Server} {password : Str} {e : Exc}
    (h : env.now.addDays (args.durationDays.getD args.plan.durationDays) = .error e) (w : World)
    (ds : List Deed) : (createOn f args server password).run (World.recorded env) (w, ds) =
      (.error e, w, ds) := by
  simp only [createOn, Prog.perform_bind, Prog.run_call, Prog.recording_apply, World.handler, h,
    World.deed, Option.toList, List.nil_append, Prog.ofExcept_error, Prog.raise_bind, Prog.run_raise]

theorem run_createOn {args : CreateArgs} {server : Server} {password : Str} {date : DateTime}
    (h : env.now.addDays (args.durationDays.getD args.plan.durationDays) = .ok date) (w : World)
    (ds : List Deed) : (createOn f args server password).run (World.recorded env) (w, ds) =
      (createRow f args server password (newAccount args server password date env.tokens)).run
        (World.recorded env) (w, ds) := by
  simp only [createOn, Prog.perform_bind, Prog.run_call, Prog.recording_apply, World.handler, h,
    World.deed, Option.toList, List.nil_append, Prog.ofExcept_ok, Prog.ret_bind]

theorem run_createRow_error {args : CreateArgs} {server : Server} {password : Str} {row : Account}
    {w : World} (h : f.insert ≠ none ∨ w.db.accounts.insert row = none) (ds : List Deed) :
    ∃ e, (createRow f args server password row).run (World.recorded env) (w, ds) =
      (.error e, w, ds) := by
  cases hins : f.insert with
  | some e =>
    refine ⟨e, ?_⟩
    simp only [createRow, Prog.perform, failing, DbFailures.call, hins, Prog.raise_bind,
      Prog.run_raise]
  | none =>
    have hrow : w.db.accounts.insert row = none := h.resolve_left (not_not.mpr hins)
    refine ⟨row.refusal, ?_⟩
    simp only [createRow, Prog.perform, failing, DbFailures.call, hins, Prog.call_bind,
      Prog.run_call, Prog.recording_apply, World.handler, World.insertAccount, hrow, World.deed,
      Option.toList, List.nil_append, Prog.ret_bind, Prog.ofExcept_error, Prog.raise_bind,
      Prog.run_raise]

theorem run_createRow {args : CreateArgs} {server : Server} {password : Str} {row : Account}
    {w : World} {t : AccountTable} (hins : f.insert = none)
    (h : w.db.accounts.insert row = some t) (ds : List Deed) :
    (createRow f args server password row).run (World.recorded env) (w, ds) = (do
        let account : Account := { row with id := w.db.accounts.nextId }
        provision account server password
        createAudit f args server account : PanelProg Account).run (World.recorded env)
          (w.setAccounts t, ds) := by
  simp only [createRow, Prog.perform, failing, DbFailures.call, hins, Prog.call_bind,
    Prog.run_call, Prog.recording_apply, World.handler, World.insertAccount, h, World.deed,
    Option.toList, List.nil_append, Prog.ret_bind, Prog.ofExcept_ok]

theorem isOk_createAudit (env : Env) (f : DbFailures) (args : CreateArgs) (server : Server)
    (account : Account) (t : World × List Deed) :
    let r := (createAudit f args server account).run (World.recorded env) t
    r.1.isOk = f.audit.isNone ∧ r.2.2 = t.2 ∧ r.2.1.nodes = t.1.nodes ∧ r.2.1.saved = t.1.saved := by
  cases h : f.audit with
  | none =>
    simp only [createAudit, Prog.perform, failing, DbFailures.call, h]
    exact ⟨rfl, rfl, rfl, rfl⟩
  | some e =>
    simp only [createAudit, Prog.perform, failing, DbFailures.call, h]
    exact ⟨rfl, rfl, rfl, rfl⟩

/-- Before the row is in the table a failure leaves no trace at all. -/
theorem run_unprepared {args : CreateArgs} {w : World} (h : args.prepare env f w.db = none) :
    ∃ e, (createAccountWhere f args).run (World.recorded env) (w, []) = (.error e, w, []) := by
  suffices hbody : ∃ e, ((createBody args).failing f.call).run (World.recorded env)
      ({ w with saved := w.db :: w.saved }, []) = (.error e, { w with saved := w.db :: w.saved }, [])
      by
    obtain ⟨e, he⟩ := hbody
    refine ⟨e, ?_⟩
    rw [createAccountWhere, run_atomic, he]
    rfl
  rw [failing_createBody, run_bind]
  unfold CreateArgs.prepare at h
  cases hchoice : f.choice with
  | some e =>
    rw [run_pickBestServer_failing hchoice]
    exact ⟨e, rfl⟩
  | none =>
    rw [failing_choice hchoice, run_pickBestServer]
    cases hpick : w.db.pickBestServer env.ties args.server with
    | none => exact ⟨noServers, rfl⟩
    | some server =>
      simp only [run_bind, run_passwordOr]
      cases hdate : env.now.addDays (args.durationDays.getD args.plan.durationDays) with
      | error e => exact ⟨e, run_createOn_error hdate _ _⟩
      | ok date =>
        rw [run_createOn hdate]
        apply run_createRow_error
        cases hins : f.insert with
        | some e => exact .inl (by simp)
        | none =>
          right
          simpa [hchoice, hins, hpick, hdate] using h

theorem prepare_eq_some {args : CreateArgs} {db : Db} {server : Server} {account : Account}
    {t : AccountTable} (h : args.prepare env f db = some (server, account, t)) :
    f.choice = none ∧ f.insert = none ∧ db.pickBestServer env.ties args.server = some server ∧
      ∃ date, env.now.addDays (args.durationDays.getD args.plan.durationDays) = .ok date ∧
        let row := newAccount args server (passwordOf env args.password) date env.tokens
        db.accounts.insert row = some t ∧ account = { row with id := db.accounts.nextId } := by
  unfold CreateArgs.prepare at h
  split at h
  · next server' hchoice hins hpick =>
    split at h
    · cases h
    · next date hdate =>
      obtain ⟨t', ht, heq⟩ := Option.map_eq_some_iff.mp h
      cases heq
      exact ⟨hchoice, hins, hpick, date, hdate, ht, rfl⟩
  · cases h

theorem run_body_prepared {args : CreateArgs} {w : World} {server : Server} {account : Account}
    {t : AccountTable} (h : args.prepare env f w.db = some (server, account, t)) :
    ((createBody args).failing f.call).run (World.recorded env)
        ({ w with saved := w.db :: w.saved }, []) = (do
      provision account server (passwordOf env args.password)
      createAudit f args server account : PanelProg Account).run (World.recorded env)
        (w.opened t, []) := by
  obtain ⟨hchoice, hins, hpick, date, hdate, ht, rfl⟩ := prepare_eq_some h
  rw [failing_createBody, run_bind, failing_choice hchoice, run_pickBestServer]
  simp only [hpick]
  rw [run_bind, run_passwordOr]
  exact (run_createOn hdate _ _).trans (run_createRow (w := { w with saved := w.db :: w.saved })
    hins ht [])

/-- A transaction whose body closes those that it opens. -/
theorem run_atomic_closed {α : Type} {body : PanelProg α} {w : World} {ds : List Deed}
    {b : Except Exc α × World × List Deed}
    (hb : body.run (World.recorded env) ({ w with saved := w.db :: w.saved }, ds) = b)
    (hsaved : b.2.1.saved = w.db :: w.saved) :
    let x := (atomic body).run (World.recorded env) (w, ds)
    x.1.isOk = b.1.isOk ∧ x.2.2 = b.2.2 ∧ x.2.1.nodes = b.2.1.nodes ∧
      (x.1.isOk = false → x.2.1.db = w.db) := by
  intro x
  have hx : x = _ := run_atomic body w ds
  rw [hb] at hx
  rcases b with ⟨y | y, u⟩
  · have hroll : u.1.rollback = { u.1 with db := w.db, saved := w.saved } := by
      unfold World.rollback
      rw [hsaved]
    rw [hx]
    dsimp only
    rw [hroll]
    exact ⟨rfl, rfl, rfl, fun _ => rfl⟩
  · rw [hx]
    exact ⟨rfl, rfl, rfl, by intro h; cases h⟩

/-- From then on the node decides, and at the end the audit log. -/
theorem run_prepared {args : CreateArgs} {w : World} {server : Server} {account : Account}
    {t : AccountTable} (h : args.prepare env f w.db = some (server, account, t)) :
    let r := (provision account server (passwordOf env args.password)).run (World.recorded env)
      (w.opened t, [])
    let x := (createAccountWhere f args).run (World.recorded env) (w, [])
    x.1.isOk = (r.1.isOk && f.audit.isNone) ∧ x.2.2 = r.2.2 ∧ x.2.1.nodes = r.2.1.nodes ∧
      (x.1.isOk = false → x.2.1.db = w.db) := by
  intro r x
  have hbody := run_body_prepared h
  rw [run_bind] at hbody
  have hr : (provision account server (passwordOf env args.password)).run (World.recorded env)
      (w.opened t, []) = r := rfl
  have hrest : r.2.1.saved = w.db :: w.saved := (keepsRest_run (calls_provision account server
    (passwordOf env args.password)) (w.opened t, [])).saved
  rw [hr] at hbody
  rcases r with ⟨y | y, u⟩
  · exact run_atomic_closed hbody hrest
  · obtain ⟨hok, hds, hnodes, hsaved⟩ :=
      isOk_createAudit env f args server account u
    obtain ⟨hxok, hxds, hxnodes, hxdb⟩ := run_atomic_closed hbody (hsaved.trans hrest)
    exact ⟨hxok.trans hok, hxds.trans hds, hxnodes.trans hnodes, hxdb⟩

end SshPanelVpn.Panel

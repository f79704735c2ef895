import SshPanelVpn.Panel.Creation
import SshPanelVpn.Panel.OperationWrites

/-! What `create_account` returns, and what it leaves in the database. -/
namespace SshPanelVpn.Panel

open Effects
open Effects.Prog (run_bind)

/-- The database that a creation commits. -/
def Db.created (db : Db) (args : CreateArgs) (server : Server) (account : Account)
    (t : AccountTable) : Db :=
  { db with
    accounts := t
    auditLog := ⟨.create, some account.id, args.adminUser, "Plan=".toList ++ args.plan.name ++
      ", Server=".toList ++ server.name ++ ", Protocol=".toList ++ account.protocolType.text⟩ ::
        db.auditLog }

theorem AccountTable.rows_insert {t t' : AccountTable} {a : Account} (h : t.insert a = some t') :
    t'.rows = { a with id := t.nextId } :: t.rows := by
  unfold insert at h
  split at h
  · cases h
    rfl
  · cases h

namespace CreateArgs

/-- The server, the row and the table with it, as `create_account` comes to them. -/
abbrev prepared (args : CreateArgs) (env : Env) (db : Db) : Option (Server × Account × AccountTable) :=
  args.prepare env ⟨none, none, none⟩ db

variable {args : CreateArgs} {env : Env} {db : Db} {server : Server} {account : Account}
  {t : AccountTable} {w : World}

theorem prepared_server (h : args.prepared env db = some (server, account, t)) :
    db.pickBestServer env.ties args.server = some server ∧ account.server = server.id ∧
      account.protocolType = args.protocolType.getD server.protocolType := by
  obtain ⟨-, -, hpick, date, -, -, rfl⟩ := prepare_eq_some h
  exact ⟨hpick, rfl, rfl⟩

/-- What is raised before the row is in the table. -/
inductive Refused (args : CreateArgs) (env : Env) (db : Db) : Exc → Prop where
  | noServers : db.pickBestServer env.ties args.server = none → Refused args env db Panel.noServers
  | overflow {server : Server} {e : Exc} : db.pickBestServer env.ties args.server = some server →
      env.now.addDays (args.durationDays.getD args.plan.durationDays) = .error e →
      Refused args env db e
  | taken {server : Server} {date : DateTime} : db.pickBestServer env.ties args.server = some server →
      env.now.addDays (args.durationDays.getD args.plan.durationDays) = .ok date →
      db.accounts.insert (newAccount args server (passwordOf env args.password) date env.tokens) =
        none →
      Refused args env db
        (newAccount args server (passwordOf env args.password) date env.tokens).refusal

theorem run_refused (h : args.prepared env w.db = none) : ∃ e, Refused args env w.db e ∧
    (createAccount args).run (World.recorded env) (w, []) = (.error e, w, []) := by
  suffices hbody : ∃ e, Refused args env w.db e ∧
      ((createBody args).failing (DbFailures.call ⟨none, none, none⟩)).run (World.recorded env)
        ({ w with saved := w.db :: w.saved }, []) = (.error e, { w with saved := w.db :: w.saved }, [])
      by
    obtain ⟨e, hr, he⟩ := hbody
    refine ⟨e, hr, ?_⟩
    rw [← createAccountWhere_none, createAccountWhere, run_atomic, he]
    rfl
  rw [failing_createBody, run_bind, failing_choice rfl, run_pickBestServer]
  dsimp only
  cases hpick : w.db.pickBestServer env.ties args.server with
  | none => exact ⟨_, .noServers hpick, rfl⟩
  | some server =>
    simp only [run_bind, run_passwordOr]
    cases hdate : env.now.addDays (args.durationDays.getD args.plan.durationDays) with
    | error e => exact ⟨e, .overflow hpick hdate, run_createOn_error hdate _ _⟩
    | ok date =>
      have htaken : w.db.accounts.insert
          (newAccount args server (passwordOf env args.password) date env.tokens) = none := by
        simpa [prepare, hpick, hdate] using h
      refine ⟨_, .taken hpick hdate htaken, ?_⟩
      rw [run_createOn hdate]
      simp only [createRow, Prog.perform, Prog.failing, DbFailures.call, Prog.call_bind,
        Prog.run_call, Prog.recording_apply, World.handler, World.insertAccount, htaken, World.deed,
        Option.toList, List.nil_append, Prog.ret_bind, Prog.ofExcept_error, Prog.raise_bind,
        Prog.run_raise]

/-- Everything before the node leaves no trace where it fails. -/
theorem run_not_prepared (h : args.prepared env w.db = none) :
    ∃ e, (createAccount args).run (World.recorded env) (w, []) = (.error e, w, []) := by
  obtain ⟨e, -, he⟩ := run_refused h
  exact ⟨e, he⟩

/-- The node decides whether the row is committed. -/
theorem run_of_prepared (h : args.prepared env w.db = some (server, account, t)) :
    let r := (provision account server (passwordOf env args.password)).run (World.recorded env)
      (w.opened t, [])
    (createAccount args).run (World.recorded env) (w, []) =
      (r.1.map fun _ => account,
        { r.2.1 with
          db := if r.1.isOk then w.db.created args server account t else w.db
          saved := w.saved }, r.2.2) := by
  intro r
  have hbody := run_body_prepared h
  have hrest : KeepsRest server (w.opened t, []) ((provision account server
      (passwordOf env args.password)).run (World.recorded env) (w.opened t, [])).2 :=
    keepsRest_run (calls_provision account server (passwordOf env args.password)) (w.opened t, [])
  have hr : (provision account server (passwordOf env args.password)).run (World.recorded env)
      (w.opened t, []) = r := rfl
  rw [run_bind, hr] at hbody
  rw [hr] at hrest
  have hdb : r.2.1.db = { w.db with accounts := t } := hrest.db
  have hsaved : r.2.1.saved = w.db :: w.saved := hrest.saved
  rw [← createAccountWhere_none, createAccountWhere, run_atomic, hbody]
  rcases r with ⟨e | y, u, ds⟩
  · dsimp only at hdb hsaved ⊢
    simp only [World.rollback, hsaved]
    rfl
  · dsimp only at hdb hsaved ⊢
    simp only [createAudit, Prog.perform, Prog.failing, DbFailures.call, Prog.call_bind,
      Prog.run_call, Prog.recording_apply, World.handler, Prog.ret_bind, Prog.pure_eq, Prog.run_ret,
      hdb, hsaved, World.deed, Option.toList, List.nil_append, List.tail_cons]
    rfl

/-- An account that is returned is the row that has been prepared and committed. -/
theorem returned {a : Account} {w' : World}
    (h : (createAccount args).run (World.handler env) w = (.ok a, w')) :
    ∃ server t, args.prepared env w.db = some (server, a, t) ∧ w'.db = w.db.created args server a t ∧
      w'.saved = w.saved := by
  rw [run_handler] at h
  cases hp : args.prepared env w.db with
  | none =>
    obtain ⟨e, he⟩ := run_not_prepared hp
    rw [he] at h
    cases h
  | some x =>
    rcases x with ⟨server, account, t⟩
    rw [run_of_prepared hp] at h
    rcases hr : (provision account server (passwordOf env args.password)).run (World.recorded env)
      (w.opened t, []) with ⟨e | y, u, ds⟩
    · rw [hr] at h
      cases h
    · rw [hr] at h
      cases h
      exact ⟨server, t, rfl, rfl, rfl⟩

theorem rows_created {a : Account} {w' : World}
    (h : (createAccount args).run (World.handler env) w = (.ok a, w')) :
    w'.db.accounts.rows = a :: w.db.accounts.rows := by
  obtain ⟨server, t, hprep, hdb, -⟩ := returned h
  obtain ⟨-, -, -, date, -, hinsert, ha⟩ := prepare_eq_some hprep
  rw [hdb, ha]
  exact AccountTable.rows_insert hinsert

/-- Where the call fails, nothing is committed. -/
theorem db_failed {e : Exc} {w' : World}
    (h : (createAccount args).run (World.handler env) w = (.error e, w')) : w'.db = w.db := by
  rw [run_handler] at h
  cases hprep : args.prepared env w.db with
  | none =>
    obtain ⟨x, hx⟩ := run_not_prepared hprep
    rw [hx] at h
    cases h
    rfl
  | some x =>
    rcases x with ⟨server, account, t⟩
    rw [run_of_prepared hprep] at h
    rcases hr : (provision account server (passwordOf env args.password)).run (World.recorded env)
      (w.opened t, []) with ⟨e | y, u⟩
    · rw [hr] at h
      cases h
      rfl
    · rw [hr] at h
      cases h

end CreateArgs

/-! When a creation succeeds. -/

/-- The node or its bridge takes the new account. -/
def Env.provisions (env : Env) (server : Server) (account : Account) (password : Str) (w : World) :
    Bool :=
  match account.protocolType with
  | .shadowlink => env.registers server account (w.nodes server.id)
  | .ssh =>
    let u := account.username
    env.connects w && !env.raises server u .useradd && !env.raises server u (.chpasswd password) &&
      env.carries server u (.chpasswd password) (env.after server u .useradd (w.nodes server.id)) &&
      !env.setUpRaises server u account.expireDate.isoDate account.maxConnections
        account.bandwidthLimitGb

/-- A server is found, the row is taken, and the node takes the account. -/
def CreateArgs.Completes (args : CreateArgs) (env : Env) (w : World) : Prop :=
  ∃ server account t, args.prepared env w.db = some (server, account, t) ∧
    env.provisions server account (passwordOf env args.password) w = true

theorem isOk_provision (env : Env) (server : Server) (account : Account) (password : Str)
    (s : World × List Deed) :
    ((provision account server password).run (World.recorded env) s).1.isOk =
      env.provisions server account password s.1 := by
  cases hp : account.protocolType with
  | shadowlink =>
    rw [(run_provision_shadowlink env hp server password s).1]
    simp only [Env.provisions, hp]
  | ssh =>
    have hnode : (stepped env server account.username .useradd
        ((s.1.connect env server).2, s.2)).1.nodes server.id =
          env.after server account.username .useradd (s.1.nodes server.id) := by
      simp only [stepped, World.exec_nodes, Function.update_self, World.connect_nodes]
    rw [provision_ssh hp]
    simp only [Env.provisions, hp]
    rcases run_provisionSshAccount env server account.username s password account.expireDate
      account.maxConnections account.bandwidthLimitGb with
      ⟨hc, hok, -⟩ | ⟨hc, ⟨hu, hok, -⟩ | ⟨hu, ⟨hset, hok, -⟩ | ⟨hp, hset, hok, -⟩⟩⟩
    · rw [hok, hc]
      rfl
    · rw [hok, hc, hu]
      rfl
    · rw [hok, hc, hu]
      rw [hnode] at hset
      rcases hset with h | h <;> simp [h]
    · rw [hnode] at hset
      rw [hok, hc, hu, hp, hset]
      rfl

/-- The inputs that `create_account` succeeds on. -/
theorem isOk_createAccount (args : CreateArgs) (env : Env) (w : World) :
    ((createAccount args).run (World.handler env) w).1.isOk = true ↔ args.Completes env w := by
  rw [run_handler]
  dsimp only
  cases hprep : args.prepared env w.db with
  | none =>
    obtain ⟨e, he⟩ := CreateArgs.run_not_prepared hprep
    rw [he]
    exact iff_of_false (by simp [Except.isOk, Except.toBool]) (by simp [CreateArgs.Completes, hprep])
  | some x =>
    rcases x with ⟨server, account, t⟩
    have hok := isOk_provision env server account (passwordOf env args.password) (w.opened t, [])
    have hopened : env.provisions server account (passwordOf env args.password) (w.opened t) =
        env.provisions server account (passwordOf env args.password) w := rfl
    rw [hopened] at hok
    rw [CreateArgs.run_of_prepared hprep]
    simp only [CreateArgs.Completes, hprep, Option.some.injEq, Prod.mk.injEq]
    rcases hr : (provision account server (passwordOf env args.password)).run (World.recorded env)
      (w.opened t, []) with ⟨e | y, u⟩
    · rw [hr] at hok
      simp only [Except.map, Except.isOk, Except.toBool] at hok ⊢
      refine iff_of_false Bool.false_ne_true ?_
      rintro ⟨server', account', t', ⟨rfl, rfl, rfl⟩, hprov⟩
      exact Bool.false_ne_true (hok.trans hprov)
    · rw [hr] at hok
      exact iff_of_true rfl ⟨server, account, t, ⟨rfl, rfl, rfl⟩, hok.symm⟩

end SshPanelVpn.Panel

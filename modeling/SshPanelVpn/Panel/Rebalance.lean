import SshPanelVpn.Panel.Creation

/-! `rebalance_users` of `servers/tasks.py`. -/
namespace SshPanelVpn.Panel

open Effects
open Effects.Prog (run_bind)

namespace AccountTable

/-- A row after the account with the key has been moved to another server. -/
def moved (pk target : Nat) (row : Account) : Account :=
  if row.id = pk then { row with server := target } else row

theorem map_moved {β : Type} {g : Account → β} (hg : ∀ (a : Account) (target : Nat),
    g { a with server := target } = g a) (pk target : Nat) (rows : List Account) :
    (rows.map (moved pk target)).map g = rows.map g := by
  rw [List.map_map]
  refine List.map_congr_left fun row _ => ?_
  by_cases h : row.id = pk
  · simp only [Function.comp_apply, moved, if_pos h, hg]
  · simp only [Function.comp_apply, moved, if_neg h]

/-- `UPDATE … SET server_id = target WHERE id = pk`, if the name is free there. -/
def move (t : AccountTable) (pk target : Nat) : Option AccountTable :=
  if h : ((t.rows.map (moved pk target)).map fun a => (a.username, a.server)).Nodup then
    some ⟨t.rows.map (moved pk target), by rw [map_moved fun _ _ => rfl]; exact t.ids, h,
      by rw [map_moved fun _ _ => rfl]; exact t.accessTokens,
      by rw [map_moved fun _ _ => rfl]; exact t.authTokens⟩
  else none

end AccountTable

/-- The part of a move that is not the database's: a user on the best server. -/
def rebalanceOn (acc : Account) : PanelProg Server := do
  let target ← pickBestServer none
  SSHManager.connect target
  let password ← ask .generatePassword
  let _ ← SSHManager.createUser target acc.username password
  let _ ← SSHManager.setExpiry target acc.username acc.expireDate.isoDate
  let _ ← SSHManager.setMaxLogins target acc.username acc.maxConnections
  return target

/-- One account of `rebalance_users`, up to its exception. -/
def rebalanceUser (env : Env) (down : Server) (acc : Account) (s : World × List Deed) :
    Except Exc Unit × World × List Deed :=
  match (rebalanceOn acc).run (World.recorded env) s with
  | (.error e, t) => (.error e, t)
  | (.ok target, t) =>
    match t.1.db.accounts.move acc.id target.id with
    | none => (.error .integrityError, t)
    | some accounts =>
      (.ok (), { t.1 with db := { t.1.db with
        accounts := accounts
        auditLog := ⟨.rebalance, some acc.id, none, "Moved from ".toList ++ down.name ++
          " to ".toList ++ target.name⟩ :: t.1.db.auditLog } }, t.2)

/-- The loop of `rebalance_users`: an account that raises is passed over. -/
def rebalanceLoop (envs : Account → Env) (down : Server) :
    List Account → World × List Deed → Nat × (World × List Deed)
  | [], s => (0, s)
  | acc :: accs, s =>
    let r := rebalanceUser (envs acc) down acc s
    let (count, t) := rebalanceLoop envs down accs r.2
    (if r.1.isOk then count + 1 else count, t)

/-- `rebalance_users`; each account meets its own environment. -/
def rebalanceUsers (envs : Account → Env) (downServerId : Nat) (s : World × List Deed) :
    Option (Nat × (World × List Deed)) :=
  (s.1.db.getServer downServerId).map fun down =>
    rebalanceLoop envs down (s.1.db.selectAccounts (.activeOn down.id)) s

/-! One account, step by step. -/

/-- What is done on the target. -/
def rebalanceTo (target : Server) (acc : Account) (password : Str) : PanelProg Unit := do
  SSHManager.connect target
  let _ ← SSHManager.createUser target acc.username password
  let _ ← SSHManager.setExpiry target acc.username acc.expireDate.isoDate
  let _ ← SSHManager.setMaxLogins target acc.username acc.maxConnections
  return ()

theorem calls_rebalanceTo (target : Server) (acc : Account) (password : Str) :
    (rebalanceTo target acc password).AllCalls (Call.At target) := by
  have hrun : ∀ cmd : Cmd, cmd.Numeric → Call.At target (.exec target acc.username cmd) :=
    fun _ _ => rfl
  refine Prog.AllCalls.bind ⟨rfl, fun _ => Prog.allCalls_ofExcept _⟩ fun _ => ?_
  refine (SSHManager.allCalls_createUser hrun password).bind fun _ => ?_
  refine (SSHManager.allCalls_run hrun).bind fun _ => ?_
  exact (SSHManager.allCalls_setMaxLogins hrun _).bind fun _ => trivial

theorem run_rebalanceOn (env : Env) (acc : Account) {s : World × List Deed} {target : Server}
    (h : s.1.db.pickBestServer env.ties none = some target) :
    (rebalanceOn acc).run (World.recorded env) s =
      (rebalanceTo target acc env.password >>= fun _ => pure target).run (World.recorded env) s := by
  have hpick : (pickBestServer none).run (World.recorded env) s = (.ok target, s) := by
    rw [run_pickBestServer, h]
  rw [rebalanceOn, run_bind, hpick]
  dsimp only
  rw [rebalanceTo, Prog.bind_bind, run_bind, run_bind]
  rcases (SSHManager.connect target).run (World.recorded env) s with ⟨x | x, w, ds⟩
  · rfl
  · dsimp only
    simp only [Prog.bind_bind, Prog.perform_bind, Prog.run_call, Prog.pure_eq, Prog.ret_bind]
    rfl

/-- After the steps on the target the database has its say. -/
theorem run_rebalanceUser (env : Env) (down : Server) (acc : Account) {s : World × List Deed}
    {target : Server} (h : s.1.db.pickBestServer env.ties none = some target) :
    let r := (rebalanceTo target acc env.password).run (World.recorded env) s
    let x := rebalanceUser env down acc s
    x.1.isOk = (r.1.isOk && !(s.1.db.accounts.move acc.id target.id).isNone) ∧
      x.2.2 = r.2.2 ∧ x.2.1.nodes = r.2.1.nodes ∧ (x.1.isOk = false → x.2.1.db = s.1.db) := by
  intro r x
  have hdb : r.2.1.db = s.1.db := (keepsRest_run (calls_rebalanceTo target acc env.password) s).db
  have hon := run_rebalanceOn env acc h
  rw [run_bind] at hon
  have hr : (rebalanceTo target acc env.password).run (World.recorded env) s = r := rfl
  rw [hr] at hon
  simp only [x, rebalanceUser, hon]
  rcases r with ⟨y | y, t⟩
  · exact ⟨rfl, rfl, rfl, fun _ => hdb⟩
  · dsimp only at hdb ⊢
    rw [Prog.pure_eq, Prog.run_ret]
    dsimp only
    rw [hdb]
    cases s.1.db.accounts.move acc.id target.id with
    | none => exact ⟨rfl, rfl, rfl, fun _ => hdb⟩
    | some accounts => exact ⟨rfl, rfl, rfl, by intro h; cases h⟩

/-- The state after each account of the loop. -/
def rebalanceStep (envs : Account → Env) (down : Server) (s : World × List Deed) (acc : Account) :
    World × List Deed :=
  (rebalanceUser (envs acc) down acc s).2

theorem rebalanceLoop_state (envs : Account → Env) (down : Server) (accs : List Account)
    (s : World × List Deed) :
    (rebalanceLoop envs down accs s).2 = Runs.after (rebalanceStep envs down) s accs := by
  induction accs generalizing s with
  | nil => rfl
  | cons acc accs ih => exact ih _

end SshPanelVpn.Panel

import SshPanelVpn.Panel.Deeds
import SshPanelVpn.Panel.Specs

/-! The operations that change an account on its node, when the node does not carry the change
out. -/
namespace SshPanelVpn.Panel

open Effects ShadowLink
open Effects.Prog (run_bind run_handle ofExcept)

/-- The operations with a step on the node; `expire` is the step of `expire_users` for one account. -/
inductive NodeChange where
  | suspend (adminUser : Option Nat)
  | activate (adminUser : Option Nat)
  | delete (adminUser : Option Nat)
  | extend (days : Int) (adminUser : Option Nat)
  | patch (data : AccountUpdate)
  | expire

/-- The columns that decide over the account: status, end and limits. -/
structure Account.SameTerms (row row' : Account) : Prop where
  status : row'.status = row.status
  expireDate : row'.expireDate = row.expireDate
  maxConnections : row'.maxConnections = row.maxConnections
  bandwidthLimitGb : row'.bandwidthLimitGb = row.bandwidthLimitGb

/-- The commands of `patch` for the node, in their order. -/
def AccountUpdate.commands (data : AccountUpdate) (account : Account) : List Cmd :=
  (if data.durationDays.isSome || data.expireDate.isSome then
    [.chage account.expireDate.isoDate] else []) ++
  if data.maxConnections.isSome then [.maxLogins account.maxConnections] else []

/-- A change of the token or of the Unix user, as the account's protocol has it. -/
def Account.change (a : Account) (server : Server) (path : String) (cmd : Cmd) : Deed :=
  match a.protocolType with
  | .shadowlink => .served server.id ⟨"POST", path, server.shadowlinkApiKey, some ⟨a.authToken, 0⟩⟩
  | .ssh => .ran server.id a.username cmd

namespace NodeChange

def prog (a : Account) : NodeChange → PanelProg Unit
  | suspend adminUser => suspendAccount a adminUser
  | activate adminUser => activateAccount a adminUser
  | delete adminUser => deleteAccount a adminUser
  | extend days adminUser => extendAccount a days adminUser
  | patch data => patchAccount a.id data >>= fun _ => return ()
  | expire => expireUser a

/-- What the node is to do; `none` where the new end is out of range. An account that was EXPIRED is
also to be unlocked when it is extended. -/
def deeds (now : DateTime) (server : Server) (a : Account) : NodeChange → Option (List Deed)
  | suspend _ => some [a.change server "/api/tokens/suspend" .usermodLock]
  | activate _ => some [a.change server "/api/tokens/activate" .usermodUnlock]
  | delete _ => some [a.change server "/api/tokens/delete" .userdel]
  | expire => some [.ran server.id a.username .usermodLock]
  | extend days _ =>
    match a.extend now days with
    | .error _ => none
    | .ok a' => some (.ran server.id a.username (.chage a'.expireDate.isoDate) ::
        if a.status = .expired then [.ran server.id a.username .usermodUnlock] else [])
  | patch data =>
    match data.dateAt now with
    | .error _ => none
    | .ok date => some ((data.commands (data.apply a date)).map (.ran server.id a.username))

/-- How the operation ends, the world it leaves and what the nodes have done. -/
def ended (op : NodeChange) (env : Env) (w : World) (a : Account) :
    Except Exc Unit × World × List Deed :=
  (op.prog a).run (World.recorded env) (w, [])

/-- The node has done all that the operation asks of it. -/
def TookEffect (op : NodeChange) (env : Env) (w : World) (server : Server) (a : Account) : Prop :=
  ∃ ds, op.deeds env.now server a = some ds ∧ ∀ d ∈ ds, d ∈ (op.ended env w a).2.2

/-- The caller gets an exception. -/
def Told (op : NodeChange) (env : Env) (w : World) (a : Account) : Prop :=
  ∃ e, (op.ended env w a).1 = .error e

def RowKept (op : NodeChange) (env : Env) (w : World) (a : Account) : Prop :=
  ∃ row, (op.ended env w a).2.1.db.getAccount a.id = some row ∧ a.SameTerms row

/-- A change that the node has not made is not in the table, and the caller hears of it. -/
def FailsSafe (op : NodeChange) (env : Env) (w : World) (server : Server) (a : Account) : Prop :=
  ¬ op.TookEffect env w server a → op.RowKept env w a ∧ op.Told env w a

end NodeChange

/-! When that is so. -/

namespace Env

variable (env : Env)

/-- The commands are run one after the other and carried out. -/
def carriesAll (server : Server) (u : Str) (n : Node) : List Cmd → Bool
  | [] => true
  | [cmd] => env.carries server u cmd n
  | cmd :: cmds =>
    env.carries server u cmd n && !env.raises server u cmd && carriesAll server u n cmds

/-- The command is carried out, or an exception stops the operation at it. -/
def Reports (w : World) (server : Server) (u : Str) (cmd : Cmd) : Prop :=
  env.connects w = false ∨ env.raises server u cmd = true ∨
    env.carries server u cmd (w.nodes server.id) = true

/-- The bridge gets the request for the token and does what it asks. -/
def Serves (w : World) (server : Server) (path : String) (token : Str) : Prop :=
  env.delivers server ⟨"POST", path, server.shadowlinkApiKey, some ⟨token, 0⟩⟩ = true ∧
    (w.nodes server.id).grants ⟨"POST", path, server.shadowlinkApiKey, some ⟨token, 0⟩⟩ = true

end Env

namespace NodeChange

/-- The outcomes of the remote step after which the operation has failed safely or not failed. -/
def SafeOn (env : Env) (w : World) (server : Server) (a : Account) : NodeChange → Prop
  | suspend _ =>
    match a.protocolType with
    | .shadowlink => env.Serves w server "/api/tokens/suspend" a.authToken
    | .ssh => env.Reports w server a.username .usermodLock
  | activate _ =>
    match a.protocolType with
    | .shadowlink => env.Serves w server "/api/tokens/activate" a.authToken
    | .ssh => env.Reports w server a.username .usermodUnlock
  | delete _ =>
    match a.protocolType with
    | .shadowlink => env.Serves w server "/api/tokens/delete" a.authToken
    | .ssh => env.raises server a.username .pkill = true ∨
        env.Reports w server a.username .userdel
  | expire => env.Reports w server a.username .usermodLock
  | extend days _ =>
    match a.extend env.now days with
    | .error _ => True
    | .ok a' =>
      (a.status ≠ .expired ∧ env.connects w = true ∧
        env.carries server a.username (.chage a'.expireDate.isoDate) (w.nodes server.id) = true) ∨
      (a.SameTerms a' ∧ (env.connects w = false ∨
        env.raises server a.username (.chage a'.expireDate.isoDate) = true))
  | patch data =>
    match data.dateAt env.now with
    | .error _ => True
    | .ok date =>
      data.commands (data.apply a date) = [] ∨
        env.connects w = true ∧ env.carriesAll server a.username (w.nodes server.id)
          (data.commands (data.apply a date)) = true

variable {op : NodeChange} {env : Env} {w : World} {server : Server} {a : Account}

/-- An exception before the save. -/
theorem failsSafe_of_error {e : Exc} {w' : World} {ds : List Deed}
    (ha : w.db.getAccount a.id = some a) (hdb : w'.db = w.db)
    (hend : op.ended env w a = (.error e, w', ds)) : op.FailsSafe env w server a := by
  intro _
  refine ⟨⟨a, ?_, rfl, rfl, rfl, rfl⟩, e, by rw [hend]⟩
  rw [hend, hdb]
  exact ha

/-- An exception after the save. -/
theorem failsSafe_of_raised {e : Exc} {w' : World} {ds needed : List Deed}
    (hdeeds : op.deeds env.now server a = some needed)
    (hend : op.ended env w a = (.error e, w', ds)) :
    op.FailsSafe env w server a ↔
      (∀ d ∈ needed, d ∈ ds) ∨ ∃ row, w'.db.getAccount a.id = some row ∧ a.SameTerms row := by
  have htook : op.TookEffect env w server a ↔ ∀ d ∈ needed, d ∈ ds := by
    simp [TookEffect, hdeeds, hend]
  have htold : op.Told env w a := ⟨e, by rw [hend]⟩
  unfold FailsSafe
  rw [htook, RowKept, hend]
  tauto

/-- An operation that returns tells nothing. -/
theorem failsSafe_of_ok {w' : World} {ds needed : List Deed}
    (hdeeds : op.deeds env.now server a = some needed)
    (hend : op.ended env w a = (.ok (), w', ds)) :
    op.FailsSafe env w server a ↔ ∀ d ∈ needed, d ∈ ds := by
  have htook : op.TookEffect env w server a ↔ ∀ d ∈ needed, d ∈ ds := by
    simp [TookEffect, hdeeds, hend]
  have htold : ¬ op.Told env w a := by
    rintro ⟨e, he⟩
    rw [hend] at he
    cases he
  constructor
  · intro h
    by_contra hn
    exact htold (h (mt htook.mp hn)).2
  · intro h hn
    exact (hn (htook.mpr h)).elim

/-- Operations that make one change over SSH and then write. -/
theorem failsSafe_command {cmd : Cmd} (rest : PanelProg Unit)
    (hprog : op.prog a = (do
      let server ← accountServer a
      SSHManager.connect server
      let _ ← SSHManager.run server a.username cmd
      rest))
    (hrest : ∀ w ds, ∃ w', rest.run (World.recorded env) (w, ds) = (.ok (), w', ds))
    (hdeeds : op.deeds env.now server a = some [.ran server.id a.username cmd])
    (ha : w.db.getAccount a.id = some a) (hs : w.db.getServer a.server = some server) :
    op.FailsSafe env w server a ↔ env.Reports w server a.username cmd := by
  have hbegin := PanelProg.run_accountServer env [] hs fun server => do
    SSHManager.connect server
    let _ ← SSHManager.run server a.username cmd
    rest
  unfold Env.Reports
  cases hc : env.connects w with
  | false =>
    obtain ⟨e, he⟩ := PanelProg.run_connect_error server [] hc fun _ => do
      let _ ← SSHManager.run server a.username cmd
      rest
    have hend : op.ended env w a = _ := hprog ▸ hbegin.trans he
    simpa using failsSafe_of_error ha World.connect_db hend
  | true =>
    have hstart := PanelProg.run_connect server [] hc fun _ => do
      let _ ← SSHManager.run server a.username cmd
      rest
    cases hr : env.raises server a.username cmd with
    | true =>
      obtain ⟨e, he⟩ := PanelProg.run_command_raises (w.connect env server).2 [] hr
        fun _ => rest
      have hend : op.ended env w a = _ := hprog ▸ hbegin.trans (hstart.trans he)
      simpa using failsSafe_of_error ha (World.exec_db.trans World.connect_db) hend
    | false =>
      obtain ⟨result, -, he⟩ := PanelProg.run_command (w.connect env server).2 [] hr
        fun _ => rest
      obtain ⟨w', hw'⟩ := hrest ((w.connect env server).2.exec env server a.username cmd).2
        (PanelProg.noted env server a.username cmd (w.connect env server).2 [])
      have hend : op.ended env w a = _ := hprog ▸ hbegin.trans (hstart.trans (he.trans hw'))
      rw [failsSafe_of_ok hdeeds hend]
      simp [PanelProg.noted, World.deed]

/-- Deleting ends the user's processes before it removes the user. -/
theorem failsSafe_delete {adminUser : Option Nat} (hp : a.protocolType = .ssh)
    (ha : w.db.getAccount a.id = some a) (hs : w.db.getServer a.server = some server) :
    (delete adminUser).FailsSafe env w server a ↔
      env.raises server a.username .pkill = true ∨ env.Reports w server a.username .userdel := by
  let rest : PanelProg Unit := do
    saveStatus a .deleted
    ask (.insertAuditLog ⟨.delete, some a.id, adminUser, []⟩)
  have hprog : (delete adminUser).prog a = (do
      let server ← accountServer a
      SSHManager.connect server
      let _ ← SSHManager.run server a.username .pkill
      let _ ← SSHManager.run server a.username .userdel
      rest) := by
    simp [prog, deleteAccount, changeStatus, hp, rest, SSHManager.deleteUser, Prog.bind_bind]
  have hbegin := PanelProg.run_accountServer env [] hs fun server => do
    SSHManager.connect server
    let _ ← SSHManager.run server a.username .pkill
    let _ ← SSHManager.run server a.username .userdel
    rest
  unfold Env.Reports
  cases hc : env.connects w with
  | false =>
    obtain ⟨e, he⟩ := PanelProg.run_connect_error server [] hc fun _ => do
      let _ ← SSHManager.run server a.username .pkill
      let _ ← SSHManager.run server a.username .userdel
      rest
    have hend : (delete adminUser).ended env w a = _ := hprog ▸ hbegin.trans he
    simpa using failsSafe_of_error ha World.connect_db hend
  | true =>
    have hstart := PanelProg.run_connect server [] hc fun _ => do
      let _ ← SSHManager.run server a.username .pkill
      let _ ← SSHManager.run server a.username .userdel
      rest
    let w₁ := (w.connect env server).2
    cases hk : env.raises server a.username .pkill with
    | true =>
      obtain ⟨e, he⟩ := PanelProg.run_command_raises w₁ [] hk fun _ => do
        let _ ← SSHManager.run server a.username .userdel
        rest
      have hend : (delete adminUser).ended env w a = _ := hprog ▸ hbegin.trans (hstart.trans he)
      simpa using failsSafe_of_error ha (World.exec_db.trans World.connect_db) hend
    | false =>
      obtain ⟨killed, -, hkill⟩ := PanelProg.run_command w₁ [] hk fun _ => do
        let _ ← SSHManager.run server a.username .userdel
        rest
      let w₂ := (w₁.exec env server a.username .pkill).2
      have hnodes : w₂.nodes = w.nodes := by
        simp only [w₂, World.nodes_exec, w₁, World.connect_nodes]
        simp [Node.succeed]
      cases hr : env.raises server a.username .userdel with
      | true =>
        obtain ⟨e, he⟩ := PanelProg.run_command_raises w₂
          (PanelProg.noted env server a.username .pkill w₁ []) hr fun _ => rest
        have hend : (delete adminUser).ended env w a = _ :=
          hprog ▸ hbegin.trans (hstart.trans (hkill.trans he))
        simpa using failsSafe_of_error ha
          (World.exec_db.trans (World.exec_db.trans World.connect_db)) hend
      | false =>
        obtain ⟨result, -, he⟩ := PanelProg.run_command w₂
          (PanelProg.noted env server a.username .pkill w₁ []) hr fun _ => rest
        have hend : (delete adminUser).ended env w a = _ :=
          hprog ▸ hbegin.trans (hstart.trans (hkill.trans (he.trans rfl)))
        have hdeeds : (delete adminUser).deeds env.now server a =
            some [.ran server.id a.username .userdel] := by
          simp [deeds, Account.change, hp]
        rw [failsSafe_of_ok hdeeds hend]
        simp [PanelProg.noted, World.deed, hnodes]

/-- Operations that ask the bridge, log a failure and write. -/
theorem failsSafe_request {path : String} (rest : PanelProg Unit)
    (hprog : op.prog a = (do
      let server ← accountServer a
      logged (ShadowLinkManager.bridgeRequest server "POST" path ⟨a.authToken, 0⟩)
      rest))
    (hrest : ∀ w ds, ∃ w', rest.run (World.recorded env) (w, ds) = (.ok (), w', ds))
    (hdeeds : op.deeds env.now server a = some
      [.served server.id ⟨"POST", path, server.shadowlinkApiKey, some ⟨a.authToken, 0⟩⟩])
    (hs : w.db.getServer a.server = some server) :
    op.FailsSafe env w server a ↔ env.Serves w server path a.authToken := by
  have hbegin := PanelProg.run_accountServer env [] hs fun server => do
    logged (ShadowLinkManager.bridgeRequest server "POST" path ⟨a.authToken, 0⟩)
    rest
  have hasked := PanelProg.run_logged env server w [] path
    ⟨a.authToken, 0⟩ fun _ => rest
  obtain ⟨w', hw'⟩ := hrest
    (w.http env server ⟨"POST", path, server.shadowlinkApiKey, some ⟨a.authToken, 0⟩⟩).2
    ((World.deed env (.http server ⟨"POST", path, server.shadowlinkApiKey,
      some ⟨a.authToken, 0⟩⟩) w).toList ++ [])
  have hend : op.ended env w a = _ := hprog ▸ hbegin.trans (hasked.trans hw')
  rw [failsSafe_of_ok hdeeds hend]
  simp [World.deed, Env.Serves]

/-- Only the end and the status can differ after an extension. -/
theorem sameTerms_extend {a' : Account} {now : DateTime} {days : Int}
    (h : a.extend now days = .ok a') :
    a.SameTerms (a.write a' [.expireDate, .status]) ↔ a.SameTerms a' := by
  have hlimits : a'.maxConnections = a.maxConnections ∧
      a'.bandwidthLimitGb = a.bandwidthLimitGb := by
    unfold Account.extend at h
    split at h <;> cases h
    exact ⟨rfl, rfl⟩
  constructor
  · intro hr
    exact ⟨hr.status, hr.expireDate, hlimits.1, hlimits.2⟩
  · intro hr
    exact ⟨hr.status, hr.expireDate, rfl, rfl⟩

theorem run_extend_error {e : Exc} {days : Int} (h : a.extend env.now days = .error e)
    (k : Account → PanelProg Unit) :
    (Panel.extend a days >>= k).run (World.recorded env) (w, []) = (.error e, w, []) := by
  simp [Panel.extend, World.handler, World.deed, h]

theorem run_extend {a' : Account} {days : Int} (h : a.extend env.now days = .ok a')
    (k : Account → PanelProg Unit) :
    (Panel.extend a days >>= k).run (World.recorded env) (w, []) = (k a').run (World.recorded env)
      (w.setAccounts (w.db.accounts.save a' [.expireDate, .status]), []) := by
  simp [Panel.extend, World.handler, World.deed, h]

/-- Extending saves before it connects. -/
theorem failsSafe_extend {days : Int} {adminUser : Option Nat}
    (ha : w.db.getAccount a.id = some a) (hs : w.db.getServer a.server = some server) :
    (extend days adminUser).FailsSafe env w server a ↔
      (extend days adminUser).SafeOn env w server a := by
  cases hext : a.extend env.now days with
  | error e =>
    have hend : (extend days adminUser).ended env w a = _ := run_extend_error hext _
    simpa [SafeOn, hext] using failsSafe_of_error ha rfl hend
  | ok a' =>
    obtain ⟨hkeys, hactive⟩ := Account.extend_ok hext
    let w₁ := w.setAccounts (w.db.accounts.save a' [.expireDate, .status])
    let date := a'.expireDate.isoDate
    let rest : PanelProg Unit := ask (.insertAuditLog ⟨.extend, some a'.id, adminUser,
      "+".toList ++ decimal days ++ " days → ".toList ++ date⟩)
    have hbegin : (extend days adminUser).ended env w a = (do
        let server ← accountServer a'
        SSHManager.connect server
        let _ ← SSHManager.run server a'.username (.chage date)
        rest : PanelProg Unit).run (World.recorded env) (w₁, []) := by
      refine (run_extend hext _).trans ?_
      simp only [hactive, reduceCtorEq, if_false]
      rfl
    have hs₁ : w₁.db.getServer a'.server = some server := by
      rw [hkeys.server]
      exact hs
    rw [PanelProg.run_accountServer env [] hs₁, hkeys.username] at hbegin
    have hdeeds : (extend days adminUser).deeds env.now server a =
        some (.ran server.id a.username (.chage date) ::
          if a.status = .expired then [.ran server.id a.username .usermodUnlock] else []) := by
      simp [deeds, hext, date]
    have hrow : ∀ w' : World, w'.db = w₁.db →
        ((∃ row, w'.db.getAccount a.id = some row ∧ a.SameTerms row) ↔ a.SameTerms a') := by
      intro w' hdb
      have hget : w₁.db.getAccount a.id = some (a.write a' [.expireDate, .status]) := by
        have := Db.getAccount_save ha a' [.expireDate, .status]
        rwa [if_pos hkeys.id.symm] at this
      simp [hdb, hget, sameTerms_extend hext]
    have hnodes : w₁.nodes = w.nodes := rfl
    simp only [SafeOn, hext]
    cases hc : env.connects w with
    | false =>
      obtain ⟨e, he⟩ := PanelProg.run_connect_error server [] (w := w₁) hc
        fun _ => SSHManager.run server a.username (.chage date) >>= fun _ => rest
      rw [failsSafe_of_raised hdeeds (hbegin.trans he), hrow _ World.connect_db,
        List.forall_mem_cons]
      simp
    | true =>
      rw [PanelProg.run_connect server [] (w := w₁) hc] at hbegin
      cases hr : env.raises server a.username (.chage date) with
      | true =>
        obtain ⟨e, he⟩ := PanelProg.run_command_raises (w₁.connect env server).2 []
          hr fun _ => rest
        rw [failsSafe_of_raised hdeeds (hbegin.trans he),
          hrow _ (World.exec_db.trans World.connect_db), List.forall_mem_cons]
        by_cases hx : a.status = .expired <;>
          simp [PanelProg.noted, World.deed, hnodes, hx, date]
      | false =>
        obtain ⟨result, -, he⟩ := PanelProg.run_command (w₁.connect env server).2 []
          hr fun _ => rest
        rw [failsSafe_of_ok hdeeds (hbegin.trans (he.trans rfl)), List.forall_mem_cons]
        by_cases hx : a.status = .expired <;>
          simp [PanelProg.noted, World.deed, hnodes, hx, date]

/-- What `patch` gets done on the node. -/
theorem record_push {data : AccountUpdate} {account : Account}
    (hs : w.db.getServer account.server = some server) :
    (∀ d ∈ (data.commands account).map (Deed.ran server.id account.username),
        d ∈ ((data.push account).run (World.recorded env) (w, [])).2.2) ↔
      data.commands account = [] ∨ env.connects w = true ∧
        env.carriesAll server account.username (w.nodes server.id) (data.commands account) = true := by
  let w₁ := (w.connect env server).2
  have hscript : ∀ cmd cmd' : Cmd, cmd.managesScript = false → cmd'.managesScript = true →
      Deed.ran server.id account.username cmd ≠ .ran server.id account.username cmd' := by
    intro cmd cmd' hcmd hcmd' heq
    cases heq
    exact Bool.false_ne_true (hcmd.symm.trans hcmd')
  have hmax : ∀ w ds, .ran server.id account.username (.maxLogins account.maxConnections) ∈
      ((SSHManager.setMaxLogins server account.username account.maxConnections).run (World.recorded env) (w, ds)).2.2 ↔
        .ran server.id account.username (.maxLogins account.maxConnections) ∈
          PanelProg.noted env server account.username (.maxLogins account.maxConnections) w ds :=
    fun w ds => PanelProg.mem_setMaxLogins fun cmd hcmd => hscript _ cmd rfl hcmd
  have hdate : ∀ w ds, .ran server.id account.username (.chage account.expireDate.isoDate) ∈
      ((SSHManager.setMaxLogins server account.username account.maxConnections).run (World.recorded env) (w, ds)).2.2 ↔
        .ran server.id account.username (.chage account.expireDate.isoDate) ∈
          PanelProg.noted env server account.username (.maxLogins account.maxConnections) w ds :=
    fun w ds => PanelProg.mem_setMaxLogins fun cmd hcmd => hscript _ cmd rfl hcmd
  unfold AccountUpdate.push AccountUpdate.commands
  rw [PanelProg.run_accountServer env [] hs]
  cases hc : env.connects w with
  | false =>
    obtain ⟨e, he⟩ := PanelProg.run_connect_error server [] hc fun _ => (do
      if data.durationDays.isSome || data.expireDate.isSome then
        let _ ← SSHManager.setExpiry server account.username account.expireDate.isoDate
      if data.maxConnections.isSome then
        let _ ← SSHManager.setMaxLogins server account.username account.maxConnections : PanelProg Unit)
    rw [he]
    simp only [List.not_mem_nil, imp_false, ← List.eq_nil_iff_forall_not_mem, List.map_eq_nil_iff,
      Bool.false_eq_true, false_and, or_false]
  | true =>
    rw [PanelProg.run_connect server [] hc]
    cases data.durationDays.isSome || data.expireDate.isSome with
    | false =>
      cases data.maxConnections.isSome with
      | false => simp
      | true =>
        simp only [Bool.false_eq_true, if_false, if_true, List.nil_append, List.map_cons,
          List.map_nil, List.forall_mem_singleton, PanelProg.run_return]
        rw [hmax]
        simp [PanelProg.noted, World.deed, Env.carriesAll]
    | true =>
      cases data.maxConnections.isSome with
      | false =>
        simp only [Bool.false_eq_true, if_false, if_true, List.append_nil, List.map_cons,
          List.map_nil, List.forall_mem_singleton, PanelProg.run_return, SSHManager.setExpiry,
          PanelProg.record_command]
        simp [PanelProg.noted, World.deed, Env.carriesAll]
      | true =>
        simp only [if_true, List.map_cons, List.map_nil, List.cons_append, List.nil_append,
          List.forall_mem_cons]
        cases hr : env.raises server account.username (.chage account.expireDate.isoDate) with
        | true =>
          obtain ⟨e, he⟩ := PanelProg.run_command_raises w₁ [] hr fun _ => (do
            let _ ← SSHManager.setMaxLogins server account.username account.maxConnections : PanelProg Unit)
          rw [SSHManager.setExpiry, he]
          simp [PanelProg.noted, World.deed, Env.carriesAll, hr]
        | false =>
          obtain ⟨result, -, he⟩ := PanelProg.run_command w₁ [] hr fun _ => (do
            let _ ← SSHManager.setMaxLogins server account.username account.maxConnections : PanelProg Unit)
          rw [SSHManager.setExpiry, he]
          simp only [PanelProg.run_return]
          rw [hmax, hdate]
          have hlimit : env.carries server account.username (.maxLogins account.maxConnections)
              ((w₁.exec env server account.username (.chage account.expireDate.isoDate)).2.nodes
                server.id) =
                env.carries server account.username (.maxLogins account.maxConnections)
                  (w.nodes server.id) := rfl
          simp [PanelProg.noted, World.deed, Env.carriesAll, hr, hlimit, w₁]

theorem run_newDate {data : AccountUpdate} {date : Option DateTime}
    (h : data.dateAt env.now = .ok date) (k : Option DateTime → PanelProg Account) :
    (data.newDate >>= k).run (World.recorded env) (w, []) =
      (k date).run (World.recorded env) (w, []) := by
  unfold AccountUpdate.dateAt at h
  unfold AccountUpdate.newDate
  cases hd : data.durationDays with
  | none =>
    simp only [hd, Except.ok.injEq] at h
    simp [h]
  | some days =>
    cases hadd : env.now.addDays days with
    | error e => simp [hd, hadd, Except.map] at h
    | ok d =>
      obtain rfl : some d = date := by simpa [hd, hadd, Except.map] using h
      simp [World.handler, World.deed, hadd]

theorem run_newDate_error {data : AccountUpdate} {e : Exc} (h : data.dateAt env.now = .error e)
    (k : Option DateTime → PanelProg Account) :
    (data.newDate >>= k).run (World.recorded env) (w, []) = (.error e, w, []) := by
  unfold AccountUpdate.dateAt at h
  unfold AccountUpdate.newDate
  cases hd : data.durationDays with
  | none => simp [hd] at h
  | some days =>
    cases hadd : env.now.addDays days with
    | error e' =>
      obtain rfl : e' = e := by simpa [hd, hadd, Except.map] using h
      simp [World.handler, World.deed, hadd]
    | ok d => simp [hd, hadd, Except.map] at h

/-- `patch` answers with the new row whatever becomes of the step on the node. -/
theorem failsSafe_patch {data : AccountUpdate} (ha : w.db.getAccount a.id = some a)
    (hs : w.db.getServer a.server = some server) :
    (patch data).FailsSafe env w server a ↔ (patch data).SafeOn env w server a := by
  have hbegin : ∀ k : Account → PanelProg Account,
      (ask (.getAccount a.id) >>= fun r => orHttp404 r >>= k).run (World.recorded env) (w, []) =
        (k a).run (World.recorded env) (w, []) := by
    intro k
    simp [World.handler, World.deed, ha, orHttp404]
  cases hd : data.dateAt env.now with
  | error e =>
    have hend : (patch data).ended env w a = (.error e, w, []) := by
      unfold ended prog patchAccount
      rw [run_bind, hbegin, run_newDate_error hd]
    simpa [SafeOn, hd] using failsSafe_of_error ha rfl hend
  | ok date =>
    let account := data.apply a date
    let w₁ := w.setAccounts (w.db.accounts.save account AccountField.all)
    have hs₁ : w₁.db.getServer account.server = some server := hs
    have hpatch : (patchAccount a.id data).run (World.recorded env) (w, []) =
        (.ok account, ((data.push account).run (World.recorded env) (w₁, [])).2) := by
      obtain ⟨b, hb⟩ := PanelProg.run_succeeded env (w₁, []) (data.push account)
        fun _ => Prog.ret account
      unfold patchAccount
      rw [hbegin, run_newDate hd]
      exact hb
    have hend : (patch data).ended env w a =
        (.ok (), ((data.push account).run (World.recorded env) (w₁, [])).2) := by
      unfold ended prog
      rw [run_bind, hpatch]
      rfl
    have hdeeds : (patch data).deeds env.now server a =
        some ((data.commands account).map (.ran server.id account.username)) := by
      simp [deeds, hd, account, AccountUpdate.apply]
    rw [failsSafe_of_ok hdeeds hend, record_push hs₁]
    simp only [SafeOn, hd]
    rfl

/-- The three operations that change the node, then the status. -/
theorem failsSafe_status {status : AccountStatus} {action : AuditAction} {adminUser : Option Nat}
    {path : String} {cmd : Cmd}
    (hprog : op.prog a = changeStatus a status action adminUser
      (fun server token => ShadowLinkManager.bridgeRequest server "POST" path ⟨token, 0⟩)
      fun server u => SSHManager.run server u cmd)
    (hdeeds : op.deeds env.now server a = some [a.change server path cmd])
    (ha : w.db.getAccount a.id = some a) (hs : w.db.getServer a.server = some server) :
    op.FailsSafe env w server a ↔
      match a.protocolType with
      | .shadowlink => env.Serves w server path a.authToken
      | .ssh => env.Reports w server a.username cmd := by
  let rest : PanelProg Unit := do
    saveStatus a status
    ask (.insertAuditLog ⟨action, some a.id, adminUser, []⟩)
  have hrest : ∀ w ds, ∃ w', rest.run (World.recorded env) (w, ds) = (.ok (), w', ds) :=
    fun w ds => ⟨_, rfl⟩
  cases hp : a.protocolType with
  | shadowlink =>
    refine failsSafe_request rest ?_ hrest (by simp [hdeeds, Account.change, hp]) hs
    simp only [hprog, changeStatus, hp]
    rfl
  | ssh =>
    refine failsSafe_command rest ?_ hrest (by simp [hdeeds, Account.change, hp]) ha hs
    simp only [hprog, changeStatus, hp]
    rfl

/-- A change that is not made on the node leaves the row and is reported exactly where the remote
step succeeds or raises before anything is written. -/
theorem failsSafe_iff (op : NodeChange) (env : Env) (w : World) (server : Server) (a : Account)
    (ha : w.db.getAccount a.id = some a) (hs : w.db.getServer a.server = some server) :
    op.FailsSafe env w server a ↔ op.SafeOn env w server a := by
  cases op with
  | suspend adminUser => exact failsSafe_status rfl rfl ha hs
  | activate adminUser => exact failsSafe_status rfl rfl ha hs
  | delete adminUser =>
    cases hp : a.protocolType with
    | ssh => simpa only [SafeOn, hp] using failsSafe_delete hp ha hs
    | shadowlink =>
      simp only [SafeOn, hp]
      refine failsSafe_request (do
        saveStatus a .deleted
        ask (.insertAuditLog ⟨.delete, some a.id, adminUser, []⟩)) ?_ (fun w ds => ⟨_, rfl⟩) ?_ hs
      · simp only [prog, deleteAccount, changeStatus, hp]
        rfl
      · simp [deeds, Account.change, hp]
  | expire =>
    exact failsSafe_command (saveStatus a .expired) rfl (fun w ds => ⟨_, rfl⟩) rfl ha hs
  | extend days adminUser => exact failsSafe_extend ha hs
  | patch data => exact failsSafe_patch ha hs

/-! One account on the server of the sample world. -/

def sampleAccount (protocolType : Protocol) : Account where
  id := 1
  username := "alice".toList
  passwordDisplay := "secret".toList
  server := 0
  plan := some 0
  protocolType := protocolType
  status := .active
  expireDate := sampleDay 30
  maxConnections := 1
  bandwidthLimitGb := 0
  bandwidthUsedGb := 0
  accessToken := "access".toList
  authToken := "auth".toList
  createdBy := none
  note := []

def sampleAccounts (protocolType : Protocol) : AccountTable :=
  ⟨[sampleAccount protocolType], List.nodup_singleton _, List.nodup_singleton _,
    List.nodup_singleton _, List.nodup_singleton _⟩

/-- The account has its user on the node, and its token at the bridge. -/
def sampleAccountWorld (protocolType : Protocol) : World :=
  { sampleWorld with
    db := { sampleWorld.db with accounts := sampleAccounts protocolType }
    nodes := fun _ =>
      ⟨AList.insert "alice".toList ⟨some "secret".toList, false, none⟩ ∅,
        ⟨AList.insert "auth".toList ⟨"auth".toList, 1, true⟩ ∅, []⟩⟩ }

/-- Where no connection comes about, suspending fails safely. -/
theorem failsSafe_unreachable :
    (suspend none).FailsSafe { sampleEnv 0 with connect := fun _ => .error (.sshError []) }
      (sampleAccountWorld .ssh) sampleServer (sampleAccount .ssh) :=
  (failsSafe_iff _ _ _ _ _ rfl rfl).mpr (.inl rfl)

/-- A command that exits with 1 is taken for one that worked. -/
theorem not_failsSafe : ¬ ∀ (op : NodeChange) (env : Env) (w : World) (server : Server)
    (a : Account), w.db.getAccount a.id = some a → w.db.getServer a.server = some server →
      op.FailsSafe env w server a := by
  intro h
  have hsuspend := h (suspend none)
    { sampleEnv 0 with exec := fun _ _ _ => .finished ⟨1, [], "usermod: cannot lock".toList⟩ }
    (sampleAccountWorld .ssh) sampleServer (sampleAccount .ssh) rfl rfl
  have hdone := (failsSafe_of_ok rfl rfl).mp hsuspend _ (List.mem_singleton.mpr rfl)
  cases hdone

end NodeChange

end SshPanelVpn.Panel

import SshPanelVpn.Panel.Specs

/-! SSH accounts: the status in the table and the lock on the node. -/
namespace SshPanelVpn.Panel

open Effects Runs

/-! What the commands do to the users who can log in. -/

theorem Cmd.accessAfter_eq {cmd : Cmd} (h : cmd.managesUser = false) (u : Str)
    (access : Str → Bool) : cmd.accessAfter u access = access := by
  cases cmd <;> first | rfl | cases h

namespace Node

variable {n n' : Node} {u : Str}

theorem access_insert (n : Node) (u : Str) (user : UnixUser) :
    Node.access { n with users := n.users.insert u user } = Function.update n.access u (!user.locked) := by
  funext v
  by_cases hv : v = u
  · subst hv
    simp [access]
  · simp [access, hv]

theorem access_erase (n : Node) (u : Str) :
    Node.access { n with users := n.users.erase u } = Function.update n.access u false := by
  funext v
  by_cases hv : v = u
  · subst hv
    simp [access]
  · simp [access, hv]

theorem access_modifyUser {f : UnixUser → UnixUser} (h : n.modifyUser u f = some n') :
    ∃ user, n.users.lookup u = some user ∧ n'.access = Function.update n.access u (!(f user).locked) := by
  unfold modifyUser at h
  obtain ⟨user, hu, rfl⟩ := Option.map_eq_some_iff.mp h
  exact ⟨user, hu, access_insert n u (f user)⟩

theorem access_setPasswords {entries : List (Str × Str)} (h : n.setPasswords entries = some n') :
    n'.access = fun v => v ∈ entries.map Prod.fst || n.access v := by
  induction entries generalizing n with
  | nil =>
    cases h
    simp
  | cons e entries ih =>
    obtain ⟨u, password⟩ := e
    simp only [setPasswords] at h
    cases hm : n.modifyUser u fun user => { user with password := some password, locked := false } with
    | none => simp [hm] at h
    | some m =>
      simp only [hm] at h
      obtain ⟨user, -, hacc⟩ := access_modifyUser hm
      rw [ih h, hacc]
      funext v
      by_cases hv : v = u
      · subst hv
        simp
      · rw [Bool.eq_iff_iff]
        simp [hv]

/-- The node's users follow the abstract effect. -/
theorem access_succeed {cmd : Cmd} (h : n.succeed u cmd = some n') :
    n'.access = cmd.accessAfter u n.access := by
  cases cmd with
  | useradd =>
    simp only [succeed] at h
    split at h
    · cases h
    · cases h
      exact access_insert n u ⟨none, true, none⟩
  | chpasswd password =>
    simp only [succeed] at h
    cases he : chpasswdEntries u password with
    | none => simp [he] at h
    | some entries =>
      simp only [he] at h
      rw [access_setPasswords h]
      funext v
      rw [Bool.eq_iff_iff]
      simp only [Cmd.accessAfter, Bool.or_eq_true, decide_eq_true_eq]
      simp [chpasswdNames, he]
  | userdel =>
    obtain ⟨user, hu, rfl⟩ := Option.map_eq_some_iff.mp h
    exact access_erase n u
  | usermodLock =>
    obtain ⟨user, -, hacc⟩ := access_modifyUser h
    exact hacc
  | usermodUnlock =>
    obtain ⟨user, -, hacc⟩ := access_modifyUser h
    exact hacc
  | chage date =>
    obtain ⟨user, hu, hacc⟩ := access_modifyUser h
    rw [hacc]
    funext v
    by_cases hv : v = u
    · subst hv
      simp [Cmd.accessAfter, access, hu]
    · simp [Cmd.accessAfter, hv]
  | _ =>
    cases h
    rfl

end Node

/-! The commands over the logins of all nodes. -/

/-- Which user can log in to which server. -/
def logins : Observation (Nat → Str → Bool) := ⟨fun nodes server u => (nodes server).access u, Event.sshFailed⟩

def setLogin (access : Nat → Str → Bool) (server : Nat) (u : Str) (b : Bool) : Nat → Str → Bool :=
  onServer access server fun f => Function.update f u b

namespace logins

variable {env : Env} {server : Server} {u : Str} {cmd : Cmd}
  {I X : View (Nat → Str → Bool) → Prop}

theorem view_updateNode (w : World) (s : Nat) (n : Node) : logins.view (w.updateNode s n) =
    { logins.view w with remote := Function.update (logins.remote w.nodes) s n.access } := by
  have h : logins.remote (Function.update w.nodes s n) =
      Function.update (logins.remote w.nodes) s n.access := by
    funext t v
    by_cases ht : t = s
    · subst ht
      simp [logins]
    · simp [logins, ht]
  simp [Observation.view, World.updateNode, h]

theorem connect : logins.Spec env I (SSHManager.connect server) (fun _ => I) fun _ => False := by
  have hcall : logins.Spec env I (ask (.connect server))
      (fun r v => (∃ x, r = .ok x) ∧ I v) fun _ => False := by
    refine .ask ?_
    intro w hok hI
    cases hc : env.connect w.log.length with
    | ok x => exact ⟨⟨(), by simp [World.handler, World.connect, hc]⟩,
        by simpa [World.handler, World.connect, hc] using hI⟩
    | error e =>
      exfalso
      simp [World.handler, World.connect, hc, Observation.ok_logged, logins, Event.sshFailed] at hok
  refine hcall.bind fun r => .ofExcept ?_ ?_
  · rintro _ v rfl ⟨-, hI⟩
    exact hI
  · rintro e v rfl ⟨⟨x, hx⟩, -⟩
    cases hx

/-- The node after a command is the one before or the one after its effect. -/
theorem exec_cases (env : Env) (server : Server) (u : Str) (cmd : Cmd) (w : World) :
    (∃ e, (w.exec env server u cmd).1 = .error e ∧
      Event.sshFailed (.ran server.id u cmd none) = true ∧
      ¬ logins.Ok (w.exec env server u cmd).2) ∨
    ∃ r, (w.exec env server u cmd).1 = .ok r ∧
      ((r.exitCode = 0 ∧ logins.view (w.exec env server u cmd).2 =
        { logins.view w with remote := onServer (logins.remote w.nodes) server.id (cmd.accessAfter u) }) ∨
      (r.exitCode ≠ 0 ∧ logins.view (w.exec env server u cmd).2 = logins.view w ∧
        (logins.Ok (w.exec env server u cmd).2 → cmd.managesUser = false))) := by
  unfold World.exec
  cases env.exec server u cmd with
  | raised e applied =>
    refine Or.inl ⟨e, rfl, rfl, ?_⟩
    simp [Observation.ok_logged, logins, Event.sshFailed]
  | finished result =>
    refine Or.inr ?_
    by_cases h0 : result.exitCode = 0
    · cases hs : (w.nodes server.id).succeed u cmd with
      | some n' =>
        refine ⟨result, by simp [h0, hs], Or.inl ⟨h0, ?_⟩⟩
        simp only [h0, hs, if_true]
        rw [Observation.view_logged, view_updateNode, Node.access_succeed hs]
        rfl
      | none =>
        refine ⟨{ result with exitCode := 1 }, by simp [h0, hs], Or.inr ⟨by simp, by simp [h0, hs], ?_⟩⟩
        simp only [h0, hs, if_true, Observation.ok_logged]
        rintro ⟨hf, -⟩
        simpa [logins, Event.sshFailed] using hf
    · refine ⟨result, by simp [h0], Or.inr ⟨h0, by simp [h0], ?_⟩⟩
      simp only [h0, if_false, Observation.ok_logged]
      rintro ⟨hf, -⟩
      simpa [logins, Event.sshFailed, h0] using hf

/-- A command: it has its effect, or it is none that must succeed. -/
theorem run (server : Server) (u : Str) (cmd : Cmd) :
    logins.Spec env
      (fun v => I { v with remote := onServer v.remote server.id (cmd.accessAfter u) } ∧
        (cmd.managesUser = false → I v))
      (SSHManager.run server u cmd) (fun r v => (cmd.managesUser = true → r.ok = true) ∧ I v)
      fun _ => False := by
  have hcall : logins.Spec env
      (fun v => I { v with remote := onServer v.remote server.id (cmd.accessAfter u) } ∧
        (cmd.managesUser = false → I v))
      (ask (.exec server u cmd))
      (fun x v => ∃ r, x = .ok r ∧ (cmd.managesUser = true → r.exitCode = 0) ∧ I v)
      fun _ => False := by
    refine .ask ?_
    rintro w hok ⟨hI, hquiet⟩
    rcases exec_cases env server u cmd w with ⟨e, -, -, hn⟩ | ⟨r, hr, ⟨h0, hv⟩ | ⟨h0, hv, hm⟩⟩
    · exact (hn hok).elim
    · refine ⟨r, hr, fun _ => h0, ?_⟩
      change I (logins.view (w.exec env server u cmd).2)
      rw [hv]
      exact hI
    · have hm := hm hok
      refine ⟨r, hr, fun h => by simp [hm] at h, ?_⟩
      change I (logins.view (w.exec env server u cmd).2)
      rw [hv]
      exact hquiet hm
  refine hcall.bind fun x => ?_
  refine (Observation.Spec.ofExcept (A := fun r v => (cmd.managesUser = true → r.exitCode = 0) ∧ I v)
    ?_ ?_).bind fun r => ?_
  · rintro _ v rfl ⟨r, hr, h, hI⟩
    cases hr
    exact ⟨h, hI⟩
  · rintro e v rfl ⟨r, hr, -⟩
    cases hr
  · refine .ret ?_
    rintro v ⟨h, hI⟩
    exact ⟨fun hm => by simp [CommandResult.ok, h hm], hI⟩

/-- A command that manages no users. -/
theorem run_quiet (server : Server) (u : Str) {cmd : Cmd} (h : cmd.managesUser = false) :
    logins.Spec env I (SSHManager.run server u cmd) (fun _ => I) fun _ => False := by
  refine (run server u cmd).imp ?_ (fun _ _ h => h.2) fun _ h => h
  intro v hI
  refine ⟨?_, fun _ => hI⟩
  have hr : onServer v.remote server.id (cmd.accessAfter u) = v.remote := by
    simp [onServer, Cmd.accessAfter_eq h]
  rw [hr]
  exact hI

/-- A command that manages users. -/
theorem run_effect (cmd : Cmd) (h : cmd.managesUser = true) (server : Server) (u : Str) :
    logins.Spec env (fun v => I { v with remote := onServer v.remote server.id (cmd.accessAfter u) })
      (SSHManager.run server u cmd) (fun r v => r.ok = true ∧ I v) fun _ => False := by
  refine (run server u cmd).imp ?_ (fun _ _ hv => ⟨hv.1 h, hv.2⟩) fun _ hv => hv
  intro v hI
  exact ⟨hI, fun hm => by simp [h] at hm⟩

theorem setExpiry (dateStr : Str) :
    logins.Spec env I (SSHManager.setExpiry server u dateStr) (fun _ => I) fun _ => False :=
  run_quiet server u rfl

theorem setMaxLogins (n : Int) :
    logins.Spec env I (SSHManager.setMaxLogins server u n) (fun _ => I) fun _ => False := by
  have hscript : logins.Spec env I (SSHManager.ensureMaxloginScript server u) (fun _ => I)
      fun _ => False := by
    refine (run_quiet server u rfl).bind ?_
    intro check
    split
    · exact .ret fun _ h => h
    · exact (run_quiet server u rfl).bind fun _ => (run_quiet server u rfl).bind fun _ =>
        (run_quiet server u rfl).bind fun _ => .ret fun _ h => h
  exact (run_quiet server u rfl).bind fun _ => hscript.bind fun _ => .ret fun _ h => h

theorem setupTrafficAccounting :
    logins.Spec env I (SSHManager.setupTrafficAccounting server u) (fun _ => I) fun _ => False := by
  refine (run_quiet server u rfl).bind ?_
  intro result
  dsimp only
  split
  · exact .ret fun _ h => h
  · refine (run_quiet server u rfl).bind ?_
    intro present
    split
    · exact (run_quiet server u rfl).bind fun _ => (run_quiet server u rfl).bind fun _ =>
        (run_quiet server u rfl).bind fun _ => .ret fun _ h => h
    · exact .ret fun _ h => h

theorem getUserBandwidthBytes :
    logins.Spec env I (SSHManager.getUserBandwidthBytes server u) (fun _ => I) I := by
  refine (run_quiet server u rfl).never.bind ?_
  intro result
  exact .ofExcept (fun _ _ _ h => h) fun _ _ _ h => h

theorem view_serve (w : World) (s : Nat) (request : ShadowLink.BridgeRequest) :
    logins.view (w.serve s request).2 = logins.view w := by
  simp only [World.serve]
  rw [view_updateNode]
  have h : (Function.update (logins.remote w.nodes) s
      (Node.access { w.nodes s with bridge := ((w.nodes s).bridge.serveHTTP request).2 })) =
        logins.remote w.nodes := Function.update_eq_self s _
  rw [h]
  rfl

/-- The bridge does not touch the users, whatever it answers. -/
theorem http (request : ShadowLink.BridgeRequest) :
    logins.Spec env I (ask (.http server request)) (fun _ => I) X := by
  refine .ask ?_
  intro w _ hI
  simp only [World.handler, World.http]
  split
  · exact hI
  · split
    · rw [Observation.view_logged, view_serve]
      exact hI
    · exact hI
  · simp only [Observation.view_logged, view_serve]
    exact hI

theorem bridgeRequest (method path : String) (data : ShadowLink.TokenRequest) :
    logins.Spec env I (ShadowLinkManager.bridgeRequest server method path data) (fun _ => I) I := by
  refine (http _).bind ?_
  intro r
  split
  · exact .raise fun _ h => h
  · exact .raise fun _ h => h
  · split
    · exact .raise fun _ h => h
    · exact .ret fun _ h => h

end logins

/-! The link between the two copies. -/

/-- Every SSH account is ACTIVE exactly where its user can log in. -/
def Linked (accounts : AccountTable) (access : Nat → Str → Bool) : Prop :=
  ∀ a ∈ accounts, a.protocolType = .ssh → (a.status = .active ↔ access a.server a.username = true)

namespace Linked

variable {t : AccountTable} {access : Nat → Str → Bool}

/-- A status may change together with the login it stands for. -/
theorem save_status (h : Linked t access) {a row : Account} (hrow : row ∈ t) (hk : row.SameKeys a)
    {status : AccountStatus} {b : Bool} (hb : status = .active ↔ b = true) :
    Linked (t.save { a with status := status } [.status])
      (setLogin access a.server a.username b) := by
  intro c hc hssh
  obtain ⟨d, hd, rfl⟩ := AccountTable.mem_save.mp hc
  by_cases hid : d.id = a.id
  · have hda : d = row := AccountTable.eq_of_id hd hrow (hid.trans hk.id)
    subst hda
    simp [hid, Account.write, Account.writeField, setLogin, onServer, ← hk.server, ← hk.username, hb]
  · simp only [hid, if_false] at hssh ⊢
    have hne : ¬ (d.server = a.server ∧ d.username = a.username) := by
      rintro ⟨hs, hu⟩
      have hdr := AccountTable.eq_of_name hd hrow (hu.trans hk.username) (hs.trans hk.server)
      exact hid (by rw [hdr, ← hk.id])
    have hacc : setLogin access a.server a.username b d.server d.username =
        access d.server d.username := by
      by_cases hs : d.server = a.server
      · have hu : d.username ≠ a.username := fun hu => hne ⟨hs, hu⟩
        simp [setLogin, onServer, hs, hu]
      · simp [setLogin, onServer, hs]
    rw [hacc]
    exact h d hd hssh

/-- Columns other than the status do not matter. -/
theorem save_other (h : Linked t access) {obj : Account} {fields : List AccountField}
    (hs : ∀ row ∈ t, row.id = obj.id → row.protocolType = .ssh →
      (row.write obj fields).status = row.status) : Linked (t.save obj fields) access := by
  intro c hc hssh
  obtain ⟨d, hd, rfl⟩ := AccountTable.mem_save.mp hc
  by_cases hid : d.id = obj.id
  · have hk := d.write_keys obj fields
    simp only [hid, if_true] at hssh ⊢
    rw [hk.protocolType] at hssh
    rw [hs d hd hid hssh, hk.server, hk.username]
    exact h d hd hssh
  · simp only [hid, if_false] at hssh ⊢
    exact h d hd hssh

end Linked

/-! The operations keep the link. -/

section Operations

variable {env : Env}

def linked (v : View (Nat → Str → Bool)) : Prop := Linked v.db.accounts v.remote

/-- The link and the rows of some objects. -/
def linkedWith (accs : List Account) (v : View (Nat → Str → Bool)) : Prop :=
  linked v ∧ ∀ a ∈ accs, v.Known a

/-- The SSH function of a service sets the login of a user. -/
def SetsLogin (env : Env) (ssh : Server → Str → PanelProg CommandResult) (b : Bool) : Prop :=
  ∀ (server : Server) (u : Str) (I : View (Nat → Str → Bool) → Prop),
    logins.Spec env (fun v => I { v with remote := setLogin v.remote server.id u b }) (ssh server u)
      (fun _ => I) fun _ => False

theorem setsLogin_lockUser : SetsLogin env SSHManager.lockUser false := by
  intro server u I
  exact (logins.run_effect .usermodLock rfl server u).post fun _ _ h => h.2

theorem setsLogin_unlockUser : SetsLogin env SSHManager.unlockUser true := by
  intro server u I
  exact (logins.run_effect .usermodUnlock rfl server u).post fun _ _ h => h.2

theorem setsLogin_deleteUser : SetsLogin env SSHManager.deleteUser false := by
  intro server u I
  exact (logins.run_quiet server u rfl).bind fun _ =>
    (logins.run_effect .userdel rfl server u).post fun _ _ h => h.2

theorem linked_setStatus {v : View (Nat → Str → Bool)} {a : Account} {accs : List Account}
    (h : linkedWith accs v) (ha : v.Known a) {status : AccountStatus} {b : Bool}
    (hb : status = .active ↔ b = true) :
    linkedWith accs (View.save { v with remote := setLogin v.remote a.server a.username b }
      { a with status := status } [.status]) := by
  obtain ⟨row, hrow, hk⟩ := ha
  exact ⟨h.1.save_status hrow hk hb, fun c hc => (h.2 c hc).save⟩

theorem linked_saveShadowlink {v : View (Nat → Str → Bool)} {obj : Account} {accs : List Account}
    (h : linkedWith accs v) (ha : v.Known obj) (hp : obj.protocolType = .shadowlink)
    {fields : List AccountField} : linkedWith accs (v.save obj fields) := by
  obtain ⟨row, hrow, hk⟩ := ha
  refine ⟨h.1.save_other ?_, fun c hc => (h.2 c hc).save⟩
  intro d hd hid hssh
  have hdr := AccountTable.eq_of_id hd hrow (hid.trans hk.id)
  rw [hdr, ← hk.protocolType, hp] at hssh
  cases hssh

theorem changeStatus_linked {accs : List Account} {a : Account} (ha : a ∈ accs)
    {status : AccountStatus} {action : AuditAction} {adminUser : Option Nat}
    {bridge : Server → Str → PanelProg ShadowLink.BridgeResponse}
    {ssh : Server → Str → PanelProg CommandResult} {b : Bool} (hb : status = .active ↔ b = true)
    (hbridge : ∀ server token I, logins.Spec env I (bridge server token) (fun _ => I) I)
    (hssh : SetsLogin env ssh b) :
    logins.Spec env (linkedWith accs) (changeStatus a status action adminUser bridge ssh)
      (fun _ => linkedWith accs) (linkedWith accs) := by
  refine (Observation.Spec.accountServer a).bind fun server => .pure fun hs => ?_
  have hsave : logins.Spec env (fun v => linkedWith accs (v.save { a with status := status } [.status]))
      (do
        saveStatus a status
        ask (.insertAuditLog ⟨action, some a.id, adminUser, []⟩))
      (fun _ => linkedWith accs) (linkedWith accs) :=
    (Observation.Spec.saveAccount _ _).bind fun _ =>
      (Observation.Spec.insertAuditLog _).pre fun _ h => h
  cases hp : a.protocolType with
  | shadowlink =>
    refine (Observation.Spec.logged (hbridge server a.authToken _)).bind fun _ => hsave.pre ?_
    intro v hv
    exact linked_saveShadowlink hv ((hv.2 a ha).status status) hp
  | ssh =>
    refine logins.connect.never.bind fun _ => ?_
    refine Observation.Spec.bind (Observation.Spec.pre (hssh server a.username _) ?_).never
      fun _ => hsave
    intro v hv
    rw [hs]
    exact linked_setStatus hv (hv.2 a ha) hb

theorem expireUser_linked {accs : List Account} {a : Account} (ha : a ∈ accs) :
    logins.Spec env (linkedWith accs) (expireUser a) (fun _ => linkedWith accs) (linkedWith accs) := by
  refine (Observation.Spec.accountServer a).bind fun server => .pure fun hs => ?_
  refine logins.connect.never.bind fun _ => ?_
  refine Observation.Spec.bind (Observation.Spec.pre (setsLogin_lockUser server a.username _) ?_).never
    fun _ => Observation.Spec.saveAccount _ _
  intro v hv
  rw [hs]
  exact linked_setStatus hv (hv.2 a ha) (by simp)

/-- Saving anything but the status. -/
theorem linked_saveOther {v : View (Nat → Str → Bool)} {accs : List Account} (h : linkedWith accs v)
    {obj : Account} {fields : List AccountField}
    (hf : ∀ row : Account, (row.write obj fields).status = row.status) :
    linkedWith accs (v.save obj fields) :=
  ⟨h.1.save_other fun row _ _ _ => hf row, fun c hc => (h.2 c hc).save⟩

theorem saveUsage_linked {accs : List Account} {a : Account} {gb : Nat} :
    logins.Spec env (linkedWith accs) (saveUsage a gb) (fun _ => linkedWith accs) (linkedWith accs) := by
  unfold saveUsage
  split
  · refine (Observation.Spec.saveAccount _ _).pre ?_
    intro v hv
    exact linked_saveOther hv fun _ => rfl
  · exact .ret fun _ h => h

theorem enforceLimit_linked {accs : List Account} {a : Account} (ha : a ∈ accs) {srv : Server}
    (hsrv : a.server = srv.id) {gb : Nat} :
    logins.Spec env (linkedWith accs) (enforceLimit srv a gb) (fun _ => linkedWith accs)
      (linkedWith accs) := by
  unfold enforceLimit
  split
  · refine Observation.Spec.bind (Observation.Spec.pre (setsLogin_lockUser srv a.username _) ?_).never
      fun _ => Observation.Spec.saveAccount _ _
    intro v hv
    rw [← hsrv]
    exact linked_setStatus hv (hv.2 a ha) (by simp)
  · exact .ret fun _ h => h

theorem syncAccount_linked {accs : List Account} {a : Account} (ha : a ∈ accs) {srv : Server}
    (hsrv : a.server = srv.id) :
    logins.Spec env (linkedWith accs) (syncAccount srv a) (fun _ => linkedWith accs)
      (linkedWith accs) := by
  refine logins.setupTrafficAccounting.never.bind fun _ => ?_
  refine logins.getUserBandwidthBytes.bind fun bytesUsed => ?_
  exact saveUsage_linked.bind fun _ => enforceLimit_linked ha hsrv

theorem selectAccounts_linked {query : AccountQuery} {X : View (Nat → Str → Bool) → Prop} :
    logins.Spec env linked (ask (.selectAccounts query))
      (fun accs v => (∀ a ∈ accs, query.filter a = true) ∧ linkedWith accs v) X := by
  refine (Observation.Spec.read (fun v => v.db.selectAccounts query) fun _ => rfl).post ?_
  rintro accs v ⟨rfl, hv⟩
  refine ⟨fun a ha => (Db.mem_selectAccounts.mp ha).2, hv, ?_⟩
  intro a ha
  exact ⟨a, (Db.mem_selectAccounts.mp ha).1, .refl a⟩

theorem expireUsers_linked : logins.Spec env linked expireUsers (fun _ => linked) linked := by
  refine (Observation.Spec.read (fun _ => env.now) fun _ => rfl).bind fun now => ?_
  refine (selectAccounts_linked.pre fun _ h => h.2).bind fun accs => .pure fun _ => ?_
  exact (Observation.Spec.countSucceeded fun a ha => expireUser_linked ha).post fun _ _ h => h.1

theorem deleteAccount_linked {accs : List Account} {a : Account} (ha : a ∈ accs)
    {adminUser : Option Nat} :
    logins.Spec env (linkedWith accs) (deleteAccount a adminUser) (fun _ => linkedWith accs)
      (linkedWith accs) :=
  changeStatus_linked ha (by simp) (fun _ _ _ => logins.bridgeRequest _ _ _) setsLogin_deleteUser

theorem cleanupExpiredAccounts_linked {graceDays : Int} :
    logins.Spec env linked (cleanupExpiredAccounts graceDays) (fun _ => linked) linked := by
  refine (Observation.Spec.read (fun _ => env.now) fun _ => rfl).bind fun now => ?_
  refine (Observation.Spec.ofExcept (A := fun _ => linked) (fun _ _ _ h => h.2)
    fun _ _ _ h => h.2).bind fun cutoff => ?_
  refine selectAccounts_linked.bind fun accs => .pure fun _ => ?_
  exact (Observation.Spec.countSucceeded fun a ha => deleteAccount_linked ha).post fun _ _ h => h.1

theorem syncServer_linked {srv : Server} :
    logins.Spec env linked (syncServer srv) (fun _ => linked) linked := by
  refine selectAccounts_linked.bind fun accs => ?_
  split
  · exact .ret fun _ h => h.2.1
  · refine (logins.connect.never.pre fun _ h => h.2.1).bind fun _ => ?_
    refine selectAccounts_linked.bind fun accs => .pure fun hon => ?_
    refine (Observation.Spec.syncAccounts fun a ha => syncAccount_linked ha ?_).imp (fun _ h => h)
      (fun _ _ h => h.1) fun _ h => h.1
    have := hon a ha
    simp only [AccountQuery.filter, decide_eq_true_eq] at this
    exact this.1

theorem syncBandwidthUsage_linked :
    logins.Spec env linked syncBandwidthUsage (fun _ => linked) linked := by
  refine (Observation.Spec.read (fun v => v.db.activeServers) fun _ => rfl).bind fun servers => ?_
  exact (Observation.Spec.syncServers fun srv _ => syncServer_linked).pre fun _ h => h.2

theorem extendAccount_linked {a : Account} {days : Int} {adminUser : Option Nat}
    (hg : ExtendsActive .ssh env a days) :
    logins.Spec env (fun v => a ∈ v.db.accounts ∧ linked v) (extendAccount a days adminUser)
      (fun _ => linked) linked := by
  refine (Observation.Spec.extend (J := linked) ?_ fun _ h => h.2).bind fun a' => .pure fun he => ?_
  · rintro a' v he ⟨ha, hv⟩
    refine hv.save_other ?_
    intro row hrow hid hssh
    obtain rfl := AccountTable.eq_of_id hrow ha (hid.trans (Account.extend_ok he).1.id)
    have hactive := (hg hssh).resolve_right fun hn => hn a' he
    simp [Account.write, Account.writeField, (Account.extend_ok he).2, hactive]
  refine (Observation.Spec.accountServer a').bind fun server => .pure fun _ => ?_
  refine logins.connect.never.bind fun _ => ?_
  refine (logins.setExpiry _).never.bind fun _ => ?_
  have haudit : ∀ entry, logins.Spec env linked (ask (.insertAuditLog entry)) (fun _ => linked) linked :=
    fun entry => (Observation.Spec.insertAuditLog entry).pre fun _ h => h
  dsimp only
  split
  · next hexp => simp [(Account.extend_ok he).2] at hexp
  · exact haudit _

theorem push_linked {data : AccountUpdate} (account : Account) :
    logins.Spec env linked (data.push account) (fun _ => linked) linked := by
  refine (Observation.Spec.accountServer _).bind fun server => .pure fun _ => ?_
  refine logins.connect.never.bind fun _ => ?_
  have hlogins : logins.Spec env linked (if data.maxConnections.isSome then do
      let _ ← SSHManager.setMaxLogins server account.username account.maxConnections
      else return ()) (fun _ => linked) linked := by
    split
    · exact (logins.setMaxLogins _).never.bind fun _ => .ret fun _ h => h
    · exact .ret fun _ h => h
  dsimp only
  split
  · exact (logins.setExpiry _).never.bind fun _ => hlogins
  · exact hlogins

theorem patchAccount_linked {pk : Nat} {data : AccountUpdate} :
    logins.Spec env linked (patchAccount pk data) (fun _ => linked) linked := by
  refine Observation.Spec.patchAccount ?_ push_linked fun _ h => h
  intro a date v ha _ hv
  refine hv.save_other ?_
  intro row hrow hid _
  have hrow' : row = a := AccountTable.eq_of_id hrow (Db.getAccount_mem ha) hid
  rw [hrow', Account.write_all_status]
  rfl

/-! Creation. -/

/-- What `create_user` pipes into `chpasswd` sets the new user's password, and that of no user whose
account is not ACTIVE. -/
def SetsOwnPassword (db : Db) (server : Nat) (username password : Str) : Prop :=
  username ∈ chpasswdNames username password ∧
    ∀ a ∈ db.accounts, a.protocolType = .ssh → a.server = server →
      a.username ∈ chpasswdNames username password → a.username = username ∨ a.status = .active

/-- So it is for an SSH account on the server that `create_account` picks. -/
def CreatesOwnUser (env : Env) (db : Db) (args : CreateArgs) : Prop :=
  ∀ server, db.pickBestServer env.ties args.server = some server →
    args.protocolType.getD server.protocolType = .ssh →
      SetsOwnPassword db server.id args.username (passwordOf env args.password)

/-- The logins after `create_user`. -/
def loginsCreated (access : Nat → Str → Bool) (server : Nat) (u password : Str) : Nat → Str → Bool :=
  onServer (onServer access server (Cmd.useradd.accessAfter u)) server
    ((Cmd.chpasswd password).accessAfter u)

theorem Linked.insert {db : Db} {access : Nat → Str → Bool} (h : Linked db.accounts access)
    {a : Account} {t : AccountTable} (hi : db.accounts.insert a = some t) {password : Str}
    (hactive : a.status = .active) (hg : SetsOwnPassword db a.server a.username password) :
    Linked t (loginsCreated access a.server a.username password) := by
  have hnew : { a with id := db.accounts.nextId } ∈ t := (AccountTable.mem_insert hi).mpr (Or.inl rfl)
  intro b hb hssh
  by_cases hkey : b.username = a.username ∧ b.server = a.server
  · obtain rfl := AccountTable.eq_of_name hb hnew hkey.1 hkey.2
    simp [hactive, loginsCreated, onServer, Cmd.accessAfter, hg.1]
  · have hb' : b ∈ db.accounts := by
      rcases (AccountTable.mem_insert hi).mp hb with rfl | hb
      · exact (hkey ⟨rfl, rfl⟩).elim
      · exact hb
    have hlink := h b hb' hssh
    by_cases hs : b.server = a.server
    · have hu : b.username ≠ a.username := fun hu => hkey ⟨hu, hs⟩
      by_cases hm : b.username ∈ chpasswdNames a.username password
      · have hbactive := (hg.2 b hb' hssh hs hm).resolve_left hu
        simp [loginsCreated, onServer, Cmd.accessAfter, hs, hm, hbactive]
      · simp [loginsCreated, onServer, Cmd.accessAfter, hs, hm, hu, hlink]
    · simp [loginsCreated, onServer, hs, hlink]

theorem Linked.insert_shadowlink {db : Db} {access : Nat → Str → Bool} (h : Linked db.accounts access)
    {a : Account} {t : AccountTable} (hi : db.accounts.insert a = some t)
    (hp : a.protocolType = .shadowlink) : Linked t access := by
  intro b hb hssh
  rcases (AccountTable.mem_insert hi).mp hb with rfl | hb
  · simp [hp] at hssh
  · exact h b hb hssh

theorem createUser_spec {server : Server} {u password : Str}
    {I : View (Nat → Str → Bool) → Prop} :
    logins.Spec env (fun v => I { v with remote := loginsCreated v.remote server.id u password })
      (SSHManager.createUser server u password) (fun r v => r.ok = true ∧ I v) fun _ => False := by
  let J : View (Nat → Str → Bool) → Prop := fun v =>
    I { v with remote := onServer v.remote server.id ((Cmd.chpasswd password).accessAfter u) }
  refine Observation.Spec.bind (logins.run_effect (I := J) .useradd rfl server u) fun _ => ?_
  exact (logins.run_effect (.chpasswd password) rfl server u).pre fun _ h => h.2

theorem provisionSshAccount_spec {server : Server} {u password : Str} {date : DateTime}
    {maxConn bwLimit : Nat} {I : View (Nat → Str → Bool) → Prop} :
    logins.Spec env (fun v => I { v with remote := loginsCreated v.remote server.id u password })
      (provisionSshAccount server u password date maxConn bwLimit) (fun _ => I) fun _ => False := by
  refine logins.connect.bind fun _ => ?_
  refine createUser_spec.bind fun result => .pure fun hok => ?_
  split
  · next h => simp [hok] at h
  · refine (logins.setExpiry _).bind fun _ => (logins.setMaxLogins _).bind fun _ => ?_
    split
    · exact logins.setupTrafficAccounting
    · exact .ret fun _ h => h

theorem provisionShadowlinkAccount_spec {account : Account} {server : Server} {maxConns : Nat}
    {I : View (Nat → Str → Bool) → Prop} :
    logins.Spec env I (provisionShadowlinkAccount account server maxConns) (fun _ => I) I :=
  Observation.Spec.handle ((logins.bridgeRequest _ _ _).bind fun _ => .ret fun _ h => h)
    fun _ => .raise fun _ h => h

theorem createAccount_linked {args : CreateArgs} :
    logins.Spec env (fun v => CreatesOwnUser env v.db args ∧ linked v) (createAccount args)
      (fun _ => linked) linked := by
  refine .of_view fun v₀ h₀ => ?_
  obtain ⟨hg, hlink⟩ := h₀
  refine Observation.Spec.createAccount ?_ hlink fun _ _ h => h
  intro server a account t hs hserver hprotocol hname hactive hi hacc
  cases hp : a.protocolType with
  | shadowlink =>
    rw [provision_shadowlink (hacc ▸ hp)]
    refine provisionShadowlinkAccount_spec.imp (fun _ h => h) ?_ ?_
    · rintro _ v rfl
      exact ⟨rfl, hlink.insert_shadowlink hi hp⟩
    · rintro v rfl
      exact ⟨rfl, hlink⟩
  | ssh =>
    rw [provision_ssh (hacc ▸ hp)]
    refine (provisionSshAccount_spec (I := fun v => v.saved = v₀.db :: v₀.saved ∧
      linked ⟨v.db, v₀.saved, v.remote⟩)).never.pre ?_
    rintro v rfl
    have hown := hg server hs (hprotocol.symm.trans hp)
    rw [← hserver, ← hname] at hown
    refine ⟨rfl, ?_⟩
    have hlinked := hlink.insert hi hactive hown
    rw [hserver] at hlinked
    subst hacc
    exact hlinked

theorem onAccount_linked {pk : Nat} {service : Account → PanelProg Unit}
    (h : ∀ a, logins.Spec env (linkedWith [a]) (service a) (fun _ => linkedWith [a]) (linkedWith [a])) :
    logins.Spec env linked (onAccount pk service) (fun _ => linked) linked := by
  refine Observation.Spec.onAccount (fun a => ?_) fun _ hv => hv
  refine (h a).imp ?_ (fun _ _ hv => hv.1) fun _ hv => hv.1
  rintro v ⟨ha, hv⟩
  refine ⟨hv, ?_⟩
  intro b hb
  obtain rfl := List.mem_singleton.mp hb
  exact ⟨b, Db.getAccount_mem ha, .refl b⟩

/-- The steps that keep the link: what is extended is ACTIVE, and creating a user sets no other
user's password. -/
def KeepsLogins (env : Env) (db : Db) : Op → Prop
  | .create r => ∀ args, r.resolve db = some args → CreatesOwnUser env db args
  | .extend pk days _ => ∀ a, db.getAccount pk = some a → ExtendsActive .ssh env a days
  | .webhook username planId status =>
    status = .paid → ∀ plan, db.getPlan planId = some plan →
      (∀ a, (db.selectAccounts (.renewable username)).head? = some a →
        ExtendsActive .ssh env a plan.durationDays) ∧
      ((db.selectAccounts (.renewable username)).head? = none →
        CreatesOwnUser env db (.plain username plan))
  | _ => True

theorem op_linked (op : Op) :
    logins.Spec env (fun v => KeepsLogins env v.db op ∧ linked v) op.prog (fun _ => linked) linked := by
  have hdone : ∀ {α : Type} {p : PanelProg α} {I : View (Nat → Str → Bool) → Prop},
      logins.Spec env I p (fun _ => linked) linked →
        logins.Spec env I (p >>= fun _ => return ()) (fun _ => linked) linked :=
    fun hp => hp.bind fun _ => .ret fun _ hv => hv
  cases op with
  | create r =>
    refine hdone (Observation.Spec.createAccountView (fun args => ?_) fun _ hv => hv.2)
    refine createAccount_linked.pre ?_
    rintro v ⟨hr, hg, hv⟩
    exact ⟨hg args hr, hv⟩
  | suspend pk adminUser =>
    refine (onAccount_linked fun a => ?_).pre fun _ hv => hv.2
    exact changeStatus_linked (List.mem_singleton.mpr rfl) (by simp)
      (fun _ _ _ => logins.bridgeRequest _ _ _) setsLogin_lockUser
  | activate pk adminUser =>
    refine (onAccount_linked fun a => ?_).pre fun _ hv => hv.2
    exact changeStatus_linked (List.mem_singleton.mpr rfl) (by simp)
      (fun _ _ _ => logins.bridgeRequest _ _ _) setsLogin_unlockUser
  | extend pk days adminUser =>
    refine Observation.Spec.onAccount (fun a => ?_) fun _ hv => hv.2
    refine .of_view fun v₀ h₀ => ?_
    obtain ⟨ha, hg, hv⟩ := h₀
    refine (extendAccount_linked (hg a ha)).pre ?_
    rintro v rfl
    exact ⟨Db.getAccount_mem ha, hv⟩
  | delete pk adminUser =>
    refine (onAccount_linked fun a => ?_).pre fun _ hv => hv.2
    exact deleteAccount_linked (List.mem_singleton.mpr rfl)
  | patch pk data => exact hdone (patchAccount_linked.pre fun _ hv => hv.2)
  | webhook username planId status =>
    refine hdone (Observation.Spec.paymentWebhook (fun plan a => ?_) (fun plan => ?_) fun _ hv => hv.2)
    · refine .of_view fun v₀ h₀ => ?_
      obtain ⟨hs, hp, ha, hg, hv⟩ := h₀
      refine (extendAccount_linked ((hg hs plan hp).1 a ha)).pre ?_
      rintro v rfl
      exact ⟨Db.mem_of_head? ha, hv⟩
    · refine createAccount_linked.pre ?_
      rintro v ⟨hs, hp, ha, hg, hv⟩
      exact ⟨(hg hs plan hp).2 ha, hv⟩
  | expireUsers => exact hdone (expireUsers_linked.pre fun _ hv => hv.2)
  | cleanupExpiredAccounts graceDays =>
    exact hdone (cleanupExpiredAccounts_linked.pre fun _ hv => hv.2)
  | syncBandwidthUsage => exact syncBandwidthUsage_linked.pre fun _ hv => hv.2

end Operations

/-! Runs. -/

/-- One operation keeps the link, unless one of its remote steps fails. -/
theorem step_linked (w : World) (x : Op × Env) (hg : KeepsLogins x.2 w.db x.1)
    (h : logins.Good linked w) : logins.Good linked (w.step x) :=
  (op_linked x.1).step fun hok => ⟨hg, h hok⟩

/-- In every run of such operations from an empty panel in which no step over SSH fails, each SSH
account is ACTIVE exactly where its Unix user exists and is not locked. -/
theorem active_iff_login {w : World} (h₀ : w.db.accounts.rows = []) {xs : List (Op × Env)}
    (hg : Along World.step (fun w x => KeepsLogins x.2 w.db x.1) w xs)
    (hok : ∀ e ∈ (w.run xs).log, e.sshFailed = false) :
    Linked (w.run xs).db.accounts (w.run xs).access := by
  have hlinked : logins.Good linked w := by
    intro _ a ha
    have ha' : a ∈ w.db.accounts.rows := ha
    simp [h₀] at ha'
  exact hg.invariant step_linked hlinked hok

/-- Create, suspend, activate and extend an account. -/
def extendActiveRun : List (Op × Env) :=
  [(.create (sampleRequest "alice" .ssh), sampleEnv 0), (.suspend 1 none, sampleEnv 1),
    (.activate 1 none, sampleEnv 2), (.extend 1 30 none, sampleEnv 3)]

theorem active_iff_login_extendActive : Linked (sampleWorld.run extendActiveRun).db.accounts
    (sampleWorld.run extendActiveRun).access := by
  refine active_iff_login rfl ⟨?_, trivial, trivial, ?_, trivial⟩ (by decide +kernel)
  · intro args hargs server _ _
    have hresolve : (sampleRequest "alice" .ssh).resolve sampleWorld.db =
        some ((sampleRequest "alice" .ssh).args samplePlan none) := rfl
    obtain rfl := Option.some.inj (hresolve.symm.trans hargs)
    refine ⟨by decide +kernel, ?_⟩
    intro a ha
    exact (List.not_mem_nil ha).elim
  · intro a ha _
    have hactive : ((sampleWorld.run (extendActiveRun.take 3)).db.getAccount 1).map Account.status =
        some .active := by decide +kernel
    have hstatus : some a.status = some .active :=
      (congrArg (Option.map Account.status) ha).symm.trans hactive
    exact .inl (Option.some.inj hstatus)

/-- An account that expires, is locked, and is then extended: ACTIVE, but still locked. -/
def extendExpiredRun : List (Op × Env) :=
  [(.create (sampleRequest "alice" .ssh), sampleEnv 0), (.expireUsers, sampleEnv 40),
    (.extend 1 30 none, sampleEnv 41)]

theorem not_active_iff_login :
    ¬ ∀ (w : World) (xs : List (Op × Env)), w.db.accounts.rows = [] →
      (∀ e ∈ (w.run xs).log, e.sshFailed = false) →
        Linked (w.run xs).db.accounts (w.run xs).access := by
  intro h
  have hlinked := h sampleWorld extendExpiredRun rfl (by decide +kernel)
  have hactive : (sampleWorld.run extendExpiredRun).db.accounts.rows.any fun a =>
      a.protocolType = .ssh ∧ a.status = .active ∧
        (sampleWorld.run extendExpiredRun).access a.server a.username = false := by
    decide +kernel
  obtain ⟨a, ha, hp⟩ := List.any_eq_true.mp hactive
  simp only [decide_eq_true_eq] at hp
  obtain ⟨hssh, hstatus, hlocked⟩ := hp
  have := (hlinked a ha hssh).mp hstatus
  simp [hlocked] at this

end SshPanelVpn.Panel

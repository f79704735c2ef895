import SshPanelVpn.Panel.Specs

/-! ShadowLink accounts: the status in the table and the token at the node's bridge. -/
namespace SshPanelVpn.Panel

open Effects Runs ShadowLink

/-! What the calls do to the registries. -/

/-- The limit and the state of every token on every node. -/
def registry : Observation (Nat → Str → Option (Int × Bool)) :=
  ⟨fun nodes server token => (nodes server).bridge.held token, Event.bridgeFailed⟩

theorem Node.modifyUser_bridge {n n' : Node} {u : Str} {f : UnixUser → UnixUser}
    (h : n.modifyUser u f = some n') : n'.bridge = n.bridge := by
  obtain ⟨user, -, rfl⟩ := Option.map_eq_some_iff.mp h
  rfl

theorem Node.setPasswords_bridge {n n' : Node} {entries : List (Str × Str)}
    (h : n.setPasswords entries = some n') : n'.bridge = n.bridge := by
  induction entries generalizing n with
  | nil =>
    cases h
    rfl
  | cons e entries ih =>
    simp only [setPasswords] at h
    split at h
    · next m hm => rw [ih h, modifyUser_bridge hm]
    · cases h

/-- Commands do not touch the bridge. -/
theorem Node.succeed_bridge {n n' : Node} {u : Str} {cmd : Cmd} (h : n.succeed u cmd = some n') :
    n'.bridge = n.bridge := by
  cases cmd with
  | useradd =>
    simp only [succeed] at h
    split at h <;> cases h
    rfl
  | chpasswd password =>
    simp only [succeed] at h
    split at h
    · exact setPasswords_bridge h
    · cases h
  | userdel =>
    obtain ⟨user, -, rfl⟩ := Option.map_eq_some_iff.mp h
    rfl
  | usermodLock => exact modifyUser_bridge h
  | usermodUnlock => exact modifyUser_bridge h
  | chage date => exact modifyUser_bridge h
  | _ =>
    cases h
    rfl

/-- The calls that go over SSH. -/
def Call.OverSsh : Call → Prop
  | .connect _ => True
  | .exec _ _ _ => True
  | _ => False

namespace registry

variable {env : Env} {server : Server} {u : Str} {α : Type} {p : PanelProg α}
  {I X : View (Nat → Str → Option (Int × Bool)) → Prop}

theorem view_updateNode (w : World) (s : Nat) (n : Node) : registry.view (w.updateNode s n) =
    { registry.view w with remote := Function.update (registry.remote w.nodes) s n.bridge.held } := by
  have h : registry.remote (Function.update w.nodes s n) =
      Function.update (registry.remote w.nodes) s n.bridge.held := by
    funext t token
    by_cases ht : t = s
    · subst ht
      simp [registry]
    · simp [registry, ht]
  simp [Observation.view, World.updateNode, h]

theorem view_updateNode_same {w : World} {s : Nat} {n : Node}
    (h : n.bridge = (w.nodes s).bridge) : registry.view (w.updateNode s n) = registry.view w := by
  rw [view_updateNode, h]
  have hself : Function.update (registry.remote w.nodes) s (w.nodes s).bridge.held =
      registry.remote w.nodes := Function.update_eq_self s _
  rw [hself]
  rfl

theorem view_exec (w : World) (cmd : Cmd) :
    registry.view (w.exec env server u cmd).2 = registry.view w := by
  unfold World.exec
  cases env.exec server u cmd with
  | raised e applied =>
    dsimp only
    rw [Observation.view_logged]
    refine view_updateNode_same ?_
    cases applied with
    | false => rfl
    | true =>
      cases hs : (w.nodes server.id).succeed u cmd with
      | none => rfl
      | some n' => exact Node.succeed_bridge hs
  | finished result =>
    dsimp only
    split
    · split
      · next n' hs => exact view_updateNode_same (Node.succeed_bridge hs)
      · rfl
    · rfl

theorem view_connect (w : World) : registry.view (w.connect env server).2 = registry.view w := by
  unfold World.connect
  split <;> rfl

/-- Whatever goes over SSH, and however it ends, leaves the registries alone. -/
theorem overSsh (h : p.AllCalls Call.OverSsh) : registry.Spec env I p (fun _ => I) I := by
  refine h.triple ?_
  intro c w hc hw hok
  have hI := hw (registry.ok_of_handler hok)
  cases c with
  | connect server =>
    change I (registry.view (w.connect env server).2)
    rw [view_connect]
    exact hI
  | exec server u cmd =>
    change I (registry.view (w.exec env server u cmd).2)
    rw [view_exec]
    exact hI
  | _ => exact hc.elim

theorem connect : registry.Spec env I (SSHManager.connect server) (fun _ => I) I :=
  overSsh ⟨trivial, fun _ => Prog.allCalls_ofExcept _⟩

theorem run (cmd : Cmd) : registry.Spec env I (SSHManager.run server u cmd) (fun _ => I) I :=
  overSsh ⟨trivial, fun _ => (Prog.allCalls_ofExcept _).bind fun _ => trivial⟩

theorem setMaxLogins (n : Int) :
    registry.Spec env I (SSHManager.setMaxLogins server u n) (fun _ => I) I :=
  overSsh (SSHManager.allCalls_setMaxLogins (fun _ _ => trivial) n)

theorem setupTrafficAccounting :
    registry.Spec env I (SSHManager.setupTrafficAccounting server u) (fun _ => I) I :=
  overSsh (SSHManager.allCalls_setupTrafficAccounting fun _ _ => trivial)

/-! Requests. -/

/-- The registries after a change of one token. -/
def setToken (r : Nat → Str → Option (Int × Bool)) (server : Nat) (token : Str)
    (g : Option (Int × Bool) → Option (Int × Bool)) : Nat → Str → Option (Int × Bool) :=
  onServer r server fun held => BridgeServer.change held token g

/-- The view after a request with its effect. -/
def requested (v : View (Nat → Str → Option (Int × Bool))) (server : Nat) (path : String)
    (data : TokenRequest) : View (Nat → Str → Option (Int × Bool)) :=
  { v with remote := setToken v.remote server data.token (BridgeServer.requestEffect path data) }

/-- A request of the panel: it has its effect, or it has failed. -/
theorem bridgeRequest (path : String) (data : TokenRequest) :
    registry.Spec env (fun v => I (requested v server.id path data))
      (ShadowLinkManager.bridgeRequest server "POST" path data) (fun _ => I) fun _ => False := by
  let request : BridgeRequest := ⟨"POST", path, server.shadowlinkApiKey, some data⟩
  have hcall : registry.Spec env (fun v => I (requested v server.id path data))
      (ask (.http server request))
      (fun x v => (∃ response, x = .ok response ∧ response.status < 400) ∧ I v) fun _ => False := by
    refine .ask ?_
    intro w hok hI
    simp only [World.handler, World.http] at hok ⊢
    cases hh : env.http server request with
    | connectionError =>
      simp only [hh, registry.ok_logged] at hok
      simp [registry, Event.bridgeFailed] at hok
    | timeout applied =>
      simp only [hh, registry.ok_logged] at hok
      simp [registry, Event.bridgeFailed] at hok
    | answered =>
      simp only [hh, registry.ok_logged] at hok ⊢
      have hstatus : ((w.nodes server.id).bridge.serveHTTP request).1.status < 400 := by
        simpa [registry, Event.bridgeFailed, World.serve] using hok.1
      refine ⟨⟨_, rfl, hstatus⟩, ?_⟩
      rw [Observation.view_logged]
      simp only [World.serve]
      rw [view_updateNode, BridgeServer.held_serveHTTP hstatus]
      exact hI
  refine hcall.bind fun x => .pure fun hx => ?_
  obtain ⟨response, rfl, hstatus⟩ := hx
  dsimp only
  split
  · next h => omega
  · exact .ret fun _ h => h

end registry

/-! The registry mirrors the table. -/

/-- What the bridge should answer for an account. -/
def expectedAnswer (a : Account) : Bool × Int :=
  if a.status = .active then (true, a.maxConnections) else (false, 0)

/-- The bridge of its server answers for the token of every ShadowLink account as the row says. -/
def Mirrored (accounts : AccountTable) (answers : Nat → Str → Bool × Int) : Prop :=
  ∀ a ∈ accounts, a.protocolType = .shadowlink → answers a.server a.authToken = expectedAnswer a

def mirrored (v : View (Nat → Str → Option (Int × Bool))) : Prop :=
  Mirrored v.db.accounts fun server token => BridgeServer.answer (v.remote server token)

namespace Mirrored

variable {t : AccountTable} {answers : Nat → Str → Bool × Int}

/-- Saving what no answer depends on. -/
theorem save (h : Mirrored t answers) {obj : Account} {fields : List AccountField}
    (hs : ∀ row ∈ t, row.id = obj.id → row.protocolType = .shadowlink →
      expectedAnswer (row.write obj fields) = expectedAnswer row) :
    Mirrored (t.save obj fields) answers := by
  intro c hc hp
  obtain ⟨d, hd, rfl⟩ := AccountTable.mem_save.mp hc
  by_cases hid : d.id = obj.id
  · have hk := d.write_keys obj fields
    simp only [hid, if_true] at hp ⊢
    rw [hk.protocolType] at hp
    rw [hs d hd hid hp, hk.server, hk.authToken]
    exact h d hd hp
  · simp only [hid, if_false] at hp ⊢
    exact h d hd hp

end Mirrored

theorem setToken_other {r : Nat → Str → Option (Int × Bool)} {server s : Nat} {token u : Str}
    {g : Option (Int × Bool) → Option (Int × Bool)} (h : u ≠ token) :
    registry.setToken r server token g s u = r s u := by
  by_cases hs : s = server
  · subst hs
    simp [registry.setToken, onServer, BridgeServer.change, h]
  · simp [registry.setToken, onServer, hs]

theorem setToken_self {r : Nat → Str → Option (Int × Bool)} {server : Nat} {token : Str}
    {g : Option (Int × Bool) → Option (Int × Bool)} :
    registry.setToken r server token g server token = g (r server token) := by
  simp [registry.setToken, onServer, BridgeServer.change]

section Operations

variable {env : Env}

/-- The mirror and the rows of some objects. -/
def mirroredWith (accs : List Account) (v : View (Nat → Str → Option (Int × Bool))) : Prop :=
  mirrored v ∧ ∀ a ∈ accs, v.Known a

/-- A status may change together with the token that stands for it. -/
theorem mirrored_setStatus {v : View (Nat → Str → Option (Int × Bool))} {a : Account}
    {accs : List Account} (h : mirroredWith accs v) (ha : v.Known a) {status : AccountStatus}
    {g : Option (Int × Bool) → Option (Int × Bool)}
    (hg : ∀ row ∈ v.db.accounts, row.SameKeys a →
      BridgeServer.answer (g (v.remote a.server a.authToken)) =
        expectedAnswer { row with status := status }) :
    mirroredWith accs (View.save { v with remote := registry.setToken v.remote a.server a.authToken g }
      { a with status := status } [.status]) := by
  obtain ⟨row, hrow, hk⟩ := ha
  refine ⟨?_, fun c hc => (h.2 c hc).save⟩
  intro c hc hp
  obtain ⟨d, hd, rfl⟩ := AccountTable.mem_save.mp hc
  by_cases hid : d.id = a.id
  · have hda : d = row := AccountTable.eq_of_id hd hrow (hid.trans hk.id)
    subst hda
    have hwrite : d.write { a with status := status } [.status] = { d with status := status } := rfl
    simp only [hid, if_true, hwrite]
    have hself : registry.setToken v.remote a.server a.authToken g d.server d.authToken =
        g (v.remote a.server a.authToken) := by
      rw [← hk.server, ← hk.authToken]
      exact setToken_self
    change BridgeServer.answer (registry.setToken v.remote a.server a.authToken g d.server d.authToken) = _
    rw [hself]
    exact hg d hd hk
  · have hne : d.authToken ≠ a.authToken := by
      intro he
      have hdr := AccountTable.eq_of_authToken hd hrow (he.trans hk.authToken)
      exact hid (by rw [hdr, ← hk.id])
    simp only [hid, if_false] at hp ⊢
    change BridgeServer.answer (registry.setToken v.remote a.server a.authToken g d.server d.authToken) = _
    rw [setToken_other hne]
    exact h.1 d hd hp

/-- Saving the row of an SSH account. -/
theorem mirrored_saveSsh {v : View (Nat → Str → Option (Int × Bool))} {obj : Account}
    {accs : List Account} (h : mirroredWith accs v) (ha : v.Known obj) (hp : obj.protocolType = .ssh)
    {fields : List AccountField} : mirroredWith accs (v.save obj fields) := by
  obtain ⟨row, hrow, hk⟩ := ha
  refine ⟨h.1.save ?_, fun c hc => (h.2 c hc).save⟩
  intro d hd hid hshadow
  have hdr := AccountTable.eq_of_id hd hrow (hid.trans hk.id)
  rw [hdr, ← hk.protocolType, hp] at hshadow
  cases hshadow

/-- The bridge function of a service changes a token. -/
def SetsToken (env : Env) (bridge : Server → Str → PanelProg BridgeResponse)
    (g : Option (Int × Bool) → Option (Int × Bool)) : Prop :=
  ∀ (server : Server) (token : Str) (I : View (Nat → Str → Option (Int × Bool)) → Prop),
    registry.Spec env (fun v => I { v with remote := registry.setToken v.remote server.id token g })
      (bridge server token) (fun _ => I) fun _ => False

theorem setsToken_deregisterToken :
    SetsToken env ShadowLinkManager.deregisterToken fun _ => none :=
  fun _ token _ => registry.bridgeRequest "/api/tokens/delete" ⟨token, 0⟩

theorem setsToken_suspendToken :
    SetsToken env ShadowLinkManager.suspendToken (Option.map fun i => (i.1, false)) :=
  fun _ token _ => registry.bridgeRequest "/api/tokens/suspend" ⟨token, 0⟩

theorem setsToken_activateToken :
    SetsToken env ShadowLinkManager.activateToken (Option.map fun i => (i.1, true)) :=
  fun _ token _ => registry.bridgeRequest "/api/tokens/activate" ⟨token, 0⟩

theorem setsToken_registerToken (maxConns : Nat) :
    SetsToken env (fun server token => ShadowLinkManager.registerToken server token maxConns)
      fun _ => some (maxConns, true) :=
  fun _ token _ => registry.bridgeRequest "/api/tokens" ⟨token, maxConns⟩

/-- The bridge's change makes it answer as the row will say. -/
def Prepares (a : Account) (status : AccountStatus) (g : Option (Int × Bool) → Option (Int × Bool))
    (v : View (Nat → Str → Option (Int × Bool))) : Prop :=
  a.protocolType = .shadowlink → ∀ row ∈ v.db.accounts, row.SameKeys a →
    BridgeServer.answer (g (v.remote a.server a.authToken)) = expectedAnswer { row with status := status }

theorem changeStatus_mirrored {accs : List Account} {a : Account} (ha : a ∈ accs)
    {status : AccountStatus} {action : AuditAction} {adminUser : Option Nat}
    {bridge : Server → Str → PanelProg BridgeResponse}
    {ssh : Server → Str → PanelProg CommandResult} {g : Option (Int × Bool) → Option (Int × Bool)}
    (hbridge : SetsToken env bridge g)
    (hssh : ∀ server u I, registry.Spec env I (ssh server u) (fun _ => I) I) :
    registry.Spec env (fun v => Prepares a status g v ∧ mirroredWith accs v)
      (changeStatus a status action adminUser bridge ssh) (fun _ => mirroredWith accs)
      (mirroredWith accs) := by
  refine ((Observation.Spec.accountServer a).imp (fun _ h => h) (fun _ _ h => h)
    fun _ h => h.2).bind fun server => .pure fun hs => ?_
  have hsave : registry.Spec env (fun v => mirroredWith accs (v.save { a with status := status } [.status]))
      (do
        saveStatus a status
        ask (.insertAuditLog ⟨action, some a.id, adminUser, []⟩))
      (fun _ => mirroredWith accs) (mirroredWith accs) :=
    (Observation.Spec.saveAccount _ _).bind fun _ =>
      (Observation.Spec.insertAuditLog _).pre fun _ h => h
  cases hp : a.protocolType with
  | shadowlink =>
    refine (Observation.Spec.logged (hbridge server a.authToken fun v =>
      mirroredWith accs (v.save { a with status := status } [.status])).never).bind
        (fun _ => hsave) |>.pre ?_
    rintro v ⟨hprep, hv⟩
    rw [hs]
    exact mirrored_setStatus hv (hv.2 a ha) (hprep hp)
  | ssh =>
    refine (registry.connect.pre fun _ h => h.2).bind fun _ => ?_
    refine (hssh server a.username (mirroredWith accs)).bind fun _ => hsave.pre ?_
    intro v hv
    exact mirrored_saveSsh hv ((hv.2 a ha).status status) hp

theorem answer_inactive (x : Option (Int × Bool)) :
    BridgeServer.answer (x.map fun i => (i.1, false)) = (false, 0) := by
  cases x <;> rfl

/-- A status other than ACTIVE needs no preparation. -/
theorem prepares_inactive {a : Account} {status : AccountStatus} (hs : status ≠ .active)
    {g : Option (Int × Bool) → Option (Int × Bool)} (hg : ∀ x, BridgeServer.answer (g x) = (false, 0))
    (v : View (Nat → Str → Option (Int × Bool))) : Prepares a status g v := by
  intro _ row _ _
  rw [hg]
  simp [expectedAnswer, hs]

theorem suspendAccount_mirrored {accs : List Account} {a : Account} (ha : a ∈ accs)
    {adminUser : Option Nat} :
    registry.Spec env (mirroredWith accs) (suspendAccount a adminUser) (fun _ => mirroredWith accs)
      (mirroredWith accs) :=
  (changeStatus_mirrored ha setsToken_suspendToken fun _ _ _ => registry.run _).pre
    fun v h => ⟨prepares_inactive (by decide) answer_inactive v, h⟩

theorem deleteAccount_mirrored {accs : List Account} {a : Account} (ha : a ∈ accs)
    {adminUser : Option Nat} :
    registry.Spec env (mirroredWith accs) (deleteAccount a adminUser) (fun _ => mirroredWith accs)
      (mirroredWith accs) :=
  (changeStatus_mirrored ha setsToken_deregisterToken
    fun _ _ _ => (registry.run _).bind fun _ => registry.run _).pre
    fun v h => ⟨prepares_inactive (by decide) (fun _ => rfl) v, h⟩

/-- The bridge knows the account's token with the account's limit. -/
def TokenKnown (v : View (Nat → Str → Option (Int × Bool))) (a : Account) : Prop :=
  ∃ active, v.remote a.server a.authToken = some ((a.maxConnections : Int), active)

theorem activateAccount_mirrored {a : Account} {adminUser : Option Nat} :
    registry.Spec env
      (fun v => a ∈ v.db.accounts ∧ (a.protocolType = .shadowlink → TokenKnown v a) ∧ mirrored v)
      (activateAccount a adminUser) (fun _ => mirrored) mirrored := by
  have ha : a ∈ [a] := List.mem_singleton.mpr rfl
  refine (changeStatus_mirrored ha setsToken_activateToken fun _ _ _ => registry.run _).imp ?_
    (fun _ _ h => h.1) fun _ h => h.1
  rintro v ⟨ha, hknown, hv⟩
  refine ⟨?_, hv, ?_⟩
  · intro hp row hrow hk
    obtain rfl := AccountTable.eq_of_id hrow ha hk.id.symm
    obtain ⟨active, hheld⟩ := hknown hp
    simp [hheld, BridgeServer.answer, expectedAnswer]
  · intro b hb
    obtain rfl := List.mem_singleton.mp hb
    exact ⟨b, ha, .refl b⟩

theorem extendAccount_mirrored {a : Account} {days : Int} {adminUser : Option Nat}
    (hg : ExtendsActive .shadowlink env a days) :
    registry.Spec env (fun v => a ∈ v.db.accounts ∧ mirrored v) (extendAccount a days adminUser)
      (fun _ => mirrored) mirrored := by
  refine (Observation.Spec.extend (J := mirrored) ?_ fun _ h => h.2).bind fun a' => .pure fun _ => ?_
  · rintro a' v he ⟨ha, hv⟩
    refine hv.save ?_
    intro row hrow hid hp
    obtain rfl := AccountTable.eq_of_id hrow ha (hid.trans (Account.extend_ok he).1.id)
    have hactive := (hg hp).resolve_right fun hn => hn a' he
    simp [expectedAnswer, Account.write, Account.writeField, (Account.extend_ok he).2, hactive]
  refine (Observation.Spec.accountServer a').bind fun server => .pure fun _ => ?_
  refine registry.connect.bind fun _ => ?_
  refine (registry.run _).bind fun _ => ?_
  have haudit : ∀ entry,
      registry.Spec env mirrored (ask (.insertAuditLog entry)) (fun _ => mirrored) mirrored :=
    fun entry => (Observation.Spec.insertAuditLog entry).pre fun _ h => h
  dsimp only
  split
  · exact (registry.run _).bind fun _ => haudit _
  · exact haudit _

theorem expireUser_mirrored {accs : List Account} {a : Account} (ha : a ∈ accs)
    (hp : a.protocolType = .ssh) :
    registry.Spec env (mirroredWith accs) (expireUser a) (fun _ => mirroredWith accs)
      (mirroredWith accs) := by
  refine (Observation.Spec.accountServer a).bind fun server => .pure fun _ => ?_
  refine registry.connect.bind fun _ => (registry.run _).bind fun _ => ?_
  refine (Observation.Spec.saveAccount _ _).pre ?_
  intro v hv
  exact mirrored_saveSsh hv ((hv.2 a ha).status .expired) hp

theorem selectAccounts_mirrored {query : AccountQuery}
    {J : View (Nat → Str → Option (Int × Bool)) → Prop} {X : View (Nat → Str → Option (Int × Bool)) → Prop}
    (hJ : ∀ v, J v → mirrored v) :
    registry.Spec env J (ask (.selectAccounts query))
      (fun accs v => (∀ a ∈ accs, a ∈ v.db.accounts ∧ query.filter a = true) ∧ J v ∧
        mirroredWith accs v) X := by
  refine (Observation.Spec.read (fun v => v.db.selectAccounts query) fun _ => rfl).post ?_
  rintro accs v ⟨rfl, hv⟩
  refine ⟨fun a ha => Db.mem_selectAccounts.mp ha, hv, hJ v hv, ?_⟩
  intro a ha
  exact ⟨a, (Db.mem_selectAccounts.mp ha).1, .refl a⟩

/-- No ShadowLink account is due. -/
def NoneDue (env : Env) (db : Db) : Prop :=
  ∀ a ∈ db.accounts, (AccountQuery.expiredBy env.now).filter a = true → a.protocolType = .ssh

theorem expireUsers_mirrored :
    registry.Spec env (fun v => NoneDue env v.db ∧ mirrored v) expireUsers (fun _ => mirrored)
      mirrored := by
  refine (Observation.Spec.read (fun _ => env.now) fun _ => rfl).bind fun now => .pure fun hnow => ?_
  subst hnow
  refine (selectAccounts_mirrored fun _ h => h.2).bind fun accs => ?_
  refine .of_view fun v₀ h₀ => ?_
  obtain ⟨hmem, ⟨hdue, -⟩, hv⟩ := h₀
  refine (Observation.Spec.countSucceeded fun a ha =>
    expireUser_mirrored ha (hdue a (hmem a ha).1 (hmem a ha).2)).imp ?_ (fun _ _ h => h.1) fun _ h => h
  rintro v rfl
  exact hv

theorem cleanupExpiredAccounts_mirrored {graceDays : Int} :
    registry.Spec env mirrored (cleanupExpiredAccounts graceDays) (fun _ => mirrored) mirrored := by
  refine (Observation.Spec.read (fun _ => env.now) fun _ => rfl).bind fun now => ?_
  refine (Observation.Spec.ofExcept (A := fun _ => mirrored) (fun _ _ _ h => h.2)
    fun _ _ _ h => h.2).bind fun cutoff => ?_
  refine (selectAccounts_mirrored fun _ h => h).bind fun accs => ?_
  exact (Observation.Spec.countSucceeded fun a ha => deleteAccount_mirrored ha).imp
    (fun _ h => h.2.2) (fun _ _ h => h.1) fun _ h => h

/-! Bandwidth. -/

/-- The bytes that the node shows for a user during an operation. -/
def reading (env : Env) (srv : Server) (u : Str) : Except Exc Nat :=
  match env.exec srv u .chainCounters with
  | .finished r => SSHManager.bandwidthBytes ⟨r.exitCode, PyString.strip r.stdout, PyString.strip r.stderr⟩
  | .raised e _ => .error e

theorem getUserBandwidthBytes_reading {srv : Server} {u : Str}
    {I : View (Nat → Str → Option (Int × Bool)) → Prop} :
    registry.Spec env I (SSHManager.getUserBandwidthBytes srv u)
      (fun n v => reading env srv u = .ok n ∧ I v) I := by
  have hcall : registry.Spec env I (ask (.exec srv u .chainCounters))
      (fun x v => (match x with
        | .ok r => env.exec srv u .chainCounters = .finished r
        | .error _ => True) ∧ I v) I := by
    refine .ask ?_
    intro w _ hI
    refine ⟨?_, ?_⟩
    · simp only [World.handler, World.exec, Node.succeed]
      cases env.exec srv u .chainCounters with
      | raised e applied => trivial
      | finished r =>
        by_cases h0 : r.exitCode = 0
        · simp [h0]
        · simp [h0]
    · change I (registry.view (w.exec env srv u .chainCounters).2)
      rw [registry.view_exec]
      exact hI
  have hrun : registry.Spec env I (SSHManager.run srv u .chainCounters)
      (fun r v => reading env srv u = SSHManager.bandwidthBytes r ∧ I v) I := by
    refine hcall.bind fun x => ?_
    refine (Observation.Spec.ofExcept
      (A := fun r v => env.exec srv u .chainCounters = .finished r ∧ I v) ?_ ?_).bind fun r => ?_
    · rintro r v rfl h
      exact h
    · rintro e v rfl h
      exact h.2
    · refine .ret ?_
      rintro v ⟨hr, hI⟩
      exact ⟨by simp [reading, hr], hI⟩
  refine hrun.bind fun r => .pure fun hr => ?_
  exact .ofExcept (fun n v hn hI => ⟨hr.trans hn, hI⟩) fun _ _ _ h => h

/-- No ShadowLink account that a run of the task looks at has used up its limit. -/
def UnderLimit (env : Env) (servers : List Server) (accounts : AccountTable) : Prop :=
  ∀ srv ∈ servers, ∀ a ∈ accounts, a.protocolType = .shadowlink →
    (AccountQuery.activeOn srv.id).filter a = true →
      ∀ n, reading env srv a.username = .ok n → overLimit a (gbUsed n) = false

theorem UnderLimit.save {servers : List Server} {t : AccountTable} (h : UnderLimit env servers t)
    {obj : Account} {fields : List AccountField}
    (hf : ∀ row : Account, (row.write obj fields).bandwidthLimitGb = row.bandwidthLimitGb ∧
      ((row.write obj fields).status = .active → row.status = .active)) :
    UnderLimit env servers (t.save obj fields) := by
  intro srv hsrv c hc hp hon n hn
  obtain ⟨d, hd, rfl⟩ := AccountTable.mem_save.mp hc
  by_cases hid : d.id = obj.id
  · have hk := d.write_keys obj fields
    simp only [hid, if_true, AccountQuery.filter, decide_eq_true_eq] at hp hon hn ⊢
    rw [hk.protocolType] at hp
    rw [hk.username] at hn
    have hon' : (AccountQuery.activeOn srv.id).filter d = true := by
      simp only [AccountQuery.filter, decide_eq_true_eq]
      exact ⟨hk.server ▸ hon.1, (hf d).2 hon.2⟩
    have := h srv hsrv d hd hp hon' n hn
    simpa [overLimit, (hf d).1] using this
  · simp only [hid, if_false] at hp hon hn ⊢
    exact h srv hsrv d hd hp hon n hn

/-- What the bandwidth task keeps. -/
def syncInv (env : Env) (servers : List Server) (accs : List Account)
    (v : View (Nat → Str → Option (Int × Bool))) : Prop :=
  UnderLimit env servers v.db.accounts ∧ mirroredWith accs v

theorem saveUsage_mirrored {servers : List Server} {accs : List Account} {a : Account} {gb : Nat} :
    registry.Spec env (syncInv env servers accs) (saveUsage a gb) (fun _ => syncInv env servers accs)
      (syncInv env servers accs) := by
  unfold saveUsage
  split
  · refine (Observation.Spec.saveAccount _ _).pre ?_
    rintro v ⟨hu, hv⟩
    exact ⟨hu.save fun _ => ⟨rfl, id⟩, hv.1.save fun _ _ _ _ => rfl, fun c hc => (hv.2 c hc).save⟩
  · exact .ret fun _ h => h

theorem enforceLimit_mirrored {servers : List Server} {accs : List Account} {a : Account}
    (ha : a ∈ accs) {srv : Server} {gb : Nat}
    (hp : overLimit a gb = true → a.protocolType = .ssh) :
    registry.Spec env (syncInv env servers accs) (enforceLimit srv a gb)
      (fun _ => syncInv env servers accs) (syncInv env servers accs) := by
  unfold enforceLimit
  split
  · next hover =>
    refine (registry.run _).bind fun _ => (Observation.Spec.saveAccount _ _).pre ?_
    rintro v ⟨hu, hv⟩
    refine ⟨hu.save fun _ => ⟨rfl, ?_⟩, mirrored_saveSsh hv ((hv.2 a ha).status .suspended) (hp hover)⟩
    intro hs
    cases hs
  · exact .ret fun _ h => h

theorem syncAccount_mirrored {servers : List Server} {accs : List Account} {a : Account}
    (ha : a ∈ accs) {srv : Server}
    (hunder : a.protocolType = .shadowlink → ∀ n, reading env srv a.username = .ok n →
      overLimit a (gbUsed n) = false) :
    registry.Spec env (syncInv env servers accs) (syncAccount srv a)
      (fun _ => syncInv env servers accs) (syncInv env servers accs) := by
  refine registry.setupTrafficAccounting.bind fun _ => ?_
  refine getUserBandwidthBytes_reading.bind fun n => .pure fun hn => ?_
  refine saveUsage_mirrored.bind fun _ => enforceLimit_mirrored ha ?_
  intro hover
  cases hp : a.protocolType with
  | ssh => rfl
  | shadowlink => simp [hunder hp n hn] at hover

theorem syncServer_mirrored {servers : List Server} {srv : Server} (hsrv : srv ∈ servers) :
    registry.Spec env (syncInv env servers []) (syncServer srv) (fun _ => syncInv env servers [])
      (syncInv env servers []) := by
  refine (selectAccounts_mirrored fun _ h => h.2.1).bind fun accs => ?_
  split
  · exact .ret fun _ h => h.2.1
  · refine (registry.connect.pre fun _ h => h.2.1).bind fun _ => ?_
    refine (selectAccounts_mirrored fun _ h => h.2.1).bind fun accs => ?_
    refine .of_view fun v₀ h₀ => ?_
    obtain ⟨hmem, ⟨hu, -⟩, hv⟩ := h₀
    have hunder : ∀ a ∈ accs, a.protocolType = .shadowlink → ∀ n,
        reading env srv a.username = .ok n → overLimit a (gbUsed n) = false :=
      fun a ha hp => hu srv hsrv a (hmem a ha).1 hp (hmem a ha).2
    have hnil : ∀ v, syncInv env servers accs v → syncInv env servers [] v :=
      fun v h => ⟨h.1, h.2.1, fun a ha => (List.not_mem_nil ha).elim⟩
    refine (Observation.Spec.syncAccounts fun a ha =>
      syncAccount_mirrored  ha (hunder a ha)).imp ?_ (fun _ => hnil) hnil
    rintro v rfl
    exact ⟨hu, hv⟩

theorem syncBandwidthUsage_mirrored :
    registry.Spec env (fun v => UnderLimit env v.db.activeServers v.db.accounts ∧ mirrored v)
      syncBandwidthUsage (fun _ => mirrored) mirrored := by
  refine (Observation.Spec.read (fun v => v.db.activeServers) fun _ => rfl).bind fun servers => ?_
  refine (Observation.Spec.syncServers fun srv hsrv => syncServer_mirrored hsrv).imp ?_
    (fun _ _ h => h.2.1) fun _ h => h
  rintro v ⟨rfl, hu, hv⟩
  exact ⟨hu, hv, fun a ha => (List.not_mem_nil ha).elim⟩

/-! Patching and creating. -/

theorem push_mirrored {data : AccountUpdate} (account : Account) :
    registry.Spec env mirrored (data.push account) (fun _ => mirrored) mirrored := by
  refine (Observation.Spec.accountServer _).bind fun server => .pure fun _ => ?_
  refine registry.connect.bind fun _ => ?_
  have hlogins : registry.Spec env mirrored (if data.maxConnections.isSome then do
      let _ ← SSHManager.setMaxLogins server account.username account.maxConnections
      else return ()) (fun _ => mirrored) mirrored := by
    split
    · exact (registry.setMaxLogins _).bind fun _ => .ret fun _ h => h
    · exact .ret fun _ h => h
  dsimp only
  split
  · exact (registry.run _).bind fun _ => hlogins
  · exact hlogins

/-- The patch leaves the limit of an ACTIVE ShadowLink account, or its new end is out of range. -/
def KeepsLimit (env : Env) (data : AccountUpdate) (a : Account) : Prop :=
  a.protocolType = .shadowlink → a.status = .active →
    data.maxConnections.getD a.maxConnections = a.maxConnections ∨
      ∀ date, data.dateAt env.now ≠ .ok date

theorem patchAccount_mirrored {pk : Nat} {data : AccountUpdate} :
    registry.Spec env
      (fun v => (∀ a, v.db.getAccount pk = some a → KeepsLimit env data a) ∧ mirrored v)
      (patchAccount pk data) (fun _ => mirrored) mirrored := by
  refine Observation.Spec.patchAccount ?_ push_mirrored fun _ h => h.2
  rintro a date v ha hdate ⟨hg, hv⟩
  refine hv.save ?_
  intro row hrow hid hp
  obtain rfl := AccountTable.eq_of_id hrow (Db.getAccount_mem ha) hid
  have hstatus : (row.write (data.apply row date) AccountField.all).status = row.status :=
    row.write_all_status _
  have hlimit : (row.write (data.apply row date) AccountField.all).maxConnections =
      data.maxConnections.getD row.maxConnections := rfl
  unfold expectedAnswer
  rw [hstatus, hlimit]
  by_cases hactive : row.status = .active
  · rw [(hg row ha hp hactive).resolve_right fun hn => hn date hdate]
  · simp [hactive]

/-- A new row and its token. -/
theorem Mirrored.insert {db : Db} {r : Nat → Str → Option (Int × Bool)}
    (h : Mirrored db.accounts fun server token => BridgeServer.answer (r server token))
    {a : Account} {t : AccountTable} (hi : db.accounts.insert a = some t)
    (hactive : a.status = .active) :
    Mirrored t fun server token => BridgeServer.answer
      (registry.setToken r a.server a.authToken (fun _ => some (a.maxConnections, true)) server token) := by
  have hnew : { a with id := db.accounts.nextId } ∈ t := (AccountTable.mem_insert hi).mpr (Or.inl rfl)
  intro b hb hp
  by_cases htoken : b.authToken = a.authToken
  · obtain rfl := AccountTable.eq_of_authToken hb hnew htoken
    simp [setToken_self, BridgeServer.answer, expectedAnswer, hactive]
  · rcases (AccountTable.mem_insert hi).mp hb with rfl | hb
    · exact (htoken rfl).elim
    · simp only [setToken_other htoken]
      exact h b hb hp

theorem Mirrored.insert_ssh {db : Db} {answers : Nat → Str → Bool × Int}
    (h : Mirrored db.accounts answers) {a : Account} {t : AccountTable}
    (hi : db.accounts.insert a = some t) (hp : a.protocolType = .ssh) : Mirrored t answers := by
  intro b hb hshadow
  rcases (AccountTable.mem_insert hi).mp hb with rfl | hb
  · simp [hp] at hshadow
  · exact h b hb hshadow

theorem createAccount_mirrored {args : CreateArgs} :
    registry.Spec env mirrored (createAccount args) (fun _ => mirrored) mirrored := by
  refine .of_view fun v₀ hv => ?_
  refine Observation.Spec.createAccount ?_ hv fun _ _ h => h
  intro server a account t _ hserver _ _ hactive hi hacc
  cases hp : a.protocolType with
  | shadowlink =>
    rw [provision_shadowlink (hacc ▸ hp)]
    let I : View (Nat → Str → Option (Int × Bool)) → Prop := fun v =>
      v.saved = v₀.db :: v₀.saved ∧ mirrored ⟨v.db, v₀.saved, v.remote⟩
    have hregister : SetsToken env _ _ := setsToken_registerToken account.maxConnections
    refine Observation.Spec.pre (Observation.Spec.handle
      ((hregister server account.authToken I).bind fun _ => .ret fun _ h => h)
      fun _ => .raise fun _ h => h.elim) ?_
    rintro v rfl
    refine ⟨rfl, ?_⟩
    have hmirrored := hv.insert hi hactive
    rw [hserver] at hmirrored
    subst hacc
    exact hmirrored
  | ssh =>
    rw [provision_ssh (hacc ▸ hp)]
    refine (registry.overSsh (I := fun v => v = View.setAccounts ⟨v₀.db, v₀.db :: v₀.saved, v₀.remote⟩ t)
      (allCalls_provisionSshAccount trivial fun _ _ => trivial)).imp (fun _ h => h) ?_ ?_
    · rintro _ v rfl
      exact ⟨rfl, hv.insert_ssh hi hp⟩
    · rintro v rfl
      exact ⟨rfl, hv⟩

/-! The operations. -/

/-- The steps that keep the mirror: they set no status and no limit that the bridge is not told, and
activate no token that the bridge does not know with the account's limit. -/
def KeepsTokens (env : Env) (v : View (Nat → Str → Option (Int × Bool))) : Op → Prop
  | .activate pk _ => ∀ a, v.db.getAccount pk = some a → a.protocolType = .shadowlink → TokenKnown v a
  | .extend pk days _ => ∀ a, v.db.getAccount pk = some a → ExtendsActive .shadowlink env a days
  | .patch pk data => ∀ a, v.db.getAccount pk = some a → KeepsLimit env data a
  | .webhook username planId status =>
    status = .paid → ∀ plan, v.db.getPlan planId = some plan →
      ∀ a, (v.db.selectAccounts (.renewable username)).head? = some a →
        ExtendsActive .shadowlink env a plan.durationDays
  | .expireUsers => NoneDue env v.db
  | .syncBandwidthUsage => UnderLimit env v.db.activeServers v.db.accounts
  | _ => True

theorem onAccount_mirrored {pk : Nat} {service : Account → PanelProg Unit}
    (h : ∀ a, registry.Spec env (mirroredWith [a]) (service a) (fun _ => mirroredWith [a])
      (mirroredWith [a])) :
    registry.Spec env mirrored (onAccount pk service) (fun _ => mirrored) mirrored := by
  refine Observation.Spec.onAccount (fun a => ?_) fun _ hv => hv
  refine (h a).imp ?_ (fun _ _ hv => hv.1) fun _ hv => hv.1
  rintro v ⟨ha, hv⟩
  refine ⟨hv, ?_⟩
  intro b hb
  obtain rfl := List.mem_singleton.mp hb
  exact ⟨b, Db.getAccount_mem ha, .refl b⟩

theorem op_mirrored (op : Op) :
    registry.Spec env (fun v => KeepsTokens env v op ∧ mirrored v) op.prog (fun _ => mirrored)
      mirrored := by
  have hdone : ∀ {α : Type} {p : PanelProg α} {I : View (Nat → Str → Option (Int × Bool)) → Prop},
      registry.Spec env I p (fun _ => mirrored) mirrored →
        registry.Spec env I (p >>= fun _ => return ()) (fun _ => mirrored) mirrored :=
    fun hp => hp.bind fun _ => .ret fun _ hv => hv
  cases op with
  | create r =>
    refine hdone (Observation.Spec.createAccountView (fun args => ?_) fun _ hv => hv.2)
    exact createAccount_mirrored.pre fun v hv => hv.2.2
  | suspend pk adminUser =>
    refine (onAccount_mirrored fun a => ?_).pre fun _ hv => hv.2
    exact suspendAccount_mirrored (List.mem_singleton.mpr rfl)
  | activate pk adminUser =>
    refine Observation.Spec.onAccount (fun a => ?_) fun _ hv => hv.2
    refine activateAccount_mirrored.pre ?_
    rintro v ⟨ha, hg, hv⟩
    exact ⟨Db.getAccount_mem ha, hg a ha, hv⟩
  | extend pk days adminUser =>
    refine Observation.Spec.onAccount (fun a => ?_) fun _ hv => hv.2
    refine .of_view fun v₀ h₀ => ?_
    obtain ⟨ha, hg, hv⟩ := h₀
    refine (extendAccount_mirrored (hg a ha)).pre ?_
    rintro v rfl
    exact ⟨Db.getAccount_mem ha, hv⟩
  | delete pk adminUser =>
    refine (onAccount_mirrored fun a => ?_).pre fun _ hv => hv.2
    exact deleteAccount_mirrored (List.mem_singleton.mpr rfl)
  | patch pk data => exact hdone patchAccount_mirrored
  | webhook username planId status =>
    refine hdone (Observation.Spec.paymentWebhook (fun plan a => ?_) (fun plan => ?_) fun _ hv => hv.2)
    · refine .of_view fun v₀ h₀ => ?_
      obtain ⟨hs, hp, ha, hg, hv⟩ := h₀
      refine (extendAccount_mirrored (hg hs plan hp a ha)).pre ?_
      rintro v rfl
      exact ⟨Db.mem_of_head? ha, hv⟩
    · exact createAccount_mirrored.pre fun v hv => hv.2.2.2.2
  | expireUsers => exact hdone expireUsers_mirrored
  | cleanupExpiredAccounts graceDays =>
    exact hdone (cleanupExpiredAccounts_mirrored.pre fun _ hv => hv.2)
  | syncBandwidthUsage => exact syncBandwidthUsage_mirrored

end Operations

/-! Runs. -/

/-- One operation keeps the mirror, unless the bridge does not answer one of its requests. -/
theorem step_mirrored (w : World) (x : Op × Env) (hg : KeepsTokens x.2 (registry.view w) x.1)
    (h : registry.Good mirrored w) : registry.Good mirrored (w.step x) :=
  (op_mirrored x.1).step fun hok => ⟨hg, h hok⟩

/-- In every run of such operations from an empty panel in which the bridges answer every request,
each bridge answers for the tokens of its ShadowLink accounts as the rows say. -/
theorem authenticate_mirrored {w : World} (h₀ : w.db.accounts.rows = []) {xs : List (Op × Env)}
    (hg : Along World.step (fun w x => KeepsTokens x.2 (registry.view w) x.1) w xs)
    (hok : ∀ e ∈ (w.run xs).log, e.bridgeFailed = false) :
    Mirrored (w.run xs).db.accounts (w.run xs).authenticate := by
  have hmirrored : registry.Good mirrored w := by
    intro _ a ha
    have ha' : a ∈ w.db.accounts.rows := ha
    simp [h₀] at ha'
  have hrun : mirrored (registry.view (w.run xs)) := hg.invariant step_mirrored hmirrored hok
  intro a ha hp
  have hanswer := hrun a ha hp
  rw [← hanswer]
  exact BridgeServer.authenticateToken_eq _ _

/-- Create an account, suspend it and patch its note. -/
def sampleShadowlinkRun : List (Op × Env) :=
  [(.create (sampleRequest "alice" .shadowlink), sampleEnv 0), (.suspend 1 none, sampleEnv 1),
    (.patch 1 ⟨none, none, none, none, some "late".toList⟩, sampleEnv 2)]

theorem authenticate_mirrored_sample :
    Mirrored (sampleWorld.run sampleShadowlinkRun).db.accounts
      (sampleWorld.run sampleShadowlinkRun).authenticate := by
  refine authenticate_mirrored rfl ⟨trivial, trivial, ?_, trivial⟩ (by decide +kernel)
  intro a _ _ _
  exact Or.inl rfl

/-- A limit that is raised in the table only. -/
def patchLimitRun : List (Op × Env) :=
  [(.create (sampleRequest "alice" .shadowlink), sampleEnv 0),
    (.patch 1 ⟨none, none, none, some 5, none⟩, sampleEnv 1)]

theorem not_authenticate_mirrored :
    ¬ ∀ (w : World) (xs : List (Op × Env)), w.db.accounts.rows = [] →
      (∀ e ∈ (w.run xs).log, e.bridgeFailed = false ∧ e.sshFailed = false) →
        Mirrored (w.run xs).db.accounts (w.run xs).authenticate := by
  intro h
  have hmirrored := h sampleWorld patchLimitRun rfl (by decide +kernel)
  have hrow : (sampleWorld.run patchLimitRun).db.accounts.rows.any fun a =>
      a.protocolType = .shadowlink ∧
        (sampleWorld.run patchLimitRun).authenticate a.server a.authToken ≠ expectedAnswer a := by
    decide +kernel
  obtain ⟨a, ha, hp⟩ := List.any_eq_true.mp hrow
  simp only [decide_eq_true_eq] at hp
  exact hp.2 (hmirrored a ha hp.1)

end SshPanelVpn.Panel

import SshPanelVpn.Library.Indexed
import SshPanelVpn.Panel.ShadowLinkAccounts
import SshPanelVpn.Panel.TableSteps
import SshPanelVpn.ShadowLink.MainServer

/-! The tokens that the bridges hold, and the accounts that they belong to. -/
namespace SshPanelVpn.Panel

open Effects Runs ShadowLink

abbrev RegistryView := View (Nat → Str → Option (Int × Bool))

/-- The token is the one of a ShadowLink account on the server that is not deleted. -/
structure Account.Owns (a : Account) (server : Nat) (token : Str) : Prop where
  server : a.server = server
  authToken : a.authToken = token
  protocolType : a.protocolType = .shadowlink
  status : a.status ≠ .deleted

/-- No bridge holds a token without such an account. -/
def Owned (accounts : AccountTable) (held : Nat → Str → Option (Int × Bool)) : Prop :=
  ∀ server token, held server token ≠ none → ∃ a ∈ accounts, a.Owns server token

def owned (v : RegistryView) : Prop := Owned v.db.accounts v.remote

/-- Another token, or the same one elsewhere. -/
theorem setToken_elsewhere {r : Nat → Str → Option (Int × Bool)} {server s : Nat} {token u : Str}
    {g : Option (Int × Bool) → Option (Int × Bool)} (h : ¬ (s = server ∧ u = token)) :
    registry.setToken r server token g s u = r s u := by
  by_cases hu : u = token
  · have hs : s ≠ server := fun hs => h ⟨hs, hu⟩
    simp [registry.setToken, onServer, hs]
  · exact setToken_other hu

namespace Owned

variable {t : AccountTable} {held : Nat → Str → Option (Int × Bool)}

/-- No account is deleted as long as its bridge holds its token. -/
theorem save (h : Owned t held) {obj : Account} {fields : List AccountField}
    (hs : ∀ row ∈ t, row.id = obj.id → row.protocolType = .shadowlink → row.status ≠ .deleted →
      (row.write obj fields).status = .deleted → held row.server row.authToken = none) :
    Owned (t.save obj fields) held := by
  intro server token hheld
  obtain ⟨a, ha, howns⟩ := h server token hheld
  refine ⟨_, AccountTable.mem_save.mpr ⟨a, ha, rfl⟩, ?_⟩
  split
  · next hid =>
    have hk := a.write_keys obj fields
    refine ⟨hk.server.trans howns.server, hk.authToken.trans howns.authToken,
      hk.protocolType.trans howns.protocolType, ?_⟩
    intro hdeleted
    refine hheld ?_
    rw [← howns.server, ← howns.authToken]
    exact hs a ha hid howns.protocolType howns.status hdeleted
  · exact howns

theorem insert {t' : AccountTable} {a : Account} (h : Owned t held) (hi : t.insert a = some t') :
    Owned t' held := by
  intro server token hheld
  obtain ⟨b, hb, howns⟩ := h server token hheld
  exact ⟨b, (AccountTable.mem_insert hi).mpr (.inr hb), howns⟩

/-- A change that makes no token known. -/
theorem setToken (h : Owned t held) {g : Option (Int × Bool) → Option (Int × Bool)} (hg : g none = none)
    (server : Nat) (token : Str) : Owned t (registry.setToken held server token g) := by
  intro s u hheld
  by_cases hsu : s = server ∧ u = token
  · obtain ⟨rfl, rfl⟩ := hsu
    refine h s u ?_
    intro hnone
    rw [setToken_self, hnone] at hheld
    exact hheld hg
  · rw [setToken_elsewhere hsu] at hheld
    exact h s u hheld

/-- The token of an account. -/
theorem register {a : Account} (h : Owned t held) (ha : a ∈ t) {server : Nat} {token : Str}
    (howns : a.Owns server token) (g : Option (Int × Bool) → Option (Int × Bool)) :
    Owned t (registry.setToken held server token g) := by
  intro s u hheld
  by_cases hsu : s = server ∧ u = token
  · obtain ⟨rfl, rfl⟩ := hsu
    exact ⟨a, ha, howns⟩
  · rw [setToken_elsewhere hsu] at hheld
    exact h s u hheld

end Owned

/-! Programs that make no token known and delete no account. -/

def Call.KeepsOwners : Call → Prop
  | .http _ _ => False
  | .saveAccount obj fields => .status ∈ fields → obj.status ≠ .deleted
  | .rollback => False
  | _ => True

/-- A status that is written is the object's. -/
theorem Account.write_status_eq (row obj : Account) (fields : List AccountField) :
    (row.write obj fields).status = row.status ∨
      .status ∈ fields ∧ (row.write obj fields).status = obj.status := by
  by_cases hf : .status ∈ fields
  · exact .inr ⟨hf, by rw [Account.write_status, if_pos hf]⟩
  · exact .inl (by rw [Account.write_status, if_neg hf])

abbrev KeepsOwners {α : Type} (p : PanelProg α) : Prop := p.AllCalls Call.KeepsOwners

section Programs

variable {env : Env} {α : Type} {server : Server} {u : Str} {a : Account}

theorem owned_handler {c : Call} (hc : c.KeepsOwners) (w : World) (h : owned (registry.view w)) :
    owned (registry.view (World.handler env c w).2) := by
  cases c with
  | connect server =>
    change owned (registry.view (w.connect env server).2)
    rwa [registry.view_connect]
  | exec server u cmd =>
    change owned (registry.view (w.exec env server u cmd).2)
    rwa [registry.view_exec]
  | http server request => exact hc.elim
  | rollback => exact hc.elim
  | insertAccount account =>
    change owned (registry.view (w.insertAccount account).2)
    unfold World.insertAccount
    split
    · next hi => exact Owned.insert h hi
    · exact h
  | saveAccount obj fields =>
    refine Owned.save h ?_
    intro row _ _ _ hstatus hdeleted
    rcases row.write_status_eq obj fields with hsame | ⟨hf, hobj⟩
    · exact (hstatus (hsame.symm.trans hdeleted)).elim
    · exact (hc hf (hobj.symm.trans hdeleted)).elim
  | _ => exact h

theorem owned_of_calls {p : PanelProg α} (hp : KeepsOwners p) :
    registry.Spec env owned p (fun _ => owned) owned :=
  hp.triple fun _ w hc hw hok => owned_handler hc w (hw (registry.ok_of_handler hok))

theorem keepsOwners_run {cmd : Cmd} : KeepsOwners (SSHManager.run server u cmd) :=
  ⟨trivial, fun _ => (Prog.allCalls_ofExcept _).bind fun _ => trivial⟩

theorem keepsOwners_connect : KeepsOwners (SSHManager.connect server) :=
  SSHManager.allCalls_connect trivial

theorem keepsOwners_accountServer : KeepsOwners (accountServer a) := allCalls_accountServer trivial

theorem keepsOwners_saveStatus {status : AccountStatus} (h : status ≠ .deleted) :
    KeepsOwners (saveStatus a status) := ⟨fun _ => h, fun _ => trivial⟩

theorem keepsOwners_expireUsers : KeepsOwners expireUsers := by
  refine ⟨trivial, fun _ => ⟨trivial, allCalls_countSucceeded fun a => ?_⟩⟩
  refine keepsOwners_accountServer.bind fun _ => keepsOwners_connect.bind fun _ => ?_
  exact keepsOwners_run.bind fun _ => keepsOwners_saveStatus (by simp)

theorem keepsOwners_syncAccount : KeepsOwners (syncAccount server a) := by
  have hexec : ∀ cmd : Cmd, cmd.Numeric → Call.KeepsOwners (.exec server a.username cmd) :=
    fun _ _ => trivial
  refine (SSHManager.allCalls_setupTrafficAccounting hexec).bind fun _ => ?_
  refine (SSHManager.allCalls_getUserBandwidthBytes hexec).bind fun bytes => ?_
  refine Prog.AllCalls.bind ?_ fun _ => ?_
  · unfold saveUsage
    split
    · exact ⟨by simp [Call.KeepsOwners], fun _ => trivial⟩
    · trivial
  · unfold enforceLimit
    split
    · exact keepsOwners_run.bind fun _ => keepsOwners_saveStatus (by simp)
    · trivial

theorem keepsOwners_syncBandwidthUsage : KeepsOwners syncBandwidthUsage :=
  allCalls_syncBandwidthUsage trivial (fun _ => trivial) (fun _ => trivial) fun _ _ =>
    keepsOwners_syncAccount

theorem keepsOwners_push (data : AccountUpdate) : KeepsOwners (data.push a) := by
  refine keepsOwners_accountServer.bind fun server => keepsOwners_connect.bind fun _ => ?_
  have hlogins : KeepsOwners (if data.maxConnections.isSome then do
      let _ ← SSHManager.setMaxLogins server a.username a.maxConnections
      else return ()) := by
    split
    · exact (SSHManager.allCalls_setMaxLogins (fun _ _ => trivial) _).bind fun _ => trivial
    · trivial
  dsimp only
  split
  · exact keepsOwners_run.bind fun _ => hlogins
  · exact hlogins

end Programs

/-! What makes a token known or deletes an account. -/

section Services

variable {env : Env} {accs : List Account} {a : Account} {v : RegistryView}

/-- The tokens and the rows of some objects. -/
def ownedWith (accs : List Account) (v : RegistryView) : Prop := owned v ∧ ∀ a ∈ accs, v.Known a

/-- A row is deleted together with its token. -/
theorem owned_setStatus (h : ownedWith accs v) (ha : v.Known a) {status : AccountStatus}
    {g : Option (Int × Bool) → Option (Int × Bool)} (hg : g none = none)
    (hdeleted : status = .deleted → ∀ x, g x = none) :
    ownedWith accs (View.save { v with remote := registry.setToken v.remote a.server a.authToken g }
      { a with status := status } [.status]) := by
  obtain ⟨row, hrow, hk⟩ := ha
  refine ⟨(h.1.setToken hg a.server a.authToken).save ?_, fun c hc => (h.2 c hc).save⟩
  intro d hd hid _ _ hnew
  have hdr := AccountTable.eq_of_id hd hrow (hid.trans hk.id)
  change registry.setToken v.remote a.server a.authToken g d.server d.authToken = none
  rw [hdr, ← hk.server, ← hk.authToken, setToken_self]
  exact hdeleted hnew _

theorem owned_saveSsh (h : ownedWith accs v) (ha : v.Known a) (hp : a.protocolType = .ssh)
    {fields : List AccountField} : ownedWith accs (v.save a fields) := by
  obtain ⟨row, hrow, hk⟩ := ha
  refine ⟨h.1.save ?_, fun c hc => (h.2 c hc).save⟩
  intro d hd hid hshadow
  have hdr := AccountTable.eq_of_id hd hrow (hid.trans hk.id)
  rw [hdr, ← hk.protocolType, hp] at hshadow
  cases hshadow

theorem changeStatus_owned (ha : a ∈ accs) {status : AccountStatus} {action : AuditAction}
    {adminUser : Option Nat} {bridge : Server → Str → PanelProg BridgeResponse}
    {ssh : Server → Str → PanelProg CommandResult} {g : Option (Int × Bool) → Option (Int × Bool)}
    (hbridge : SetsToken env bridge g)
    (hssh : ∀ server u I, registry.Spec env I (ssh server u) (fun _ => I) I) (hg : g none = none)
    (hdeleted : status = .deleted → ∀ x, g x = none) :
    registry.Spec env (ownedWith accs) (changeStatus a status action adminUser bridge ssh)
      (fun _ => ownedWith accs) (ownedWith accs) := by
  refine (Observation.Spec.accountServer a).bind fun server => .pure fun hs => ?_
  have hsave : registry.Spec env (fun v => ownedWith accs (v.save { a with status := status } [.status]))
      (do
        saveStatus a status
        ask (.insertAuditLog ⟨action, some a.id, adminUser, []⟩))
      (fun _ => ownedWith accs) (ownedWith accs) :=
    (Observation.Spec.saveAccount _ _).bind fun _ =>
      (Observation.Spec.insertAuditLog _).pre fun _ h => h
  cases hp : a.protocolType with
  | shadowlink =>
    refine (Observation.Spec.logged (hbridge server a.authToken fun v =>
      ownedWith accs (v.save { a with status := status } [.status])).never).bind
        (fun _ => hsave) |>.pre ?_
    intro v hv
    rw [hs]
    exact owned_setStatus hv (hv.2 a ha) hg hdeleted
  | ssh =>
    refine registry.connect.bind fun _ => ?_
    refine (hssh server a.username (ownedWith accs)).bind fun _ => hsave.pre ?_
    intro v hv
    exact owned_saveSsh hv ((hv.2 a ha).status status) hp

theorem suspendAccount_owned (ha : a ∈ accs) {adminUser : Option Nat} :
    registry.Spec env (ownedWith accs) (suspendAccount a adminUser) (fun _ => ownedWith accs)
      (ownedWith accs) :=
  changeStatus_owned ha setsToken_suspendToken (fun _ _ _ => registry.run _) rfl (by simp)

theorem activateAccount_owned (ha : a ∈ accs) {adminUser : Option Nat} :
    registry.Spec env (ownedWith accs) (activateAccount a adminUser) (fun _ => ownedWith accs)
      (ownedWith accs) :=
  changeStatus_owned ha setsToken_activateToken (fun _ _ _ => registry.run _) rfl (by simp)

theorem deleteAccount_owned (ha : a ∈ accs) {adminUser : Option Nat} :
    registry.Spec env (ownedWith accs) (deleteAccount a adminUser) (fun _ => ownedWith accs)
      (ownedWith accs) :=
  changeStatus_owned ha setsToken_deregisterToken
    (fun _ _ _ => (registry.run _).bind fun _ => registry.run _) rfl fun _ _ => rfl

theorem extendAccount_owned {days : Int} {adminUser : Option Nat} :
    registry.Spec env owned (extendAccount a days adminUser) (fun _ => owned) owned := by
  refine (Observation.Spec.extend (J := owned) ?_ fun _ h => h).bind fun a' => .pure fun _ => ?_
  · intro a' v he hv
    refine hv.save ?_
    intro row _ _ _ _ hdeleted
    -- an extension writes ACTIVE
    have hnew : (row.write a' [.expireDate, .status]).status = a'.status := rfl
    rw [hnew, (Account.extend_ok he).2] at hdeleted
    cases hdeleted
  refine owned_of_calls ?_
  refine keepsOwners_accountServer.bind fun server => keepsOwners_connect.bind fun _ => ?_
  refine keepsOwners_run.bind fun _ => ?_
  dsimp only
  split
  · exact keepsOwners_run.bind fun _ => ⟨trivial, fun _ => trivial⟩
  · exact ⟨trivial, fun _ => trivial⟩

theorem patchAccount_owned {pk : Nat} {data : AccountUpdate} :
    registry.Spec env owned (patchAccount pk data) (fun _ => owned) owned := by
  refine Observation.Spec.patchAccount ?_ (fun _ => owned_of_calls (keepsOwners_push data)) fun _ h => h
  intro a date v ha _ hv
  refine hv.save ?_
  intro row hrow hid _ hstatus hdeleted
  obtain rfl := AccountTable.eq_of_id hrow (Db.getAccount_mem ha) hid
  have hsame : (row.write (data.apply row date) AccountField.all).status = row.status :=
    row.write_all_status _
  exact (hstatus (hsame.symm.trans hdeleted)).elim

theorem createAccount_owned {args : CreateArgs} :
    registry.Spec env owned (createAccount args) (fun _ => owned) owned := by
  refine .of_view fun v₀ hv => ?_
  refine Observation.Spec.createAccount ?_ hv fun _ _ h => h
  intro server a account t _ hserver _ _ hactive hi hacc
  cases hp : a.protocolType with
  | shadowlink =>
    rw [provision_shadowlink (hacc ▸ hp)]
    let I : RegistryView → Prop := fun v => v.saved = v₀.db :: v₀.saved ∧ owned ⟨v.db, v₀.saved, v.remote⟩
    have hregister : SetsToken env _ _ := setsToken_registerToken account.maxConnections
    refine Observation.Spec.pre (Observation.Spec.handle
      ((hregister server account.authToken I).bind fun _ => .ret fun _ h => h)
      fun _ => .raise fun _ h => h.elim) ?_
    rintro v rfl
    have hnew : account ∈ t := (AccountTable.mem_insert hi).mpr (.inl hacc)
    have howns : account.Owns server.id account.authToken := by
      subst hacc
      exact ⟨hserver, rfl, hp, by simp [hactive]⟩
    exact ⟨rfl, (Owned.insert hv hi).register hnew howns _⟩
  | ssh =>
    rw [provision_ssh (hacc ▸ hp)]
    refine (registry.overSsh (I := fun v => v = View.setAccounts ⟨v₀.db, v₀.db :: v₀.saved, v₀.remote⟩ t)
      (allCalls_provisionSshAccount trivial fun _ _ => trivial)).imp (fun _ h => h) ?_ ?_
    · rintro _ v rfl
      exact ⟨rfl, Owned.insert hv hi⟩
    · rintro v rfl
      exact ⟨rfl, hv⟩

theorem cleanupExpiredAccounts_owned {graceDays : Int} :
    registry.Spec env owned (cleanupExpiredAccounts graceDays) (fun _ => owned) owned := by
  refine (Observation.Spec.read (fun _ => env.now) fun _ => rfl).bind fun now => ?_
  refine (Observation.Spec.ofExcept (A := fun _ => owned) (fun _ _ _ h => h.2)
    fun _ _ _ h => h.2).bind fun cutoff => ?_
  refine (Observation.Spec.read (fun v => v.db.selectAccounts (.expiredSince cutoff))
    fun _ => rfl).bind fun accs => ?_
  refine (Observation.Spec.countSucceeded (I := ownedWith accs) fun a ha => deleteAccount_owned ha).imp
    ?_ (fun _ _ h => h.1) fun _ h => h
  rintro v ⟨rfl, hv⟩
  exact ⟨hv, fun a ha => ⟨a, (Db.mem_selectAccounts.mp ha).1, .refl a⟩⟩

theorem onAccount_owned {pk : Nat} {service : Account → PanelProg Unit}
    (h : ∀ a, registry.Spec env (ownedWith [a]) (service a) (fun _ => ownedWith [a]) (ownedWith [a])) :
    registry.Spec env owned (onAccount pk service) (fun _ => owned) owned := by
  refine Observation.Spec.onAccount (fun a => ?_) fun _ hv => hv
  refine (h a).imp ?_ (fun _ _ hv => hv.1) fun _ hv => hv.1
  rintro v ⟨ha, hv⟩
  refine ⟨hv, ?_⟩
  intro b hb
  obtain rfl := List.mem_singleton.mp hb
  exact ⟨b, Db.getAccount_mem ha, .refl b⟩

theorem op_owned (op : Op) : registry.Spec env owned op.prog (fun _ => owned) owned := by
  have hdone : ∀ {α : Type} {p : PanelProg α}, registry.Spec env owned p (fun _ => owned) owned →
      registry.Spec env owned (p >>= fun _ => return ()) (fun _ => owned) owned :=
    fun hp => hp.bind fun _ => .ret fun _ hv => hv
  cases op with
  | create r =>
    exact hdone (.createAccountView (fun _ => createAccount_owned.pre fun _ h => h.2) fun _ hv => hv)
  | suspend pk adminUser =>
    exact onAccount_owned fun a => suspendAccount_owned (List.mem_singleton.mpr rfl)
  | activate pk adminUser =>
    exact onAccount_owned fun a => activateAccount_owned (List.mem_singleton.mpr rfl)
  | extend pk days adminUser =>
    exact .onAccount (fun a => extendAccount_owned.pre fun _ h => h.2) fun _ hv => hv
  | delete pk adminUser =>
    exact onAccount_owned fun a => deleteAccount_owned (List.mem_singleton.mpr rfl)
  | patch pk data => exact hdone patchAccount_owned
  | webhook username planId status =>
    refine hdone (.paymentWebhook (fun plan a => ?_) (fun plan => ?_) fun _ hv => hv)
    · exact extendAccount_owned.pre fun _ h => h.2.2.2
    · exact createAccount_owned.pre fun _ h => h.2.2.2
  | expireUsers => exact hdone (owned_of_calls keepsOwners_expireUsers)
  | cleanupExpiredAccounts graceDays => exact hdone cleanupExpiredAccounts_owned
  | syncBandwidthUsage => exact owned_of_calls keepsOwners_syncBandwidthUsage

end Services

/-! Runs. -/

theorem step_owned (w : World) (x : Op × Env) (h : registry.Good owned w) :
    registry.Good owned (w.step x) :=
  (op_owned x.1).step h

theorem run_owned {w : World} (h : registry.Good owned w) (xs : List (Op × Env)) :
    registry.Good owned (w.run xs) := by
  induction xs generalizing w with
  | nil => exact h
  | cons x xs ih => exact ih (step_owned w x h)

/-! What the bridges then hold. -/

/-- The account is ACTIVE and has the token on the server. -/
def Account.Admitted (a : Account) (server : Nat) (token : Str) : Prop :=
  a.Owns server token ∧ a.status = .active

section Bridges

variable {v : RegistryView} {server : Nat} {token : Str} {bridge : BridgeServer}

theorem answer_eq_true {x : Option (Int × Bool)} {n : Int} :
    BridgeServer.answer x = (true, n) ↔ x = some (n, true) := by
  rcases x with - | ⟨m, active⟩
  · simp [BridgeServer.answer]
  · cases active <;> simp [BridgeServer.answer]

theorem expectedAnswer_eq_true {a : Account} {n : Int} :
    expectedAnswer a = (true, n) ↔ a.status = .active ∧ (a.maxConnections : Int) = n := by
  unfold expectedAnswer
  split <;> simp [*]

/-- The mirror and the owners together. -/
theorem answer_iff (hm : mirrored v) (ho : owned v) {n : Int} :
    BridgeServer.answer (v.remote server token) = (true, n) ↔
      ∃ a ∈ v.db.accounts, a.Admitted server token ∧ (a.maxConnections : Int) = n := by
  constructor
  · intro h
    have hheld : v.remote server token ≠ none := by simp [answer_eq_true.mp h]
    obtain ⟨a, ha, howns⟩ := ho server token hheld
    have hanswer : BridgeServer.answer (v.remote a.server a.authToken) = expectedAnswer a :=
      hm a ha howns.protocolType
    rw [howns.server, howns.authToken, h] at hanswer
    obtain ⟨hactive, hn⟩ := expectedAnswer_eq_true.mp hanswer.symm
    exact ⟨a, ha, ⟨howns, hactive⟩, hn⟩
  · rintro ⟨a, ha, ⟨howns, hactive⟩, hn⟩
    have hanswer : BridgeServer.answer (v.remote a.server a.authToken) = expectedAnswer a :=
      hm a ha howns.protocolType
    rw [howns.server, howns.authToken] at hanswer
    exact hanswer.trans (expectedAnswer_eq_true.mpr ⟨hactive, hn⟩)

theorem held_entry {t : Sigma fun _ : Str => TokenInfo} (ht : t ∈ bridge.tokens.entries) :
    bridge.held t.1 = some (t.2.maxConns, t.2.active) := by
  unfold BridgeServer.held
  rw [AList.mem_lookup_iff.mpr ht]
  rfl

theorem exists_entry {x : Int × Bool} (h : bridge.held token = some x) :
    ∃ t ∈ bridge.tokens.entries, t.1 = token ∧ t.2.active = x.2 := by
  obtain ⟨info, hinfo, rfl⟩ := Option.map_eq_some_iff.mp h
  exact ⟨⟨token, info⟩, AList.mem_lookup_iff.mp hinfo, rfl, rfl⟩

theorem nodup_tokens (bridge : BridgeServer) : (bridge.tokens.entries.map Sigma.fst).Nodup :=
  bridge.tokens.nodupKeys

/-- Every token of a bridge counts for an account of its server. -/
theorem entries_le (ho : owned v) (hb : v.remote server = bridge.held) :
    bridge.tokens.entries.length ≤ v.db.accounts.rows.countP fun a =>
      a.server = server ∧ a.protocolType = .shadowlink ∧ a.status ≠ .deleted := by
  rw [← List.countP_true]
  refine Indexed.countP_le_of_key Sigma.fst Account.authToken (nodup_tokens bridge) ?_
  intro t ht _
  have hheld : v.remote server t.1 ≠ none := by simp [hb, held_entry ht]
  obtain ⟨a, ha, howns⟩ := ho server t.1 hheld
  exact ⟨a, ha, by simp [howns.server, howns.protocolType, howns.status], howns.authToken⟩

/-- The ACTIVE tokens of a bridge and the ACTIVE accounts of its server are one to one. -/
theorem countP_active (hm : mirrored v) (ho : owned v) (hb : v.remote server = bridge.held) :
    (bridge.tokens.entries.countP fun t => t.2.active) = v.db.accounts.rows.countP fun a =>
      a.server = server ∧ a.protocolType = .shadowlink ∧ a.status = .active := by
  apply le_antisymm
  · refine Indexed.countP_le_of_key Sigma.fst Account.authToken (nodup_tokens bridge) ?_
    intro t ht hactive
    have hanswer : BridgeServer.answer (v.remote server t.1) = (true, t.2.maxConns) := by
      simp [hb, held_entry ht, hactive, BridgeServer.answer]
    obtain ⟨a, ha, ⟨howns, hstatus⟩, -⟩ := (answer_iff hm ho).mp hanswer
    exact ⟨a, ha, by simp [howns.server, howns.protocolType, hstatus], howns.authToken⟩
  · refine Indexed.countP_le_of_key Account.authToken Sigma.fst v.db.accounts.authTokens ?_
    intro a ha ha'
    obtain ⟨hserver, hp, hstatus⟩ := of_decide_eq_true ha'
    have hanswer : BridgeServer.answer (v.remote a.server a.authToken) = expectedAnswer a := hm a ha hp
    rw [expectedAnswer_eq_true.mpr ⟨hstatus, rfl⟩, hserver, hb] at hanswer
    obtain ⟨t, ht, htoken, hactive⟩ := exists_entry (answer_eq_true.mp hanswer)
    exact ⟨t, ht, hactive, htoken⟩

end Bridges

/-- In every run from an empty panel and empty bridges in which the bridges answer every request, a
bridge knows only tokens of ShadowLink accounts of its server that are not deleted, and `/api/status`
counts no more of them than there are such accounts. Where moreover no operation leaves a bridge untold,
it lets in exactly the tokens of the ACTIVE ones, each with the limit of its row, and `/api/status`
counts as many active tokens. -/
theorem World.tokens_owned {w : World} (h₀ : w.db.accounts.rows = [])
    (hempty : ∀ server token, (w.nodes server).bridge.held token = none) {xs : List (Op × Env)}
    (hok : ∀ e ∈ (w.run xs).log, e.bridgeFailed = false) (server : Nat) (s : MainServer)
    (hs : s.bridge = ((w.run xs).nodes server).bridge) :
    (∀ token ∈ s.bridge.tokens, ∃ a ∈ (w.run xs).db.accounts, a.Owns server token) ∧
    (s.serverStatus.totalTokens ≤ (w.run xs).db.accounts.rows.countP fun a =>
      a.server = server ∧ a.protocolType = .shadowlink ∧ a.status ≠ .deleted) ∧
    (Along World.step (fun w x => KeepsTokens x.2 (registry.view w) x.1) w xs →
      (∀ token n, s.bridge.authenticateToken token = (true, n) ↔
        ∃ a ∈ (w.run xs).db.accounts, a.Admitted server token ∧ (a.maxConnections : Int) = n) ∧
      s.serverStatus.activeTokens = (w.run xs).db.accounts.rows.countP fun a =>
        a.server = server ∧ a.protocolType = .shadowlink ∧ a.status = .active) := by
  have howned : registry.Good owned w := fun _ server token hheld => (hheld (hempty server token)).elim
  have ho : owned (registry.view (w.run xs)) := run_owned howned xs hok
  have hb : (registry.view (w.run xs)).remote server = s.bridge.held := by
    rw [hs]
    rfl
  refine ⟨?_, entries_le ho hb, fun hg => ?_⟩
  · intro token htoken
    obtain ⟨info, hinfo⟩ := Option.isSome_iff_exists.mp (AList.lookup_isSome.mpr htoken)
    refine ho server token ?_
    simp [hb, BridgeServer.held, hinfo]
  · have hmirrored : registry.Good mirrored w := by
      intro _ a ha
      have ha' : a ∈ w.db.accounts.rows := ha
      simp [h₀] at ha'
    have hm : mirrored (registry.view (w.run xs)) := hg.invariant step_mirrored hmirrored hok
    refine ⟨?_, countP_active hm ho hb⟩
    intro token n
    rw [BridgeServer.authenticateToken_eq, ← hb]
    exact answer_iff hm ho

/-- Three accounts are created, one is suspended and one is deleted. -/
def threeTokensRun : List (Op × Env) :=
  let envs (token : String) : Env := { sampleEnv 0 with tokens := (token.toList, token.toList) }
  [(.create (sampleRequest "alice" .shadowlink), envs "a"),
    (.create (sampleRequest "bob" .shadowlink), envs "b"),
    (.create (sampleRequest "carol" .shadowlink), envs "c"), (.suspend 1 none, sampleEnv 1),
    (.delete 2 none, sampleEnv 2)]

/-- Its bridge, as `main` starts with it. -/
def threeTokensServer : MainServer := .initial ((sampleWorld.run threeTokensRun).nodes 0).bridge

theorem World.tokens_owned_threeTokens :
    threeTokensServer.serverStatus.totalTokens = 2 ∧
    (∀ token ∈ threeTokensServer.bridge.tokens,
      ∃ a ∈ (sampleWorld.run threeTokensRun).db.accounts, a.Owns 0 token) ∧
    (∀ token n, threeTokensServer.bridge.authenticateToken token = (true, n) ↔
      ∃ a ∈ (sampleWorld.run threeTokensRun).db.accounts,
        a.Admitted 0 token ∧ (a.maxConnections : Int) = n) ∧
    threeTokensServer.serverStatus.activeTokens =
      (sampleWorld.run threeTokensRun).db.accounts.rows.countP fun a =>
        a.server = 0 ∧ a.protocolType = .shadowlink ∧ a.status = .active := by
  have hg : Along World.step (fun w x => KeepsTokens x.2 (registry.view w) x.1) sampleWorld
      threeTokensRun := ⟨trivial, trivial, trivial, trivial, trivial, trivial⟩
  obtain ⟨howns, -, hexact⟩ := World.tokens_owned (w := sampleWorld) rfl (fun _ _ => rfl)
    (by decide +kernel) 0 threeTokensServer rfl
  exact ⟨by decide +kernel, howns, hexact hg⟩

end SshPanelVpn.Panel

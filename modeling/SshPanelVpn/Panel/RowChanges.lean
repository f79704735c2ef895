import SshPanelVpn.Panel.SharedRow

/-! Every operation on one account reads the row, and saves once what its change makes of it. -/
namespace SshPanelVpn.Panel

open Effects ShadowLink
open Effects.Prog (Reads Saves Steady Fixed)

/-- The calls whose answers do not depend on the row; a save is of another row. -/
def Call.Outside (row : Account) : Call → Prop
  | .getAccount pk => pk ≠ row.id
  | .selectAccounts (.activeOn srv) => row.server ≠ srv
  | .selectAccounts _ => False
  | .currentUserCount _ => False
  | .saveAccount obj _ => obj.id ≠ row.id
  | _ => True

/-- The calls that leave the row. -/
def Call.Spares (pk : Nat) : Call → Prop
  | .saveAccount obj _ => obj.id ≠ pk
  | _ => True

section Row

variable {row : Account} {s : Surroundings row.id} {α β : Type} {p : PanelProg α}

/-- What the program does to the columns, in its surroundings. -/
abbrev SavesRow (s : Surroundings row.id) (p : PanelProg α) (w : Columns → Columns) : Prop :=
  p.Saves s.handler row.SameKeys Account.columns w

abbrev ReadsRow (s : Surroundings row.id) (p : PanelProg α) (f : Columns → Columns → Columns) : Prop :=
  p.Reads s.handler row.SameKeys Account.columns f

abbrev SteadyRow (s : Surroundings row.id) (p : PanelProg α) : Prop :=
  p.Steady s.answer s.handler row.SameKeys

theorem handler_keys (s : Surroundings row.id) (c : Call) (x : Account) (hx : row.SameKeys x) :
    row.SameKeys (s.handler c x).2 := by
  cases c with
  | saveAccount obj fields =>
    simp only [Surroundings.handler]
    split
    · exact hx.trans (x.write_keys obj fields)
    · exact hx
  | _ => exact hx

theorem fixed_of_outside (s : Surroundings row.id) {c : Call} (hc : c.Outside row) :
    Fixed s.answer s.handler row.SameKeys c := by
  intro x hx
  cases c with
  | getAccount pk => exact Prod.ext (if_neg hc) rfl
  | selectAccounts q =>
    cases q with
    | activeOn srv =>
      have hq : (AccountQuery.activeOn srv).filter x = false := by
        have hne : row.server ≠ srv := hc
        simp [AccountQuery.filter, hx.server, hne]
      simp [Surroundings.handler, hq]
    | _ => exact hc.elim
  | currentUserCount srv => exact hc.elim
  | saveAccount obj fields => exact Prod.ext rfl (if_neg hc)
  | _ => rfl

theorem steady_of_outside (h : p.AllCalls (Call.Outside row)) : SteadyRow s p :=
  (h.mono fun _ hc => fixed_of_outside s hc).steady

theorem saves_of_spares (h : p.AllCalls (Call.Spares row.id)) : SavesRow s p id := by
  refine Prog.saves_id (h.mono fun c hc x _ => ?_)
  cases c with
  | saveAccount obj fields => exact congrArg Account.columns (if_neg hc)
  | _ => rfl

theorem Call.Quiet.spares {c : Call} {pk : Nat} (hc : c.Quiet) : c.Spares pk := by
  cases c with
  | saveAccount obj fields => exact hc.elim
  | _ => trivial

/-- Writing the one column. -/
theorem saves_saveStatus {x : Account} (hx : row.SameKeys x) (status : AccountStatus) :
    SavesRow s (saveStatus x status) (·.withStatus status) := by
  refine .inr fun y _ => ⟨?_, rfl⟩
  exact congrArg Account.columns (if_pos hx.id)

/-- What is saved after a part that may raise. -/
theorem saves_after {node : PanelProg β} {next : β → PanelProg α} {w : Columns → Columns}
    (hnode : SteadyRow s node) (hnext : ∀ b, node.value s.answer = .ok b → SavesRow s (next b) w) :
    SavesRow s (node >>= next) fun c => if s.completes node then w c else c := by
  refine hnode.bind_saves ?_ ?_
  · intro b hb
    simp only [Surroundings.completes_ok hb, if_true]
    exact hnext b hb
  · intro e he
    simp only [Surroundings.completes_error he, Bool.false_eq_true, if_false]
    rfl

/-- A query sees the columns of the row and what no operation changes. -/
theorem filter_on {x : Account} (hx : row.SameKeys x) (q : AccountQuery) :
    q.filter (x.columns.on row) = q.filter x := by
  cases q <;>
    exact decide_eq_decide.mpr (by simp only [Columns.on, Account.columns, hx.server, hx.username])

/-! The status operations. -/

theorem outside_run {server : Server} {u : Str} (cmd : Cmd) :
    (SSHManager.run server u cmd).AllCalls (Call.Outside row) :=
  ⟨trivial, fun _ => (Prog.allCalls_ofExcept _).bind fun _ => trivial⟩

theorem outside_expireNode (x : Account) : (expireNode x).AllCalls (Call.Outside row) := by
  refine (allCalls_accountServer trivial).bind fun server => ?_
  refine (SSHManager.allCalls_connect trivial).bind fun _ => ?_
  exact (outside_run _).bind fun _ => trivial

theorem outside_changeNode (x : Account) {bridge : Server → Str → PanelProg BridgeResponse}
    {ssh : Server → Str → PanelProg CommandResult}
    (hbridge : ∀ server token, (bridge server token).AllCalls (Call.Outside row))
    (hssh : ∀ server u, (ssh server u).AllCalls (Call.Outside row)) :
    (changeNode x bridge ssh).AllCalls (Call.Outside row) := by
  refine (allCalls_accountServer trivial).bind fun server => ?_
  split
  · exact allCalls_logged (hbridge _ _)
  · refine (SSHManager.allCalls_connect trivial).bind fun _ => ?_
    exact (hssh _ _).bind fun _ => trivial

theorem accountServer_keys {x : Account} (hx : row.SameKeys x) :
    accountServer x = accountServer row := by
  unfold accountServer
  rw [hx.server]

/-- The nodes hear of the columns that no operation changes. -/
theorem expireNode_keys {x : Account} (hx : row.SameKeys x) : expireNode x = expireNode row := by
  simp only [expireNode, accountServer_keys hx, hx.username]

theorem changeNode_keys {x : Account} (hx : row.SameKeys x)
    (bridge : Server → Str → PanelProg BridgeResponse)
    (ssh : Server → Str → PanelProg CommandResult) :
    changeNode x bridge ssh = changeNode row bridge ssh := by
  simp only [changeNode, accountServer_keys hx, hx.username, hx.protocolType, hx.authToken]

theorem saves_expireUser {x : Account} (hx : row.SameKeys x) :
    SavesRow s (expireUser x) fun c =>
      if s.completes (expireNode row) then c.withStatus .expired else c := by
  rw [expireUser_eq, expireNode_keys hx]
  exact saves_after (steady_of_outside (outside_expireNode row)) fun _ _ => saves_saveStatus hx .expired

/-- A request for the row reads it first. -/
theorem reads_onAccount {service : Account → PanelProg Unit} {f : Columns → Columns → Columns}
    (h : ∀ x, row.SameKeys x → SavesRow s (service x) (f x.columns)) :
    ReadsRow s (onAccount row.id service) f := by
  intro x hx
  refine ⟨rfl, .inr ?_⟩
  have hreply : (s.handler (.getAccount row.id) x).1 = some x := if_pos rfl
  rw [hreply]
  exact h x hx

theorem saves_changeStatus {x : Account} (hx : row.SameKeys x) {status : AccountStatus}
    {action : AuditAction} {adminUser : Option Nat}
    {bridge : Server → Str → PanelProg BridgeResponse}
    {ssh : Server → Str → PanelProg CommandResult}
    (hbridge : ∀ server token, (bridge server token).AllCalls (Call.Outside row))
    (hssh : ∀ server u, (ssh server u).AllCalls (Call.Outside row)) :
    SavesRow s (changeStatus x status action adminUser bridge ssh)
      ((s.sets row status bridge ssh).save x.columns) := by
  rw [changeStatus_eq, changeNode_keys hx]
  refine saves_after (steady_of_outside (outside_changeNode row hbridge hssh)) fun _ _ => ?_
  exact (saves_saveStatus hx status).bind fun _ => .inl fun _ _ => ⟨rfl, rfl⟩

/-! The task `expire_users`. -/

theorem newer_ne (s : Surroundings row.id) (q : AccountQuery) : ∀ a ∈ s.newer q, a.id ≠ row.id :=
  fun a ha => s.others q a (List.mem_of_mem_take ha)

theorem older_ne (s : Surroundings row.id) (q : AccountQuery) : ∀ a ∈ s.older q, a.id ≠ row.id :=
  fun a ha => s.others q a (List.mem_of_mem_drop ha)

theorem succeeded_returns (body : PanelProg Unit) (e : Exc) :
    (succeeded body).value s.answer ≠ .error e := by
  obtain ⟨done, hdone⟩ : ∃ done, (succeeded body).value s.answer = .ok done :=
    Prog.value_handle fun _ => ⟨false, rfl⟩
  simp [hdone]

theorem steady_succeeded {body : PanelProg Unit} (h : SteadyRow s body) :
    SteadyRow s (succeeded body) :=
  Steady.handle (Steady.bind h fun _ _ => trivial) fun _ => trivial

theorem outside_expireUser {x : Account} (hx : x.id ≠ row.id) :
    (succeeded (expireUser x)).AllCalls (Call.Outside row) := by
  refine Prog.AllCalls.handle (Prog.AllCalls.bind ?_ fun _ => trivial) fun _ => trivial
  rw [expireUser_eq]
  exact (outside_expireNode x).bind fun _ => ⟨hx, fun _ => trivial⟩

theorem outside_countSucceeded {accs : List Account} (h : ∀ a ∈ accs, a.id ≠ row.id) :
    (countSucceeded expireUser accs).AllCalls (Call.Outside row) := by
  induction accs with
  | nil => trivial
  | cons a accs ih =>
    refine (outside_expireUser (h a List.mem_cons_self)).bind fun done => ?_
    exact (ih fun b hb => h b (List.mem_cons_of_mem _ hb)).bind fun count => trivial

/-- The accounts before the row. -/
theorem saves_countSucceeded {newer accs : List Account} {w : Columns → Columns}
    (h : ∀ a ∈ newer, a.id ≠ row.id) (hw : SavesRow s (countSucceeded expireUser accs) w) :
    SavesRow s (countSucceeded expireUser (newer ++ accs)) w := by
  induction newer with
  | nil => exact hw
  | cons a newer ih =>
    have hrest := ih fun b hb => h b (List.mem_cons_of_mem _ hb)
    refine (steady_of_outside (outside_expireUser (h a List.mem_cons_self))).bind_saves ?_ ?_
    · exact fun done _ => hrest.bind fun _ => rfl
    · exact fun e he => (succeeded_returns _ _ he).elim

theorem reads_expireUsers (s : Surroundings row.id) :
    ReadsRow s (RowOp.expireUsers.op row.id).prog (RowOp.expireUsers.change s row).save := by
  refine Reads.bind ?_ fun _ => rfl
  refine (steady_of_outside (p := ask .now) ⟨trivial, fun _ => trivial⟩).bind_reads ?_ ?_
  · intro now hnow x hx
    obtain rfl : s.answer .now = now := by
      cases hnow
      rfl
    refine ⟨rfl, .inr ?_⟩
    have hsave : (RowOp.expireUsers.change s row).save x.columns = fun c =>
        if (AccountQuery.expiredBy (s.answer .now)).filter x && s.completes (expireNode row) then
          c.withStatus .expired
        else c := by
      funext c
      simp only [RowOp.change, Surroundings.expires, Change.save, filter_on hx]
    rw [hsave]
    simp only [Surroundings.handler]
    cases hfilter : (AccountQuery.expiredBy (s.answer .now)).filter x with
    | false =>
      have hothers := outside_countSucceeded (s.others (.expiredBy (s.answer .now)))
      exact (steady_of_outside hothers).saves
    | true =>
      refine saves_countSucceeded (newer_ne s _) ?_
      have hown : SavesRow s (succeeded (expireUser x)) fun c =>
          if s.completes (expireNode row) then c.withStatus .expired else c :=
        Saves.handle ((saves_expireUser hx).bind fun _ => rfl) fun _ => rfl
      refine hown.bind fun done => ?_
      exact ((steady_of_outside (outside_countSucceeded (older_ne s _))).saves).bind fun _ => rfl
  · intro e he
    cases he

/-! The requests. -/

theorem outside_bridgeRequest (server : Server) (path : String) (data : TokenRequest) :
    (ShadowLinkManager.bridgeRequest server "POST" path data).AllCalls (Call.Outside row) :=
  ShadowLinkManager.allCalls_bridgeRequest (fun _ => trivial) _ _ _

theorem reads_suspend (s : Surroundings row.id) (adminUser : Option Nat) :
    ReadsRow s ((RowOp.suspend adminUser).op row.id).prog ((RowOp.suspend adminUser).change s row).save :=
  reads_onAccount fun _ hx => saves_changeStatus hx (fun _ _ => outside_bridgeRequest _ _ _)
    fun _ _ => outside_run _

theorem reads_activate (s : Surroundings row.id) (adminUser : Option Nat) :
    ReadsRow s ((RowOp.activate adminUser).op row.id).prog
      ((RowOp.activate adminUser).change s row).save :=
  reads_onAccount fun _ hx => saves_changeStatus hx (fun _ _ => outside_bridgeRequest _ _ _)
    fun _ _ => outside_run _

theorem reads_delete (s : Surroundings row.id) (adminUser : Option Nat) :
    ReadsRow s ((RowOp.delete adminUser).op row.id).prog ((RowOp.delete adminUser).change s row).save :=
  reads_onAccount fun _ hx => saves_changeStatus hx (fun _ _ => outside_bridgeRequest _ _ _)
    fun _ _ => SSHManager.allCalls_deleteUser fun _ _ => trivial

/-- What `extend_account` does once it has saved. -/
theorem spares_extendRest (x : Account) (detail : Str) (adminUser : Option Nat) : (do
      let server ← accountServer x
      SSHManager.connect server
      let _ ← SSHManager.setExpiry server x.username x.expireDate.isoDate
      if x.status = .expired then
        let _ ← SSHManager.unlockUser server x.username
      ask (.insertAuditLog ⟨.extend, some x.id, adminUser, detail⟩) : PanelProg Unit).AllCalls
        (Call.Spares row.id) := by
  have hexec : ∀ (server : Server) (cmd : Cmd), cmd.Numeric →
      Call.Spares row.id (.exec server x.username cmd) := fun _ _ _ => trivial
  refine (allCalls_accountServer trivial).bind fun server => ?_
  refine (SSHManager.allCalls_connect trivial).bind fun _ => ?_
  refine (SSHManager.allCalls_run (hexec server)).bind fun _ => ?_
  dsimp only
  split
  · exact (SSHManager.allCalls_run (hexec server)).bind fun _ => ⟨trivial, fun _ => trivial⟩
  · exact ⟨trivial, fun _ => trivial⟩

theorem saves_extendAccount {x : Account} (hx : row.SameKeys x) (days : Int)
    (adminUser : Option Nat) : SavesRow s (extendAccount x days adminUser)
      ((Change.renew (s.extended days)).save x.columns) := by
  unfold extendAccount extend
  rw [Prog.bind_bind]
  refine .inl fun y hy => ⟨rfl, ?_⟩
  change SavesRow s ((Prog.ofExcept (x.extend (s.answer .now) days) >>= _) >>= _) _
  unfold Account.extend
  cases hdate : (x.expireDate.latest (s.answer .now)).addDays days with
  | error e =>
    have hnone : s.extended days x.columns = none := congrArg Except.toOption hdate
    funext c
    simp only [Change.save, hnone, Option.map_none, Option.getD_none, id]
  | ok date =>
    have hsome : s.extended days x.columns = some date := congrArg Except.toOption hdate
    refine .inr fun y hy => ⟨?_, saves_of_spares (spares_extendRest _ _ adminUser)⟩
    simp only [Change.save, hsome, Option.map_some, Option.getD_some]
    exact congrArg Account.columns (if_pos hx.id)

theorem reads_extend (s : Surroundings row.id) (days : Int) (adminUser : Option Nat) :
    ReadsRow s ((RowOp.extend days adminUser).op row.id).prog
      ((RowOp.extend days adminUser).change s row).save :=
  reads_onAccount fun _ hx => saves_extendAccount hx days adminUser

theorem reads_patch (s : Surroundings row.id) (data : AccountUpdate) :
    ReadsRow s ((RowOp.patch data).op row.id).prog ((RowOp.patch data).change s row).save := by
  refine Reads.bind ?_ fun _ => rfl
  intro x hx
  refine ⟨rfl, .inr ?_⟩
  have hreply : (s.handler (.getAccount row.id) x).1 = some x := if_pos rfl
  rw [hreply]
  have hdate : SteadyRow s data.newDate := by
    refine steady_of_outside ?_
    unfold AccountUpdate.newDate
    split
    · trivial
    · exact ⟨trivial, fun _ => (Prog.allCalls_ofExcept _).bind fun _ => trivial⟩
  refine hdate.bind_saves ?_ ?_
  · intro date hdate'
    refine .inr fun y hy => ⟨?_, ?_⟩
    · simp only [RowOp.change, Surroundings.patches, hdate', Change.save]
      exact congrArg Account.columns (if_pos hx.id)
    · have hpush : (succeeded (data.push (data.apply x date))).AllCalls (Call.Spares row.id) :=
        Prog.AllCalls.handle (Prog.AllCalls.bind ((quiet_push _).mono fun _ hc => hc.spares)
          fun _ => trivial) fun _ => trivial
      exact (saves_of_spares hpush).bind fun _ => rfl
  · intro e he
    simp only [RowOp.change, Surroundings.patches, he]
    rfl

/-! The payment webhook. -/

/-- A new account is another row. -/
theorem spares_createAccount (pk : Nat) (args : CreateArgs) :
    (createAccount args).AllCalls (Call.Spares pk) := by
  have hbody : (createBody args).AllCalls (Call.Spares pk) := by
    refine (allCalls_pickBestServer trivial (fun _ => trivial) _).bind fun server => ?_
    refine Prog.AllCalls.bind (α := Str) ?_ fun password => ?_
    · unfold passwordOr
      split
      · trivial
      · exact ⟨trivial, fun _ => trivial⟩
    · refine ⟨trivial, fun now => (Prog.allCalls_ofExcept _).bind fun date => ⟨trivial, fun tokens => ?_⟩⟩
      refine ⟨trivial, fun inserted => (Prog.allCalls_ofExcept _).bind fun account => ?_⟩
      refine ((quiet_provision account server password).mono fun _ hc => hc.spares).bind fun _ => ?_
      exact ⟨trivial, fun _ => trivial⟩
  exact allCalls_atomic hbody trivial trivial trivial

theorem spares_extendAccount {x : Account} (hx : x.id ≠ row.id) (days : Int)
    (adminUser : Option Nat) : (extendAccount x days adminUser).AllCalls (Call.Spares row.id) := by
  unfold extendAccount extend
  rw [Prog.bind_bind]
  refine ⟨trivial, fun now => ?_⟩
  change ((Prog.ofExcept (x.extend now days) >>= _) >>= _ : PanelProg Unit).AllCalls _
  cases hextend : x.extend now days with
  | error e => trivial
  | ok a =>
    refine ⟨?_, fun _ => spares_extendRest a _ adminUser⟩
    exact fun h => hx ((Account.extend_ok hextend).1.id.symm.trans h)

/-- The payment once its query has been answered. -/
def payFor (username : Str) (plan : Plan) : Option Account → PanelProg WebhookResponse
  | some existing => do
    extendAccount existing plan.durationDays none
    return .extended username plan.durationDays
  | none =>
    (do
      let account ← createAccount (.plain username plan)
      return WebhookResponse.created account).handle fun
      | .accountError text => .ret (.badRequest text)
      | e => .raise e

/-- A payment that does not find the row. -/
theorem saves_payFor_other {username : Str} {plan : Plan} (found : Option Account)
    (h : ∀ a, found = some a → a.id ≠ row.id) : SavesRow s (payFor username plan found) id := by
  cases found with
  | some existing =>
    exact (saves_of_spares (spares_extendAccount (h existing rfl) _ _)).bind fun _ => rfl
  | none =>
    have hcreate : SavesRow s (createAccount (.plain username plan)) id :=
      saves_of_spares (spares_createAccount _ _)
    refine Saves.handle (Saves.bind hcreate fun _ => ?_) fun e => ?_
    · rfl
    · cases e <;> rfl

/-- The answer to the query decides which account is renewed, if any. -/
theorem saves_payment {x : Account} (hx : row.SameKeys x) {username : Str} {planId : Nat} {plan : Plan}
    (hplan : s.answer (.getPlan planId) = some plan) : SavesRow s
      (payFor username plan (s.handler (.selectAccounts (.renewable username)) x).1.head?)
      ((s.pays row username planId .paid).save x.columns) := by
  cases hfilter : (AccountQuery.renewable username).filter x with
  | false =>
    have hid : (s.pays row username planId .paid).save x.columns = id := by
      funext c
      simp only [Surroundings.pays, hplan]
      cases s.newer (.renewable username) <;> simp [Change.save, filter_on hx, hfilter]
    rw [hid]
    refine saves_payFor_other _ fun a ha => ?_
    simp only [Surroundings.handler, hfilter, Bool.false_eq_true, if_false] at ha
    exact s.others _ a (List.mem_of_head? ha)
  | true =>
    have hreply : (s.handler (.selectAccounts (.renewable username)) x).1 =
        s.newer (.renewable username) ++ x :: s.older (.renewable username) := if_pos hfilter
    rw [hreply]
    cases hnewer : s.newer (.renewable username) with
    | nil =>
      have hsave : (s.pays row username planId .paid).save x.columns =
          (Change.renew (s.extended plan.durationDays)).save x.columns := by
        funext c
        simp only [Surroundings.pays, hplan, hnewer, Change.save, filter_on hx, hfilter, if_true]
      rw [hsave]
      exact (saves_extendAccount hx _ _).bind fun _ => rfl
    | cons a newer =>
      have hid : (s.pays row username planId .paid).save x.columns = id := by
        simp only [Surroundings.pays, hplan, hnewer]
        rfl
      rw [hid]
      refine saves_payFor_other (some a) fun b hb => ?_
      obtain rfl : a = b := Option.some.inj hb
      exact newer_ne s (.renewable username) a (hnewer ▸ List.mem_cons_self)

theorem reads_webhook (s : Surroundings row.id) (username : Str) (planId : Nat)
    (status : PaymentStatus) : ReadsRow s ((RowOp.webhook username planId status).op row.id).prog
      ((RowOp.webhook username planId status).change s row).save := by
  refine Reads.bind ?_ fun _ => rfl
  cases status with
  | failed => exact fun _ _ => rfl
  | pending => exact fun _ _ => rfl
  | paid =>
    have hplan : SteadyRow s (ask (.getPlan planId)) :=
      steady_of_outside ⟨trivial, fun _ => trivial⟩
    refine hplan.bind_reads ?_ ?_
    · intro found hfound
      obtain rfl : s.answer (.getPlan planId) = found := by
        cases hfound
        rfl
      cases hanswer : s.answer (.getPlan planId) with
      | none =>
        intro x hx
        simp only [RowOp.change, Surroundings.pays, hanswer]
        rfl
      | some plan =>
        exact fun x hx => ⟨rfl, .inr (saves_payment hx hanswer)⟩
    · intro e he
      cases he

/-! The task `sync_bandwidth_usage`. -/

section Sync

variable {srv : Server}

theorem outside_exec {u : Str} : ∀ cmd : Cmd, cmd.Numeric → Call.Outside row (.exec srv u cmd) :=
  fun _ _ => trivial

theorem outside_syncAccounts {accs : List Account} (h : ∀ a ∈ accs, a.id ≠ row.id) :
    (syncAccounts srv accs).AllCalls (Call.Outside row) := by
  induction accs with
  | nil => trivial
  | cons a accs ih =>
    refine (allCalls_syncAccount outside_exec fun obj fields hid => ?_).bind fun _ => ?_
    · exact fun he => h a List.mem_cons_self (hid.symm.trans he)
    · exact ih fun b hb => h b (List.mem_cons_of_mem _ hb)

theorem syncAccounts_append (srv : Server) (accs accs' : List Account) :
    syncAccounts srv (accs ++ accs') = syncAccounts srv accs >>= fun _ => syncAccounts srv accs' := by
  induction accs with
  | nil => rfl
  | cons a accs ih =>
    change (syncAccount srv a >>= fun _ => syncAccounts srv (accs ++ accs')) = _
    rw [ih]
    exact (Prog.bind_bind _ _ _).symm

/-- A server that the account is not on. -/
theorem steady_syncServer (h : row.server ≠ srv.id) : SteadyRow s (syncServer srv) := by
  refine ⟨fixed_of_outside s h, ?_⟩
  change Steady _ _ _ (if (s.answer (.selectAccounts (.activeOn srv.id))).isEmpty then _ else _ :
    PanelProg Unit)
  split
  · trivial
  · refine (steady_of_outside (SSHManager.allCalls_connect trivial)).bind fun _ _ => ?_
    exact ⟨fixed_of_outside s h, steady_of_outside (outside_syncAccounts (s.others _))⟩

theorem saves_enforceLimit {x : Account} (hx : row.SameKeys x) (gb : Nat) :
    SavesRow s (enforceLimit srv x gb) fun c =>
      if overLimit (x.columns.on row) gb && s.completes (SSHManager.lockUser srv row.username) then
        c.withStatus .suspended
      else c := by
  have hover : overLimit (x.columns.on row) gb = overLimit x gb := rfl
  unfold enforceLimit
  rw [hover, hx.username]
  cases overLimit x gb with
  | false => rfl
  | true => exact saves_after (steady_of_outside (outside_run _)) fun _ _ => saves_saveStatus hx _

/-- The reading is in none of these columns. -/
theorem saves_usage_then {x : Account} (hx : row.SameKeys x) (gb : Nat) {p : PanelProg α}
    {w : Columns → Columns} (hp : SavesRow s p w) :
    SavesRow s (saveUsage x gb >>= fun _ => p) w := by
  unfold saveUsage
  split
  · refine .inl fun y _ => ⟨?_, hp⟩
    exact (congrArg Account.columns (if_pos (c := x.id = row.id) hx.id)).trans rfl
  · exact hp

/-- Of these columns, a reading that is over the limit writes the status. -/
theorem saves_syncAccount {x : Account} (hx : row.SameKeys x) {w : Columns → Columns}
    (hok : ∀ bytes, (bytesUsed srv row).value s.answer = .ok bytes → w = fun c =>
      if overLimit (x.columns.on row) (gbUsed bytes) &&
          s.completes (SSHManager.lockUser srv row.username) then
        c.withStatus .suspended
      else c)
    (herror : ∀ e, (bytesUsed srv row).value s.answer = .error e → w = id) :
    SavesRow s (syncAccount srv x) w := by
  have hused : bytesUsed srv x = bytesUsed srv row := by
    simp only [bytesUsed, hx.username]
  have houtside : (bytesUsed srv row).AllCalls (Call.Outside row) :=
    (SSHManager.allCalls_setupTrafficAccounting outside_exec).bind fun _ =>
      SSHManager.allCalls_getUserBandwidthBytes outside_exec
  rw [syncAccount_eq, hused]
  refine (steady_of_outside houtside).bind_saves ?_ herror
  intro bytes hbytes
  have hlimit : SavesRow s (enforceLimit srv x (gbUsed bytes)) w := by
    rw [hok bytes hbytes]
    exact saves_enforceLimit hx _
  exact saves_usage_then hx _ hlimit

/-- An account that is not ACTIVE on the server is not looked at. -/
theorem syncsOn_save_id {x : Account} (hx : row.SameKeys x)
    (hfilter : (AccountQuery.activeOn srv.id).filter x = false) :
    (s.syncsOn row srv).save x.columns = id := by
  funext c
  unfold Surroundings.syncsOn
  split
  · rfl
  · simp [Change.save, filter_on hx, hfilter]

theorem syncsOn_save_id_of_error {e : Exc} {c : Columns}
    (h : (syncNode srv (s.newer (.activeOn srv.id)) row).value s.answer = .error e) :
    (s.syncsOn row srv).save c = id := by
  unfold Surroundings.syncsOn
  rw [h]
  rfl

/-- The accounts of the second query, once the server is connected. -/
theorem saves_syncAccounts {x : Account} (hx : row.SameKeys x) {u : Unit}
    (hconnect : (SSHManager.connect srv).value s.answer = .ok u) :
    SavesRow s (syncAccounts srv (s.handler (.selectAccounts (.activeOn srv.id)) x).1)
      ((s.syncsOn row srv).save x.columns) := by
  cases hfilter : (AccountQuery.activeOn srv.id).filter x with
  | false =>
    have hreply : (s.handler (.selectAccounts (.activeOn srv.id)) x).1 =
        s.answer (.selectAccounts (.activeOn srv.id)) := if_neg (by simp [hfilter])
    rw [hreply, syncsOn_save_id hx hfilter]
    exact (steady_of_outside (outside_syncAccounts (s.others _))).saves
  | true =>
    have hreply : (s.handler (.selectAccounts (.activeOn srv.id)) x).1 =
        s.newer (.activeOn srv.id) ++ x :: s.older (.activeOn srv.id) := if_pos hfilter
    rw [hreply, syncAccounts_append]
    refine (steady_of_outside (outside_syncAccounts (newer_ne s _))).bind_saves ?_ ?_
    · intro v hv
      have hnode : (syncNode srv (s.newer (.activeOn srv.id)) row).value s.answer =
          (bytesUsed srv row).value s.answer :=
        (Prog.value_bind_ok hconnect).trans (Prog.value_bind_ok hv)
      have hown : SavesRow s (syncAccount srv x) ((s.syncsOn row srv).save x.columns) := by
        refine saves_syncAccount hx ?_ ?_
        · intro bytes hbytes
          funext c
          simp only [Surroundings.syncsOn, hnode, hbytes, Change.save, filter_on hx, hfilter,
            Bool.true_and]
        · intro e he
          exact syncsOn_save_id_of_error (hnode.trans he)
      exact hown.bind fun _ => (steady_of_outside (outside_syncAccounts (older_ne s _))).saves
    · intro e he
      exact syncsOn_save_id_of_error ((Prog.value_bind_ok hconnect).trans (Prog.value_bind_error he))

theorem reads_syncServer : ReadsRow s (syncServer srv) (s.syncsOn row srv).save := by
  intro x hx
  refine ⟨rfl, ?_⟩
  cases hempty : (s.handler (.selectAccounts (.activeOn srv.id)) x).1.isEmpty with
  | true =>
    have hfilter : (AccountQuery.activeOn srv.id).filter x = false := by
      cases hfilter : (AccountQuery.activeOn srv.id).filter x with
      | false => rfl
      | true => simp [Surroundings.handler, hfilter] at hempty
    refine .inr ?_
    change SavesRow s (if (s.handler (.selectAccounts (.activeOn srv.id)) x).1.isEmpty then _
      else _ : PanelProg Unit) _
    rw [if_pos hempty]
    exact syncsOn_save_id hx hfilter
  | false =>
    refine .inl ?_
    change ReadsRow s (if (s.handler (.selectAccounts (.activeOn srv.id)) x).1.isEmpty then _
      else _ : PanelProg Unit) _
    rw [if_neg (by simp [hempty])]
    refine (steady_of_outside (SSHManager.allCalls_connect trivial)).bind_reads ?_ ?_
    · exact fun u hconnect y hy => ⟨rfl, .inr (saves_syncAccounts hy hconnect)⟩
    · exact fun e he y hy => syncsOn_save_id_of_error (Prog.value_bind_error he)

theorem steady_syncServers {servers : List Server} (h : ∀ srv ∈ servers, srv.id ≠ row.server) :
    SteadyRow s (syncServers servers) := by
  induction servers with
  | nil => trivial
  | cons srv servers ih =>
    refine Steady.bind ?_ fun _ _ => ih fun srv' hs => h srv' (List.mem_cons_of_mem _ hs)
    exact steady_succeeded (steady_syncServer (h srv List.mem_cons_self).symm)

/-- The server of the account comes once. -/
theorem reads_syncServers {servers : List Server} (h : (servers.map Server.id).Nodup) :
    ReadsRow s (syncServers servers) (s.syncs row servers).save := by
  induction servers with
  | nil => exact fun _ _ => rfl
  | cons srv servers ih =>
    obtain ⟨hnot, hrest⟩ := List.nodup_cons.mp h
    unfold Surroundings.syncs
    rw [List.find?_cons]
    by_cases hsrv : srv.id = row.server
    · simp only [hsrv, decide_true]
      have hothers : ∀ srv' ∈ servers, srv'.id ≠ row.server := fun srv' hs he =>
        hnot (hsrv.trans he.symm ▸ List.mem_map_of_mem hs)
      have hown : ReadsRow s (succeeded (syncServer srv)) (s.syncsOn row srv).save :=
        Reads.handle (reads_syncServer.bind fun _ => rfl) fun _ => rfl
      exact hown.bind fun _ => (steady_syncServers hothers).saves
    · simp only [hsrv, decide_false]
      have hskip : SteadyRow s (succeeded (syncServer srv)) :=
        steady_succeeded (steady_syncServer fun he => hsrv he.symm)
      exact hskip.bind_reads (fun _ _ => ih hrest) fun e he => (succeeded_returns _ _ he).elim

theorem reads_syncBandwidthUsage (s : Surroundings row.id) :
    ReadsRow s (RowOp.syncBandwidthUsage.op row.id).prog
      (RowOp.syncBandwidthUsage.change s row).save :=
  fun _ _ => ⟨rfl, .inl (reads_syncServers s.servers)⟩

end Sync

/-- Every operation reads the columns and saves its change of them. -/
theorem reads_op (s : Surroundings row.id) (a : RowOp) :
    ReadsRow s (a.op row.id).prog (a.change s row).save := by
  cases a with
  | expireUsers => exact reads_expireUsers s
  | syncBandwidthUsage => exact reads_syncBandwidthUsage s
  | suspend adminUser => exact reads_suspend s adminUser
  | activate adminUser => exact reads_activate s adminUser
  | extend days adminUser => exact reads_extend s days adminUser
  | delete adminUser => exact reads_delete s adminUser
  | patch data => exact reads_patch s data
  | webhook username planId status => exact reads_webhook s username planId status

end Row

end SshPanelVpn.Panel

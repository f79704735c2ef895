import SshPanelVpn.Panel.OperationWrites

/-! Whether the status of an account can be read off the audit log. -/
namespace SshPanelVpn.Panel

open Effects Runs ShadowLink
open Effects.Prog (run_bind run_handle)

/-- The status that an action gives. -/
def AuditAction.status : AuditAction → Option AccountStatus
  | create => some .active
  | activate => some .active
  | extend => some .active
  | suspend => some .suspended
  | expire => some .expired
  | delete => some .deleted
  | passwordReset => none
  | rebalance => none

/-- One entry of the log read for an account. -/
def AuditLog.replayOn (e : AuditLog) (pk : Nat) (old : Option AccountStatus) : Option AccountStatus :=
  if e.account = some pk then e.action.status.or old else old

/-- The log, newest first, read from its oldest entry on. -/
def replay (pk : Nat) (log : List AuditLog) : Option AccountStatus :=
  log.foldr (fun e old => e.replayOn pk old) none

/-- Every account has the status that its entries give, and no entry is about another key. -/
def Db.Logged (db : Db) : Prop := ∀ pk, db.statusOf pk = replay pk db.auditLog

theorem Db.Logged.congr {db db' : Db} (h : db.Logged) (hs : ∀ pk, db'.statusOf pk = db.statusOf pk)
    (hl : db'.auditLog = db.auditLog) : db'.Logged := by
  intro pk
  rw [hs, hl]
  exact h pk

/-- A write that logs what it does to the status. -/
def TableWrite.IsLogged : TableWrite → Prop
  | created _ => True
  | status _ old new action => action.bind AuditAction.status = some new ∨
      (action.bind AuditAction.status = none ∧ new = old)
  | columns _ action => action.bind AuditAction.status = none
  | moved _ => True

section Steps

variable {db db' : Db} {l : TableWrite} {P : TableWrite → Prop}

theorem replay_write {pk id : Nat} {obj : Account} {fields : List AccountField}
    {entry : Option AuditLog} (h : ∀ e ∈ entry, e.account = some id) :
    replay pk (db.write obj fields entry).auditLog =
      if id = pk then ((entry.map AuditLog.action).bind AuditAction.status).or (replay pk db.auditLog)
      else replay pk db.auditLog := by
  cases entry with
  | none => simp [Db.write]
  | some e =>
    have he := h e rfl
    simp [Db.write, replay, AuditLog.replayOn, he]

/-- The log follows the status of every key. -/
theorem TableStep.logged (h : TableStep db l db') (hl : l.IsLogged) (hdb : db.Logged) :
    db'.Logged := by
  intro pk
  rw [h.statusOf pk, hdb pk]
  cases h with
  | @created server row accounts entry _ _ _ _ _ haction haccount =>
    change _ = entry.replayOn pk (replay pk db.auditLog)
    simp only [TableWrite.statusAfter, AuditLog.replayOn, haccount, haction, Option.some.injEq]
    rfl
  | @status row obj fields entry hrow _ _ hentry =>
    rw [replay_write hentry]
    simp only [TableWrite.statusAfter]
    split
    · next hpk =>
      rcases hl with hl | ⟨hl, hsame⟩
      · rw [hl]
        rfl
      · rw [hl, hsame, ← hdb pk, ← hpk, Db.statusOf_of_mem hrow]
        rfl
    · rfl
  | @columns row obj fields entry _ _ _ hentry =>
    rw [replay_write hentry]
    have hnone : (entry.map AuditLog.action).bind AuditAction.status = none := hl
    rw [hnone]
    simp [TableWrite.statusAfter]
  | @moved row target accounts entry _ _ _ _ haction =>
    change _ = entry.replayOn pk (replay pk db.auditLog)
    simp [TableWrite.statusAfter, AuditLog.replayOn, haction, AuditAction.status]

theorem Wrote.logged (h : Wrote P db db') (hP : ∀ l, P l → l.IsLogged) (hdb : db.Logged) :
    db'.Logged :=
  h.keeps (fun _ l _ hst hl hd => hst.logged (hP l hl) hd) hdb

end Steps

/-! The tasks that log nothing. -/

/-- Each account that is due stops on its way to the node. -/
def ExpiresNone (env : Env) (w : World) : Prop :=
  Along (fun w a => ((expireUser a).run (World.handler env) w).2)
    (fun w a => env.gets w a .usermodLock = false) w (w.db.selectAccounts (.expiredBy env.now))

/-- What is read of an account before its limit is looked at. -/
def bytesUsed (srv : Server) (acc : Account) : PanelProg Nat := do
  SSHManager.setupTrafficAccounting srv acc.username
  SSHManager.getUserBandwidthBytes srv acc.username

/-- Each account of the server that the task gets to is under its limit, or is not locked for an
exception. -/
def SuspendsNone (env : Env) (w : World) (srv : Server) : Prop :=
  env.connects w = true → ∀ pre acc post bytes w₁ w₂,
    w.db.selectAccounts (.activeOn srv.id) = pre ++ acc :: post →
    (syncAccounts srv pre).run (World.handler env) (w.connect env srv).2 = (.ok (), w₁) →
    (bytesUsed srv acc).run (World.handler env) w₁ = (.ok bytes, w₂) →
    overLimit acc (gbUsed bytes) = true → env.raises srv acc.username .usermodLock = true

section Tasks

variable {env : Env} {w : World}

theorem db_quiet {α : Type} {p : PanelProg α} (env : Env) (h : Quiet p) (w : World) :
    (p.run (World.handler env) w).2.db = w.db := by
  refine h.run_related (r := fun w w' : World => w'.db = w.db) (fun _ => rfl)
    (fun h h' => h'.trans h) ?_ w
  intro c w hc
  exact (World.handler_quiet env hc w).1

theorem db_expireUser_stopped {a : Account} (h : env.gets w a .usermodLock = false) :
    ((expireUser a).run (World.handler env) w).2.db = w.db := by
  rw [run_handler]
  have hprog : expireUser a = onServerOf a .usermodLock (saveStatus a .expired) := rfl
  rw [hprog]
  rcases run_onServerOf env a .usermodLock (saveStatus a .expired) w with
    ⟨-, e, u, ds, hu, hr⟩ | ⟨hg, -⟩
  · rw [hr]
    exact hu
  · rw [h] at hg
    cases hg

/-- What a step inside `try` leaves does not depend on whether it raised. -/
theorem run_succeeded_state (env : Env) (body : PanelProg Unit) (w : World) :
    ∃ b, (succeeded body).run (World.handler env) w = (.ok b, (body.run (World.handler env) w).2) := by
  simp only [succeeded, run_bind, run_handle]
  rcases body.run (World.handler env) w with ⟨x | x, t⟩
  · exact ⟨false, rfl⟩
  · exact ⟨true, rfl⟩

theorem run_countSucceeded (step : Account → PanelProg Unit) (accs : List Account) (w : World) :
    ((countSucceeded step accs).run (World.handler env) w).2 =
      after (fun w a => ((step a).run (World.handler env) w).2) w accs := by
  induction accs generalizing w with
  | nil => rfl
  | cons a accs ih =>
    obtain ⟨b, hb⟩ := run_succeeded_state env (step a) w
    rw [after_cons, ← ih]
    simp only [countSucceeded, run_bind, hb]
    rcases (countSucceeded step accs).run (World.handler env)
      ((step a).run (World.handler env) w).2 with ⟨x | x, t⟩ <;> rfl

theorem run_syncServers (servers : List Server) (w : World) :
    ((syncServers servers).run (World.handler env) w).2 =
      after (fun w srv => ((syncServer srv).run (World.handler env) w).2) w servers := by
  induction servers generalizing w with
  | nil => rfl
  | cons srv servers ih =>
    obtain ⟨b, hb⟩ := run_succeeded_state env (syncServer srv) w
    rw [after_cons, ← ih]
    simp only [syncServers, run_bind, hb]

theorem db_expireUsers (h : ExpiresNone env w) :
    (expireUsers.run (World.handler env) w).2.db = w.db := by
  have hrun : (expireUsers.run (World.handler env) w).2 = ((countSucceeded expireUser
      (w.db.selectAccounts (.expiredBy env.now))).run (World.handler env) w).2 := rfl
  rw [hrun, run_countSucceeded]
  refine h.invariant (I := fun u => u.db = w.db) ?_ rfl
  intro u a hstop hu
  exact (db_expireUser_stopped hstop).trans hu

/-! `sync_bandwidth_usage`, with its counters. -/

theorem statusOf_columns {db : Db} {obj : Account} {fields : List AccountField}
    (entry : Option AuditLog) (h : .status ∉ fields) (pk : Nat) :
    (db.write obj fields entry).statusOf pk = db.statusOf pk := by
  unfold Db.statusOf
  rw [Db.getAccount_write, Option.map_map]
  congr 1
  funext row
  simp only [Function.comp_apply]
  split
  · rw [Account.write_status, if_neg h]
  · rfl

theorem logged_saveUsage (env : Env) (acc : Account) (gb : Nat) (hw : w.db.Logged) :
    ∃ w', (saveUsage acc gb).run (World.handler env) w = (.ok (), w') ∧ w'.db.Logged := by
  unfold saveUsage
  split
  · refine ⟨_, rfl, hw.congr (statusOf_columns none ?_) rfl⟩
    simp
  · exact ⟨w, rfl, hw⟩

theorem run_raising {server : Server} {u : Str} {cmd : Cmd} (h : env.raises server u cmd = true)
    (w : World) : ∃ e t, (SSHManager.run server u cmd).run (World.handler env) w = (.error e, t) := by
  obtain ⟨e, he⟩ := World.exec_raises w h
  refine ⟨e, (w.exec env server u cmd).2, ?_⟩
  simp [SSHManager.run, World.handler, he]

theorem syncAccount_eq (srv : Server) (acc : Account) : syncAccount srv acc =
    bytesUsed srv acc >>= fun bytes =>
      saveUsage acc (gbUsed bytes) >>= fun _ => enforceLimit srv acc (gbUsed bytes) := by
  unfold syncAccount bytesUsed
  rw [Prog.bind_bind]

/-- An account that is under its limit, or whose lock raises. -/
theorem logged_enforceLimit {srv : Server} {acc : Account} {gb : Nat} (hw : w.db.Logged)
    (h : overLimit acc gb = true → env.raises srv acc.username .usermodLock = true) :
    ((enforceLimit srv acc gb).run (World.handler env) w).2.db.Logged := by
  unfold enforceLimit
  split
  · next hover =>
    have hlock := db_quiet env (quiet_lockUser srv acc.username) w
    obtain ⟨e, t, ht⟩ := run_raising (h hover) w
    rw [SSHManager.lockUser] at hlock ⊢
    rw [ht] at hlock
    rw [run_bind, ht]
    exact hlock ▸ hw
  · exact hw

theorem logged_usage {srv : Server} {acc : Account} {gb : Nat} (hw : w.db.Logged)
    (h : overLimit acc gb = true → env.raises srv acc.username .usermodLock = true) :
    ((saveUsage acc gb >>= fun _ => enforceLimit srv acc gb).run (World.handler env) w).2.db.Logged := by
  obtain ⟨w', hrun, hlogged⟩ := logged_saveUsage env acc gb hw
  rw [run_bind, hrun]
  exact logged_enforceLimit hlogged h

theorem logged_syncAccount (env : Env) {srv : Server} {acc : Account} (hw : w.db.Logged)
    (h : ∀ bytes w', (bytesUsed srv acc).run (World.handler env) w = (.ok bytes, w') →
      overLimit acc (gbUsed bytes) = true → env.raises srv acc.username .usermodLock = true) :
    ((syncAccount srv acc).run (World.handler env) w).2.db.Logged := by
  have hquiet : Quiet (bytesUsed srv acc) :=
    (SSHManager.allCalls_setupTrafficAccounting quiet_exec).bind fun _ =>
      SSHManager.allCalls_getUserBandwidthBytes quiet_exec
  have hdb := db_quiet env hquiet w
  rw [syncAccount_eq]
  rcases hr : (bytesUsed srv acc).run (World.handler env) w with ⟨e | bytes, w'⟩
  · rw [hr] at hdb
    rw [Prog.run_bind_error hr]
    exact hdb ▸ hw
  · rw [hr] at hdb
    rw [Prog.run_bind_ok hr]
    exact logged_usage (hdb ▸ hw) (h bytes w' hr)

theorem logged_syncAccounts {srv : Server} {accs : List Account} (hw : w.db.Logged)
    (h : ∀ pre acc post bytes w₁ w₂, accs = pre ++ acc :: post →
      (syncAccounts srv pre).run (World.handler env) w = (.ok (), w₁) →
      (bytesUsed srv acc).run (World.handler env) w₁ = (.ok bytes, w₂) →
      overLimit acc (gbUsed bytes) = true → env.raises srv acc.username .usermodLock = true) :
    ((syncAccounts srv accs).run (World.handler env) w).2.db.Logged := by
  induction accs generalizing w with
  | nil => exact hw
  | cons acc accs ih =>
    have hfirst := logged_syncAccount env hw fun bytes w' hr =>
      h [] acc accs bytes w w' rfl rfl hr
    simp only [syncAccounts, run_bind]
    rcases hr : (syncAccount srv acc).run (World.handler env) w with ⟨e | x, t⟩
    · rw [hr] at hfirst
      exact hfirst
    · rw [hr] at hfirst
      refine ih hfirst ?_
      rintro pre acc' post bytes w₁ w₂ rfl hpre
      refine h (acc :: pre) acc' post bytes w₁ w₂ rfl ?_
      simp only [syncAccounts, run_bind, hr]
      exact hpre

theorem logged_syncServer {srv : Server} (hw : w.db.Logged) (h : SuspendsNone env w srv) :
    ((syncServer srv).run (World.handler env) w).2.db.Logged := by
  have hprog : (syncServer srv).run (World.handler env) w =
      (if (w.db.selectAccounts (.activeOn srv.id)).isEmpty then Prog.ret () else do
        SSHManager.connect srv
        syncAccounts srv (← ask (.selectAccounts (.activeOn srv.id))) : PanelProg Unit).run
          (World.handler env) w := rfl
  rw [hprog]
  split
  · exact hw
  · rw [run_bind]
    have hconnect : (SSHManager.connect srv).run (World.handler env) w = w.connect env srv := by
      simp only [SSHManager.connect, Prog.perform_bind, Prog.run_call, World.handler]
      rcases w.connect env srv with ⟨x | x, t⟩ <;> rfl
    have hdb : (w.connect env srv).2.db = w.db := World.connect_db
    rw [hconnect]
    rcases hc : w.connect env srv with ⟨e | x, t⟩
    · rw [hc] at hdb
      exact hdb ▸ hw
    · rw [hc] at hdb
      have ht : t.db.Logged := hdb ▸ hw
      refine logged_syncAccounts ht ?_
      intro pre acc post bytes w₁ w₂ haccs hpre
      have hconnects : env.connects w = true := by
        unfold World.connect at hc
        unfold Env.connects
        split at hc
        · next hok => rw [hok]; rfl
        · cases hc
      refine h hconnects pre acc post bytes w₁ w₂ ?_ (by rw [hc]; exact hpre)
      rw [← haccs, ← hdb]
      rfl

theorem logged_syncBandwidthUsage (hw : w.db.Logged)
    (h : Along (fun w srv => ((syncServer srv).run (World.handler env) w).2) (SuspendsNone env) w
      w.db.activeServers) : (syncBandwidthUsage.run (World.handler env) w).2.db.Logged := by
  have hrun : (syncBandwidthUsage.run (World.handler env) w).2 =
      ((syncServers w.db.activeServers).run (World.handler env) w).2 := rfl
  rw [hrun, run_syncServers]
  exact h.invariant (I := fun u => u.db.Logged) (fun _ _ hs hu => logged_syncServer hu hs) hw

end Tasks

/-! The property, and when it holds. -/

/-- A renewal finds the account ACTIVE, or gets to its log entry. -/
def Env.LogsExtension (env : Env) (w : World) (a : Account) (days : Int) : Prop :=
  ∀ a', a.extend env.now days = .ok a' →
    a.status = .active ∨ env.gets w a (.chage a'.expireDate.isoDate) = true

/-- The operation changes no status without its log entry: `expire_users` expires none,
`sync_bandwidth_usage` suspends none, and no renewal fails between its save and its entry. -/
def AccountOp.LogsStatus (env : Env) (w : World) : AccountOp → Prop
  | .op (.extend pk days _) => ∀ a, w.db.getAccount pk = some a → env.LogsExtension w a days
  | .op (.webhook username planId status) => ∀ plan a, status = .paid →
      w.db.getPlan planId = some plan → (w.db.selectAccounts (.renewable username)).head? = some a →
        env.LogsExtension w a plan.durationDays
  | .op .expireUsers => ExpiresNone env w
  | .op .syncBandwidthUsage =>
      Along (fun w srv => ((syncServer srv).run (World.handler env) w).2) (SuspendsNone env) w
        w.db.activeServers
  | _ => True

theorem isLogged_extension {env : Env} {w : World} {a a' : Account} {days : Int}
    (h : env.LogsExtension w a days) (he : a.extend env.now days = .ok a') :
    (TableWrite.status a.id a.status .active
      (if env.gets w a (.chage a'.expireDate.isoDate) then some .extend else none)).IsLogged := by
  cases hg : env.gets w a (.chage a'.expireDate.isoDate) with
  | true => exact .inl rfl
  | false =>
    rcases h a' he with hactive | hgets
    · exact .inr ⟨rfl, hactive.symm⟩
    · rw [hg] at hgets
      cases hgets

/-- One operation. -/
theorem act_logged (w : World) (x : AccountOp × (Nat → Env)) (h : x.1.LogsStatus (x.2 0) w)
    (hw : w.db.Logged) : (w.act x).db.Logged := by
  obtain ⟨op, envs⟩ := x
  have hwrote := w.act_wrote (op, envs)
  cases op with
  | op op =>
    cases op with
    | expireUsers =>
      have hact : w.act (.op .expireUsers, envs) = (expireUsers.run (World.handler (envs 0)) w).2 :=
        Prog.run_discard expireUsers w
      rw [hact, db_expireUsers h]
      exact hw
    | syncBandwidthUsage => exact logged_syncBandwidthUsage hw h
    | create r =>
      refine hwrote.logged ?_ hw
      rintro l ⟨pk, rfl⟩
      trivial
    | suspend pk adminUser =>
      refine hwrote.logged ?_ hw
      rintro l ⟨a, -, -, rfl⟩
      exact .inl rfl
    | activate pk adminUser =>
      refine hwrote.logged ?_ hw
      rintro l ⟨a, -, -, rfl⟩
      exact .inl rfl
    | extend pk days adminUser =>
      refine hwrote.logged ?_ hw
      rintro l ⟨a, a', ha, he, rfl⟩
      exact isLogged_extension (h a ha) he
    | delete pk adminUser =>
      refine hwrote.logged ?_ hw
      rintro l ⟨pk, old, rfl⟩
      exact .inl rfl
    | patch pk data =>
      refine hwrote.logged ?_ hw
      rintro l ⟨pk, old, rfl⟩
      exact .inr ⟨rfl, rfl⟩
    | webhook username planId status =>
      refine hwrote.logged ?_ hw
      rintro l (⟨pk, rfl⟩ | ⟨a, plan, a', hplan, hhead, hpaid, he, rfl⟩)
      · trivial
      · exact isLogged_extension (h plan a hpaid hplan hhead) he
    | cleanupExpiredAccounts graceDays =>
      refine hwrote.logged ?_ hw
      rintro l ⟨pk, rfl⟩
      exact .inl rfl
  | adminAction action pks adminUser =>
    refine hwrote.logged ?_ hw
    rintro l ⟨a, -, rfl⟩
    cases action <;> exact .inl rfl
  | resetPassword pk adminUser =>
    refine hwrote.logged ?_ hw
    rintro l ⟨pk, rfl⟩
    rfl
  | bulkCreate r =>
    refine hwrote.logged ?_ hw
    rintro l ⟨pk, rfl⟩
    trivial
  | rebalanceUsers downServerId =>
    refine hwrote.logged ?_ hw
    rintro l ⟨pk, rfl⟩
    trivial

/-- A run that logs its changes of status, from a log that tells the status of every account: the log
still does at each point of the run. -/
theorem logged_of_run (w : World) (xs : List (AccountOp × (Nat → Env))) (hw : w.db.Logged)
    (h : Along World.act (fun w x => x.1.LogsStatus (x.2 0) w) w xs) :
    ∀ ys zs, xs = ys ++ zs → (w.actAll ys).db.Logged := by
  rintro ys zs rfl
  exact (along_append.mp h).1.invariant (fun w x hl hs => act_logged w x hl hs) hw

/-- A request for an account on the sample server. -/
def loggedRequest : CreateRequest := { sampleRequest "alice" .ssh with serverId := some 0 }

/-- An account that is created, suspended, activated and renewed, and has not expired by then. -/
def loggedRun : List (AccountOp × (Nat → Env)) :=
  [(.op (.create loggedRequest), fun _ => sampleEnv 0), (.op (.suspend 1 none), fun _ => sampleEnv 1),
    (.op (.activate 1 none), fun _ => sampleEnv 2), (.op (.extend 1 30 none), fun _ => sampleEnv 3),
    (.op .expireUsers, fun _ => sampleEnv 40)]

theorem logged_of_run_renewed : (sampleWorld.actAll (loggedRun.take 4)).db.Logged := by
  have hactive : (sampleWorld.actAll (loggedRun.take 3)).db.statusOf 1 = some .active := by
    decide +kernel
  have hnone : (sampleWorld.actAll (loggedRun.take 4)).db.selectAccounts
      (.expiredBy (sampleEnv 40).now) = [] := by decide +kernel
  refine logged_of_run sampleWorld loggedRun (fun _ => rfl)
    ⟨trivial, trivial, trivial, ?_, ?_, trivial⟩ (loggedRun.take 4) (loggedRun.drop 4) rfl
  · intro a ha a' _
    have hstatus : (sampleWorld.actAll (loggedRun.take 3)).db.statusOf 1 = some a.status :=
      congrArg (Option.map Account.status) ha
    exact .inl (Option.some.inj (hstatus.symm.trans hactive))
  · change ExpiresNone (sampleEnv 40) (sampleWorld.actAll (loggedRun.take 4))
    rw [ExpiresNone, hnone]
    trivial

/-- An account that is created and expires. -/
def expiringRun : List (AccountOp × (Nat → Env)) :=
  [(.op (.create loggedRequest), fun _ => sampleEnv 0), (.op .expireUsers, fun _ => sampleEnv 40)]

theorem not_logged_of_run : ¬ ∀ (w : World) (xs : List (AccountOp × (Nat → Env))), w.db.Logged →
    ∀ ys zs, xs = ys ++ zs → (w.actAll ys).db.Logged := by
  intro h
  have hlogged := h sampleWorld expiringRun (fun _ => rfl) expiringRun [] (List.append_nil _).symm 1
  have hstatus : (sampleWorld.actAll expiringRun).db.statusOf 1 = some .expired := by decide +kernel
  have hreplay : replay 1 (sampleWorld.actAll expiringRun).db.auditLog = some .active := by
    decide +kernel
  rw [hstatus, hreplay] at hlogged
  cases hlogged

end SshPanelVpn.Panel

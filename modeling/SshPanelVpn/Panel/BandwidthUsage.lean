import SshPanelVpn.Panel.AuditTrail

/-! The usage that `sync_bandwidth_usage` keeps of an account, against what the account has sent since it
was created. -/
namespace SshPanelVpn.Panel

open Effects Runs
open Effects.Prog (run_bind)

/-- One run of the task; `total` is what the account has sent by then since it was created, in bytes. -/
structure SyncRun where
  env : Env
  total : Nat

def World.syncs (w : World) (r : SyncRun) : World := (syncBandwidthUsage.run (World.handler r.env) w).2

/-- What the counters on the node say. -/
def Env.reading (env : Env) (srv : Server) (acc : Account) (w : World) : Except Exc Nat :=
  ((bytesUsed srv acc).run (World.handler env) w).1

namespace SyncRun

/-- The limit is positive and the account has sent more. -/
def exceeds (r : SyncRun) (acc : Account) : Bool :=
  0 < acc.bandwidthLimitGb && acc.bandwidthLimitGb * 1073741824 < r.total

/-- The world in which the loop over the accounts of a server comes to the one with the key; an
exception before it ends the loop. -/
def turnAmong (r : SyncRun) (pk : Nat) (srv : Server) : List Account → World → Option World
  | [], _ => none
  | acc :: accs, w =>
    if acc.id = pk then some w
    else
      match (syncAccount srv acc).run (World.handler r.env) w with
      | (.ok _, t) => r.turnAmong pk srv accs t
      | (.error _, _) => none

def turnOn (r : SyncRun) (pk : Nat) (srv : Server) (w : World) : Option World :=
  match w.connect r.env srv with
  | (.ok _, t) => r.turnAmong pk srv (t.db.selectAccounts (.activeOn srv.id)) t
  | (.error _, _) => none

/-- The server on which the account has its turn in the run, if it has one, and the world by then. -/
def turn (r : SyncRun) (pk : Nat) : List Server → World → Option (Server × World)
  | [], _ => none
  | srv :: servers, w =>
    match r.turnOn pk srv w with
    | some t => some (srv, t)
    | none => r.turn pk servers ((syncServer srv).run (World.handler r.env) w).2

end SyncRun

/-- The run does not lower the usage, and suspends an ACTIVE account that has sent more than its limit. -/
def KeepsUsage (pk : Nat) (w : World) (r : SyncRun) : Prop :=
  ∀ acc, w.db.getAccount pk = some acc → ∃ acc', (w.syncs r).db.getAccount pk = some acc' ∧
    acc.bandwidthUsedGb ≤ acc'.bandwidthUsedGb ∧
    (acc.status = .active → r.exceeds acc = true → acc'.status = .suspended)

/-- What is read is no less than the usage that has been saved. Where the account has sent more than its
limit, the run gets to it, what is read is over the limit too, and the lock does not raise. -/
def ReadsUsage (pk : Nat) (w : World) (r : SyncRun) : Prop :=
  ∀ acc, w.db.getAccount pk = some acc → acc.status = .active →
    (∀ srv t bytes, r.turn pk w.db.activeServers w = some (srv, t) → r.env.reading srv acc t = .ok bytes →
      acc.bandwidthUsedGb ≤ gbUsed bytes) ∧
    (r.exceeds acc = true → ∃ srv t bytes, r.turn pk w.db.activeServers w = some (srv, t) ∧
      r.env.reading srv acc t = .ok bytes ∧ overLimit acc (gbUsed bytes) = true ∧
      r.env.raises srv acc.username .usermodLock = false)

/-! `round`. -/

/-- The nearest multiple: twice the distance is at most one. -/
theorem gbUsed_near (bytes : Nat) : 2 * (bytes * 1000000) ≤ (2 * gbUsed bytes + 1) * 1073741824 ∧
    2 * gbUsed bytes * 1073741824 ≤ 2 * (bytes * 1000000) + 1073741824 := by
  have hdiv := Nat.div_add_mod (bytes * 1000000) 1073741824
  have hlt := Nat.mod_lt (bytes * 1000000) (by decide : 0 < 1073741824)
  simp only [gbUsed]
  generalize bytes * 1000000 / 1073741824 = q at *
  generalize bytes * 1000000 % 1073741824 = r at *
  split
  · omega
  · split
    · omega
    · -- half way between two multiples both are near
      obtain rfl : r = 536870912 := by omega
      rw [← hdiv]
      split <;> omega

theorem gbUsed_mono {a b : Nat} (h : a ≤ b) : gbUsed a ≤ gbUsed b := by
  by_contra hlt
  have ha := (gbUsed_near a).2
  have hb := (gbUsed_near b).1
  -- both are half way between the two results, so the readings are equal
  have heq : a = b := by omega
  rw [heq] at hlt
  exact hlt le_rfl

/-- A whole number of gigabytes is exact. -/
theorem gbUsed_gigabytes (gb : Nat) : gbUsed (gb * 1073741824) = gb * 1000000 := by
  obtain ⟨h1, h2⟩ := gbUsed_near (gb * 1073741824)
  omega

theorem overLimit_of_exceeds {r : SyncRun} {acc : Account} (h : r.exceeds acc = true) :
    overLimit acc (gbUsed r.total) = true := by
  simp only [SyncRun.exceeds, overLimit, Bool.and_eq_true, decide_eq_true_eq] at h ⊢
  refine ⟨h.1, ?_⟩
  rw [← gbUsed_gigabytes]
  exact gbUsed_mono (Nat.le_of_lt h.2)

/-! What a run does to the row. -/

/-- The row after a reading; `locks` says that the lock did not raise. -/
def Account.synced (acc : Account) (bytes : Nat) (locks : Bool) : Account :=
  { acc with
    bandwidthUsedGb := gbUsed bytes
    status := if overLimit acc (gbUsed bytes) && locks then .suspended else acc.status }

section Step

variable {pk : Nat} {w : World} {r : SyncRun} {acc : Account} {env : Env} {srv : Server} {bytes gb : Nat}

theorem getAccount_saveAccount (env : Env) {row obj : Account} {fields : List AccountField}
    (h : w.db.getAccount pk = some row) (hid : obj.id = row.id) :
    ((ask (.saveAccount obj fields) : PanelProg Unit).run (World.handler env) w).2.db.getAccount pk =
      some (row.write obj fields) := by
  change (w.db.write obj fields none).getAccount pk = _
  rw [Db.getAccount_write, h, Option.map_some, if_pos hid.symm]

theorem row_saveUsage (env : Env) (gb : Nat) (h : w.db.getAccount pk = some acc) :
    ∃ t, (saveUsage acc gb).run (World.handler env) w = (.ok (), t) ∧
      t.db.getAccount pk = some { acc with bandwidthUsedGb := gb } := by
  unfold saveUsage
  split
  · exact ⟨_, rfl, getAccount_saveAccount env h rfl⟩
  · next heq =>
    refine ⟨w, rfl, h.trans ?_⟩
    rw [ne_eq, not_not] at heq
    rw [heq]

theorem row_enforceLimit {row : Account} (h : w.db.getAccount pk = some row) (hid : acc.id = row.id) :
    ((enforceLimit srv acc gb).run (World.handler env) w).2.db.getAccount pk =
      some { row with
        status := if overLimit acc gb && !env.raises srv acc.username .usermodLock then .suspended
          else row.status } := by
  unfold enforceLimit
  cases hover : overLimit acc gb with
  | false => simpa using h
  | true =>
    have hdb := db_quiet env (quiet_lockUser srv acc.username) w
    cases hraise : env.raises srv acc.username .usermodLock with
    | true =>
      obtain ⟨e, t, ht⟩ := run_raising hraise w
      rw [SSHManager.lockUser] at hdb ⊢
      rw [ht] at hdb
      have hrow : t.db.getAccount pk = some row := by
        rw [hdb]
        exact h
      rw [if_pos rfl, Prog.run_bind_error ht]
      simpa using hrow
    | false =>
      obtain ⟨result, hres, -⟩ := World.exec_finishes w hraise
      rcases hrun : (SSHManager.lockUser srv acc.username).run (World.handler env) w with ⟨e | x, t⟩
      · rw [SSHManager.lockUser, SSHManager.run] at hrun
        simp [World.handler, hres] at hrun
      · rw [hrun] at hdb
        rw [if_pos rfl, Prog.run_bind_ok hrun]
        have ht : t.db.getAccount pk = some row := by
          rw [hdb]
          exact h
        exact getAccount_saveAccount env ht hid

theorem quiet_bytesUsed (srv : Server) (acc : Account) : Quiet (bytesUsed srv acc) :=
  (SSHManager.allCalls_setupTrafficAccounting quiet_exec).bind fun _ =>
    SSHManager.allCalls_getUserBandwidthBytes quiet_exec

/-- An account whose counters are read. -/
theorem row_syncAccount (h : w.db.getAccount pk = some acc) (hread : env.reading srv acc w = .ok bytes) :
    ((syncAccount srv acc).run (World.handler env) w).2.db.getAccount pk =
      some (acc.synced bytes !env.raises srv acc.username .usermodLock) := by
  have hdb := db_quiet env (quiet_bytesUsed srv acc) w
  rw [syncAccount_eq]
  unfold Env.reading at hread
  rcases hrun : (bytesUsed srv acc).run (World.handler env) w with ⟨e | b, t⟩
  · rw [hrun] at hread
    cases hread
  · rw [hrun] at hread hdb
    cases hread
    have ht : t.db.getAccount pk = some acc := by
      rw [hdb]
      exact h
    obtain ⟨t', hsave, hrow⟩ := row_saveUsage env (gbUsed bytes) ht
    rw [Prog.run_bind_ok hrun, Prog.run_bind_ok hsave]
    exact row_enforceLimit hrow rfl

/-- An exception before that leaves the row. -/
theorem row_syncAccount_error {e : Exc} (h : w.db.getAccount pk = some acc)
    (hread : env.reading srv acc w = .error e) :
    ((syncAccount srv acc).run (World.handler env) w).2.db.getAccount pk = some acc := by
  have hdb := db_quiet env (quiet_bytesUsed srv acc) w
  rw [syncAccount_eq]
  unfold Env.reading at hread
  rcases hrun : (bytesUsed srv acc).run (World.handler env) w with ⟨e | b, t⟩
  · rw [hrun] at hdb
    rw [Prog.run_bind_error hrun, hdb]
    exact h
  · rw [hrun] at hread
    cases hread

theorem server_syncAccount (h : w.db.getAccount pk = some acc) :
    ∃ acc', ((syncAccount srv acc).run (World.handler env) w).2.db.getAccount pk = some acc' ∧
      acc'.server = acc.server := by
  cases hread : env.reading srv acc w with
  | error e => exact ⟨acc, row_syncAccount_error h hread, rfl⟩
  | ok bytes => exact ⟨_, row_syncAccount h hread, rfl⟩

end Step

/-! The turn of an account in a run. -/

/-- Saves of no other row. -/
def Call.SavesOnly (id : Nat) (c : Call) : Prop :=
  c.Quiet ∨ ∃ obj fields, c = .saveAccount obj fields ∧ obj.id = id

section Turn

variable {pk : Nat} {w : World} {env : Env} {srv : Server} {acc : Account} {r : SyncRun}

theorem savesOnly_syncAccount : (syncAccount srv acc).AllCalls (Call.SavesOnly acc.id) :=
  allCalls_syncAccount (fun cmd hc => .inl (quiet_exec cmd hc))
    fun obj fields hid => .inr ⟨obj, fields, rfl, hid⟩

theorem getAccount_savesOnly {c : Call} {id : Nat} (hc : c.SavesOnly id) (hid : id ≠ pk) (w : World) :
    (World.handler env c w).2.db.getAccount pk = w.db.getAccount pk := by
  rcases hc with hq | ⟨obj, fields, rfl, rfl⟩
  · rw [(World.handler_quiet env hq w).1]
  · change (w.db.write obj fields none).getAccount pk = _
    rw [Db.getAccount_write]
    cases hrow : w.db.getAccount pk with
    | none => rfl
    | some row =>
      rw [Option.map_some, if_neg]
      rw [Db.getAccount_id hrow]
      exact fun h => hid h.symm

/-- The part of another account. -/
theorem getAccount_syncAccount_other (h : acc.id ≠ pk) :
    ((syncAccount srv acc).run (World.handler env) w).2.db.getAccount pk = w.db.getAccount pk := by
  refine savesOnly_syncAccount.run_related
    (r := fun w w' : World => w'.db.getAccount pk = w.db.getAccount pk) (fun _ => rfl)
    (fun h h' => h'.trans h) ?_ w
  intro c w hc
  exact getAccount_savesOnly hc h w

theorem getAccount_syncAccounts_other {accs : List Account} (h : ∀ a ∈ accs, a.id ≠ pk) :
    ((syncAccounts srv accs).run (World.handler env) w).2.db.getAccount pk = w.db.getAccount pk := by
  induction accs generalizing w with
  | nil => rfl
  | cons a accs ih =>
    have hfirst := @getAccount_syncAccount_other pk w env srv a (h a List.mem_cons_self)
    rw [syncAccounts, run_bind]
    rcases hr : (syncAccount srv a).run (World.handler env) w with ⟨e | x, t⟩
    · rw [hr] at hfirst
      exact hfirst
    · rw [hr] at hfirst
      exact (ih fun b hb => h b (List.mem_cons_of_mem _ hb)).trans hfirst

/-- The accounts of a server leave the row, but for its own turn. -/
theorem row_syncAccounts {accs : List Account} (hids : (accs.map Account.id).Nodup) :
    (r.turnAmong pk srv accs w = none →
      ((syncAccounts srv accs).run (World.handler r.env) w).2.db.getAccount pk = w.db.getAccount pk) ∧
    ∀ t, r.turnAmong pk srv accs w = some t → t.db.getAccount pk = w.db.getAccount pk ∧
      ∃ a ∈ accs, a.id = pk ∧
        ((syncAccounts srv accs).run (World.handler r.env) w).2.db.getAccount pk =
          ((syncAccount srv a).run (World.handler r.env) t).2.db.getAccount pk := by
  induction accs generalizing w with
  | nil => exact ⟨fun _ => rfl, by intro t ht; cases ht⟩
  | cons a accs ih =>
    obtain ⟨hnot, hrest⟩ := List.nodup_cons.mp hids
    rw [SyncRun.turnAmong, syncAccounts, run_bind]
    by_cases ha : a.id = pk
    · have hothers : ∀ b ∈ accs, b.id ≠ pk := by
        intro b hb hpk
        exact hnot (List.mem_map.mpr ⟨b, hb, hpk.trans ha.symm⟩)
      rw [if_pos ha]
      refine ⟨(by intro hnone; cases hnone), ?_⟩
      intro t ht
      obtain rfl := Option.some.inj ht
      refine ⟨rfl, a, List.mem_cons_self, ha, ?_⟩
      rcases (syncAccount srv a).run (World.handler r.env) w with ⟨e | x, t⟩
      · rfl
      · exact getAccount_syncAccounts_other hothers
    · have hkept := @getAccount_syncAccount_other pk w r.env srv a ha
      rw [if_neg ha]
      rcases hr : (syncAccount srv a).run (World.handler r.env) w with ⟨e | x, t⟩
      · rw [hr] at hkept
        exact ⟨fun _ => hkept, by intro t ht; cases ht⟩
      · rw [hr] at hkept
        obtain ⟨hnone, hsome⟩ := @ih t hrest
        refine ⟨fun h => (hnone h).trans hkept, ?_⟩
        intro u hu
        obtain ⟨hrow, b, hb, hpk, hfinal⟩ := hsome u hu
        exact ⟨hrow.trans hkept, b, List.mem_cons_of_mem _ hb, hpk, hfinal⟩

theorem row_syncServer (hrow : w.db.getAccount pk = some acc) :
    (r.turnOn pk srv w = none →
      ((syncServer srv).run (World.handler r.env) w).2.db.getAccount pk = some acc) ∧
    ∀ t, r.turnOn pk srv w = some t → t.db.getAccount pk = some acc ∧
      acc.server = srv.id ∧ acc.status = .active ∧
        ((syncServer srv).run (World.handler r.env) w).2.db.getAccount pk =
          ((syncAccount srv acc).run (World.handler r.env) t).2.db.getAccount pk := by
  have hprog : (syncServer srv).run (World.handler r.env) w =
      (if (w.db.selectAccounts (.activeOn srv.id)).isEmpty then Prog.ret () else do
        SSHManager.connect srv
        syncAccounts srv (← ask (.selectAccounts (.activeOn srv.id))) : PanelProg Unit).run
          (World.handler r.env) w := rfl
  have hconnect : (SSHManager.connect srv).run (World.handler r.env) w = w.connect r.env srv := by
    simp only [SSHManager.connect, Prog.perform_bind, Prog.run_call, World.handler]
    rcases w.connect r.env srv with ⟨x | x, t⟩ <;> rfl
  have hdb : (w.connect r.env srv).2.db = w.db := World.connect_db
  rw [hprog, SyncRun.turnOn]
  rcases hc : w.connect r.env srv with ⟨e | x, t⟩
  · rw [hc] at hdb
    refine ⟨fun _ => ?_, by intro t ht; cases ht⟩
    split
    · exact hrow
    · rw [run_bind, hconnect, hc]
      dsimp only
      rw [hdb]
      exact hrow
  · rw [hc] at hdb
    dsimp only at hdb ⊢
    have hrow' : t.db.getAccount pk = some acc := by
      rw [hdb]
      exact hrow
    obtain ⟨hnone, hsome⟩ := @row_syncAccounts pk t srv r (t.db.selectAccounts (.activeOn srv.id))
      (t.db.selectAccounts_ids _)
    split
    · next hempty =>
      have hnil : t.db.selectAccounts (.activeOn srv.id) = [] := by
        rw [hdb]
        exact List.isEmpty_iff.mp hempty
      rw [hnil, SyncRun.turnAmong]
      exact ⟨fun _ => hrow, by intro t ht; cases ht⟩
    · rw [run_bind, hconnect, hc]
      refine ⟨fun h => (hnone h).trans hrow', ?_⟩
      intro u hu
      obtain ⟨hkept, a, ha, hpk, hfinal⟩ := hsome u hu
      obtain ⟨hmem, hfilter⟩ := Db.mem_selectAccounts.mp ha
      have hget : t.db.getAccount pk = some a := hpk ▸ Db.getAccount_of_mem hmem
      obtain rfl := Option.some.inj (hget.symm.trans hrow')
      have hactive := of_decide_eq_true hfilter
      exact ⟨hkept.trans hrow', hactive.1, hactive.2, hfinal⟩

/-- On other servers nothing happens to the account. -/
theorem row_syncServers_other {servers : List Server} (hrow : w.db.getAccount pk = some acc)
    (h : ∀ srv ∈ servers, acc.server ≠ srv.id) :
    (after (fun w srv => ((syncServer srv).run (World.handler r.env) w).2) w servers).db.getAccount pk =
      some acc := by
  induction servers generalizing w with
  | nil => exact hrow
  | cons srv servers ih =>
    obtain ⟨hnone, hsome⟩ := @row_syncServer pk w srv acc r hrow
    refine ih (hnone ?_) fun s hs => h s (List.mem_cons_of_mem _ hs)
    by_contra hturn
    obtain ⟨t, ht⟩ := Option.ne_none_iff_exists'.mp hturn
    exact h srv List.mem_cons_self (hsome t ht).2.1

theorem row_syncServers {servers : List Server} (hids : (servers.map Server.id).Nodup)
    (hrow : w.db.getAccount pk = some acc) :
    (r.turn pk servers w = none →
      (after (fun w srv => ((syncServer srv).run (World.handler r.env) w).2) w servers).db.getAccount pk =
        some acc) ∧
    ∀ srv t, r.turn pk servers w = some (srv, t) → t.db.getAccount pk = some acc ∧ acc.status = .active ∧
      (after (fun w srv => ((syncServer srv).run (World.handler r.env) w).2) w servers).db.getAccount pk =
        ((syncAccount srv acc).run (World.handler r.env) t).2.db.getAccount pk := by
  induction servers generalizing w with
  | nil => exact ⟨fun _ => hrow, by intro srv t ht; cases ht⟩
  | cons srv servers ih =>
    obtain ⟨hnot, hrest⟩ := List.nodup_cons.mp hids
    obtain ⟨hnone, hsome⟩ := @row_syncServer pk w srv acc r hrow
    rw [SyncRun.turn]
    cases hturn : r.turnOn pk srv w with
    | none => exact ih hrest (hnone hturn)
    | some t =>
      refine ⟨(by intro h; cases h), ?_⟩
      intro srv' t' h
      obtain ⟨rfl, rfl⟩ := Prod.mk.inj (Option.some.inj h)
      obtain ⟨hkept, hserver, hactive, hfinal⟩ := hsome t hturn
      obtain ⟨acc', hacc', hsame⟩ := @server_syncAccount pk t acc r.env srv hkept
      refine ⟨hkept, hactive, ?_⟩
      rw [hacc', after_cons]
      refine row_syncServers_other (hfinal.trans hacc') ?_
      intro s hs heq
      refine hnot (List.mem_map.mpr ⟨s, hs, ?_⟩)
      rw [← heq, hsame, hserver]

/-- A run does to an account what its turn does, and nothing where it has none. -/
theorem row_syncs (hids : (w.db.servers.map Server.id).Nodup) (hrow : w.db.getAccount pk = some acc) :
    (r.turn pk w.db.activeServers w = none → (w.syncs r).db.getAccount pk = some acc) ∧
    ∀ srv t, r.turn pk w.db.activeServers w = some (srv, t) → t.db.getAccount pk = some acc ∧
      acc.status = .active ∧ (w.syncs r).db.getAccount pk =
        ((syncAccount srv acc).run (World.handler r.env) t).2.db.getAccount pk := by
  have hrun : w.syncs r = after (fun w srv => ((syncServer srv).run (World.handler r.env) w).2) w
      w.db.activeServers := by
    have hservers : w.syncs r = ((syncServers w.db.activeServers).run (World.handler r.env) w).2 := rfl
    rw [hservers, run_syncServers]
  have hactive : (w.db.activeServers.map Server.id).Nodup :=
    hids.sublist (List.filter_sublist.map Server.id)
  rw [hrun]
  exact row_syncServers hactive hrow

/-- What the turn of an ACTIVE account has to read. -/
theorem keeps_turn_iff {t : World} (h : t.db.getAccount pk = some acc) (hactive : acc.status = .active) :
    (∃ acc', ((syncAccount srv acc).run (World.handler r.env) t).2.db.getAccount pk = some acc' ∧
      acc.bandwidthUsedGb ≤ acc'.bandwidthUsedGb ∧ (r.exceeds acc = true → acc'.status = .suspended)) ↔
    (∀ bytes, r.env.reading srv acc t = .ok bytes → acc.bandwidthUsedGb ≤ gbUsed bytes) ∧
      (r.exceeds acc = true → ∃ bytes, r.env.reading srv acc t = .ok bytes ∧
        overLimit acc (gbUsed bytes) = true ∧ r.env.raises srv acc.username .usermodLock = false) := by
  cases hread : r.env.reading srv acc t with
  | error e =>
    rw [row_syncAccount_error h hread]
    constructor
    · rintro ⟨acc', hrow, -, hsus⟩
      obtain rfl := Option.some.inj hrow
      refine ⟨(by intro bytes hb; cases hb), fun hx => ?_⟩
      rw [hsus hx] at hactive
      cases hactive
    · rintro ⟨-, hover⟩
      refine ⟨acc, rfl, le_rfl, fun hx => ?_⟩
      obtain ⟨bytes, hb, -⟩ := hover hx
      cases hb
  | ok bytes =>
    rw [row_syncAccount h hread]
    constructor
    · rintro ⟨acc', hrow, hle, hsus⟩
      obtain rfl := Option.some.inj hrow
      constructor
      · rintro b ⟨⟩
        exact hle
      · intro hx
        have hstatus := hsus hx
        simp only [Account.synced, hactive] at hstatus
        split at hstatus
        · next hc => exact ⟨bytes, rfl, by simpa using hc⟩
        · cases hstatus
    · rintro ⟨hle, hover⟩
      refine ⟨_, rfl, hle bytes rfl, fun hx => ?_⟩
      obtain ⟨b, ⟨⟩, hlimit, hlock⟩ := hover hx
      simp [Account.synced, hlimit, hlock]

theorem keepsUsage_iff (hids : (w.db.servers.map Server.id).Nodup) :
    KeepsUsage pk w r ↔ ReadsUsage pk w r := by
  unfold KeepsUsage ReadsUsage
  refine forall_congr' fun acc => forall_congr' fun h => ?_
  obtain ⟨hnone, hsome⟩ := @row_syncs pk w acc r hids h
  cases hturn : r.turn pk w.db.activeServers w with
  | none =>
    -- the run passes the account over
    rw [hnone hturn]
    constructor
    · rintro ⟨acc', hrow, -, hsus⟩ hactive
      obtain rfl := Option.some.inj hrow
      refine ⟨(by intro srv t bytes ht; cases ht), fun hx => ?_⟩
      rw [hsus hactive hx] at hactive
      cases hactive
    · intro hr
      refine ⟨acc, rfl, le_rfl, fun hactive hx => ?_⟩
      obtain ⟨srv, t, bytes, ht, -⟩ := (hr hactive).2 hx
      cases ht
  | some x =>
    obtain ⟨srv, t⟩ := x
    obtain ⟨hkept, hactive, hfinal⟩ := hsome srv t hturn
    rw [hfinal]
    constructor
    · rintro ⟨acc', hrow, hle, hsus⟩ -
      obtain ⟨hreads, hover⟩ := (keeps_turn_iff hkept hactive).mp ⟨acc', hrow, hle, hsus hactive⟩
      refine ⟨?_, fun hx => ⟨srv, t, ?_⟩⟩
      · rintro srv' t' bytes ⟨⟩ hb
        exact hreads bytes hb
      · obtain ⟨bytes, hrest⟩ := hover hx
        exact ⟨bytes, rfl, hrest⟩
    · intro hr
      obtain ⟨hreads, hover⟩ := hr hactive
      have hfound : r.exceeds acc = true → ∃ bytes, r.env.reading srv acc t = .ok bytes ∧
          overLimit acc (gbUsed bytes) = true ∧ r.env.raises srv acc.username .usermodLock = false := by
        intro hx
        obtain ⟨srv', t', bytes, ⟨⟩, hrest⟩ := hover hx
        exact ⟨bytes, hrest⟩
      obtain ⟨acc', hrow, hle, hsus⟩ :=
        (keeps_turn_iff hkept hactive).mpr ⟨fun bytes => hreads srv t bytes rfl, hfound⟩
      exact ⟨acc', hrow, hle, fun _ => hsus⟩

end Turn

/-! Runs. -/

/-- What happens to an account: a run of the task, or anything else, which leaves its usage and gives no
two servers one key. -/
inductive UsageStep where
  | sync (r : SyncRun)
  | elsewhere (w : World)

/-- The usage that the row shows. -/
def World.usage (pk : Nat) (w : World) : Option Nat :=
  (w.db.getAccount pk).map Account.bandwidthUsedGb

def World.uses (pk : Nat) (w : World) : UsageStep → World
  | .sync r => w.syncs r
  | .elsewhere w' => if w'.usage pk = w.usage pk ∧ (w'.db.servers.map Server.id).Nodup then w' else w

/-- What each run has to do, and when it does. -/
def Keeps (pk : Nat) (w : World) : UsageStep → Prop
  | .sync r => KeepsUsage pk w r
  | .elsewhere _ => True

def Reads (pk : Nat) (w : World) : UsageStep → Prop
  | .sync r => ReadsUsage pk w r
  | .elsewhere _ => True

section Runs

variable {pk : Nat} {w : World}

theorem syncs_servers (w : World) (r : SyncRun) : (w.syncs r).db.servers = w.db.servers :=
  (w.act_wrote (.op .syncBandwidthUsage, fun _ => r.env)).servers

theorem uses_ids (x : UsageStep) (hids : (w.db.servers.map Server.id).Nodup) :
    ((w.uses pk x).db.servers.map Server.id).Nodup := by
  cases x with
  | sync r =>
    rw [World.uses, syncs_servers]
    exact hids
  | elsewhere w' =>
    rw [World.uses]
    split
    · next h => exact h.2
    · exact hids

end Runs

/-- The usage never falls and every excess is found by the next run exactly as far as no run reads less
than one before it, and none passes over an account that has sent more than its limit, or reads less. -/
theorem usage_kept_iff (pk : Nat) (w : World) (xs : List UsageStep)
    (hids : (w.db.servers.map Server.id).Nodup) :
    Along (World.uses pk) (Keeps pk) w xs ↔ Along (World.uses pk) (Reads pk) w xs := by
  refine along_congr (J := fun w => (w.db.servers.map Server.id).Nodup) ?_ ?_ hids
  · rintro u (r | w') hu
    · exact keepsUsage_iff hu
    · exact Iff.rfl
  · intro u x hu
    exact uses_ids x hu

/-- A node on which the last line of the chain's counters is this. -/
def meterEnv (line : String) : Env :=
  { sampleEnv 1 with
    exec := fun _ _ cmd =>
      .finished ⟨0, if cmd = .chainCounters then line.toList else "1000".toList, []⟩ }

/-- A world with one account. -/
def meteredWorld : World :=
  sampleWorld.actAll [(.op (.create loggedRequest), fun _ => sampleEnv 0)]

/-- Five gigabytes have been counted. -/
def countedRun : SyncRun := ⟨meterEnv "9 5368709120 RETURN", 5368709120⟩

/-- The node has been rebooted since. -/
def rebootedRun : SyncRun := ⟨meterEnv "0 0 RETURN", 5368709120⟩

theorem meteredWorld_ids : (meteredWorld.db.servers.map Server.id).Nodup := by decide +kernel

theorem rebootedRun_lowers : ¬ KeepsUsage 1 (meteredWorld.syncs countedRun) rebootedRun := by
  intro hkeeps
  have hbefore : (meteredWorld.syncs countedRun).usage 1 = some 5000000 := by decide +kernel
  have hafter : ((meteredWorld.syncs countedRun).syncs rebootedRun).usage 1 = some 0 := by
    decide +kernel
  obtain ⟨acc, hacc, hused⟩ := Option.map_eq_some_iff.mp hbefore
  obtain ⟨acc', hacc', hle, -⟩ := hkeeps acc hacc
  rw [World.usage, hacc', Option.map_some] at hafter
  have hzero : acc'.bandwidthUsedGb = 0 := Option.some.inj hafter
  omega

/-- After five gigabytes have been counted the reboot is what goes wrong. -/
theorem usage_kept_iff_rebooted :
    ¬ Along (World.uses 1) (Reads 1) meteredWorld [.sync countedRun, .sync rebootedRun] := by
  intro hreads
  exact rebootedRun_lowers ((usage_kept_iff 1 meteredWorld _ meteredWorld_ids).mpr hreads).2.1

theorem not_usage_kept : ¬ ∀ (pk : Nat) (w : World) (xs : List UsageStep),
    (w.db.servers.map Server.id).Nodup → Along (World.uses pk) (Keeps pk) w xs := by
  intro h
  exact rebootedRun_lowers
    (h 1 meteredWorld [.sync countedRun, .sync rebootedRun] meteredWorld_ids).2.1

section Total

variable {pk : Nat} {w : World}

theorem usage_elsewhere (w' : World) : (w.uses pk (.elsewhere w')).usage pk = w.usage pk := by
  simp only [World.uses]
  split
  · next h => exact h.1
  · rfl

/-- The run gets to an account that is ACTIVE, reads all that it has sent, and may lock it. -/
def ReadsTotal (pk : Nat) (w : World) : UsageStep → Prop
  | .sync r => ∀ acc, w.db.getAccount pk = some acc → acc.status = .active →
      ∃ srv t, r.turn pk w.db.activeServers w = some (srv, t) ∧
        r.env.reading srv acc t = .ok r.total ∧ r.env.raises srv acc.username .usermodLock = false
  | .elsewhere _ => True

/-- What the account has sent by each run. -/
def totals : List UsageStep → List Nat
  | [] => []
  | .sync r :: xs => r.total :: totals xs
  | .elsewhere _ :: xs => totals xs

/-- Where no counter is ever lost, the usage is kept. -/
theorem keeps_of_totals {sent : Nat} {xs : List UsageStep} (hids : (w.db.servers.map Server.id).Nodup)
    (hreads : Along (World.uses pk) (ReadsTotal pk) w xs) (hsent : (sent :: totals xs).Pairwise (· ≤ ·))
    (hstart : ∃ acc, w.db.getAccount pk = some acc ∧ acc.bandwidthUsedGb ≤ gbUsed sent) :
    Along (World.uses pk) (Keeps pk) w xs := by
  induction xs generalizing w sent with
  | nil => trivial
  | cons x xs ih =>
    obtain ⟨acc, hacc, hused⟩ := hstart
    cases x with
    | elsewhere w' =>
      refine ⟨trivial, ih (uses_ids _ hids) hreads.2 hsent ?_⟩
      have husage : (w.uses pk (.elsewhere w')).usage pk = w.usage pk := usage_elsewhere w'
      rw [World.usage, World.usage, hacc, Option.map_some] at husage
      obtain ⟨acc', hacc', heq⟩ := Option.map_eq_some_iff.mp husage
      exact ⟨acc', hacc', heq ▸ hused⟩
    | sync r =>
      have hle : sent ≤ r.total := (List.pairwise_cons.mp hsent).1 _ List.mem_cons_self
      have hbound : acc.bandwidthUsedGb ≤ gbUsed r.total := hused.trans (gbUsed_mono hle)
      refine ⟨(keepsUsage_iff hids).mpr ?_,
        ih (uses_ids _ hids) hreads.2 (List.pairwise_cons.mp hsent).2 ?_⟩
      · intro acc' hacc' hactive
        obtain rfl := Option.some.inj (hacc.symm.trans hacc')
        obtain ⟨srv, t, hturn, hread, hlock⟩ := hreads.1 acc hacc hactive
        constructor
        · intro srv' t' bytes ht hb
          obtain ⟨rfl, rfl⟩ := Prod.mk.inj (Option.some.inj (hturn.symm.trans ht))
          rw [hread] at hb
          cases hb
          exact hbound
        · intro hx
          exact ⟨srv, t, r.total, hturn, hread, overLimit_of_exceeds hx, hlock⟩
      · change ∃ acc', (w.syncs r).db.getAccount pk = some acc' ∧ _
        obtain ⟨hnone, hsome⟩ := @row_syncs pk w acc r hids hacc
        cases hturn : r.turn pk w.db.activeServers w with
        | none => exact ⟨acc, hnone hturn, hbound⟩
        | some x =>
          obtain ⟨srv, t⟩ := x
          obtain ⟨hkept, hactive, hfinal⟩ := hsome srv t hturn
          obtain ⟨srv', t', ht, hread, -⟩ := hreads.1 acc hacc hactive
          obtain ⟨rfl, rfl⟩ := Prod.mk.inj (Option.some.inj (hturn.symm.trans ht))
          rw [hfinal]
          exact ⟨_, row_syncAccount hkept hread, le_rfl⟩

end Total

end SshPanelVpn.Panel

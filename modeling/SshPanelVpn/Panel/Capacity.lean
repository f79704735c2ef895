import SshPanelVpn.Panel.OperationWrites

/-! Whether a server can get more accounts than it has places, where creations overlap. -/
namespace SshPanelVpn.Panel

open Effects Runs ShadowLink
open Effects.Prog (run_bind)

/-! The accounts on a server, write by write. -/

/-- No server has more accounts that are not DELETED than places. -/
def Db.Within (db : Db) : Prop := ∀ srv ∈ db.servers, db.currentUserCount srv.id ≤ srv.maxUsers

/-- The server with the key has a place left. -/
def Db.HasRoom (db : Db) (pk : Nat) : Prop :=
  ∀ srv ∈ db.servers, srv.id = pk → db.currentUserCount pk < srv.maxUsers

section Counts

variable {p : Account → Bool} {g : Account → Account} {rows : List Account}

theorem countP_map_le (h : ∀ r ∈ rows, p (g r) = true → p r = true) :
    (rows.map g).countP p ≤ rows.countP p := by
  rw [List.countP_map]
  exact List.countP_mono_left h

/-- A change of one row changes the number by at most one. -/
theorem countP_map_le_succ (pk : Nat) (hids : (rows.map Account.id).Nodup)
    (h : ∀ r ∈ rows, r.id ≠ pk → p (g r) = true → p r = true) :
    (rows.map g).countP p ≤ rows.countP p + 1 := by
  induction rows with
  | nil => simp
  | cons r rows ih =>
    obtain ⟨hnot, hrest⟩ := List.nodup_cons.mp hids
    have hhead : ∀ b : Bool, (if b = true then 1 else 0) ≤ 1 := by
      intro b
      split <;> omega
    simp only [List.map_cons, List.countP_cons]
    by_cases hr : r.id = pk
    · have htail : (rows.map g).countP p ≤ rows.countP p := by
        refine countP_map_le fun r' hr' => h r' (List.mem_cons_of_mem _ hr') ?_
        intro he
        exact hnot (hr.trans he.symm ▸ List.mem_map_of_mem hr')
      have := hhead (p (g r))
      omega
    · have htail := ih hrest fun r' hr' => h r' (List.mem_cons_of_mem _ hr')
      have hsame := h r List.mem_cons_self hr
      by_cases hg : p (g r) = true
      · simp only [hg, hsame hg, if_true]
        omega
      · rw [if_neg hg]
        omega

end Counts

/-- The row counts for the server. -/
def Account.countsFor (pk : Nat) (a : Account) : Bool := a.server = pk ∧ a.status ≠ .deleted

section Steps

variable {db db' : Db} {l : TableWrite}

theorem currentUserCount_eq (db : Db) (pk : Nat) :
    db.currentUserCount pk = db.accounts.rows.countP (Account.countsFor pk) := rfl

/-- A saved row counts if it did before, or was DELETED and is no longer. -/
theorem Account.countsFor_write {r obj : Account} {fields : List AccountField} {pk : Nat}
    (h : Account.countsFor pk (r.write obj fields) = true) :
    (r.server = pk ∧ r.status = .deleted ∧ .status ∈ fields ∧ obj.status ≠ .deleted) ∨
      Account.countsFor pk r = true := by
  simp only [Account.countsFor, decide_eq_true_eq, Account.write_status,
    (r.write_keys obj fields).server] at h ⊢
  by_cases hf : AccountField.status ∈ fields
  · rw [if_pos hf] at h
    by_cases hd : r.status = .deleted
    · exact .inl ⟨h.1, hd, hf, h.2⟩
    · exact .inr ⟨h.1, hd⟩
  · rw [if_neg hf] at h
    exact .inr h

/-- Only a row that was DELETED can count anew when it is saved, and only for its server. -/
theorem currentUserCount_write {row obj : Account} {fields : List AccountField}
    {entry : Option AuditLog} (hrow : row ∈ db.accounts) (hobj : obj.id = row.id) (pk : Nat) :
    (db.write obj fields entry).currentUserCount pk ≤ db.currentUserCount pk +
      if row.server = pk ∧ row.status = .deleted ∧ .status ∈ fields ∧ obj.status ≠ .deleted then 1
      else 0 := by
  have hchange : ∀ r ∈ db.accounts.rows,
      Account.countsFor pk (if r.id = obj.id then r.write obj fields else r) = true →
        (row.server = pk ∧ row.status = .deleted ∧ .status ∈ fields ∧ obj.status ≠ .deleted ∧
          r.id = row.id) ∨ Account.countsFor pk r = true := by
    intro r hr hcounts
    by_cases hid : r.id = obj.id
    · have hrr : r = row := AccountTable.eq_of_id hr hrow (hid.trans hobj)
      subst hrr
      rw [if_pos hid] at hcounts
      rcases Account.countsFor_write hcounts with ⟨hs, hd, hf, ho⟩ | hbefore
      · exact .inl ⟨hs, hd, hf, ho, rfl⟩
      · exact .inr hbefore
    · rw [if_neg hid] at hcounts
      exact .inr hcounts
  split
  · exact countP_map_le_succ row.id db.accounts.ids fun r hr hne hc =>
      (hchange r hr hc).resolve_left fun h => hne h.2.2.2.2
  · next hno =>
    exact countP_map_le fun r hr hc => (hchange r hr hc).resolve_left
      fun h => hno ⟨h.1, h.2.1, h.2.2.1, h.2.2.2.1⟩

theorem currentUserCount_move {accounts : AccountTable} {id target : Nat}
    (h : db.accounts.move id target = some accounts) (entries : List AuditLog) (pk : Nat) :
    { db with accounts := accounts, auditLog := entries }.currentUserCount pk ≤
      db.currentUserCount pk + if target = pk then 1 else 0 := by
  unfold AccountTable.move at h
  split at h
  · cases h
    split
    · refine countP_map_le_succ id db.accounts.ids ?_
      intro r _ hne hc
      rwa [AccountTable.moved, if_neg hne] at hc
    · next hne =>
      refine countP_map_le ?_
      intro r _ hc
      unfold AccountTable.moved at hc
      split at hc
      · simp [hne] at hc
      · exact hc
  · cases h

/-- An account that is DELETED, or is on the server already, takes no place there. -/
theorem currentUserCount_move_of_uncounted {accounts : AccountTable} {id target : Nat}
    (h : db.accounts.move id target = some accounts)
    (hrow : ∀ r ∈ db.accounts, r.id = id → r.status = .deleted ∨ r.server = target) (pk : Nat) :
    { db with accounts := accounts }.currentUserCount pk ≤ db.currentUserCount pk := by
  unfold AccountTable.move at h
  split at h
  · cases h
    refine countP_map_le ?_
    intro r hr hc
    unfold AccountTable.moved at hc
    split at hc
    · next hid =>
      rcases hrow r hr hid with hdeleted | hserver
      · simp [hdeleted] at hc
      · rwa [← hserver] at hc
    · exact hc
  · cases h

theorem currentUserCount_insert {accounts : AccountTable} {row : Account}
    (h : db.accounts.insert row = some accounts) (entries : List AuditLog) (pk : Nat) :
    { db with accounts := accounts, auditLog := entries }.currentUserCount pk ≤
      db.currentUserCount pk + if row.server = pk then 1 else 0 := by
  unfold AccountTable.insert at h
  split at h
  · cases h
    simp only [currentUserCount_eq, List.countP_cons]
    by_cases hpk : row.server = pk
    · rw [if_pos hpk]
      split <;> omega
    · simp [Account.countsFor, hpk]
  · cases h

/-- What is available has room. -/
theorem Db.hasRoom_of_available {server : Server} (hids : (db.servers.map Server.id).Nodup)
    (hmem : server ∈ db.servers) (h : db.isAvailable server = true) : db.HasRoom server.id := by
  intro srv hsrv hid
  rw [List.inj_on_of_nodup_map hids hsrv hmem hid]
  simp only [isAvailable, Bool.and_eq_true, decide_eq_true_eq] at h
  exact h.2

theorem Db.Within.of_count (hw : db.Within) (pk : Nat) (hs : db'.servers = db.servers)
    (hroom : db.HasRoom pk)
    (hcount : ∀ k, db'.currentUserCount k ≤ db.currentUserCount k + if pk = k then 1 else 0) :
    db'.Within := by
  intro srv hsrv
  rw [hs] at hsrv
  have hle := hw srv hsrv
  have hk := hcount srv.id
  by_cases hpk : pk = srv.id
  · have hlt := hroom srv hsrv hpk.symm
    rw [if_pos hpk] at hk
    rw [hpk] at hlt
    omega
  · rw [if_neg hpk] at hk
    omega

theorem Db.Within.of_le (hw : db.Within) (hs : db'.servers = db.servers)
    (hcount : ∀ k, db'.currentUserCount k ≤ db.currentUserCount k) : db'.Within := by
  intro srv hsrv
  rw [hs] at hsrv
  exact Nat.le_trans (hcount srv.id) (hw srv hsrv)

/-- Every write stays within the places, if it revives accounts only where there is room. -/
theorem TableStep.within (h : TableStep db l db') (hids : (db.servers.map Server.id).Nodup)
    (hl : ∀ pk new action, l = .status pk .deleted new action → new ≠ .deleted →
      ∀ a, db.getAccount pk = some a → db.HasRoom a.server) (hw : db.Within) : db'.Within := by
  cases h with
  | @created server row accounts entry hmem hroom hserver _ hinsert _ _ =>
    refine hw.of_count server.id rfl (Db.hasRoom_of_available hids hmem hroom) ?_
    intro k
    rw [← hserver]
    exact currentUserCount_insert hinsert _ k
  | @status row obj fields entry hrow hobj hfields _ =>
    by_cases hrev : row.status = .deleted ∧ obj.status ≠ .deleted
    · refine hw.of_count row.server rfl ?_ ?_
      · refine hl row.id obj.status (entry.map AuditLog.action) ?_ hrev.2 row (Db.getAccount_of_mem hrow)
        rw [hrev.1]
      · intro k
        refine Nat.le_trans (currentUserCount_write hrow hobj k) ?_
        by_cases hk : row.server = k
        · simp only [hk, if_true]
          split <;> omega
        · simp [hk]
    · refine hw.of_le rfl ?_
      intro k
      refine Nat.le_trans (currentUserCount_write hrow hobj k) ?_
      rw [if_neg fun h => hrev ⟨h.2.1, h.2.2.2⟩]
      omega
  | columns hrow hobj hfields _ =>
    refine hw.of_le rfl ?_
    intro k
    refine Nat.le_trans (currentUserCount_write hrow hobj k) ?_
    rw [if_neg fun h => hfields h.2.2.1]
    omega
  | @moved row target accounts entry _ hmem hroom hmove _ =>
    exact hw.of_count target.id rfl (Db.hasRoom_of_available hids hmem hroom)
      (currentUserCount_move hmove _)

end Steps

/-! Whole operations. -/

section Operations

variable {w : World} {db db' : Db}

/-- A change of status is made once. -/
theorem Wrote.single {pk : Nat} {old new : AccountStatus} {action : Option AuditAction}
    (hne : new ≠ old) (h : Wrote (fun l => l = .status pk old new action) db db') :
    db' = db ∨ TableStep db (.status pk old new action) db' := by
  obtain ⟨ls, hrun, hls⟩ := h
  cases hrun with
  | refl => exact .inl rfl
  | @step _ t u l ls hst hrest =>
    obtain rfl := hls l List.mem_cons_self
    cases hrest with
    | refl => exact .inr hst
    | @step _ _ _ m _ hst' _ =>
      obtain rfl := hls m (List.mem_cons_of_mem _ List.mem_cons_self)
      have hnew := hst.statusOf pk
      rw [hst'.statusOf_old] at hnew
      simp only [TableWrite.statusAfter, if_true, Option.some.injEq] at hnew
      exact (hne hnew.symm).elim

/-- One operation after the other stays within the places. -/
theorem act_within (x : AccountOp × (Nat → Env)) (hids : (w.db.servers.map Server.id).Nodup)
    (h : ∀ a, x.1.Revives (x.2 0) w a → w.db.HasRoom a.server) (hw : w.db.Within) : (w.act x).db.Within := by
  have hwrote := w.act_wrote x
  by_cases hrev : ∃ pk new action, x.1.MayWrite (x.2 0) w (.status pk .deleted new action) ∧
      new ≠ .deleted
  · obtain ⟨pk, new, action, hl, hnew⟩ := hrev
    obtain ⟨a, ha, hrevives, honly⟩ := hl.revives hnew
    rcases (hwrote.mono honly).single hnew with hsame | hstep
    · rw [hsame]
      exact hw
    · refine hstep.within hids ?_ hw
      intro pk' new' action' he _ b hb
      obtain ⟨rfl, -, -, -⟩ := TableWrite.status.inj he
      rw [ha] at hb
      cases hb
      exact h a hrevives
  · refine (hwrote.keeps (I := fun d => d.servers = w.db.servers ∧ d.Within) ?_ ⟨rfl, hw⟩).2
    rintro d l d' hstep hl ⟨hs, hd⟩
    have hservers : d'.servers = d.servers := by cases hstep <;> rfl
    refine ⟨hservers.trans hs, hstep.within (hs ▸ hids) ?_ hd⟩
    rintro pk new action rfl hnew
    exact (hrev ⟨pk, new, action, hl, hnew⟩).elim

end Operations

/-! Operations that overlap: between the choice of a server and the row that takes the place, other
transactions may commit. -/

/-- What a server is chosen for: a new account, or one that `rebalance_users` moves. -/
inductive Purpose where
  | create (args : CreateArgs)
  | move (pk : Nat)

/-- A choice whose row is still to come; `outdated` where accounts have been written since its look. -/
structure OpenChoice where
  purpose : Purpose
  server : Server
  outdated : Bool

namespace OpenChoice

def age (c : OpenChoice) : OpenChoice := { c with outdated := true }

def after (call : Call) (c : OpenChoice) : OpenChoice :=
  match call with
  | .saveAccount _ _ => c.age
  | _ => c

theorem age_after (call : Call) (c : OpenChoice) : (after call c).age = c.age := by
  cases call <;> rfl

theorem after_eq_id {call : Call} (h : ¬ ∃ obj fields, call = .saveAccount obj fields) :
    after call = id := by
  cases call with
  | saveAccount obj fields => exact (h ⟨obj, fields, rfl⟩).elim
  | _ => rfl

end OpenChoice

/-- The calls that the panel makes outside of `create_account` too; each is committed by itself. -/
def Call.Alone : Call → Prop
  | .insertAccount _ => False
  | .begin => False
  | .commit => False
  | .rollback => False
  | _ => True

/-- The committed tables and the open choices. -/
structure Traffic where
  world : World
  choices : List OpenChoice

inductive TrafficLabel where
  | op (x : AccountOp × (Nat → Env))
  | call (c : Call) (env : Env)
  | choose (purpose : Purpose) (server : Server)
  | commit (i : Nat) (env : Env)
  | rollback (i : Nat) (env : Env)
  | move (i : Nat)
  | giveUp (i : Nat)

namespace Traffic

/-- An operation runs alone, or the calls of several are mixed in any order; what they save may have
been read at any time before. The look that decides on a server sees committed rows only; what
`pick_best_server` has read before it may be older. A creation's work on the node and its rows are all
committed or none; a move is the save of the one column. -/
inductive Step : Traffic → TrafficLabel → Traffic → Prop where
  | op {w : World} {cs : List OpenChoice} (x : AccountOp × (Nat → Env)) :
      Step ⟨w, cs⟩ (.op x) ⟨w.act x, cs.map OpenChoice.age⟩
  | call {w : World} {cs : List OpenChoice} {c : Call} {env : Env} : c.Alone →
      Step ⟨w, cs⟩ (.call c env) ⟨(World.handler env c w).2, cs.map (OpenChoice.after c)⟩
  | choose {w : World} {cs : List OpenChoice} {purpose : Purpose} {server : Server} :
      server ∈ w.db.servers → w.db.isAvailable server = true →
      Step ⟨w, cs⟩ (.choose purpose server) ⟨w, ⟨purpose, server, false⟩ :: cs⟩
  | commit {w w' : World} {cs : List OpenChoice} {i : Nat} {args : CreateArgs} {server : Server}
      {outdated : Bool} {env : Env} {account : Account} :
      cs[i]? = some ⟨.create args, server, outdated⟩ →
      (atomic (createRest args server)).run (World.handler env) w = (.ok account, w') →
      Step ⟨w, cs⟩ (.commit i env) ⟨w', (cs.eraseIdx i).map OpenChoice.age⟩
  | rollback {w w' : World} {cs : List OpenChoice} {i : Nat} {args : CreateArgs} {server : Server}
      {outdated : Bool} {env : Env} {e : Exc} :
      cs[i]? = some ⟨.create args, server, outdated⟩ →
      (atomic (createRest args server)).run (World.handler env) w = (.error e, w') →
      Step ⟨w, cs⟩ (.rollback i env) ⟨w', cs.eraseIdx i⟩
  | move {w : World} {cs : List OpenChoice} {i pk : Nat} {server : Server} {outdated : Bool}
      {accounts : AccountTable} : cs[i]? = some ⟨.move pk, server, outdated⟩ →
      w.db.accounts.move pk server.id = some accounts →
      Step ⟨w, cs⟩ (.move i) ⟨w.setAccounts accounts, (cs.eraseIdx i).map OpenChoice.age⟩
  | giveUp {w : World} {cs : List OpenChoice} {i : Nat} :
      Step ⟨w, cs⟩ (.giveUp i) ⟨w, cs.eraseIdx i⟩

/-- A deleted account is revived only where there is room, and a place that was chosen is taken with no
account written since the look, or where there still is room. -/
def InTime (s : Traffic) : TrafficLabel → Prop
  | .op x => ∀ a, x.1.Revives (x.2 0) s.world a → s.world.db.HasRoom a.server
  | .call (.saveAccount obj fields) _ => ∀ row, s.world.db.getAccount obj.id = some row →
      row.status = .deleted → .status ∈ fields → obj.status ≠ .deleted → s.world.db.HasRoom row.server
  | .commit i _ => ∀ c, s.choices[i]? = some c → c.outdated = true → s.world.db.HasRoom c.server.id
  | .move i => ∀ c pk row, s.choices[i]? = some c → c.purpose = .move pk → c.outdated = true →
      s.world.db.getAccount pk = some row → row.status ≠ .deleted → row.server ≠ c.server.id →
      s.world.db.HasRoom c.server.id
  | _ => True

/-- The places suffice, and what an open choice has seen is so until accounts are written. -/
structure Fits (s : Traffic) : Prop where
  ids : (s.world.db.servers.map Server.id).Nodup
  within : s.world.db.Within
  servers : ∀ c ∈ s.choices, c.server ∈ s.world.db.servers
  seen : ∀ c ∈ s.choices, c.outdated = false → s.world.db.HasRoom c.server.id

/-- A creation with nothing between its two parts is one run of `create_account`. -/
theorem run_createAccount {env : Env} {args : CreateArgs} {server : Server} {w : World}
    (h : w.db.pickBestServer env.ties args.server = some server) :
    (createAccount args).run (World.handler env) w =
      (atomic (createRest args server)).run (World.handler env) w := by
  have hpick : (pickBestServer args.server).run (World.handler env)
      { w with saved := w.db :: w.saved } = (.ok server, { w with saved := w.db :: w.saved }) := by
    rw [run_handler, run_pickBestServer]
    dsimp only
    rw [h]
  unfold createAccount atomic
  simp only [Prog.perform_bind, Prog.run_call, World.handler, createBody_eq, run_bind,
    Prog.run_handle, hpick]

/-- An operation without a transaction goes call by call. -/
theorem run_calls {α : Type} {p : PanelProg α} (hp : p.AllCalls Call.Alone) (env : Env) (w : World)
    (cs : List OpenChoice) : ∃ ls cs', Run Step ⟨w, cs⟩ ls ⟨(p.run (World.handler env) w).2, cs'⟩ ∧
      cs'.map OpenChoice.age = cs.map OpenChoice.age := by
  induction p generalizing w cs with
  | ret a => exact ⟨[], cs, .refl _, rfl⟩
  | raise e => exact ⟨[], cs, .refl _, rfl⟩
  | call c k ih =>
    obtain ⟨halone, hk⟩ := hp
    obtain ⟨ls, cs', hrun, hcs⟩ := ih (World.handler env c w).1 (hk _) (World.handler env c w).2
      (cs.map (OpenChoice.after c))
    refine ⟨.call c env :: ls, cs', .step (.call halone) hrun, hcs.trans ?_⟩
    rw [List.map_map]
    exact List.map_congr_left fun o _ => OpenChoice.age_after c o

/-- So does an account of `rebalance_users`, between its look and its save. -/
theorem run_rebalanceUser (env : Env) (down : Server) (acc : Account) (s : World × List Deed)
    (cs : List OpenChoice) : ∃ ls cs',
      Run Step ⟨s.1, cs⟩ ls ⟨(rebalanceUser env down acc s).2.1, cs'⟩ ∧
        cs'.map OpenChoice.age = cs.map OpenChoice.age := by
  cases hp : s.1.db.pickBestServer env.ties none with
  | none =>
    have hnone : (pickBestServer none).run (World.recorded env) s = (.error noServers, s) := by
      rw [run_pickBestServer, hp]
    rw [rebalanceUser, rebalanceOn, run_bind, hnone]
    exact ⟨[], cs, .refl _, rfl⟩
  | some target =>
    obtain ⟨hmem, hroom⟩ := Db.pickBestServer_available hp (by simp)
    have halone : (rebalanceTo target acc env.password).AllCalls Call.Alone := by
      refine (calls_rebalanceTo target acc env.password).mono ?_
      intro c hc
      cases c <;> trivial
    obtain ⟨ls, cs₁, hrun, hcs₁⟩ := run_calls halone env s.1 (⟨.move acc.id, target, false⟩ :: cs)
    obtain ⟨⟨purpose, server, outdated⟩, cs', rfl, hage, hcs⟩ := List.map_eq_cons_iff.mp hcs₁
    obtain ⟨hpurpose, hserver, -⟩ := OpenChoice.mk.inj hage
    dsimp only at hpurpose hserver
    rw [hpurpose, hserver] at hrun
    have hlook : Step ⟨s.1, cs⟩ (.choose (.move acc.id) target)
        ⟨s.1, ⟨.move acc.id, target, false⟩ :: cs⟩ := .choose hmem hroom
    have hopen := Run.step hlook hrun
    have hrec : ((rebalanceTo target acc env.password).run (World.recorded env) s).2.1 =
        ((rebalanceTo target acc env.password).run (World.handler env) s.1).2 :=
      congrArg Prod.snd (Prog.run_recording (rebalanceTo target acc env.password) s.1 s.2)
    rw [← hrec] at hopen
    rw [rebalanceUser, run_rebalanceOn env acc hp, run_bind]
    rcases hr : (rebalanceTo target acc env.password).run (World.recorded env) s with ⟨e | x, t⟩
    · rw [hr] at hopen
      exact ⟨_, cs', hopen.snoc (.giveUp (i := 0)), hcs⟩
    · rw [hr] at hopen
      dsimp only
      rw [Prog.pure_eq, Prog.run_ret]
      dsimp only
      cases hmove : t.1.db.accounts.move acc.id target.id with
      | none => exact ⟨_, cs', hopen.snoc (.giveUp (i := 0)), hcs⟩
      | some accounts =>
        have haudit : ∀ u cs entry, Step ⟨u, cs⟩ (.call (.insertAuditLog entry) env) _ :=
          fun _ _ _ => .call trivial
        refine ⟨_, _, (hopen.snoc (.move (i := 0) rfl hmove)).snoc (haudit _ _ _), ?_⟩
        refine Eq.trans ?_ hcs
        simp only [List.map_map]
        exact List.map_congr_left fun o _ => rfl

/-- After a write of the accounts every open choice is outdated. -/
theorem Fits.of_aged {w w' : World} {cs cs' : List OpenChoice} (hs : Fits ⟨w, cs⟩)
    (hservers : w'.db.servers = w.db.servers) (hw : w'.db.Within) (hcs : ∀ c ∈ cs', c ∈ cs) :
    Fits ⟨w', cs'.map OpenChoice.age⟩ := by
  refine ⟨?_, hw, ?_, ?_⟩
  · rw [hservers]
    exact hs.ids
  · intro c hc
    obtain ⟨c', hc', rfl⟩ := List.mem_map.mp hc
    rw [hservers]
    exact hs.servers c' (hcs c' hc')
  · intro c hc hold
    obtain ⟨c', -, rfl⟩ := List.mem_map.mp hc
    cases hold

/-- Where the accounts stay, so does what has been seen. -/
theorem Fits.of_same {w w' : World} {cs cs' : List OpenChoice} (hs : Fits ⟨w, cs⟩)
    (hservers : w'.db.servers = w.db.servers) (haccounts : w'.db.accounts = w.db.accounts)
    (hcs : ∀ c ∈ cs', c ∈ cs) : Fits ⟨w', cs'⟩ := by
  have hcount : ∀ pk, w'.db.currentUserCount pk = w.db.currentUserCount pk := by
    intro pk
    rw [currentUserCount_eq, haccounts]
    rfl
  refine ⟨?_, ?_, ?_, ?_⟩
  · rw [hservers]
    exact hs.ids
  · intro srv hsrv
    rw [hservers] at hsrv
    rw [hcount]
    exact hs.within srv hsrv
  · intro c hc
    rw [hservers]
    exact hs.servers c (hcs c hc)
  · intro c hc hold srv hsrv hid
    rw [hservers] at hsrv
    rw [hcount]
    exact hs.seen c (hcs c hc) hold srv hsrv hid

/-- A choice that is not outdated still finds its place. -/
theorem Fits.room {w : World} {cs : List OpenChoice} {i : Nat} {c : OpenChoice} (hs : Fits ⟨w, cs⟩)
    (hc : cs[i]? = some c) (hold : c.outdated = true → w.db.HasRoom c.server.id) :
    w.db.HasRoom c.server.id := by
  cases h : c.outdated with
  | false => exact hs.seen c (List.mem_of_getElem? hc) h
  | true => exact hold h

theorem handler_alone (env : Env) {c : Call} (halone : c.Alone)
    (hsave : ¬ ∃ obj fields, c = .saveAccount obj fields) (w : World) :
    (World.handler env c w).2.db.servers = w.db.servers ∧
      (World.handler env c w).2.db.accounts = w.db.accounts := by
  cases c with
  | insertAccount account => exact halone.elim
  | begin => exact halone.elim
  | commit => exact halone.elim
  | rollback => exact halone.elim
  | saveAccount obj fields => exact (hsave ⟨obj, fields, rfl⟩).elim
  | insertAuditLog entry => exact ⟨rfl, rfl⟩
  | _ =>
    exact ⟨congrArg Db.servers (World.handler_quiet env (by trivial) w).1,
      congrArg Db.accounts (World.handler_quiet env (by trivial) w).1⟩

theorem within_save {w : World} {obj : Account} {fields : List AccountField} (hw : w.db.Within)
    (hroom : ∀ row, w.db.getAccount obj.id = some row → row.status = .deleted → .status ∈ fields →
      obj.status ≠ .deleted → w.db.HasRoom row.server) :
    (w.setAccounts (w.db.accounts.save obj fields)).db.Within := by
  by_cases hrev : ∃ row ∈ w.db.accounts, row.id = obj.id ∧ row.status = .deleted ∧
      .status ∈ fields ∧ obj.status ≠ .deleted
  · obtain ⟨row, hrow, hid, hd, hf, ho⟩ := hrev
    have hget : w.db.getAccount obj.id = some row := hid ▸ Db.getAccount_of_mem hrow
    refine hw.of_count row.server rfl (hroom row hget hd hf ho) ?_
    intro k
    have hwrite : (w.db.write obj fields none).currentUserCount k ≤ _ :=
      currentUserCount_write hrow hid.symm k
    refine Nat.le_trans hwrite ?_
    by_cases hk : row.server = k
    · simp only [hk, if_true]
      split <;> omega
    · simp [hk]
  · refine hw.of_le rfl ?_
    intro k
    refine countP_map_le ?_
    intro r hr hc
    split at hc
    · next hid =>
      rcases Account.countsFor_write hc with ⟨-, hd, hf, ho⟩ | hbefore
      · exact (hrev ⟨r, hr, hid, hd, hf, ho⟩).elim
      · exact hbefore
    · exact hc

theorem within_move {w : World} {cs : List OpenChoice} {i pk : Nat} {c : OpenChoice}
    {accounts : AccountTable} (hs : Fits ⟨w, cs⟩) (hc : cs[i]? = some c)
    (hmove : w.db.accounts.move pk c.server.id = some accounts)
    (hroom : ∀ row, c.outdated = true → w.db.getAccount pk = some row → row.status ≠ .deleted →
      row.server ≠ c.server.id → w.db.HasRoom c.server.id) :
    (w.setAccounts accounts).db.Within := by
  by_cases hcounts : ∃ row ∈ w.db.accounts, row.id = pk ∧ row.status ≠ .deleted ∧
      row.server ≠ c.server.id
  · obtain ⟨row, hrow, rfl, hlive, hserver⟩ := hcounts
    have hfree := hs.room hc fun hold =>
      hroom row hold (Db.getAccount_of_mem hrow) hlive hserver
    exact hs.within.of_count c.server.id rfl hfree (currentUserCount_move hmove _)
  · refine hs.within.of_le rfl (currentUserCount_move_of_uncounted hmove ?_)
    intro r hr hid
    by_contra hno
    obtain ⟨hlive, hserver⟩ := not_or.mp hno
    exact hcounts ⟨r, hr, hid, hlive, hserver⟩

theorem fits_step {s t : Traffic} {l : TrafficLabel} (h : Step s l t) (hl : InTime s l) (hs : s.Fits) :
    t.Fits := by
  cases h with
  | @op w cs x => exact hs.of_aged (w.act_wrote x).servers (act_within x hs.ids hl hs.within) fun _ => id
  | @call w cs c env halone =>
    by_cases hsave : ∃ obj fields, c = .saveAccount obj fields
    · obtain ⟨obj, fields, rfl⟩ := hsave
      exact hs.of_aged rfl (within_save hs.within hl) fun _ => id
    · obtain ⟨hservers, haccounts⟩ := handler_alone env halone hsave w
      rw [OpenChoice.after_eq_id hsave, List.map_id]
      exact hs.of_same hservers haccounts fun _ => id
  | @choose w cs purpose server hmem hroom =>
    refine ⟨hs.ids, hs.within, ?_, ?_⟩
    · intro c hc
      rcases List.mem_cons.mp hc with rfl | hc
      · exact hmem
      · exact hs.servers c hc
    · intro c hc hold
      rcases List.mem_cons.mp hc with rfl | hc
      · exact Db.hasRoom_of_available hs.ids hmem hroom
      · exact hs.seen c hc hold
  | @commit w w' cs i args server outdated env account hc hrun =>
    have hcreated : Created w.db server w'.db := by
      have hspec := tables_commitRest env args server w.db w fun _ => rfl
      rw [hrun] at hspec
      exact hspec fun _ _ => rfl
    have hroom : w.db.HasRoom server.id := hs.room hc (hl _ hc)
    obtain ⟨row, accounts, entry, hserver, -, hinsert, -, -, hdb⟩ := hcreated
    refine hs.of_aged ?_ ?_ fun _ => List.mem_of_mem_eraseIdx
    · rw [hdb]
    · rw [hdb]
      refine hs.within.of_count server.id rfl hroom ?_
      intro k
      rw [← hserver]
      exact currentUserCount_insert hinsert _ k
  | @rollback w w' cs i args server outdated env e hc hrun =>
    have hdb : w'.db = w.db := by
      have hspec := tables_commitRest env args server w.db w fun _ => rfl
      rw [hrun] at hspec
      exact hspec fun _ _ => rfl
    exact hs.of_same (congrArg Db.servers hdb) (congrArg Db.accounts hdb) fun _ =>
      List.mem_of_mem_eraseIdx
  | @move w cs i pk server outdated accounts hc hmove =>
    refine hs.of_aged rfl (within_move hs hc hmove ?_) fun _ => List.mem_of_mem_eraseIdx
    intro row hold hrow
    exact hl _ pk row hc rfl hold hrow
  | @giveUp w cs i => exact hs.of_same rfl rfl fun _ => List.mem_of_mem_eraseIdx

def smallServer : Server := { sampleServer with maxUsers := 1 }

def smallWorld : World := { sampleWorld with db := { sampleWorld.db with servers := [smallServer] } }

def aliceArgs : CreateArgs := .plain "alice".toList samplePlan
def bobArgs : CreateArgs := .plain "bob".toList samplePlan
def bobEnv : Env := { sampleEnv 0 with tokens := ("access2".toList, "auth2".toList) }

/-- The world after a creation. -/
def smallCommitted (args : CreateArgs) (env : Env) (w : World) : World :=
  ((atomic (createRest args smallServer)).run (World.handler env) w).2

/-- Both have looked at the one place before either commits. -/
def bothCreated : World :=
  smallCommitted bobArgs bobEnv (smallCommitted aliceArgs (sampleEnv 0) smallWorld)

theorem small_commit {args : CreateArgs} {env : Env} {w : World} {cs cs' : List OpenChoice} {i : Nat}
    {outdated : Bool} (hc : cs[i]? = some ⟨.create args, smallServer, outdated⟩)
    (hcs : (cs.eraseIdx i).map OpenChoice.age = cs')
    (hok : ((atomic (createRest args smallServer)).run (World.handler env) w).1.isOk = true) :
    Step ⟨w, cs⟩ (.commit i env) ⟨smallCommitted args env w, cs'⟩ := by
  rw [← hcs]
  rcases hr : (atomic (createRest args smallServer)).run (World.handler env) w with ⟨e | account, w'⟩
  · rw [hr] at hok
    cases hok
  · rw [smallCommitted, hr]
    exact .commit hc hr

theorem small_within : smallWorld.db.Within := by
  intro srv hsrv
  rw [List.mem_singleton.mp hsrv]
  exact Nat.zero_le _

theorem small_choose (purpose : Purpose) (cs : List OpenChoice) : Step ⟨smallWorld, cs⟩
    (.choose purpose smallServer) ⟨smallWorld, ⟨purpose, smallServer, false⟩ :: cs⟩ :=
  .choose (by decide) (by decide)

theorem alice_commits : ((atomic (createRest aliceArgs smallServer)).run
    (World.handler (sampleEnv 0)) smallWorld).1.isOk = true := by
  decide +kernel

theorem bothCreated_run : ∃ ls, Run Step ⟨smallWorld, []⟩ ls ⟨bothCreated, []⟩ := by
  have hbob : ((atomic (createRest bobArgs smallServer)).run (World.handler bobEnv)
      (smallCommitted aliceArgs (sampleEnv 0) smallWorld)).1.isOk = true := by
    decide +kernel
  have hfirst : Step ⟨smallWorld, [⟨.create bobArgs, smallServer, false⟩,
      ⟨.create aliceArgs, smallServer, false⟩]⟩ (.commit 1 (sampleEnv 0))
      ⟨smallCommitted aliceArgs (sampleEnv 0) smallWorld, [⟨.create bobArgs, smallServer, true⟩]⟩ :=
    small_commit rfl rfl alice_commits
  have hsecond : Step ⟨smallCommitted aliceArgs (sampleEnv 0) smallWorld,
      [⟨.create bobArgs, smallServer, true⟩]⟩ (.commit 0 bobEnv) ⟨bothCreated, []⟩ :=
    small_commit rfl rfl hbob
  exact ⟨_, .step (small_choose (.create aliceArgs) []) (.step (small_choose (.create bobArgs) _)
    (.step hfirst (.step hsecond (.refl _))))⟩

end Traffic

end SshPanelVpn.Panel

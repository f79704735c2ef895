import Mathlib.Data.List.Induction
import SshPanelVpn.Panel.FailedChanges
import SshPanelVpn.Panel.Sessions

/-! Which sessions `sync_active_sessions` kills. -/
namespace SshPanelVpn.Panel

open Effects Ranks
open Effects.Prog (run_bind)

/-- The sessions of users with an account, by user. -/
def groupSessions (accounts : List Account) (sessions : List Session) : List (Str × List Session) :=
  sessions.foldl
    (fun groups s => if (accMap accounts s.user).isSome then addSession s groups else groups) []

/-- The sessions of a user. -/
def own (u : Str) (sessions : List Session) : List Session := sessions.filter fun s => s.user = u

/-- The world after the limits have been enforced on a list of sessions. -/
def SessionWorld.enforced (env : SessionEnv) (srv : Server) (db : Db) (rows : List ActiveSession)
    (sessions : List Session) : SessionWorld :=
  let accounts := SessionWorld.selectActive db srv.id (sessions.map Session.user)
  ((enforceLimits srv accounts (groupSessions accounts sessions)).run (SessionWorld.handler env)
    ⟨db, rows, []⟩).2

/-- The process is killed. -/
def Kills (env : SessionEnv) (srv : Server) (db : Db) (rows : List ActiveSession)
    (sessions : List Session) (pid : Nat) : Prop :=
  (srv.id, decimal pid) ∈ (SessionWorld.enforced env srv db rows sessions).killed

instance killsDecidable (env : SessionEnv) (srv : Server) (db : Db) (rows : List ActiveSession)
    (sessions : List Session) : DecidablePred (Kills env srv db rows sessions) :=
  fun _ => inferInstanceAs (Decidable (_ ∈ _))

/-! Grouping. -/

section Groups

variable {accounts : List Account} {sessions : List Session} {s : Session} {u : Str}
  {l : List Session} {groups : List (Str × List Session)}

/-- Each user that has an account and a session has one group, of all its sessions. -/
structure Grouped (accounts : List Account) (sessions : List Session)
    (groups : List (Str × List Session)) : Prop where
  users : (groups.map Prod.fst).Nodup
  mem : ∀ u l, (u, l) ∈ groups ↔ (accMap accounts u).isSome ∧ l = own u sessions ∧ l ≠ []

theorem mem_users_addSession : u ∈ (addSession s groups).map Prod.fst ↔
    u = s.user ∨ u ∈ groups.map Prod.fst := by
  induction groups with
  | nil => simp [addSession]
  | cons g groups ih =>
    obtain ⟨v, l⟩ := g
    unfold addSession
    by_cases hv : v = s.user
    · simp [hv]
    · simp only [if_neg hv, List.map_cons, List.mem_cons, ih]
      tauto

theorem nodup_addSession (h : (groups.map Prod.fst).Nodup) :
    ((addSession s groups).map Prod.fst).Nodup := by
  induction groups with
  | nil => simp [addSession]
  | cons g groups ih =>
    obtain ⟨v, l⟩ := g
    obtain ⟨hv, hrest⟩ := List.nodup_cons.mp h
    unfold addSession
    by_cases hvs : v = s.user
    · simpa [hvs] using h
    · rw [if_neg hvs, List.map_cons, List.nodup_cons]
      refine ⟨?_, ih hrest⟩
      rw [mem_users_addSession]
      rintro (rfl | hm)
      · exact hvs rfl
      · exact hv hm

/-- The group of the session's user is longer by it, the others stay. -/
theorem mem_addSession (h : (groups.map Prod.fst).Nodup) : (u, l) ∈ addSession s groups ↔
    if u = s.user then (∃ l', (u, l') ∈ groups ∧ l = l' ++ [s]) ∨
      (u ∉ groups.map Prod.fst ∧ l = [s])
    else (u, l) ∈ groups := by
  induction groups with
  | nil => by_cases hu : u = s.user <;> simp [addSession, hu]
  | cons g groups ih =>
    obtain ⟨v, k⟩ := g
    obtain ⟨hv, hrest⟩ := List.nodup_cons.mp h
    have hfresh : ∀ k', (v, k') ∉ groups := fun k' hk' => hv (List.mem_map.mpr ⟨_, hk', rfl⟩)
    unfold addSession
    by_cases hvs : v = s.user
    · subst hvs
      by_cases hu : u = s.user
      · subst hu
        simp [hfresh]
      · simp [hu]
    · rw [if_neg hvs, List.mem_cons, ih hrest]
      by_cases hu : u = s.user
      · subst hu
        have hne : s.user ≠ v := fun he => hvs he.symm
        simp [hne]
      · simp [hu]

theorem grouped_snoc (h : Grouped accounts sessions groups) (s : Session) :
    Grouped accounts (sessions ++ [s])
      (if (accMap accounts s.user).isSome then addSession s groups else groups) := by
  have hown : ∀ u, own u (sessions ++ [s]) =
      if u = s.user then own u sessions ++ [s] else own u sessions := by
    intro u
    by_cases hu : u = s.user
    · simp [own, hu]
    · have hne : s.user ≠ u := fun he => hu he.symm
      simp [own, hu, hne]
  split
  · next hacc =>
    refine ⟨nodup_addSession h.users, ?_⟩
    intro u l
    rw [mem_addSession h.users, hown]
    by_cases hu : u = s.user
    · subst hu
      simp only [if_true, hacc, true_and]
      constructor
      · rintro (⟨l', hl', rfl⟩ | ⟨hnot, rfl⟩)
        · obtain ⟨-, rfl, -⟩ := (h.mem _ _).mp hl'
          exact ⟨rfl, by simp⟩
        · have hempty : own s.user sessions = [] := by
            by_contra hne
            exact hnot (List.mem_map.mpr ⟨_, (h.mem _ _).mpr ⟨hacc, rfl, hne⟩, rfl⟩)
          rw [hempty]
          exact ⟨rfl, by simp⟩
      · rintro ⟨rfl, -⟩
        by_cases hempty : own s.user sessions = []
        · right
          rw [hempty]
          refine ⟨?_, rfl⟩
          intro hm
          obtain ⟨⟨v, l⟩, hl, rfl⟩ := List.mem_map.mp hm
          obtain ⟨-, hl', hne⟩ := (h.mem _ _).mp hl
          exact hne (hl'.trans hempty)
        · exact .inl ⟨_, (h.mem _ _).mpr ⟨hacc, rfl, hempty⟩, rfl⟩
    · simp only [hu, if_false]
      exact h.mem u l
  · next hacc =>
    refine ⟨h.users, ?_⟩
    intro u l
    rw [h.mem u l, hown]
    by_cases hu : u = s.user
    · subst hu
      simp [hacc]
    · simp [hu]

theorem grouped_groupSessions (accounts : List Account) (sessions : List Session) :
    Grouped accounts sessions (groupSessions accounts sessions) := by
  induction sessions using List.reverseRecOn with
  | nil =>
    refine ⟨by simp [groupSessions], ?_⟩
    intro u l
    simp only [groupSessions, List.foldl_nil, List.not_mem_nil, own, List.filter_nil, false_iff]
    rintro ⟨-, rfl, hne⟩
    exact hne rfl
  | append_singleton sessions s ih =>
    rw [groupSessions, List.foldl_append]
    exact grouped_snoc ih s

end Groups

/-! Killing. -/

section Killing

variable {env : SessionEnv} {srv : Server} {db : Db} {accounts : List Account} {w : SessionWorld}
  {groups : List (Str × List Session)} {rows : List ActiveSession} {sessions : List Session}
  {acc : Account} {u : Str} {names : List Str}

/-- `acc_map` holds the ACTIVE accounts of the server that have been asked for. -/
theorem accMap_selectActive {server : Nat} :
    accMap (SessionWorld.selectActive db server names) u = some acc ↔
      acc ∈ db.accounts ∧ acc.server = server ∧ acc.username ∈ names ∧ acc.status = .active ∧
        acc.username = u := by
  have hmem : ∀ a, a ∈ (SessionWorld.selectActive db server names).filter (fun a => a.username = u) ↔
      a ∈ db.accounts ∧ a.server = server ∧ a.username ∈ names ∧ a.status = .active ∧
        a.username = u := by
    intro a
    simp only [SessionWorld.selectActive, List.mem_filter, decide_eq_true_eq, AccountTable.mem_rows,
      and_assoc]
  unfold accMap
  constructor
  · intro h
    exact (hmem acc).mp (List.mem_of_getLast? h)
  · intro h
    have hin := (hmem acc).mpr h
    cases hlast : ((SessionWorld.selectActive db server names).filter
        fun a => a.username = u).getLast? with
    | none =>
      rw [List.getLast?_eq_none_iff] at hlast
      rw [hlast] at hin
      cases hin
    | some a =>
      obtain ⟨ha, hserver, -, -, hname⟩ := (hmem a).mp (List.mem_of_getLast? hlast)
      have heq : a = acc := AccountTable.eq_of_name ha h.1 (hname.trans h.2.2.2.2.symm)
        (hserver.trans h.2.1.symm)
      rw [heq]

/-- Every group that is over its limit is cut down to it, and nothing else is done. -/
theorem run_enforceLimits (env : SessionEnv) (srv : Server) (accounts : List Account)
    (groups : List (Str × List Session)) (w : SessionWorld) : ∃ killed,
    (enforceLimits srv accounts groups).run (SessionWorld.handler env) w =
      (.ok (), { w with killed := killed }) ∧
    ∀ x, x ∈ killed ↔ x ∈ w.killed ∨ ∃ u l acc, (u, l) ∈ groups ∧ accMap accounts u = some acc ∧
      ∃ s ∈ excess acc l, x = (srv.id, decimal s.pid) := by
  induction groups generalizing w with
  | nil => exact ⟨w.killed, rfl, by simp⟩
  | cons g groups ih =>
    obtain ⟨v, k⟩ := g
    unfold enforceLimits
    have hcons : ∀ x : Nat × Str, (∃ u l acc, (u, l) ∈ (v, k) :: groups ∧ accMap accounts u = some acc ∧
        ∃ s ∈ excess acc l, x = (srv.id, decimal s.pid)) ↔
          (∃ acc, accMap accounts v = some acc ∧ ∃ s ∈ excess acc k, x = (srv.id, decimal s.pid)) ∨
          ∃ u l acc, (u, l) ∈ groups ∧ accMap accounts u = some acc ∧
            ∃ s ∈ excess acc l, x = (srv.id, decimal s.pid) := by
      intro x
      constructor
      · rintro ⟨u, l, acc, hg, hacc, hx⟩
        rcases List.mem_cons.mp hg with heq | hg
        · obtain ⟨rfl, rfl⟩ := Prod.mk.inj heq
          exact .inl ⟨acc, hacc, hx⟩
        · exact .inr ⟨u, l, acc, hg, hacc, hx⟩
      · rintro (⟨acc, hacc, hx⟩ | ⟨u, l, acc, hg, hacc, hx⟩)
        · exact ⟨v, k, acc, List.mem_cons_self, hacc, hx⟩
        · exact ⟨u, l, acc, List.mem_cons_of_mem _ hg, hacc, hx⟩
    cases hacc : accMap accounts v with
    | none =>
      obtain ⟨killed, hrun, hmem⟩ := ih w
      refine ⟨killed, hrun, ?_⟩
      intro x
      rw [hmem x, hcons x]
      simp [hacc]
    | some acc =>
      by_cases hover : acc.maxConnections < k.length
      · obtain ⟨killed, hrun, hmem⟩ := ih { w with killed :=
          ((excess acc k).map fun s => decimal s.pid).map (fun pid => (srv.id, pid)) ++ w.killed }
        refine ⟨killed, ?_, ?_⟩
        · simp only [if_pos hover]
          exact hrun
        · intro x
          rw [hmem x, hcons x]
          simp only [hacc, Option.some.injEq, exists_eq_left', List.mem_append, List.mem_map,
            exists_exists_and_eq_and]
          constructor
          · rintro ((⟨s, hs, rfl⟩ | hx) | hx)
            · exact .inr (.inl ⟨s, hs, rfl⟩)
            · exact .inl hx
            · exact .inr (.inr hx)
          · rintro (hx | ⟨s, hs, rfl⟩ | hx)
            · exact .inl (.inr hx)
            · exact .inl (.inl ⟨s, hs, rfl⟩)
            · exact .inr hx
      · obtain ⟨killed, hrun, hmem⟩ := ih w
        refine ⟨killed, ?_, ?_⟩
        · simp only [if_neg hover]
          exact hrun
        · intro x
          have hnone : excess acc k = [] := by
            rw [excess, List.drop_eq_nil_iff, (sorted_perm Session.pid k).length_eq]
            exact Nat.not_lt.mp hover
          rw [hmem x, hcons x]
          simp [hacc, hnone]

/-- Killed are the later sessions of the ACTIVE accounts of the server. -/
theorem run_enforceLimits_groups (env : SessionEnv) (srv : Server) (sessions : List Session)
    (w : SessionWorld) : ∃ killed,
    (enforceLimits srv (SessionWorld.selectActive w.db srv.id (sessions.map Session.user))
      (groupSessions (SessionWorld.selectActive w.db srv.id (sessions.map Session.user)) sessions)).run
        (SessionWorld.handler env) w = (.ok (), { w with killed := killed }) ∧
    ∀ x, x ∈ killed ↔ x ∈ w.killed ∨ ∃ acc ∈ w.db.accounts, acc.server = srv.id ∧
      acc.status = .active ∧ ∃ s ∈ excess acc (own acc.username sessions),
        x = (srv.id, decimal s.pid) := by
  obtain ⟨killed, hrun, hmem⟩ := run_enforceLimits env srv
    (SessionWorld.selectActive w.db srv.id (sessions.map Session.user))
    (groupSessions (SessionWorld.selectActive w.db srv.id (sessions.map Session.user)) sessions) w
  have hgroups := grouped_groupSessions
    (SessionWorld.selectActive w.db srv.id (sessions.map Session.user)) sessions
  refine ⟨killed, hrun, ?_⟩
  intro x
  rw [hmem x]
  apply or_congr_right
  constructor
  · rintro ⟨u, l, acc, hg, hacc, s, hs, rfl⟩
    obtain ⟨-, rfl, -⟩ := (hgroups.mem u l).mp hg
    obtain ⟨hin, hserver, -, hactive, rfl⟩ := accMap_selectActive.mp hacc
    exact ⟨acc, hin, hserver, hactive, s, hs, rfl⟩
  · rintro ⟨acc, hin, hserver, hactive, s, hs, rfl⟩
    have hown : s ∈ own acc.username sessions :=
      (sorted_perm Session.pid _).mem_iff.mp (List.mem_of_mem_drop hs)
    obtain ⟨hmem, huser⟩ := List.mem_filter.mp hown
    have hacc : accMap (SessionWorld.selectActive w.db srv.id (sessions.map Session.user))
        acc.username = some acc :=
      accMap_selectActive.mpr ⟨hin, hserver,
        List.mem_map.mpr ⟨s, hmem, of_decide_eq_true huser⟩, hactive, rfl⟩
    refine ⟨acc.username, own acc.username sessions, acc, ?_, hacc, s, hs, rfl⟩
    exact (hgroups.mem _ _).mpr ⟨by rw [hacc]; rfl, rfl, List.ne_nil_of_mem hown⟩

/-- A process is killed for being one of the later sessions of an ACTIVE account of the server. -/
theorem kills_iff {pid : Nat} : Kills env srv db rows sessions pid ↔
    ∃ acc ∈ db.accounts, acc.server = srv.id ∧ acc.status = .active ∧
      ∃ s ∈ excess acc (own acc.username sessions), s.pid = pid := by
  obtain ⟨killed, hrun, hmem⟩ := run_enforceLimits_groups env srv sessions ⟨db, rows, []⟩
  have hkilled : (SessionWorld.enforced env srv db rows sessions).killed = killed := by
    simp only [SessionWorld.enforced, hrun]
  rw [Kills, hkilled, hmem]
  simp only [List.not_mem_nil, false_or]
  constructor
  · rintro ⟨acc, hin, hserver, hactive, s, hs, heq⟩
    exact ⟨acc, hin, hserver, hactive, s, hs, (decimal_inj (Prod.mk.inj heq).2).symm⟩
  · rintro ⟨acc, hin, hserver, hactive, s, hs, rfl⟩
    exact ⟨acc, hin, hserver, hactive, s, hs, rfl⟩

theorem nodup_own (h : (sessions.map Session.pid).Nodup) (u : Str) :
    ((own u sessions).map Session.pid).Nodup := h.sublist (List.filter_sublist.map _)

theorem eq_of_pid (h : (sessions.map Session.pid).Nodup) {s t : Session} (hs : s ∈ sessions)
    (ht : t ∈ sessions) (hp : s.pid = t.pid) : s = t := List.inj_on_of_nodup_map h hs ht hp

/-- A session that is killed is one of the later ones of its own account. -/
theorem excess_of_kills (h : (sessions.map Session.pid).Nodup) (hin : acc ∈ db.accounts)
    (hserver : acc.server = srv.id) {s : Session} (hs : s ∈ own acc.username sessions)
    (hk : Kills env srv db rows sessions s.pid) :
    acc.status = .active ∧ s ∈ excess acc (own acc.username sessions) := by
  obtain ⟨acc', hin', hserver', hactive', t, ht, hp⟩ := kills_iff.mp hk
  have htown := ((mem_drop_sorted (nodup_own h _)).mp ht).1
  obtain rfl : t = s := eq_of_pid h (List.mem_filter.mp htown).1 (List.mem_filter.mp hs).1 hp
  have hname : acc'.username = acc.username :=
    (of_decide_eq_true (List.mem_filter.mp htown).2).symm.trans
      (of_decide_eq_true (List.mem_filter.mp hs).2)
  obtain rfl : acc' = acc := AccountTable.eq_of_name hin' hin hname (hserver'.trans hserver.symm)
  exact ⟨hactive', ht⟩

/-- Of the sessions of an account those are killed that at least its limit of them come before. -/
theorem kills_own_iff (h : (sessions.map Session.pid).Nodup) (hin : acc ∈ db.accounts)
    (hserver : acc.server = srv.id) (hactive : acc.status = .active) {s : Session}
    (hs : s ∈ own acc.username sessions) : Kills env srv db rows sessions s.pid ↔
      acc.maxConnections ≤ rank Session.pid (own acc.username sessions) s := by
  constructor
  · intro hk
    exact ((mem_drop_sorted (nodup_own h _)).mp (excess_of_kills h hin hserver hs hk).2).2
  · intro hrank
    exact kills_iff.mpr
      ⟨acc, hin, hserver, hactive, s, (mem_drop_sorted (nodup_own h _)).mpr ⟨hs, hrank⟩, rfl⟩

/-- How many of them that are. -/
theorem countP_kills (h : (sessions.map Session.pid).Nodup) (hin : acc ∈ db.accounts)
    (hserver : acc.server = srv.id) (hactive : acc.status = .active) :
    ((own acc.username sessions).countP fun s => Kills env srv db rows sessions s.pid) =
      (own acc.username sessions).length - acc.maxConnections := by
  rw [← countP_rank (nodup_own h _)]
  apply List.countP_congr
  intro s hs
  rw [decide_eq_true_eq, decide_eq_true_eq]
  exact kills_own_iff h hin hserver hactive hs

/-- What is killed: of each ACTIVE account of the server exactly the sessions over its limit, the later
ones; nothing else; and whatever the order of the list. -/
theorem kills_exactly (env : SessionEnv) (srv : Server) (db : Db) (rows : List ActiveSession)
    (sessions : List Session) (h : (sessions.map Session.pid).Nodup) :
    (∀ acc ∈ db.accounts, acc.server = srv.id → acc.status = .active →
      ((own acc.username sessions).countP fun s => Kills env srv db rows sessions s.pid) =
        (own acc.username sessions).length - acc.maxConnections ∧
      ∀ s ∈ own acc.username sessions, ∀ t ∈ own acc.username sessions,
        ¬ Kills env srv db rows sessions s.pid → Kills env srv db rows sessions t.pid →
          s.pid < t.pid) ∧
    (∀ pid, Kills env srv db rows sessions pid → ∃ s ∈ sessions, s.pid = pid ∧
      ∃ acc ∈ db.accounts, acc.server = srv.id ∧ acc.status = .active ∧ acc.username = s.user ∧
        acc.maxConnections < (own acc.username sessions).length) ∧
    ∀ sessions', sessions.Perm sessions' → ∀ pid,
      Kills env srv db rows sessions' pid ↔ Kills env srv db rows sessions pid := by
  refine ⟨?_, ?_, ?_⟩
  · intro acc hin hserver hactive
    refine ⟨countP_kills h hin hserver hactive, ?_⟩
    intro s hs t ht hlives hdies
    rw [kills_own_iff h hin hserver hactive hs] at hlives
    rw [kills_own_iff h hin hserver hactive ht] at hdies
    by_contra hlt
    exact hlives (hdies.trans (rank_mono (Nat.not_lt.mp hlt)))
  · intro pid hk
    obtain ⟨acc, hin, hserver, hactive, s, hs, rfl⟩ := kills_iff.mp hk
    have hown := ((mem_drop_sorted (nodup_own h _)).mp hs).1
    obtain ⟨hmem, huser⟩ := List.mem_filter.mp hown
    refine ⟨s, hmem, rfl, acc, hin, hserver, hactive, (of_decide_eq_true huser).symm, ?_⟩
    by_contra hle
    have hnone : excess acc (own acc.username sessions) = [] := by
      rw [excess, List.drop_eq_nil_iff, (sorted_perm Session.pid _).length_eq]
      exact Nat.not_lt.mp hle
    rw [hnone] at hs
    cases hs
  · intro sessions' hperm pid
    have hnodup' : (sessions'.map Session.pid).Nodup := (hperm.map _).nodup_iff.mp h
    have hmem : ∀ acc : Account, ∀ s, s ∈ excess acc (own acc.username sessions') ↔
        s ∈ excess acc (own acc.username sessions) := by
      intro acc s
      have hown : (own acc.username sessions).Perm (own acc.username sessions') := hperm.filter _
      rw [excess, mem_drop_sorted (nodup_own hnodup' _), excess, mem_drop_sorted (nodup_own h _),
        hown.mem_iff, rank_perm hown]
    simp only [kills_iff, hmem]

end Killing

/-! A node without sockets, for the account of the sample world. -/

/-- The characters of an address. -/
def isLiteralIp (s : Str) : Bool :=
  s.all fun c => c.isDigit || c ∈ ['a', 'b', 'c', 'd', 'e', 'f', '.', ':']

def quietEnv : SessionEnv where
  connect := fun _ => .ok ()
  ps := fun _ => ⟨1, []⟩
  sockets := fun _ _ => []
  authLog := fun _ _ => ⟨1, []⟩
  accepts := isLiteralIp

def sampleSessions : List Session :=
  [⟨"alice".toList, 30, none⟩, ⟨"bob".toList, 20, none⟩, ⟨"alice".toList, 10, none⟩]

/-- One of two sessions is over the limit of one. -/
theorem kills_exactly_sample :
    ((own "alice".toList sampleSessions).countP fun s => Kills quietEnv sampleServer
      (NodeChange.sampleAccountWorld .ssh).db [] sampleSessions s.pid) = 1 :=
  ((kills_exactly quietEnv sampleServer (NodeChange.sampleAccountWorld .ssh).db [] sampleSessions
    (by decide)).1 (NodeChange.sampleAccount .ssh) (List.mem_singleton.mpr rfl) rfl rfl).1

end SshPanelVpn.Panel

import SshPanelVpn.Library.Runs
import SshPanelVpn.Panel.SessionLimits
import SshPanelVpn.Panel.TableSteps

/-! The rows that a run of `sync_active_sessions` leaves for the sessions of a server. -/
namespace SshPanelVpn.Panel

open Effects Runs

/-- The columns that are unique together. -/
def ActiveSession.key (row : ActiveSession) : Nat × Nat := (row.account, row.pid)

/-- The ACTIVE account of a name on a server. -/
def Db.activeNamed (db : Db) (server : Nat) (user : Str) : Option Account :=
  db.accounts.rows.find? fun a => a.server = server ∧ a.username = user ∧ a.status = .active

/-- A row for each session of an ACTIVE account. -/
def sessionRows (db : Db) (server : Nat) (sessions : List Session) : List ActiveSession :=
  sessions.filterMap fun s =>
    (db.activeNamed server s.user).map fun acc => ⟨acc.id, s.pid, s.clientIp⟩

/-- Each session of an ACTIVE account of the server has one row, there are no others, and what is over a
limit has been killed. -/
structure Synced (db : Db) (server : Nat) (sessions : List Session) (w : SessionWorld) : Prop where
  rows : ((w.sessions.filter (SessionWorld.isOn db server)).map ActiveSession.key).Perm
    ((sessionRows db server sessions).map ActiveSession.key)
  trimmed : ∀ acc ∈ db.accounts, acc.server = server → acc.status = .active →
    ∀ s ∈ excess acc (own acc.username sessions), (server, decimal s.pid) ∈ w.killed

/-- The column takes the address that the node shows for each process of an ACTIVE account, and no account
has a pid twice. -/
structure Recordable (env : SessionEnv) (db : Db) (server : Nat) (sessions : List Session) : Prop where
  addresses : ∀ p ∈ env.processes server, (db.activeNamed server p.2).isSome →
    ∀ ip ∈ env.sessionIp server p.1, env.accepts ip = true
  pids : ((sessionRows db server sessions).map ActiveSession.key).Nodup

/-! Recording. -/

section Recording

variable {env : SessionEnv} {db : Db} {server : Nat} {accounts : List Account}
  {sessions : List Session} {rows new : List ActiveSession} {w : SessionWorld}

/-- One row after another can be stored. -/
def Fits (env : SessionEnv) : List ActiveSession → List ActiveSession → Prop
  | _, [] => True
  | rows, row :: new => row.clientIp.all env.accepts = true ∧ row.key ∉ rows.map ActiveSession.key ∧
      Fits env (rows ++ [row]) new

theorem fits_iff : Fits env rows new ↔ (∀ row ∈ new, row.clientIp.all env.accepts = true) ∧
    (new.map ActiveSession.key).Nodup ∧ ∀ row ∈ new, row.key ∉ rows.map ActiveSession.key := by
  induction new generalizing rows with
  | nil => simp [Fits]
  | cons row new ih =>
    have hsnoc : (∀ r ∈ new, r.key ∉ (rows ++ [row]).map ActiveSession.key) ↔
        (∀ r ∈ new, r.key ∉ rows.map ActiveSession.key) ∧ row.key ∉ new.map ActiveSession.key := by
      simp only [List.map_append, List.map_cons, List.map_nil, List.mem_append, List.mem_singleton,
        not_or]
      constructor
      · intro h
        refine ⟨fun r hr => (h r hr).1, ?_⟩
        intro hm
        obtain ⟨r, hr, hkey⟩ := List.mem_map.mp hm
        exact (h r hr).2 hkey
      · rintro ⟨h, hrow⟩ r hr
        exact ⟨h r hr, fun hkey => hrow (List.mem_map.mpr ⟨r, hr, hkey⟩)⟩
    rw [Fits, ih, hsnoc, List.forall_mem_cons, List.forall_mem_cons, List.map_cons, List.nodup_cons]
    tauto

/-- The rows of the sessions, by `acc_map`. -/
def mappedRows (accounts : List Account) (sessions : List Session) : List ActiveSession :=
  sessions.filterMap fun s => (accMap accounts s.user).map fun acc => ⟨acc.id, s.pid, s.clientIp⟩

theorem any_key_iff {row : ActiveSession} :
    (rows.any fun r => r.account = row.account ∧ r.pid = row.pid) = true ↔
      row.key ∈ rows.map ActiveSession.key := by
  simp only [List.any_eq_true, decide_eq_true_eq, List.mem_map, ActiveSession.key, Prod.mk.injEq]

theorem createSession_ok {row : ActiveSession} (h : row.clientIp.all env.accepts = true)
    (hk : row.key ∉ w.sessions.map ActiveSession.key) :
    w.createSession env row = (.ok (), { w with sessions := w.sessions ++ [row] }) := by
  rw [SessionWorld.createSession, if_neg (by simp [h]), if_neg fun hany => hk (any_key_iff.mp hany)]

theorem createSession_error {row : ActiveSession} (h : ¬ (row.clientIp.all env.accepts = true ∧
    row.key ∉ w.sessions.map ActiveSession.key)) :
    ∃ e, w.createSession env row = (.error e, w) := by
  unfold SessionWorld.createSession
  split
  · exact ⟨_, rfl⟩
  · next haccepts =>
    split
    · exact ⟨_, rfl⟩
    · next hany =>
      refine (h ⟨by simpa using haccepts, ?_⟩).elim
      exact fun hk => hany (any_key_iff.mpr hk)

/-- Either all rows are stored, or only some of the first ones, and an exception ends it. -/
theorem run_recordSessions (env : SessionEnv) (accounts : List Account) (sessions : List Session)
    (groups : List (Str × List Session)) (w : SessionWorld) :
    (Fits env w.sessions (mappedRows accounts sessions) →
      (recordSessions accounts sessions groups).run (SessionWorld.handler env) w =
        (.ok (sessions.foldl (fun groups s =>
            if (accMap accounts s.user).isSome then addSession s groups else groups) groups),
          { w with sessions := w.sessions ++ mappedRows accounts sessions })) ∧
    (¬ Fits env w.sessions (mappedRows accounts sessions) → ∃ e stored,
      stored <+: mappedRows accounts sessions ∧
        stored.length < (mappedRows accounts sessions).length ∧
        (recordSessions accounts sessions groups).run (SessionWorld.handler env) w =
          (.error e, { w with sessions := w.sessions ++ stored })) := by
  induction sessions generalizing groups w with
  | nil => simp [recordSessions, mappedRows, Fits]
  | cons s sessions ih =>
    unfold recordSessions
    cases hacc : accMap accounts s.user with
    | none =>
      have hrows : mappedRows accounts (s :: sessions) = mappedRows accounts sessions := by
        simp [mappedRows, hacc]
      rw [hrows, List.foldl_cons, hacc]
      exact ih groups w
    | some acc =>
      obtain ⟨row, hrow⟩ : ∃ row : ActiveSession, row = ⟨acc.id, s.pid, s.clientIp⟩ := ⟨_, rfl⟩
      have hrows : mappedRows accounts (s :: sessions) = row :: mappedRows accounts sessions := by
        simp [mappedRows, hacc, hrow]
      have hrun : (do
          Prog.ofExcept (← request (.createSession acc s.pid s.clientIp))
          recordSessions accounts sessions (addSession s groups) :
            SessionProg (List (Str × List Session))).run (SessionWorld.handler env) w =
          (do
            Prog.ofExcept (w.createSession env row).1
            recordSessions accounts sessions (addSession s groups) :
              SessionProg (List (Str × List Session))).run (SessionWorld.handler env)
                (w.createSession env row).2 := by
        rw [hrow]
        rfl
      simp only [hrun]
      rw [hrows, List.foldl_cons, hacc, Fits]
      by_cases hfits : row.clientIp.all env.accepts = true ∧
          row.key ∉ w.sessions.map ActiveSession.key
      · rw [createSession_ok hfits.1 hfits.2]
        obtain ⟨hok, herror⟩ := ih (addSession s groups) { w with sessions := w.sessions ++ [row] }
        simp only [List.append_assoc, List.singleton_append] at hok herror
        constructor
        · rintro ⟨-, -, hrest⟩
          exact hok hrest
        · intro hnot
          obtain ⟨e, stored, hprefix, hlt, hrun'⟩ :=
            herror fun hrest => hnot ⟨hfits.1, hfits.2, hrest⟩
          exact ⟨e, row :: stored, List.cons_prefix_cons.mpr ⟨rfl, hprefix⟩,
            Nat.succ_lt_succ hlt, hrun'⟩
      · obtain ⟨e, he⟩ := createSession_error hfits
        rw [he]
        constructor
        · rintro ⟨h1, h2, -⟩
          exact (hfits ⟨h1, h2⟩).elim
        · intro _
          exact ⟨e, [], List.nil_prefix, Nat.succ_pos _, by simp⟩

/-! The rows of the ACTIVE accounts. -/

theorem activeNamed_eq_some {acc : Account} {u : Str} : db.activeNamed server u = some acc ↔
    acc ∈ db.accounts ∧ acc.server = server ∧ acc.username = u ∧ acc.status = .active := by
  unfold Db.activeNamed
  constructor
  · intro h
    have hprops := List.find?_some h
    exact ⟨List.mem_of_find?_eq_some h, of_decide_eq_true hprops⟩
  · rintro ⟨hin, hprops⟩
    cases hfind : db.accounts.rows.find? fun a =>
        a.server = server ∧ a.username = u ∧ a.status = .active with
    | none =>
      have hnone := List.find?_eq_none.mp hfind acc hin
      exact (hnone (decide_eq_true hprops)).elim
    | some a =>
      have ha : a.server = server ∧ a.username = u ∧ a.status = .active := by
        simpa using List.find?_some hfind
      have heq : a = acc := AccountTable.eq_of_name (List.mem_of_find?_eq_some hfind) hin
        (ha.2.1.trans hprops.2.1.symm) (ha.1.trans hprops.1.symm)
      rw [heq]

theorem mappedRows_selectActive (db : Db) (server : Nat) (sessions : List Session) :
    mappedRows (SessionWorld.selectActive db server (sessions.map Session.user)) sessions =
      sessionRows db server sessions := by
  apply List.filterMap_congr
  intro s hs
  have hmem : s.user ∈ sessions.map Session.user := List.mem_map.mpr ⟨s, hs, rfl⟩
  have hacc : accMap (SessionWorld.selectActive db server (sessions.map Session.user)) s.user =
      db.activeNamed server s.user := by
    apply Option.ext
    intro acc
    rw [accMap_selectActive, activeNamed_eq_some]
    constructor
    · rintro ⟨hin, hserver, -, hactive, huser⟩
      exact ⟨hin, hserver, huser, hactive⟩
    · rintro ⟨hin, hserver, huser, hactive⟩
      exact ⟨hin, hserver, huser ▸ hmem, hactive, huser⟩
  rw [hacc]

theorem isOn_iff {row : ActiveSession} : SessionWorld.isOn db server row = true ↔
    ∃ acc ∈ db.accounts, acc.id = row.account ∧ acc.server = server := by
  unfold SessionWorld.isOn
  rw [Option.any_eq_true]
  constructor
  · rintro ⟨acc, hget, hserver⟩
    exact ⟨acc, Db.getAccount_mem hget, Db.getAccount_id hget, of_decide_eq_true hserver⟩
  · rintro ⟨acc, hin, hid, hserver⟩
    exact ⟨acc, hid ▸ Db.getAccount_of_mem hin, decide_eq_true hserver⟩

/-- A row is on one server. -/
theorem isOn_inj {row : ActiveSession} {server' : Nat} (h : SessionWorld.isOn db server row = true)
    (h' : SessionWorld.isOn db server' row = true) : server = server' := by
  obtain ⟨acc, hin, hid, rfl⟩ := isOn_iff.mp h
  obtain ⟨acc', hin', hid', rfl⟩ := isOn_iff.mp h'
  rw [AccountTable.eq_of_id hin hin' (hid.trans hid'.symm)]

theorem isOn_sessionRows {row : ActiveSession} (h : row ∈ sessionRows db server sessions) :
    SessionWorld.isOn db server row = true := by
  obtain ⟨s, -, hs⟩ := List.mem_filterMap.mp h
  obtain ⟨acc, hacc, rfl⟩ := Option.map_eq_some_iff.mp hs
  obtain ⟨hin, hserver, -, -⟩ := activeNamed_eq_some.mp hacc
  exact isOn_iff.mpr ⟨acc, hin, rfl, hserver⟩

/-- Whether the rows can be stored on what other servers have. -/
theorem fits_iff_recordable (h : env.reported server = some sessions)
    (hrows : ∀ row ∈ rows, SessionWorld.isOn db server row = false) :
    Fits env rows (sessionRows db server sessions) ↔ Recordable env db server sessions := by
  have haddresses : (∀ row ∈ sessionRows db server sessions, row.clientIp.all env.accepts = true) ↔
      ∀ p ∈ env.processes server, (db.activeNamed server p.2).isSome →
        ∀ ip ∈ env.sessionIp server p.1, env.accepts ip = true := by
    constructor
    · intro hall p hp hknown
      obtain ⟨acc, hacc⟩ := Option.isSome_iff_exists.mp hknown
      have hmem : env.session server p ∈ sessions.map some := by
        rw [← map_session h]
        exact List.mem_map.mpr ⟨p, hp, rfl⟩
      obtain ⟨s, hs, hsession⟩ := List.mem_map.mp hmem
      obtain ⟨n, -, rfl⟩ := Option.map_eq_some_iff.mp hsession.symm
      have hrow := hall ⟨acc.id, n, env.sessionIp server p.1⟩
        (List.mem_filterMap.mpr ⟨_, hs, by rw [hacc]; rfl⟩)
      exact (Option.all_eq_true _ _).mp hrow
    · intro hall row hrow
      obtain ⟨s, hs, hrow⟩ := List.mem_filterMap.mp hrow
      obtain ⟨acc, hacc, rfl⟩ := Option.map_eq_some_iff.mp hrow
      have hmem : some s ∈ (env.processes server).map (env.session server) := by
        rw [map_session h]
        exact List.mem_map.mpr ⟨s, hs, rfl⟩
      obtain ⟨p, hp, hsession⟩ := List.mem_map.mp hmem
      obtain ⟨n, -, rfl⟩ := Option.map_eq_some_iff.mp hsession
      exact (Option.all_eq_true _ _).mpr (hall p hp (by rw [hacc]; rfl))
  have hother : ∀ row ∈ sessionRows db server sessions, row.key ∉ rows.map ActiveSession.key := by
    intro row hrow hm
    obtain ⟨r, hr, hkey⟩ := List.mem_map.mp hm
    have hon := isOn_sessionRows hrow
    rw [SessionWorld.isOn, ← (Prod.mk.inj hkey).1] at hon
    exact absurd hon (by rw [← SessionWorld.isOn, hrows r hr]; decide)
  rw [fits_iff, haddresses]
  constructor
  · rintro ⟨h1, h2, -⟩
    exact ⟨h1, h2⟩
  · rintro ⟨h1, h2⟩
    exact ⟨h1, h2, hother⟩

end Recording

/-! One server, and all of them. -/

section Passes

variable {env : SessionEnv} {srv : Server} {server : Nat} {sessions : List Session} {w : SessionWorld}

/-- What is left after the work for a server, whether or not it ended in an exception. -/
def SessionWorld.pass (env : SessionEnv) (w : SessionWorld) (srv : Server) : SessionWorld :=
  ((syncSessionsOf srv).run (SessionWorld.handler env) w).2

/-- The rows of the other servers. -/
def SessionWorld.elsewhere (w : SessionWorld) (server : Nat) : List ActiveSession :=
  w.sessions.filter fun row => !SessionWorld.isOn w.db server row

theorem pass_unreachable {e : SessionExc} (hconn : env.connect srv.id = .error e) :
    w.pass env srv = w := by
  simp only [SessionWorld.pass, syncSessionsOf, request, Prog.perform_bind, Prog.run_call,
    SessionWorld.handler, hconn, Prog.ofExcept_error, Prog.raise_bind, Prog.run_raise]

theorem run_syncSessionsOf (hconn : env.connect srv.id = .ok ()) :
    (syncSessionsOf srv).run (SessionWorld.handler env) w = (do
      let sessions ← getActiveSessions srv
      let accounts ← request (.selectActive srv (sessions.map Session.user))
      request (.deleteSessions srv)
      let groups ← recordSessions accounts sessions []
      enforceLimits srv accounts groups : SessionProg Unit).run (SessionWorld.handler env) w := by
  unfold syncSessionsOf
  simp only [request, Prog.perform_bind, Prog.run_call, SessionWorld.handler, hconn,
    Prog.ofExcept_ok, Prog.ret_bind]

theorem pass_unreported (hconn : env.connect srv.id = .ok ()) (hrep : env.reported srv.id = none) :
    w.pass env srv = w := by
  have hrun : (getActiveSessions srv).run (SessionWorld.handler env) w = (.error .valueError, w) := by
    rw [run_getActiveSessions, hrep]
  rw [SessionWorld.pass, run_syncSessionsOf hconn, Prog.run_bind_error hrun]

/-- The work for a server whose sessions are known: all rows and all limits, or the first rows only. -/
theorem pass_reported (hconn : env.connect srv.id = .ok ()) (hrep : env.reported srv.id = some sessions) :
    (Recordable env w.db srv.id sessions → ∃ killed,
      w.pass env srv = ⟨w.db, w.elsewhere srv.id ++ sessionRows w.db srv.id sessions, killed⟩ ∧
      ∀ x, x ∈ killed ↔ x ∈ w.killed ∨ ∃ acc ∈ w.db.accounts, acc.server = srv.id ∧
        acc.status = .active ∧ ∃ s ∈ excess acc (own acc.username sessions),
          x = (srv.id, decimal s.pid)) ∧
    (¬ Recordable env w.db srv.id sessions → ∃ stored, stored <+: sessionRows w.db srv.id sessions ∧
      stored.length < (sessionRows w.db srv.id sessions).length ∧
      w.pass env srv = ⟨w.db, w.elsewhere srv.id ++ stored, w.killed⟩) := by
  have hlist : (getActiveSessions srv).run (SessionWorld.handler env) w = (.ok sessions, w) := by
    rw [run_getActiveSessions, hrep]
  have hother : ∀ row ∈ w.elsewhere srv.id, SessionWorld.isOn w.db srv.id row = false := by
    intro row hrow
    simpa using (List.mem_filter.mp hrow).2
  have hfits : Fits env (w.elsewhere srv.id) (sessionRows w.db srv.id sessions) ↔
      Recordable env w.db srv.id sessions := fits_iff_recordable hrep hother
  obtain ⟨hok, herror⟩ := run_recordSessions env
    (SessionWorld.selectActive w.db srv.id (sessions.map Session.user)) sessions []
    ⟨w.db, w.elsewhere srv.id, w.killed⟩
  rw [mappedRows_selectActive, hfits] at hok herror
  have hrun : w.pass env srv = ((do
      let groups ← recordSessions
        (SessionWorld.selectActive w.db srv.id (sessions.map Session.user)) sessions []
      enforceLimits srv (SessionWorld.selectActive w.db srv.id (sessions.map Session.user))
        groups : SessionProg Unit).run (SessionWorld.handler env)
          ⟨w.db, w.elsewhere srv.id, w.killed⟩).2 := by
    rw [SessionWorld.pass, run_syncSessionsOf hconn, Prog.run_bind_ok hlist]
    rfl
  rw [hrun]
  constructor
  · intro hrec
    obtain ⟨killed, henforce, hmem⟩ := run_enforceLimits_groups env srv sessions
      ⟨w.db, w.elsewhere srv.id ++ sessionRows w.db srv.id sessions, w.killed⟩
    refine ⟨killed, ?_, hmem⟩
    rw [Prog.run_bind_ok (hok hrec)]
    exact congrArg Prod.snd henforce
  · intro hnot
    obtain ⟨e, stored, hprefix, hlt, hstored⟩ := herror hnot
    refine ⟨stored, hprefix, hlt, ?_⟩
    rw [Prog.run_bind_error hstored]

/-- No server's work touches the rows of another, or brings a process back. -/
theorem frame_pass (env : SessionEnv) (w : SessionWorld) (srv : Server) :
    (w.pass env srv).db = w.db ∧ (∀ x ∈ w.killed, x ∈ (w.pass env srv).killed) ∧
    ∀ server ≠ srv.id, (w.pass env srv).sessions.filter (SessionWorld.isOn w.db server) =
      w.sessions.filter (SessionWorld.isOn w.db server) := by
  have hsame : w.pass env srv = w → (w.pass env srv).db = w.db ∧
      (∀ x ∈ w.killed, x ∈ (w.pass env srv).killed) ∧
      ∀ server ≠ srv.id, (w.pass env srv).sessions.filter (SessionWorld.isOn w.db server) =
        w.sessions.filter (SessionWorld.isOn w.db server) := by
    intro h
    rw [h]
    exact ⟨rfl, fun _ hx => hx, fun _ _ => rfl⟩
  cases hconn : env.connect srv.id with
  | error e => exact hsame (pass_unreachable hconn)
  | ok _ =>
    cases hrep : env.reported srv.id with
    | none => exact hsame (pass_unreported hconn hrep)
    | some sessions =>
      have hrows : ∀ stored, stored <+: sessionRows w.db srv.id sessions → ∀ server ≠ srv.id,
          (w.elsewhere srv.id ++ stored).filter (SessionWorld.isOn w.db server) =
            w.sessions.filter (SessionWorld.isOn w.db server) := by
        intro stored hstored server hne
        have hnew : stored.filter (SessionWorld.isOn w.db server) = [] := by
          rw [List.filter_eq_nil_iff]
          intro row hrow hon
          exact hne (isOn_inj hon (isOn_sessionRows (hstored.subset hrow)))
        rw [List.filter_append, hnew, List.append_nil, SessionWorld.elsewhere, List.filter_filter]
        apply List.filter_congr
        intro row _
        cases hon : SessionWorld.isOn w.db server row with
        | false => simp
        | true =>
          cases hhere : SessionWorld.isOn w.db srv.id row with
          | false => simp
          | true => exact (hne (isOn_inj hon hhere)).elim
      obtain ⟨hok, herror⟩ := pass_reported (w := w) hconn hrep
      by_cases hrec : Recordable env w.db srv.id sessions
      · obtain ⟨killed, hpass, hmem⟩ := hok hrec
        rw [hpass]
        exact ⟨rfl, fun x hx => (hmem x).mpr (.inl hx), hrows _ (List.prefix_refl _)⟩
      · obtain ⟨stored, hprefix, -, hpass⟩ := herror hrec
        rw [hpass]
        exact ⟨rfl, fun x hx => hx, hrows _ hprefix⟩

/-- The rows of the server show whether its sessions can be recorded. -/
structure Reflects (env : SessionEnv) (db : Db) (server : Nat) (sessions : List Session)
    (w : SessionWorld) : Prop where
  synced : Recordable env db server sessions → Synced db server sessions w
  short : ¬ Recordable env db server sessions →
    (w.sessions.filter (SessionWorld.isOn db server)).length < (sessionRows db server sessions).length

theorem filter_isOn (stored : List ActiveSession) (hstored : stored <+: sessionRows w.db server sessions) :
    (w.elsewhere server ++ stored).filter (SessionWorld.isOn w.db server) = stored := by
  have hold : (w.elsewhere server).filter (SessionWorld.isOn w.db server) = [] := by
    rw [List.filter_eq_nil_iff]
    intro row hrow hon
    have hoff := (List.mem_filter.mp hrow).2
    rw [hon] at hoff
    cases hoff
  have hnew : stored.filter (SessionWorld.isOn w.db server) = stored :=
    List.filter_eq_self.mpr fun row hrow => isOn_sessionRows (hstored.subset hrow)
  rw [List.filter_append, hold, hnew, List.nil_append]

theorem reflects_pass (hconn : env.connect srv.id = .ok ())
    (hrep : env.reported srv.id = some sessions) :
    Reflects env w.db srv.id sessions (w.pass env srv) := by
  obtain ⟨hok, herror⟩ := pass_reported (w := w) hconn hrep
  constructor
  · intro hrec
    obtain ⟨killed, hpass, hmem⟩ := hok hrec
    rw [hpass]
    constructor
    · rw [filter_isOn _ (List.prefix_refl _)]
    · intro acc hin hserver hactive s hs
      exact (hmem _).mpr (.inr ⟨acc, hin, hserver, hactive, s, hs, rfl⟩)
  · intro hnot
    obtain ⟨stored, hprefix, hlt, hpass⟩ := herror hnot
    rw [hpass, filter_isOn _ hprefix]
    exact hlt

theorem reflects_pass_other (hne : server ≠ srv.id) (h : Reflects env w.db server sessions w) :
    Reflects env w.db server sessions (w.pass env srv) := by
  obtain ⟨-, hkilled, hrows⟩ := frame_pass env w srv
  constructor
  · intro hrec
    obtain ⟨hold, htrimmed⟩ := h.synced hrec
    constructor
    · rw [hrows server hne]
      exact hold
    · intro acc hin hserver hactive s hs
      exact hkilled _ (htrimmed acc hin hserver hactive s hs)
  · intro hnot
    rw [hrows server hne]
    exact h.short hnot

theorem run_syncSessionsOn (servers : List Server) (w : SessionWorld) :
    (syncSessionsOn servers).run (SessionWorld.handler env) w =
      (.ok (), after (SessionWorld.pass env) w servers) := by
  induction servers generalizing w with
  | nil => rfl
  | cons srv servers ih =>
    have hpass : ((syncSessionsOf srv).handle fun _ => return () : SessionProg Unit).run
        (SessionWorld.handler env) w = (.ok (), w.pass env srv) := by
      rw [Prog.run_handle, SessionWorld.pass]
      rcases (syncSessionsOf srv).run (SessionWorld.handler env) w with ⟨e | a, w'⟩ <;> rfl
    rw [syncSessionsOn, Prog.run_bind_ok hpass, ih, after_cons]

/-- The last pass over the server decides, whatever servers come after it. -/
theorem reflects_after (hconn : env.connect server = .ok ()) (hrep : env.reported server = some sessions)
    {servers : List Server}
    (h : Reflects env w.db server sessions w ∨ ∃ srv ∈ servers, srv.id = server) :
    Reflects env w.db server sessions (after (SessionWorld.pass env) w servers) := by
  induction servers generalizing w with
  | nil =>
    rcases h with h | ⟨srv, hsrv, -⟩
    · exact h
    · cases hsrv
  | cons srv servers ih =>
    have hdb := (frame_pass env w srv).1
    have hnext := ih (w := w.pass env srv)
    rw [hdb] at hnext
    rw [after_cons]
    apply hnext
    by_cases hid : srv.id = server
    · subst hid
      exact .inl (reflects_pass hconn hrep)
    · rcases h with h | ⟨srv', hsrv', heq⟩
      · exact .inl (reflects_pass_other (fun he => hid he.symm) h)
      · rcases List.mem_cons.mp hsrv' with rfl | hsrv'
        · exact (hid heq).elim
        · exact .inr ⟨srv', hsrv', heq⟩

end Passes

/-- A run leaves one row for each session of an ACTIVE account of a server and enforces every limit exactly
if the column takes each of their addresses and no account has a pid twice. -/
theorem synced_iff (env : SessionEnv) (w : SessionWorld) (srv : Server) (sessions : List Session)
    (hsrv : srv ∈ w.db.activeServers) (hconn : env.connect srv.id = .ok ())
    (hrep : env.reported srv.id = some sessions) :
    Synced w.db srv.id sessions (syncActiveSessions.run (SessionWorld.handler env) w).2 ↔
      Recordable env w.db srv.id sessions := by
  have hrun : (syncActiveSessions.run (SessionWorld.handler env) w).2 =
      after (SessionWorld.pass env) w w.db.activeServers :=
    congrArg Prod.snd (run_syncSessionsOn w.db.activeServers w)
  have hreflects : Reflects env w.db srv.id sessions
      (after (SessionWorld.pass env) w w.db.activeServers) :=
    reflects_after hconn hrep (.inr ⟨srv, hsrv, rfl⟩)
  rw [hrun]
  constructor
  · intro hsynced
    by_contra hnot
    have hlength := hsynced.rows.length_eq
    rw [List.length_map, List.length_map] at hlength
    exact absurd hlength (hreflects.short hnot).ne
  · exact hreflects.synced

/-- The address of a socket with an IPv6 peer is in brackets. -/
theorem address_of_brackets {k : Socket} {ip port : Str}
    (hpeer : k.peer = '[' :: (ip ++ [']']) ++ ':' :: port) (hport : ':' ∉ port) :
    k.address = some ('[' :: (ip ++ [']'])) := by
  have hstrip : PyString.strip k.peer = k.peer :=
    PyString.strip_word (k.columns k.peer (by simp)).2
  have hcolon : ':' ∈ k.peer := by
    rw [hpeer]
    simp
  have hlast : PyString.beforeLast ':' k.peer = '[' :: (ip ++ [']']) := by
    rw [hpeer]
    exact PyString.beforeLast_append hport
  unfold Socket.address candidate
  simp only [hstrip, if_pos hcolon, hlast]
  rw [if_pos]
  constructor
  · exact List.cons_ne_nil _ _
  · simp

/-- One client with IPv6 is enough. -/
theorem not_synced_of_brackets {env : SessionEnv} {w : SessionWorld} {srv : Server}
    {sessions : List Session} {p : Str × Str} {k : Socket} {ip port : Str}
    (hsrv : srv ∈ w.db.activeServers) (hconn : env.connect srv.id = .ok ())
    (hrep : env.reported srv.id = some sessions) (hp : p ∈ env.processes srv.id)
    (hknown : (w.db.activeNamed srv.id p.2).isSome)
    (hk : ((env.sockets srv.id p.1).filter fun k => k.mentions p.1).head? = some k)
    (hpeer : k.peer = '[' :: (ip ++ [']']) ++ ':' :: port) (hport : ':' ∉ port)
    (haccepts : ∀ s, env.accepts ('[' :: s) = false) :
    ¬ Synced w.db srv.id sessions (syncActiveSessions.run (SessionWorld.handler env) w).2 := by
  intro hsynced
  have hrec := (synced_iff env w srv sessions hsrv hconn hrep).mp hsynced
  have haddress : env.ssAddress srv.id p.1 = some ('[' :: (ip ++ [']'])) := by
    unfold SessionEnv.ssAddress
    cases hlist : (env.sockets srv.id p.1).filter fun k => k.mentions p.1 with
    | nil =>
      rw [hlist] at hk
      cases hk
    | cons k' ks =>
      rw [hlist] at hk
      obtain rfl : k' = k := Option.some.inj hk
      rw [List.findSome?_cons, address_of_brackets hpeer hport]
  have hip : '[' :: (ip ++ [']']) ∈ env.sessionIp srv.id p.1 := by
    rw [SessionEnv.sessionIp, haddress]
    rfl
  have htaken := hrec.addresses p hp hknown _ hip
  rw [haccepts] at htaken
  cases htaken

/-! Two sessions of the sample account, the first with one socket or another. -/

def sshSocket (peer : Str) (pid : Nat) (h : isColumn peer = true) : Socket where
  state := "ESTAB".toList
  recvQ := "0".toList
  sendQ := "0".toList
  localAddress := "10.0.0.1:22".toList
  peer := peer
  users := [⟨"sshd".toList, pid, 4⟩]
  columns := by
    apply columns_of_all
    simp only [List.all_cons, h]
    decide

def twoSessions (k : Socket) : SessionEnv where
  connect := fun _ => .ok ()
  ps := fun _ => ⟨0, "10 alice sshd: alice@pts/0\n20 alice sshd: alice@pts/1\n".toList⟩
  sockets := fun _ _ => [k]
  authLog := fun _ _ => ⟨1, []⟩
  accepts := isLiteralIp

def aliceWorld : SessionWorld := ⟨(NodeChange.sampleAccountWorld .ssh).db, [], []⟩

def ipv4Socket : Socket := sshSocket "192.0.2.7:5000".toList 10 (by decide)

def ipv6Socket : Socket := sshSocket "[2001:db8::1]:5000".toList 10 (by decide)

theorem synced_iff_sample :
    Synced aliceWorld.db sampleServer.id
      [⟨"alice".toList, 10, some "192.0.2.7".toList⟩, ⟨"alice".toList, 20, none⟩]
      (syncActiveSessions.run (SessionWorld.handler (twoSessions ipv4Socket)) aliceWorld).2 :=
  (synced_iff (twoSessions ipv4Socket) aliceWorld sampleServer
    [⟨"alice".toList, 10, some "192.0.2.7".toList⟩, ⟨"alice".toList, 20, none⟩] (by decide) rfl
    (by decide +kernel)).mpr ⟨by decide +kernel, by decide +kernel⟩

/-- An address in brackets costs the rows of both sessions. -/
theorem not_synced : ¬ ∀ (env : SessionEnv) (w : SessionWorld) (srv : Server) (sessions : List Session),
    srv ∈ w.db.activeServers → env.connect srv.id = .ok () → env.reported srv.id = some sessions →
    (sessions.map Session.pid).Nodup → (∀ s, env.accepts ('[' :: s) = false) →
      Synced w.db srv.id sessions (syncActiveSessions.run (SessionWorld.handler env) w).2 := by
  intro h
  have hsynced := h (twoSessions ipv6Socket) aliceWorld sampleServer
    [⟨"alice".toList, 10, some "[2001:db8::1]".toList⟩, ⟨"alice".toList, 20, none⟩] (by decide) rfl
    (by decide +kernel) (by decide) fun _ => rfl
  have hnone : (syncActiveSessions.run (SessionWorld.handler (twoSessions ipv6Socket))
      aliceWorld).2.sessions = [] := by
    decide +kernel
  have hlength := hsynced.rows.length_eq
  rw [hnone] at hlength
  revert hlength
  decide +kernel

end SshPanelVpn.Panel

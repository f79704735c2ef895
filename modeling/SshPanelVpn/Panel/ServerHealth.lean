import SshPanelVpn.Library.Runs
import SshPanelVpn.Panel.Model

/-! `servers/tasks.py` and the server views of `api/views.py`: the row of one server between the
health checks, which look at it before an SSH call and save it afterwards, and the admin. -/
namespace SshPanelVpn.Panel

open Runs

/-- The columns of a server that only the admin sets, but for its status. -/
structure ServerSettings where
  name : Str
  ipAddress : Str
  sshPort : Nat
  sshUser : Str
  sshKeyPath : Str
  protocolType : Protocol
  location : Str
  maxUsers : Nat
  shadowlinkPort : Nat
  shadowlinkWsPath : Str
  shadowlinkDomain : Str
  shadowlinkBridgePort : Nat
  shadowlinkApiKey : Str
  deriving DecidableEq, Repr

/-- What `get_health` returns. -/
structure Health where
  cpuUsage : Rat
  ramUsage : Rat
  diskUsage : Rat
  uptimeSeconds : Int
  deriving DecidableEq, Repr

structure ServerRow where
  settings : ServerSettings
  status : ServerStatus
  health : Health
  lastHealthCheck : Option DateTime
  deriving DecidableEq, Repr

/-- The validated data of a `PUT` or `PATCH` request to `ServerDetailView`. -/
structure ServerUpdate where
  name : Option Str := none
  ipAddress : Option Str := none
  sshPort : Option Nat := none
  protocolType : Option Protocol := none
  status : Option ServerStatus := none
  location : Option Str := none
  maxUsers : Option Nat := none
  shadowlinkPort : Option Nat := none
  shadowlinkWsPath : Option Str := none
  shadowlinkDomain : Option Str := none
  deriving DecidableEq, Repr

namespace ServerRow

/-- `ModelSerializer.update` before its `instance.save()`. -/
def updated (srv : ServerRow) (data : ServerUpdate) : ServerRow :=
  { srv with
    status := data.status.getD srv.status
    settings := { srv.settings with
      name := data.name.getD srv.settings.name
      ipAddress := data.ipAddress.getD srv.settings.ipAddress
      sshPort := data.sshPort.getD srv.settings.sshPort
      protocolType := data.protocolType.getD srv.settings.protocolType
      location := data.location.getD srv.settings.location
      maxUsers := data.maxUsers.getD srv.settings.maxUsers
      shadowlinkPort := data.shadowlinkPort.getD srv.settings.shadowlinkPort
      shadowlinkWsPath := data.shadowlinkWsPath.getD srv.settings.shadowlinkWsPath
      shadowlinkDomain := data.shadowlinkDomain.getD srv.settings.shadowlinkDomain } }

def measured (srv : ServerRow) (health : Health) (now : DateTime) : ServerRow :=
  { srv with health := health, lastHealthCheck := some now }

/-- `check_all_servers_health` after `get_health` has returned. -/
def checkedAll (srv : ServerRow) (health : Health) (now : DateTime) : ServerRow :=
  let srv := srv.measured health now
  if srv.status = .active ∧ 95 < srv.health.cpuUsage then { srv with status := .full } else srv

/-- `check_all_servers_health` after an exception, the `fails`-th in a row. -/
def failedAll (srv : ServerRow) (fails : Nat) (now : DateTime) : ServerRow :=
  let srv := { srv with lastHealthCheck := some now }
  if 3 ≤ fails then { srv with status := .down } else srv

/-- `check_single_server` after `get_health` has returned. -/
def checkedSingle (srv : ServerRow) (health : Health) (now : DateTime) : ServerRow :=
  let srv := srv.measured health now
  if srv.status = .down then { srv with status := .active } else srv

/-- `check_single_server` after an exception. -/
def failedSingle (srv : ServerRow) (now : DateTime) : ServerRow :=
  { srv with status := .down, lastHealthCheck := some now }

/-- `srv.save(update_fields=["status", "last_health_check"])`. -/
def saveStatus (row srv : ServerRow) : ServerRow :=
  { row with status := srv.status, lastHealthCheck := srv.lastHealthCheck }

/-! A check computes a status and leaves the settings of its object alone. -/

theorem checkedAll_status (srv : ServerRow) (health : Health) (now : DateTime) :
    (srv.checkedAll health now).status =
      if srv.status = .active ∧ 95 < health.cpuUsage then .full else srv.status :=
  apply_ite ServerRow.status _ _ _

theorem failedAll_status (srv : ServerRow) (fails : Nat) (now : DateTime) :
    (srv.failedAll fails now).status = if 3 ≤ fails then .down else srv.status :=
  apply_ite ServerRow.status _ _ _

theorem checkedSingle_status (srv : ServerRow) (health : Health) (now : DateTime) :
    (srv.checkedSingle health now).status = if srv.status = .down then .active else srv.status :=
  apply_ite ServerRow.status _ _ _

theorem checkedAll_settings (srv : ServerRow) (health : Health) (now : DateTime) :
    (srv.checkedAll health now).settings = srv.settings :=
  (apply_ite ServerRow.settings _ _ _).trans (ite_self _)

theorem checkedSingle_settings (srv : ServerRow) (health : Health) (now : DateTime) :
    (srv.checkedSingle health now).settings = srv.settings :=
  (apply_ite ServerRow.settings _ _ _).trans (ite_self _)

end ServerRow

/-- A task or request that reads the row first and saves it later. Each worker process counts the
failures of its own checks. -/
inductive ServerTask where
  | checkAll (worker : Nat)
  | checkSingle
  | update (data : ServerUpdate)
  deriving DecidableEq, Repr

/-- A task with the row as it has read it; `statusSet` says whether the admin has set the status
since. -/
structure LoadedServer where
  task : ServerTask
  srv : ServerRow
  statusSet : Bool
  deriving DecidableEq, Repr

/-- `adminStatus` is the status that the admin has set last. -/
structure ServerState where
  row : ServerRow
  loaded : List LoadedServer
  healthFailCounts : Nat → Nat
  adminStatus : ServerStatus

/-- `health` is `none` where the connection or a command raises. -/
inductive ServerAct where
  | read (task : ServerTask)
  | save (i : Nat) (health : Option Health) (now : DateTime)
  | setStatus (status : ServerStatus)
  deriving DecidableEq, Repr

namespace ServerState

/-- A server before anything reads it. -/
def start (row : ServerRow) (counts : Nat → Nat) : ServerState := ⟨row, [], counts, row.status⟩

/-- The admin has set the status. -/
def adminSets (s : ServerState) (status : ServerStatus) : ServerState :=
  { s with
    adminStatus := status
    loaded := s.loaded.map fun l => { l with statusSet := true } }

/-- The check leaves out servers that are down. -/
def readsRow (s : ServerState) : ServerTask → Bool
  | .checkAll _ => s.row.status ≠ .down
  | _ => true

/-- What a task does once it has its answer from the node, or its data. -/
def finish (s : ServerState) (l : LoadedServer) (health : Option Health) (now : DateTime) :
    ServerState :=
  match l.task, health with
  | .checkAll worker, some health =>
    { s with
      healthFailCounts := Function.update s.healthFailCounts worker 0
      row := l.srv.checkedAll health now }
  | .checkAll worker, none =>
    let fails := s.healthFailCounts worker + 1
    { s with
      healthFailCounts := Function.update s.healthFailCounts worker fails
      row := s.row.saveStatus (l.srv.failedAll fails now) }
  | .checkSingle, some health => { s with row := l.srv.checkedSingle health now }
  | .checkSingle, none => { s with row := s.row.saveStatus (l.srv.failedSingle now) }
  | .update data, _ =>
    let s := { s with row := l.srv.updated data }
    match data.status with
    | none => s
    | some status => s.adminSets status

def act (s : ServerState) : ServerAct → ServerState
  | .read task =>
    if s.readsRow task then { s with loaded := s.loaded ++ [⟨task, s.row, false⟩] } else s
  | .save i health now =>
    match s.loaded[i]? with
    | none => s
    | some l => { s with loaded := s.loaded.eraseIdx i }.finish l health now
  | .setStatus status => { s with row := { s.row with status := status } }.adminSets status

/-- A server that the admin has put into maintenance is not active. -/
def KeepsMaintenance (s : ServerState) : Prop :=
  s.adminStatus = .maintenance → s.row.status ≠ .active

/-- A health check leaves the settings alone, and the status if the admin has set it since the check
has read it. -/
def LeavesAdminColumns (s : ServerState) (a : ServerAct) : Prop :=
  ∀ i health now l, a = .save i health now → s.loaded[i]? = some l → (∀ data, l.task ≠ .update data) →
    (s.act a).row.settings = s.row.settings ∧
      (l.statusSet = true → (s.act a).row.status = s.row.status)

/-- What a health check saves as the status. -/
def savedStatus (s : ServerState) (l : LoadedServer) (health : Option Health) : ServerStatus :=
  match l.task, health with
  | .checkAll _, some health =>
    if l.srv.status = .active ∧ 95 < health.cpuUsage then .full else l.srv.status
  | .checkAll worker, none => if 3 ≤ s.healthFailCounts worker + 1 then .down else l.srv.status
  | .checkSingle, some _ => if l.srv.status = .down then .active else l.srv.status
  | .checkSingle, none => .down
  | .update data, _ => data.status.getD l.srv.status

/-- A successful check finds the settings as it has read them; the admin has not set the status
meanwhile, but to what the check saves anyway; a single check does not bring a server back that has
gone down after the admin had put it into maintenance; and an update without a status that has read
the server as active is not saved once the admin has put it into maintenance. -/
def Heeds (s : ServerState) (a : ServerAct) : Prop :=
  ∀ i health now l, a = .save i health now → s.loaded[i]? = some l →
    match l.task with
    | .update data =>
      data.status = none → l.srv.status = .active → s.adminStatus ≠ .maintenance
    | task =>
      (health.isSome = true → l.srv.settings = s.row.settings) ∧
      (l.statusSet = true → s.savedStatus l health = s.row.status) ∧
      (task = .checkSingle → health.isSome = true → l.srv.status = .down →
        s.adminStatus ≠ .maintenance)

variable {s : ServerState} {l : LoadedServer} {health : Option Health} {now : DateTime} {i : Nat}
  {a : ServerAct}

theorem finish_status (s : ServerState) (l : LoadedServer) (health : Option Health) (now : DateTime) :
    (s.finish l health now).row.status = s.savedStatus l health := by
  rcases l with ⟨task, srv, statusSet⟩
  cases task with
  | checkAll worker =>
    cases health with
    | none => exact srv.failedAll_status _ now
    | some health => exact srv.checkedAll_status health now
  | checkSingle =>
    cases health with
    | none => rfl
    | some health => exact srv.checkedSingle_status health now
  | update data =>
    rcases data with ⟨name, ip, port, protocol, status, location, users, slPort, path, domain⟩
    cases status <;> rfl

theorem finish_settings (hcheck : ∀ data, l.task ≠ .update data) :
    (s.finish l health now).row.settings =
      if health.isSome = true then l.srv.settings else s.row.settings := by
  rcases l with ⟨task, srv, statusSet⟩
  cases task with
  | checkAll worker =>
    cases health with
    | none => rfl
    | some health => exact srv.checkedAll_settings health now
  | checkSingle =>
    cases health with
    | none => rfl
    | some health => exact srv.checkedSingle_settings health now
  | update data => exact (hcheck data rfl).elim

theorem finish_adminStatus : (s.finish l health now).adminStatus =
    match l.task with
    | .update data => data.status.getD s.adminStatus
    | _ => s.adminStatus := by
  rcases l with ⟨task, srv, statusSet⟩
  cases task with
  | checkAll worker => cases health <;> rfl
  | checkSingle => cases health <;> rfl
  | update data =>
    rcases data with ⟨name, ip, port, protocol, status, location, users, slPort, path, domain⟩
    cases status <;> rfl

/-- What is loaded afterwards, and what the admin has set meanwhile. -/
theorem finish_loaded {l' : LoadedServer} (h : l' ∈ (s.finish l health now).loaded) :
    l'.statusSet = true ∨ l' ∈ s.loaded ∧ (s.finish l health now).adminStatus = s.adminStatus := by
  rcases l with ⟨task, srv, statusSet⟩
  cases task with
  | checkAll worker => cases health <;> exact .inr ⟨h, rfl⟩
  | checkSingle => cases health <;> exact .inr ⟨h, rfl⟩
  | update data =>
    rcases data with ⟨name, ip, port, protocol, status, location, users, slPort, path, domain⟩
    cases status with
    | none => exact .inr ⟨h, rfl⟩
    | some status =>
      obtain ⟨l₀, -, rfl⟩ := List.mem_map.mp h
      exact .inl rfl

/-- Who has read the row since the admin set the status has read what the admin left. -/
structure Sound (s : ServerState) : Prop where
  row : s.KeepsMaintenance
  loaded : ∀ l ∈ s.loaded, l.statusSet = false → s.adminStatus = .maintenance →
    l.srv.status ≠ .active

theorem sound_start (row : ServerRow) (counts : Nat → Nat) : (start row counts).Sound := by
  constructor
  · intro h hactive
    change row.status = .maintenance at h
    change row.status = .active at hactive
    rw [h] at hactive
    cases hactive
  · intro l hl
    cases hl

/-- The status that a check saves keeps the server in maintenance, unless a single check brings it
back. -/
theorem savedStatus_ne_active (hs : s.Sound) (hl : l ∈ s.loaded)
    (hset : l.statusSet = true → s.savedStatus l health = s.row.status)
    (hcheck : ∀ data, l.task ≠ .update data) (hm : s.adminStatus = .maintenance)
    (hback : l.task = .checkSingle → health.isSome = true → l.srv.status ≠ .down) :
    s.savedStatus l health ≠ .active := by
  cases hflag : l.statusSet with
  | true =>
    rw [hset hflag]
    exact hs.row hm
  | false =>
    have hread := hs.loaded l hl hflag hm
    rcases l with ⟨task, srv, statusSet⟩
    cases task with
    | checkAll worker =>
      cases health with
      | none =>
        simp only [savedStatus]
        split
        · simp
        · exact hread
      | some health =>
        simp only [savedStatus]
        split
        · simp
        · exact hread
    | checkSingle =>
      cases health with
      | none => simp [savedStatus]
      | some health =>
        have hdown := hback rfl rfl
        simp only [savedStatus]
        rw [if_neg hdown]
        exact hread
    | update data => exact (hcheck data rfl).elim

/-- The law for one step. -/
def Keeps (s : ServerState) (a : ServerAct) : Prop :=
  (s.act a).KeepsMaintenance ∧ s.LeavesAdminColumns a

theorem act_save (h : s.loaded[i]? = some l) : s.act (.save i health now) =
    { s with loaded := s.loaded.eraseIdx i }.finish l health now := by
  rw [act, h]

theorem keeps_update_iff {data : ServerUpdate} (h : s.loaded[i]? = some l)
    (ht : l.task = .update data) : s.Keeps (.save i health now) ↔
      (data.status = none → l.srv.status = .active → s.adminStatus ≠ .maintenance) := by
  have hstatus : (s.act (.save i health now)).row.status = data.status.getD l.srv.status := by
    rw [act_save h, finish_status]
    simp only [savedStatus, ht]
  have hadmin : (s.act (.save i health now)).adminStatus = data.status.getD s.adminStatus := by
    rw [act_save h, finish_adminStatus, ht]
  have hleaves : s.LeavesAdminColumns (.save i health now) := by
    intro i' health' now' l' ha hl' hcheck
    cases ha
    obtain rfl : l = l' := Option.some.inj (h.symm.trans hl')
    exact (hcheck data ht).elim
  unfold Keeps KeepsMaintenance
  rw [hstatus, hadmin]
  cases data.status with
  | none =>
    constructor
    · rintro ⟨hk, -⟩ - hactive hm
      exact hk hm hactive
    · intro hk
      exact ⟨fun hm hactive => hk rfl hactive hm, hleaves⟩
  | some status =>
    refine iff_of_true ⟨?_, hleaves⟩ (by simp)
    rintro rfl
    simp

theorem keeps_check_iff (hs : s.Sound) (h : s.loaded[i]? = some l)
    (hcheck : ∀ data, l.task ≠ .update data) : s.Keeps (.save i health now) ↔
      (health.isSome = true → l.srv.settings = s.row.settings) ∧
      (l.statusSet = true → s.savedStatus l health = s.row.status) ∧
      (l.task = .checkSingle → health.isSome = true → l.srv.status = .down →
        s.adminStatus ≠ .maintenance) := by
  have hstatus : (s.act (.save i health now)).row.status = s.savedStatus l health := by
    rw [act_save h, finish_status]
    rfl
  have hadmin : (s.act (.save i health now)).adminStatus = s.adminStatus := by
    rw [act_save h, finish_adminStatus]
    cases ht : l.task with
    | update data => exact (hcheck data ht).elim
    | _ => rfl
  have hsettings : (s.act (.save i health now)).row.settings =
      if health.isSome = true then l.srv.settings else s.row.settings := by
    rw [act_save h, finish_settings hcheck]
  have hleaves : s.LeavesAdminColumns (.save i health now) ↔
      (health.isSome = true → l.srv.settings = s.row.settings) ∧
      (l.statusSet = true → s.savedStatus l health = s.row.status) := by
    rw [← hstatus]
    constructor
    · intro hl
      obtain ⟨hset, hst⟩ := hl i health now l rfl h hcheck
      refine ⟨?_, hst⟩
      intro hsome
      rwa [hsettings, if_pos hsome] at hset
    · rintro ⟨hset, hst⟩ i' health' now' l' ha hl' -
      cases ha
      obtain rfl : l = l' := Option.some.inj (h.symm.trans hl')
      refine ⟨?_, hst⟩
      rw [hsettings]
      split
      · next hsome => exact hset hsome
      · rfl
  unfold Keeps KeepsMaintenance
  rw [hleaves, hstatus, hadmin]
  constructor
  · rintro ⟨hk, hset, hst⟩
    refine ⟨hset, hst, ?_⟩
    intro ht hsome hdown hm
    obtain ⟨health, rfl⟩ := Option.isSome_iff_exists.mp hsome
    apply hk hm
    simp only [savedStatus, ht, hdown, if_true]
  · rintro ⟨hset, hst, hback⟩
    refine ⟨?_, hset, hst⟩
    intro hm
    apply savedStatus_ne_active hs (List.mem_of_getElem? h) hst hcheck hm
    intro ht hsome hdown
    exact hback ht hsome hdown hm

/-- The condition is what a step needs. -/
theorem keeps_iff_heeds (hs : s.Sound) : s.Keeps a ↔ s.Heeds a := by
  cases a with
  | read task =>
    refine iff_of_true ⟨?_, ?_⟩ ?_
    · have hrow : (s.act (.read task)).row = s.row := by
        dsimp only [act]
        split <;> rfl
      have hadmin : (s.act (.read task)).adminStatus = s.adminStatus := by
        dsimp only [act]
        split <;> rfl
      unfold KeepsMaintenance
      rw [hrow, hadmin]
      exact hs.row
    · intro i health now l ha
      cases ha
    · intro i health now l ha
      cases ha
  | setStatus status =>
    refine iff_of_true ⟨?_, ?_⟩ ?_
    · intro hm hactive
      change status = .maintenance at hm
      change status = .active at hactive
      rw [hm] at hactive
      cases hactive
    · intro i health now l ha
      cases ha
    · intro i health now l ha
      cases ha
  | save i health now =>
    cases h : s.loaded[i]? with
    | none =>
      have hact : s.act (.save i health now) = s := by rw [act, h]
      refine iff_of_true ⟨?_, ?_⟩ ?_
      · rw [hact]
        exact hs.row
      · intro i' health' now' l ha hl
        cases ha
        rw [h] at hl
        cases hl
      · intro i' health' now' l ha hl
        cases ha
        rw [h] at hl
        cases hl
    | some l =>
      have hheeds : s.Heeds (.save i health now) ↔
          match l.task with
          | .update data => data.status = none → l.srv.status = .active → s.adminStatus ≠ .maintenance
          | task =>
            (health.isSome = true → l.srv.settings = s.row.settings) ∧
            (l.statusSet = true → s.savedStatus l health = s.row.status) ∧
            (task = .checkSingle → health.isSome = true → l.srv.status = .down →
              s.adminStatus ≠ .maintenance) := by
        constructor
        · intro hh
          exact hh i health now l rfl h
        · intro hh i' health' now' l' ha hl'
          cases ha
          obtain rfl : l = l' := Option.some.inj (h.symm.trans hl')
          exact hh
      rw [hheeds]
      cases ht : l.task with
      | update data => exact keeps_update_iff h ht
      | checkAll worker =>
        rw [keeps_check_iff hs h (by simp [ht]), ht]
      | checkSingle =>
        rw [keeps_check_iff hs h (by simp [ht]), ht]

theorem sound_act (hs : s.Sound) (hk : (s.act a).KeepsMaintenance) : (s.act a).Sound := by
  refine ⟨hk, ?_⟩
  cases a with
  | read task =>
    dsimp only [act]
    split
    · intro l hl hflag hm
      rcases List.mem_append.mp hl with hl | hl
      · exact hs.loaded l hl hflag hm
      · obtain rfl := List.mem_singleton.mp hl
        exact hs.row hm
    · exact hs.loaded
  | setStatus status =>
    intro l hl hflag
    obtain ⟨l₀, -, rfl⟩ := List.mem_map.mp hl
    cases hflag
  | save i health now =>
    cases h : s.loaded[i]? with
    | none =>
      have hact : s.act (.save i health now) = s := by rw [act, h]
      rw [hact]
      exact hs.loaded
    | some l =>
      rw [act_save h]
      intro l' hl' hflag hm
      rcases finish_loaded hl' with hset | ⟨hmem, hsame⟩
      · rw [hset] at hflag
        cases hflag
      · rw [hsame] at hm
        exact hs.loaded l' (List.mem_of_mem_eraseIdx hmem) hflag hm

theorem along_keeps_iff_heeds {acts : List ServerAct} (hs : s.Sound) :
    Along act Keeps s acts ↔ Along act Heeds s acts := by
  induction acts generalizing s with
  | nil => exact Iff.rfl
  | cons a acts ih =>
    constructor
    · rintro ⟨hk, hrest⟩
      exact ⟨(keeps_iff_heeds hs).mp hk, (ih (sound_act hs hk.1)).mp hrest⟩
    · rintro ⟨hh, hrest⟩
      have hk := (keeps_iff_heeds hs).mpr hh
      exact ⟨hk, (ih (sound_act hs hk.1)).mpr hrest⟩

/-- The admin's word on a server stands in exactly the runs whose saves heed it. -/
theorem adminKept_iff (row : ServerRow) (counts : Nat → Nat) (acts : List ServerAct) :
    Along act Keeps (start row counts) acts ↔ Along act Heeds (start row counts) acts :=
  along_keeps_iff_heeds (sound_start row counts)

def smallServer : ServerRow where
  settings := ⟨['s'], [], 22, [], [], .ssh, [], 100, 8443, [], [], 9090, []⟩
  status := .active
  health := ⟨0, 0, 0, 0⟩
  lastHealthCheck := none

/-- A check is on its way while the admin puts the server into maintenance. -/
theorem not_adminKept : ¬ ∀ (row : ServerRow) (counts : Nat → Nat) (acts : List ServerAct),
    Along act Keeps (start row counts) acts := by
  intro h
  have hrun := h smallServer (fun _ => 0)
    [.read (.checkAll 0), .setStatus .maintenance,
      .save 0 (some ⟨10, 20, 30, 40⟩) ⟨0, by decide⟩]
  exact hrun.2.2.1.1 rfl rfl

end ServerState

end SshPanelVpn.Panel

import SshPanelVpn.Panel.World

/-! Specifications of the panel's functions over the tables and one observation of the nodes, for
runs in which no remote step fails. -/
namespace SshPanelVpn.Panel

open Effects
open Effects.Prog (Triple)

/-- What is observed of the nodes, and which remote steps count as failed. -/
structure Observation (κ : Type) where
  remote : (Nat → Node) → κ
  failed : Event → Bool

/-- The tables, the open transactions and the observation. -/
structure View (κ : Type) where
  db : Db
  saved : List Db
  remote : κ

/-- An observation after a change on one server. -/
def onServer {α : Type} (r : Nat → α) (server : Nat) (f : α → α) : Nat → α :=
  Function.update r server (f (r server))

namespace View

variable {κ : Type}

def setAccounts (v : View κ) (accounts : AccountTable) : View κ :=
  { v with db := { v.db with accounts := accounts } }

def save (v : View κ) (account : Account) (fields : List AccountField) : View κ :=
  v.setAccounts (v.db.accounts.save account fields)

def audit (v : View κ) (entry : AuditLog) : View κ :=
  { v with db := { v.db with auditLog := entry :: v.db.auditLog } }

/-- A row of the table has the object's keys. -/
def Known (v : View κ) (a : Account) : Prop := ∃ row ∈ v.db.accounts, row.SameKeys a

theorem Known.save {v : View κ} {a obj : Account} {fields : List AccountField} (h : v.Known a) :
    (v.save obj fields).Known a := by
  obtain ⟨row, hrow, hk⟩ := h
  refine ⟨if row.id = obj.id then row.write obj fields else row,
    AccountTable.mem_save.mpr ⟨row, hrow, rfl⟩, ?_⟩
  split
  · exact (row.write_keys obj fields).symm.trans hk
  · exact hk

theorem Known.status {v : View κ} {a : Account} (h : v.Known a) (status : AccountStatus) :
    v.Known { a with status := status } := by
  obtain ⟨row, hrow, hk⟩ := h
  exact ⟨row, hrow, hk.trans ⟨rfl, rfl, rfl, rfl, rfl, rfl⟩⟩

end View

/-- The arguments that a request comes to, if its plan and its server are there. -/
def CreateRequest.resolve (r : CreateRequest) (db : Db) : Option CreateArgs :=
  match db.getPlan r.planId, r.serverId.map db.getServer with
  | some plan, none => if plan.isActive then some (r.args plan none) else none
  | some plan, some (some server) => if plan.isActive then some (r.args plan (some server)) else none
  | _, _ => none

/-- `extend` makes the row ACTIVE before anything looks at its status: an account of the protocol has
to be ACTIVE already, or the new end is out of range. -/
def ExtendsActive (protocol : Protocol) (env : Env) (a : Account) (days : Int) : Prop :=
  a.protocolType = protocol → a.status = .active ∨ ∀ a', a.extend env.now days ≠ .ok a'

/-- The password of a new user: the one given, or the one generated. -/
def passwordOf (env : Env) : Option Str → Str
  | some (c :: cs) => c :: cs
  | _ => env.password

/-- The new end that `duration_days` comes to. -/
def AccountUpdate.dateAt (data : AccountUpdate) (now : DateTime) : Except Exc (Option DateTime) :=
  match data.durationDays with
  | none => .ok none
  | some days => (now.addDays days).map some

namespace Observation

variable {κ : Type} (O : Observation κ)

/-- No remote step has failed so far. -/
def Ok (w : World) : Prop := ∀ e ∈ w.log, O.failed e = false

def view (w : World) : View κ := ⟨w.db, w.saved, O.remote w.nodes⟩

def Good (I : View κ → Prop) (w : World) : Prop := O.Ok w → I (O.view w)

theorem ok_logged {w : World} {e : Event} : O.Ok (w.logged e) ↔ O.failed e = false ∧ O.Ok w := by
  simp [Ok, World.logged]

@[simp] theorem view_logged (w : World) (e : Event) : O.view (w.logged e) = O.view w := rfl

theorem ok_of_handler {env : Env} {c : Call} {w : World} (h : O.Ok (World.handler env c w).2) :
    O.Ok w := fun e he => h e ((World.log_handler env c w).mem he)

/-- A failure is never undone. -/
theorem ok_of_run {α : Type} {env : Env} {p : PanelProg α} {w : World}
    (h : O.Ok (p.run (World.handler env) w).2) : O.Ok w := by
  by_contra hw
  exact Prog.run_invariant (H := World.handler env) (I := fun w => ¬ O.Ok w)
    (fun _ _ hn ho => hn (O.ok_of_handler ho)) p hw h

/-- From `I` the function returns in `A` or raises in `X`, unless a remote step fails. -/
def Spec {α : Type} (env : Env) (I : View κ → Prop) (p : PanelProg α) (A : α → View κ → Prop)
    (X : View κ → Prop) : Prop :=
  Triple (World.handler env) (O.Good I) p (fun a => O.Good (A a)) fun _ => O.Good X

namespace Spec

variable {O} {env : Env} {α β : Type} {I J X Y : View κ → Prop}
  {A : α → View κ → Prop} {B : β → View κ → Prop} {p : PanelProg α} {f : α → PanelProg β}

theorem ret {a : α} (h : ∀ v, I v → A a v) : O.Spec env I (.ret a) A X :=
  Triple.ret fun _ hw hok => h _ (hw hok)

theorem raise {e : Exc} (h : ∀ v, I v → X v) : O.Spec env I (.raise e : PanelProg α) A X :=
  Triple.raise fun _ hw hok => h _ (hw hok)

theorem bind (hp : O.Spec env I p A X) (hf : ∀ a, O.Spec env (A a) (f a) B X) :
    O.Spec env I (p >>= f) B X :=
  Triple.bind hp hf

theorem handle {h : Exc → PanelProg α} (hp : O.Spec env I p A X)
    (hh : ∀ e, O.Spec env X (h e) A Y) : O.Spec env I (p.handle h) A Y :=
  Triple.handle hp hh

theorem imp {A' : α → View κ → Prop} (hp : O.Spec env I p A X) (hI : ∀ v, J v → I v)
    (hA : ∀ a v, A a v → A' a v) (hX : ∀ v, X v → Y v) : O.Spec env J p A' Y :=
  Triple.imp hp (fun _ hw hok => hI _ (hw hok)) (fun _ _ hw hok => hA _ _ (hw hok))
    fun _ _ hw hok => hX _ (hw hok)

theorem pre (hp : O.Spec env I p A X) (hI : ∀ v, J v → I v) : O.Spec env J p A X :=
  hp.imp hI (fun _ _ h => h) fun _ h => h

theorem post {A' : α → View κ → Prop} (hp : O.Spec env I p A X) (hA : ∀ a v, A a v → A' a v) :
    O.Spec env I p A' X :=
  hp.imp (fun _ h => h) hA fun _ h => h

/-- A function that only fails with a remote step raises in anything. -/
theorem never (hp : O.Spec env I p A fun _ => False) : O.Spec env I p A X :=
  hp.imp (fun _ h => h) (fun _ _ h => h) fun _ h => h.elim

/-- It is enough to start from each single view. -/
theorem of_view (h : ∀ v₀, I v₀ → O.Spec env (fun v => v = v₀) p A X) : O.Spec env I p A X := by
  intro w hw
  by_cases hok : O.Ok w
  · exact h (O.view w) (hw hok) w fun _ => rfl
  · have hn : ¬ O.Ok (p.run (World.handler env) w).2 := fun h' => hok (O.ok_of_run h')
    cases hr : p.run (World.handler env) w with
    | mk x t =>
      rw [hr] at hn
      cases x with
      | ok a => exact fun h' => (hn h').elim
      | error e => exact fun h' => (hn h').elim

/-- A fact of the precondition that does not depend on the state. -/
theorem pure {φ : Prop} (h : φ → O.Spec env I p A X) : O.Spec env (fun v => φ ∧ I v) p A X :=
  of_view fun v₀ h₀ => (h h₀.1).pre fun v hv => by
    subst hv
    exact h₀.2

theorem ofExcept {x : Except Exc α} (hok : ∀ a v, x = .ok a → I v → A a v)
    (herr : ∀ e v, x = .error e → I v → X v) : O.Spec env I (Prog.ofExcept x) A X := by
  cases x with
  | ok a => exact ret fun v hv => hok a v rfl hv
  | error e => exact raise fun v hv => herr e v rfl hv

/-! Calls. -/

theorem ask {c : Call} {R : Reply c → View κ → Prop}
    (h : ∀ w, O.Ok (World.handler env c w).2 → I (O.view w) →
      R (World.handler env c w).1 (O.view (World.handler env c w).2)) :
    O.Spec env I (Panel.ask c) R X :=
  Triple.call (fun w hw hok => h w hok (hw (O.ok_of_handler hok))) fun _ => Triple.ret fun _ hw => hw

/-- A call that only reads. -/
theorem read {c : Call} (value : View κ → Reply c)
    (h : ∀ w, World.handler env c w = (value (O.view w), w)) :
    O.Spec env I (Panel.ask c) (fun r v => r = value v ∧ I v) X :=
  ask fun w _ hI => by
    rw [h w]
    exact ⟨rfl, hI⟩

theorem insertAccount (account : Account) :
    O.Spec env I (Panel.ask (.insertAccount account))
      (fun r v => match r with
        | .error _ => I v
        | .ok a => ∃ v₀ t, I v₀ ∧ v₀.db.accounts.insert account = some t ∧ v = v₀.setAccounts t ∧
            a = { account with id := v₀.db.accounts.nextId }) X := by
  refine ask ?_
  intro w _ hI
  simp only [World.handler, World.insertAccount]
  cases h : w.db.accounts.insert account with
  | none => exact hI
  | some t => exact ⟨O.view w, t, hI, h, rfl, rfl⟩

theorem saveAccount (account : Account) (fields : List AccountField) :
    O.Spec env (fun v => I (v.save account fields)) (Panel.ask (.saveAccount account fields))
      (fun _ => I) X :=
  ask fun _ _ hI => hI

theorem insertAuditLog (entry : AuditLog) :
    O.Spec env (fun v => I (v.audit entry)) (Panel.ask (.insertAuditLog entry)) (fun _ => I) X :=
  ask fun _ _ hI => hI

/-! Small functions. -/

theorem orHttp404 {x : Option α} (hI : ∀ v, I v → X v) :
    O.Spec env I (Panel.orHttp404 x) (fun a v => x = some a ∧ I v) X := by
  cases x with
  | some a => exact ret fun v hv => ⟨rfl, hv⟩
  | none => exact raise hI

theorem accountServer (account : Account) :
    O.Spec env I (Panel.accountServer account) (fun s v => s.id = account.server ∧ I v) I := by
  refine (read (fun v => v.db.getServer account.server) fun _ => rfl).bind ?_
  intro r
  refine (orHttp404 (x := r) fun _ h => h.2).post ?_
  rintro s v ⟨rfl, hr, hv⟩
  exact ⟨by simpa using List.find?_some hr.symm, hv⟩

theorem succeeded {body : PanelProg Unit} (h : O.Spec env I body (fun _ => J) J) :
    O.Spec env I (Panel.succeeded body) (fun _ => J) X :=
  (h.bind fun _ => ret fun _ hv => hv).handle fun _ => ret fun _ hv => hv

theorem logged {request : PanelProg ShadowLink.BridgeResponse}
    (h : O.Spec env I request (fun _ => J) J) : O.Spec env I (Panel.logged request) (fun _ => J) X :=
  (h.bind fun _ => ret fun _ hv => hv).handle fun _ => ret fun _ hv => hv

theorem countSucceeded {step : Account → PanelProg Unit} {accs : List Account}
    (h : ∀ acc ∈ accs, O.Spec env I (step acc) (fun _ => I) I) :
    O.Spec env I (Panel.countSucceeded step accs) (fun _ => I) X := by
  induction accs with
  | nil => exact ret fun _ hv => hv
  | cons acc accs ih =>
    refine (succeeded (h acc (by simp))).bind fun _ => ?_
    refine (ih fun a ha => h a (List.mem_cons_of_mem _ ha)).bind fun _ => ?_
    exact ret fun _ hv => hv

theorem syncAccounts {srv : Server} {accs : List Account}
    (h : ∀ acc ∈ accs, O.Spec env I (Panel.syncAccount srv acc) (fun _ => I) I) :
    O.Spec env I (Panel.syncAccounts srv accs) (fun _ => I) I := by
  induction accs with
  | nil => exact ret fun _ hv => hv
  | cons acc accs ih =>
    exact (h acc (by simp)).bind fun _ => ih fun a ha => h a (List.mem_cons_of_mem _ ha)

theorem syncServers {servers : List Server}
    (h : ∀ srv ∈ servers, O.Spec env I (Panel.syncServer srv) (fun _ => I) I) :
    O.Spec env I (Panel.syncServers servers) (fun _ => I) X := by
  induction servers with
  | nil => exact ret fun _ hv => hv
  | cons srv servers ih =>
    exact (succeeded (h srv (by simp))).bind fun _ => ih fun s hs => h s (List.mem_cons_of_mem _ hs)

/-- A service that finds its account. -/
theorem onAccount {pk : Nat} {service : Account → PanelProg Unit}
    (h : ∀ a, O.Spec env (fun v => v.db.getAccount pk = some a ∧ I v) (service a) (fun _ => J) J)
    (hIJ : ∀ v, I v → J v) : O.Spec env I (Panel.onAccount pk service) (fun _ => J) J := by
  refine (read (fun v => v.db.getAccount pk) fun _ => rfl).bind ?_
  intro r
  refine (orHttp404 (x := r) fun v hv => hIJ v hv.2).bind ?_
  intro a
  refine (h a).pre ?_
  rintro v ⟨rfl, hr, hv⟩
  exact ⟨hr.symm, hv⟩

/-! Choosing a server. -/

theorem isAvailable (server : Server) :
    O.Spec env I (Panel.isAvailable server) (fun b v => b = v.db.isAvailable server ∧ I v) X := by
  unfold Panel.isAvailable
  split
  · next hs =>
    refine (read (fun v => v.db.currentUserCount server.id) fun _ => rfl).bind ?_
    intro count
    refine ret ?_
    rintro v ⟨rfl, hv⟩
    exact ⟨by simp [Db.isAvailable, hs], hv⟩
  · next hs =>
    refine ret ?_
    intro v hv
    exact ⟨by simp [Db.isAvailable, hs], hv⟩

theorem firstAvailable (servers : List Server) :
    O.Spec env I (Panel.firstAvailable servers)
      (fun s v => servers.find? v.db.isAvailable = some s ∧ I v) I := by
  induction servers generalizing I with
  | nil => exact raise fun _ hv => hv
  | cons srv servers ih =>
    refine (isAvailable srv).bind ?_
    intro b
    cases b with
    | true =>
      refine ret ?_
      rintro v ⟨hb, hv⟩
      exact ⟨by simp [← hb], hv⟩
    | false =>
      refine (ih (I := fun v => false = v.db.isAvailable srv ∧ I v)).imp (fun _ h => h) ?_ fun _ h => h.2
      rintro s v ⟨hs, hb, hv⟩
      exact ⟨by simp [← hb, hs], hv⟩

theorem leastLoaded :
    O.Spec env I Panel.leastLoaded
      (fun s v => (v.db.activeServersByLoad env.ties).find? v.db.isAvailable = some s ∧ I v) I := by
  refine (read (fun v => v.db.activeServersByLoad env.ties) fun _ => rfl).bind ?_
  intro servers
  refine (firstAvailable servers).imp (fun _ h => h) ?_ fun _ h => h.2
  rintro s v ⟨hs, rfl, hv⟩
  exact ⟨hs, hv⟩

theorem pickBestServer (preferred : Option Server) :
    O.Spec env I (Panel.pickBestServer preferred)
      (fun s v => v.db.pickBestServer env.ties preferred = some s ∧ I v) I := by
  cases preferred with
  | none => exact leastLoaded
  | some server =>
    refine (isAvailable server).bind ?_
    intro b
    cases b with
    | true =>
      refine ret ?_
      rintro v ⟨hb, hv⟩
      exact ⟨by simp [Db.pickBestServer, ← hb], hv⟩
    | false =>
      refine leastLoaded.imp (fun _ h => h) ?_ fun _ h => h.2
      rintro s v ⟨hs, hb, hv⟩
      exact ⟨by simp [Db.pickBestServer, ← hb, hs], hv⟩

/-! Transactions. -/

/-- An exception in the body restores the tables. -/
theorem atomic {body : PanelProg α} {db₀ : Db} {saved₀ : List Db} {r₀ : κ}
    (h : O.Spec env (fun v => v = ⟨db₀, db₀ :: saved₀, r₀⟩) body
      (fun a v => v.saved = db₀ :: saved₀ ∧ A a ⟨v.db, saved₀, v.remote⟩)
      fun v => v.saved = db₀ :: saved₀ ∧ X ⟨db₀, saved₀, v.remote⟩) :
    O.Spec env (fun v => v = ⟨db₀, saved₀, r₀⟩) (Panel.atomic body) A X := by
  have hbegin : O.Spec env (fun v => v = ⟨db₀, saved₀, r₀⟩) (Panel.ask .begin)
      (fun _ v => v = ⟨db₀, db₀ :: saved₀, r₀⟩) X := by
    refine ask ?_
    intro w _ hv
    cases hv
    rfl
  have hrollback : O.Spec env (fun v => v.saved = db₀ :: saved₀ ∧ X ⟨db₀, saved₀, v.remote⟩)
      (Panel.ask .rollback) (fun _ => X) X := by
    refine ask ?_
    rintro w _ ⟨hs, hv⟩
    have hw : w.saved = db₀ :: saved₀ := hs
    simpa [World.handler, World.rollback, Observation.view, hw] using hv
  have hcommit : ∀ a, O.Spec env (fun v => v.saved = db₀ :: saved₀ ∧ A a ⟨v.db, saved₀, v.remote⟩)
      (Panel.ask .commit) (fun _ => A a) X := by
    intro a
    refine ask ?_
    rintro w _ ⟨hs, hv⟩
    have hw : w.saved = db₀ :: saved₀ := hs
    simpa [World.handler, Observation.view, hw] using hv
  refine hbegin.bind fun _ => ?_
  refine (h.handle fun e => hrollback.bind fun _ => raise fun _ hv => hv).bind fun a => ?_
  exact (hcommit a).bind fun _ => ret fun _ hv => hv

/-! Creating and renewing. -/

theorem passwordOr {password : Option Str} :
    O.Spec env I (Panel.passwordOr password) (fun r v => r = passwordOf env password ∧ I v) X := by
  rcases password with - | - | ⟨c, cs⟩
  · exact read (c := .generatePassword) (fun _ => env.password) fun _ => rfl
  · exact read (c := .generatePassword) (fun _ => env.password) fun _ => rfl
  · exact ret fun _ h => ⟨rfl, h⟩

/-- The new row and the node's side of it stand or fall together; what failed on the node stays. -/
theorem createAccount {args : CreateArgs} {v₀ : View κ}
    (h : ∀ server a account t, v₀.db.pickBestServer env.ties args.server = some server →
      a.server = server.id → a.protocolType = args.protocolType.getD server.protocolType →
      a.username = args.username → a.status = .active →
      v₀.db.accounts.insert a = some t → account = { a with id := v₀.db.accounts.nextId } →
      O.Spec env (fun v => v = View.setAccounts ⟨v₀.db, v₀.db :: v₀.saved, v₀.remote⟩ t)
        (provision account server (passwordOf env args.password))
        (fun _ v => v.saved = v₀.db :: v₀.saved ∧ J ⟨v.db, v₀.saved, v.remote⟩)
        fun v => v.saved = v₀.db :: v₀.saved ∧ J ⟨v₀.db, v₀.saved, v.remote⟩)
    (hJ : J v₀) (haudit : ∀ v entry, J v → J (v.audit entry)) :
    O.Spec env (fun v => v = v₀) (Panel.createAccount args) (fun _ => J) J := by
  obtain ⟨db₀, saved₀, r₀⟩ := v₀
  refine atomic ?_
  let v₁ : View κ := ⟨db₀, db₀ :: saved₀, r₀⟩
  have hexc : ∀ v, v = v₁ → v.saved = db₀ :: saved₀ ∧ J ⟨db₀, saved₀, v.remote⟩ := by
    rintro v rfl
    exact ⟨rfl, hJ⟩
  refine ((pickBestServer args.server).imp (fun _ h => h) (fun _ _ h => h) hexc).bind fun server => ?_
  refine passwordOr.bind fun password => .pure fun hpw => ?_
  subst hpw
  refine (read (fun _ => env.now) fun _ => rfl).bind fun now => .pure fun _ => ?_
  refine (ofExcept (A := fun _ v => v.db.pickBestServer env.ties args.server = some server ∧ v = v₁)
    (fun _ _ _ h => h) fun _ v _ h => hexc v h.2).bind fun expireDate => ?_
  refine (read (fun _ => env.tokens) fun _ => rfl).bind fun tokens => .pure fun _ => ?_
  have hserver : ∀ v : View κ, v.db.pickBestServer env.ties args.server = some server ∧ v = v₁ →
      db₀.pickBestServer env.ties args.server = some server ∧ v = v₁ := by
    rintro v ⟨hs, rfl⟩
    exact ⟨hs, rfl⟩
  refine Spec.pre (.pure fun hs => ?_) hserver
  let row := newAccount args server (passwordOf env args.password) expireDate tokens
  refine (insertAccount row).bind fun r => ?_
  refine (ofExcept (A := fun account v => ∃ t, db₀.accounts.insert row = some t ∧
    v = v₁.setAccounts t ∧ account = { row with id := db₀.accounts.nextId }) ?_ ?_).bind fun account => ?_
  · rintro account v rfl ⟨v', t, rfl, hi, hv, ha⟩
    exact ⟨t, hi, hv, ha⟩
  · rintro e v rfl hv
    exact hexc v hv
  refine of_view fun v₂ h₂ => ?_
  obtain ⟨t, hi, rfl, ha⟩ := h₂
  refine (h server row account t hs rfl rfl rfl rfl hi ha).bind fun _ => ?_
  refine Spec.bind ((insertAuditLog (I := fun v => v.saved = db₀ :: saved₀ ∧ J ⟨v.db, saved₀, v.remote⟩)
    _).pre ?_) fun _ => ret fun _ h => h
  rintro v ⟨hv, hj⟩
  exact ⟨hv, haudit _ _ hj⟩

theorem extend {a : Account} {days : Int}
    (h : ∀ a' v, a.extend env.now days = .ok a' → I v → J (v.save a' [.expireDate, .status]))
    (hIJ : ∀ v, I v → J v) :
    O.Spec env I (Panel.extend a days) (fun a' v => a.extend env.now days = .ok a' ∧ J v) J := by
  refine (read (fun _ => env.now) fun _ => rfl).bind fun now => .pure fun hnow => ?_
  subst hnow
  refine (ofExcept (A := fun a' v => a.extend env.now days = .ok a' ∧ I v)
    (fun _ _ he hv => ⟨he, hv⟩) fun _ v _ hv => hIJ v hv).bind fun a' => .pure fun he => ?_
  refine Spec.bind ((saveAccount _ _).pre fun v hv => h a' v he hv) fun _ => ret fun _ hv => ⟨he, hv⟩

theorem newDate {data : AccountUpdate} :
    O.Spec env I data.newDate (fun date v => data.dateAt env.now = .ok date ∧ I v) I := by
  unfold AccountUpdate.newDate
  cases hd : data.durationDays with
  | none => exact ret fun _ hv => ⟨by simp [AccountUpdate.dateAt, hd], hv⟩
  | some days =>
    refine (read (fun _ => env.now) fun _ => rfl).bind fun now => .pure fun hnow => ?_
    subst hnow
    refine (ofExcept (A := fun date v => env.now.addDays days = .ok date ∧ I v)
      (fun _ _ he hv => ⟨he, hv⟩) fun _ _ _ hv => hv).bind fun date => ret ?_
    rintro v ⟨he, hv⟩
    exact ⟨by simp [AccountUpdate.dateAt, hd, he, Except.map], hv⟩

theorem patchAccount {pk : Nat} {data : AccountUpdate}
    (hsave : ∀ a date v, v.db.getAccount pk = some a → data.dateAt env.now = .ok date → I v →
      J (v.save (data.apply a date) AccountField.all))
    (hpush : ∀ account, O.Spec env J (data.push account) (fun _ => J) J) (hIJ : ∀ v, I v → J v) :
    O.Spec env I (Panel.patchAccount pk data) (fun _ => J) J := by
  refine (read (fun v => v.db.getAccount pk) fun _ => rfl).bind fun r => ?_
  refine (orHttp404 (x := r) fun v hv => hIJ v hv.2).bind fun a => .pure fun hr => ?_
  subst hr
  refine (newDate.imp (fun _ hv => hv) (fun _ _ hv => hv) fun v hv => hIJ v hv.2).bind
    fun date => .pure fun hdate => ?_
  refine Spec.bind ((saveAccount (I := J) _ _).pre ?_) fun _ => ?_
  · rintro v ⟨ha, hv⟩
    exact hsave a date v ha.symm hdate hv
  · exact Spec.bind (succeeded (hpush _)) fun _ => ret fun _ hv => hv

theorem createAccountView {r : CreateRequest}
    (h : ∀ args, O.Spec env (fun v => r.resolve v.db = some args ∧ I v) (Panel.createAccount args)
      (fun _ => J) J) (hIJ : ∀ v, I v → J v) :
    O.Spec env I (Panel.createAccountView r) (fun _ => J) J := by
  have hplan : O.Spec env I (activePlan r.planId)
      (fun plan v => v.db.getPlan r.planId = some plan ∧ plan.isActive = true ∧ I v) J := by
    refine (read (fun v => v.db.getPlan r.planId) fun _ => rfl).bind fun x => ?_
    refine (orHttp404 (x := x) fun v hv => hIJ v hv.2).bind fun plan => ?_
    split
    · next ha =>
      refine ret ?_
      rintro v ⟨rfl, hp, hv⟩
      exact ⟨hp.symm, ha, hv⟩
    · exact raise fun v hv => hIJ v hv.2.2
  have hserver : ∀ plan, O.Spec env
      (fun v => v.db.getPlan r.planId = some plan ∧ plan.isActive = true ∧ I v) (lookupServer r.serverId)
      (fun server v => r.resolve v.db = some (r.args plan server) ∧ I v) J := by
    intro plan
    cases hs : r.serverId with
    | none =>
      refine ret ?_
      rintro v ⟨hp, ha, hv⟩
      exact ⟨by simp [CreateRequest.resolve, hp, hs, ha], hv⟩
    | some pk =>
      refine (read (fun v => v.db.getServer pk) fun _ => rfl).bind fun x => ?_
      refine (orHttp404 (x := x) fun v hv => hIJ v hv.2.2.2).bind fun server => ret ?_
      rintro v ⟨rfl, hx, hp, ha, hv⟩
      exact ⟨by simp [CreateRequest.resolve, hp, hs, ha, ← hx], hv⟩
  exact hplan.bind fun plan => (hserver plan).bind fun server => h _

theorem paymentWebhook {username : Str} {planId : Nat} {status : PaymentStatus}
    (hextend : ∀ plan a, O.Spec env (fun v => status = .paid ∧ v.db.getPlan planId = some plan ∧
      (v.db.selectAccounts (.renewable username)).head? = some a ∧ I v)
        (extendAccount a plan.durationDays none) (fun _ => J) J)
    (hcreate : ∀ plan, O.Spec env (fun v => status = .paid ∧ v.db.getPlan planId = some plan ∧
      (v.db.selectAccounts (.renewable username)).head? = none ∧ I v)
        (Panel.createAccount (.plain username plan)) (fun _ => J) J)
    (hIJ : ∀ v, I v → J v) :
    O.Spec env I (Panel.paymentWebhook username planId status) (fun _ => J) J := by
  unfold Panel.paymentWebhook
  split
  · exact ret hIJ
  · next hstatus =>
    have hpaid : status = .paid := not_not.mp hstatus
    refine (read (fun v => v.db.getPlan planId) fun _ => rfl).bind fun x => ?_
    refine (orHttp404 (x := x) fun v hv => hIJ v hv.2).bind fun plan => ?_
    refine (read (fun v => v.db.selectAccounts (.renewable username)) fun _ => rfl).bind fun accs => ?_
    split
    · next a ha =>
      refine Spec.bind ((hextend plan a).pre ?_) fun _ => ret fun _ hv => hv
      rintro v ⟨rfl, rfl, hx, hv⟩
      exact ⟨hpaid, hx.symm, ha, hv⟩
    · next ha =>
      have hbody := ((hcreate plan).bind fun account =>
        (ret fun _ hv => hv : O.Spec env J (.ret (WebhookResponse.created account)) (fun _ => J) J))
      refine Spec.pre (hbody.handle fun e => ?_) ?_
      · split
        · exact ret fun _ hv => hv
        · exact raise fun _ hv => hv
      · rintro v ⟨rfl, rfl, hx, hv⟩
        exact ⟨hpaid, hx.symm, ha, hv⟩

/-- The step of a run that an operation takes. -/
theorem step {op : Op} (h : O.Spec env I op.prog (fun _ => J) J) {w : World} (hI : O.Good I w) :
    O.Good J (w.step (op, env)) := by
  have hrun := h w hI
  unfold World.step
  cases hr : op.prog.run (World.handler env) w with
  | mk r t =>
    simp only [hr] at hrun
    cases r with
    | ok a => exact hrun
    | error e => exact hrun

end Spec

end Observation

end SshPanelVpn.Panel

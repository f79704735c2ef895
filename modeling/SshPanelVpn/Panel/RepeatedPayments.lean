import Mathlib.Data.List.Induction
import SshPanelVpn.Panel.CreateAccount
import SshPanelVpn.Panel.FailedChanges

/-! A paid notification that `PaymentWebhookView` receives more than once. -/
namespace SshPanelVpn.Panel

open Effects Runs
open Effects.Prog (run_bind)

/-- The tables that the handler and the other requests work on. -/
structure Store where
  servers : List Server
  plans : List Plan
  accounts : AccountTable

/-- A notification with the status `paid`. The handler does not read the order. -/
structure PaymentNotification where
  orderId : Str
  username : Str
  planId : Nat

/-- A delivery of the notification, with the nodes as it finds them, or any other request. -/
inductive Request where
  | paid (env : Env) (nodes : Nat → Node)
  | other (f : Store → Store)

def Request.isPaid : Request → Bool
  | paid _ _ => true
  | other _ => false

/-- The requests with the notification delivered only once. -/
def once : List Request → List Request
  | [] => []
  | .other f :: rs => .other f :: once rs
  | .paid env nodes :: rs => .paid env nodes :: rs.filter fun r => !r.isPaid

namespace Store

def db (st : Store) : Db := ⟨st.servers, st.plans, st.accounts, []⟩

def world (st : Store) (nodes : Nat → Node) : World := ⟨st.db, [], nodes, []⟩

/-- The tables after `PaymentWebhookView.post`. -/
def pay (n : PaymentNotification) (st : Store) (env : Env) (nodes : Nat → Node) : Store :=
  let w := ((paymentWebhook n.username n.planId .paid).run (World.handler env) (st.world nodes)).2
  ⟨w.db.servers, w.db.plans, w.db.accounts⟩

def serve (n : PaymentNotification) (st : Store) : Request → Store
  | .paid env nodes => st.pay n env nodes
  | .other f => f st

/-- The delivery has nothing to change: the plan is gone; or the extension is out of range, or is one
of no days for an account that is ACTIVE and not past its end; or no account can be created. -/
def Unmoved (n : PaymentNotification) (st : Store) (env : Env) (nodes : Nat → Node) : Prop :=
  ∀ plan, st.db.getPlan n.planId = some plan →
    match (st.db.selectAccounts (.renewable n.username)).head? with
    | some a => maxMicros < max a.expireDate.micros env.now.micros + plan.durationDays * microsPerDay ∨
        plan.durationDays = 0 ∧ env.now ≤ a.expireDate ∧ a.status = .active
    | none => ¬ (CreateArgs.plain n.username plan).Completes env (st.world nodes)

end Store

/-! One delivery. -/

theorem AccountTable.eq_of_rows {t t' : AccountTable} (h : t.rows = t'.rows) : t = t' := by
  cases t
  cases t'
  cases h
  rfl

/-- A save that says what the row says changes nothing, and no other. -/
theorem save_eq_self_iff {t : AccountTable} {a : Account} (ha : a ∈ t) (date : DateTime) :
    t.save { a with expireDate := date, status := .active } [.expireDate, .status] = t ↔
      date = a.expireDate ∧ a.status = .active := by
  constructor
  · intro h
    have hmem : { a with expireDate := date, status := .active } ∈
        t.save { a with expireDate := date, status := .active } [.expireDate, .status] :=
      AccountTable.mem_save.mpr ⟨a, ha, by simp [Account.write, Account.writeField]⟩
    rw [h] at hmem
    have heq := AccountTable.eq_of_id hmem ha rfl
    exact ⟨congrArg Account.expireDate heq, (congrArg Account.status heq).symm⟩
  · rintro ⟨rfl, hs⟩
    refine AccountTable.eq_of_rows (List.map_congr_left ?_ |>.trans (List.map_id _))
    intro row hrow
    by_cases hid : row.id = a.id
    · obtain rfl := AccountTable.eq_of_id hrow ha hid
      simp [Account.write, Account.writeField, ← hs]
    · simp [hid]

theorem DateTime.eq_iff {d e : DateTime} : d = e ↔ d.micros = e.micros := by
  cases d
  cases e
  simp

/-- Whether an extension goes through, and whether it changes anything. -/
theorem extend_keeps_iff {t : AccountTable} {a : Account} (ha : a ∈ t) (now : DateTime) (days : Nat) :
    (∀ a', a.extend now days = .ok a' → t.save a' [.expireDate, .status] = t) ↔
      maxMicros < max a.expireDate.micros now.micros + days * microsPerDay ∨
        days = 0 ∧ now ≤ a.expireDate ∧ a.status = .active := by
  have hnow : now ≤ a.expireDate ↔ now.micros ≤ a.expireDate.micros := Iff.rfl
  have hlatest : (a.expireDate.latest now).micros = max a.expireDate.micros now.micros := by
    unfold DateTime.latest
    simp only [hnow]
    split <;> omega
  have hlow := (a.expireDate.latest now).inRange.1
  unfold Account.extend DateTime.addDays
  split
  · next h =>
    split at h
    · cases h
    · next hout =>
      simp only [microsPerDay] at hout ⊢
      exact iff_of_true (by simp) (.inl (by omega))
  · next date h =>
    split at h
    · next hin =>
      cases h
      simp only [Except.ok.injEq, forall_eq', save_eq_self_iff ha]
      rw [DateTime.eq_iff, hnow]
      simp only [microsPerDay] at hin ⊢
      by_cases hs : a.status = .active
      · simp only [hs, and_true]
        omega
      · simp only [hs, and_false, or_false, false_iff]
        omega
    · cases h

theorem db_paymentWebhook (env : Env) (username : Str) (planId : Nat) (w : World) :
    ((paymentWebhook username planId .paid).run (World.handler env) w).2.db =
      match w.db.getPlan planId with
      | none => w.db
      | some plan =>
        match (w.db.selectAccounts (.renewable username)).head? with
        | some a => ((extendAccount a plan.durationDays none).run (World.handler env) w).2.db
        | none => ((createAccount (.plain username plan)).run (World.handler env) w).2.db := by
  unfold paymentWebhook
  simp only [ne_eq, not_true_eq_false, if_false, Prog.perform_bind, Prog.run_call, World.handler]
  cases hplan : w.db.getPlan planId with
  | none => rfl
  | some plan =>
    simp only [orHttp404, Prog.ret_bind, Prog.run_call, World.handler]
    cases hhead : (w.db.selectAccounts (.renewable username)).head? with
    | some a =>
      dsimp only
      rw [run_bind]
      rcases (extendAccount a plan.durationDays none).run (World.handler env) w with ⟨x | x, t⟩ <;> rfl
    | none =>
      dsimp only
      rw [Prog.run_handle, run_bind]
      rcases (createAccount (.plain username plan)).run (World.handler env) w with ⟨x | x, t⟩
      · dsimp only
        split <;> rfl
      · rfl

namespace Store

variable {n : PaymentNotification} {st : Store} {env : Env} {nodes : Nat → Node}

theorem pay_eq_self_iff : st.pay n env nodes = st ↔ st.Unmoved n env nodes := by
  have hdb : st.pay n env nodes = st ↔
      ((paymentWebhook n.username n.planId .paid).run (World.handler env) (st.world nodes)).2.db.servers =
        st.servers ∧ ((paymentWebhook n.username n.planId .paid).run (World.handler env)
          (st.world nodes)).2.db.plans = st.plans ∧
        ((paymentWebhook n.username n.planId .paid).run (World.handler env)
          (st.world nodes)).2.db.accounts = st.accounts := by
    rcases st with ⟨servers, plans, accounts⟩
    simp only [pay, Store.mk.injEq]
  rw [hdb, db_paymentWebhook]
  unfold Unmoved
  have hworld : (st.world nodes).db = st.db := rfl
  rw [hworld]
  cases st.db.getPlan n.planId with
  | none => exact iff_of_true ⟨rfl, rfl, rfl⟩ (by simp)
  | some plan =>
    simp only [Option.some.injEq, forall_eq']
    cases hhead : (st.db.selectAccounts (.renewable n.username)).head? with
    | some a =>
      dsimp only
      have hmem : a ∈ st.accounts := Db.mem_of_head? hhead
      rw [db_extendAccount, ← extend_keeps_iff hmem env.now plan.durationDays]
      cases a.extend env.now plan.durationDays with
      | error e => exact iff_of_true ⟨rfl, rfl, rfl⟩ (by simp)
      | ok a' =>
        simp only [Except.ok.injEq, forall_eq']
        exact ⟨fun h => h.2.2, fun h => ⟨rfl, rfl, h⟩⟩
    | none =>
      dsimp only
      rw [← isOk_createAccount]
      rcases hr : (createAccount (.plain n.username plan)).run (World.handler env) (st.world nodes) with
        ⟨e | a, w⟩
      · have hsame := CreateArgs.db_failed hr
        rw [hsame]
        exact iff_of_true ⟨rfl, rfl, rfl⟩ (by simp [Except.isOk, Except.toBool])
      · have hrows := CreateArgs.rows_created hr
        refine iff_of_false ?_ (by simp [Except.isOk, Except.toBool])
        rintro ⟨-, -, hacc⟩
        have hlen := congrArg List.length hrows
        have heq : w.db.accounts.rows = st.accounts.rows := congrArg AccountTable.rows hacc
        rw [heq] at hlen
        simp [world, db] at hlen

end Store

/-! Any number of deliveries. -/

theorem once_paid (rs : List Request) (env : Env) (nodes : Nat → Node) :
    once (rs ++ [Request.paid env nodes]) =
      if rs.any Request.isPaid = true then once rs else once rs ++ [Request.paid env nodes] := by
  induction rs with
  | nil => rfl
  | cons r rs ih =>
    cases r with
    | paid env' nodes' => simp [once, Request.isPaid]
    | other f =>
      simp only [List.cons_append, once, ih, List.any_cons, Request.isPaid, Bool.false_or]
      split <;> rfl

theorem once_other (rs : List Request) (f : Store → Store) :
    once (rs ++ [Request.other f]) = once rs ++ [Request.other f] := by
  induction rs with
  | nil => rfl
  | cons r rs ih =>
    cases r with
    | paid env' nodes' => simp [once, Request.isPaid]
    | other g => simp [once, ih]

theorem prefix_snoc_iff {α : Type} {P : List α → Prop} {as : List α} {a : α} :
    (∀ xs, xs <+: as ++ [a] → P xs) ↔ (∀ xs, xs <+: as → P xs) ∧ P (as ++ [a]) := by
  simp only [List.prefix_concat_iff]
  exact ⟨fun h => ⟨fun xs hx => h xs (.inr hx), h _ (.inl rfl)⟩, fun h xs hx =>
    hx.elim (fun he => he ▸ h.2) (h.1 xs)⟩

/-- Delivering a paid notification again and again, between any other requests, comes to the same as
delivering it once just when each delivery but the first has nothing to change. -/
theorem deliveries_as_once_iff (n : PaymentNotification) (st : Store) (rs : List Request) :
    (∀ xs, xs <+: rs → after (Store.serve n) st xs = after (Store.serve n) st (once xs)) ↔
      ∀ xs env nodes, xs ++ [Request.paid env nodes] <+: rs → xs.any Request.isPaid = true →
        (after (Store.serve n) st xs).Unmoved n env nodes := by
  induction rs using List.reverseRecOn with
  | nil =>
    simp only [List.prefix_nil, List.append_eq_nil_iff, List.cons_ne_self, and_false, false_implies,
      implies_true, iff_true, forall_eq]
    rfl
  | append_singleton rs r ih =>
    rw [prefix_snoc_iff, ih]
    cases r with
    | other f =>
      have hnew : ∀ xs env nodes, xs ++ [Request.paid env nodes] <+: rs ++ [Request.other f] ↔
          xs ++ [Request.paid env nodes] <+: rs := fun xs env nodes => by
        rw [List.prefix_concat_iff, or_iff_right]
        intro h
        cases (List.append_inj' h rfl).2
      simp only [hnew, and_iff_left_iff_imp]
      intro hrs
      rw [once_other, after_append, after_append, ih.mpr hrs rs List.prefix_rfl]
    | paid env nodes =>
      have hnew : ∀ xs env' nodes', xs ++ [Request.paid env' nodes'] <+: rs ++ [Request.paid env nodes] ↔
          xs = rs ∧ env' = env ∧ nodes' = nodes ∨ xs ++ [Request.paid env' nodes'] <+: rs := by
        intro xs env' nodes'
        rw [List.prefix_concat_iff]
        refine or_congr_left ⟨fun h => ?_, by rintro ⟨rfl, rfl, rfl⟩; rfl⟩
        obtain ⟨rfl, hp⟩ := List.append_inj' h rfl
        cases hp
        exact ⟨rfl, rfl, rfl⟩
      have hlast : (∀ xs, xs <+: rs → after (Store.serve n) st xs = after (Store.serve n) st (once xs)) →
          (after (Store.serve n) st (rs ++ [Request.paid env nodes]) =
            after (Store.serve n) st (once (rs ++ [Request.paid env nodes])) ↔
          (rs.any Request.isPaid = true → (after (Store.serve n) st rs).Unmoved n env nodes)) := by
        intro hrs
        rw [once_paid]
        split
        · next hpaid =>
          rw [after_append, ← hrs rs List.prefix_rfl, ← Store.pay_eq_self_iff]
          exact ⟨fun h _ => h, fun h => h hpaid⟩
        · next hpaid =>
          rw [after_append, after_append, hrs rs List.prefix_rfl]
          exact iff_of_true rfl fun h => absurd h hpaid
      constructor
      · rintro ⟨hrs, hend⟩ xs env' nodes' hx hany
        obtain ⟨rfl, rfl, rfl⟩ | hx := (hnew xs env' nodes').mp hx
        · exact (hlast (ih.mpr hrs)).mp hend hany
        · exact hrs xs env' nodes' hx hany
      · intro hall
        have hrs := fun xs env' nodes' hx => hall xs env' nodes' ((hnew xs env' nodes').mpr (.inr hx))
        exact ⟨hrs, (hlast (ih.mpr hrs)).mpr (hall rs env nodes List.prefix_rfl)⟩

/-- A renewal of an ACTIVE account adds its days again with each delivery. -/
theorem not_deliveries_as_once :
    ¬ ∀ (n : PaymentNotification) (st : Store) (rs : List Request),
      after (Store.serve n) st rs = after (Store.serve n) st (once rs) := by
  intro h
  let n : PaymentNotification := ⟨"order".toList, (NodeChange.sampleAccount .ssh).username, samplePlan.id⟩
  let st : Store := ⟨[sampleServer], [samplePlan], NodeChange.sampleAccounts .ssh⟩
  let delivery := Request.paid (sampleEnv 0) fun _ => ⟨∅, ⟨∅, []⟩⟩
  have htwice := h n st [delivery, delivery]
  have hdates := congrArg (fun st => st.accounts.rows.map fun a => a.expireDate.micros) htwice
  revert hdates
  decide +kernel

end SshPanelVpn.Panel

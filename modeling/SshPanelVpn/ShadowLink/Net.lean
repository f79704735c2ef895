import SshPanelVpn.Library.Effects
import SshPanelVpn.Library.Runs
import SshPanelVpn.ShadowLink.Transport

/-! Two programs at the ends of one WebSocket connection that delivers every message. -/
namespace SshPanelVpn.ShadowLink

open Octets Effects Runs

inductive Endpoint where
  | client
  | server
  deriving DecidableEq, Repr

/-- The methods of `WSConn` that a program calls, and what they return to it. -/
inductive ConnCall where
  | read (n : Nat)
  | write (p : Bytes)
  | close
  deriving DecidableEq, Repr

abbrev ConnReply : ConnCall → Type
  | .read _ => Result Bytes
  | .write _ => Result Unit
  | .close => Unit

abbrev ConnProg (α : Type) := Prog ConnCall ConnReply Fault α

/-- One end: its program so far, its side of the connection, and whether it has closed it. -/
structure Peer (α : Type) where
  prog : ConnProg α
  conn : WSConn
  closed : Bool

namespace WSConn

/-- There is nothing to read. -/
def Drained (w : WSConn) : Prop := w.readBuf = [] ∧ w.inbox = []

instance (w : WSConn) : Decidable w.Drained := inferInstanceAs (Decidable (_ ∧ _))

theorem not_drained_deliver (w : WSConn) (m : Bytes) : ¬ (w.deliver m).Drained := by
  simp [Drained, deliver]

/-- A message that arrives behind others does not change what a read returns. -/
theorem read_deliver {w : WSConn} (h : ¬ w.Drained) (m : Bytes) (n : Nat) :
    (w.deliver m).read n = ((w.read n).1, (w.read n).2.deliver m) := by
  rcases w with ⟨_ | ⟨b, bs⟩, _ | ⟨msg, inbox⟩, limit⟩
  · exact (h ⟨rfl, rfl⟩).elim
  · by_cases hw : withinLimit limit msg = true
    · simp [read, deliver, hw]
    · simp [read, deliver, hw]
  · simp [read, deliver]
  · simp [read, deliver]

end WSConn

namespace Peer

variable {α : Type} {p q : Peer α} {c c' : Bool} {m : Option Bytes}

/-- The next call of an end, with the message it sends. A read with nothing to read waits until
something arrives or the other end has closed the connection. -/
def act (p : Peer α) (peerClosed : Bool) : Option (Peer α × Option Bytes) :=
  match p.prog with
  | .ret _ => none
  | .raise _ => none
  | .call (.write msg) k =>
    if p.closed then
      some ({ p with prog := k (failWith "websocket: close sent") }, none)
    else
      some ({ p with prog := k (.ok ()) }, some msg)
  | .call (.read n) k =>
    if p.closed then
      some ({ p with prog := k (failWith "use of closed network connection") }, none)
    else if p.conn.Drained ∧ peerClosed = false then
      none
    else
      some ({ p with prog := k (p.conn.read n).1, conn := (p.conn.read n).2 }, none)
  | .call .close k => some ({ p with prog := k (), closed := true }, none)

/-- The transport hands over what the other end has sent, if anything. -/
def receive (p : Peer α) : Option Bytes → Peer α
  | none => p
  | some msg => { p with conn := p.conn.deliver msg }

@[simp] theorem receive_closed (p : Peer α) (m : Option Bytes) :
    (p.receive m).closed = p.closed := by
  cases m <;> rfl

@[simp] theorem receive_prog (p : Peer α) (m : Option Bytes) : (p.receive m).prog = p.prog := by
  cases m <;> rfl

@[simp] theorem receive_readBuf (p : Peer α) (m : Option Bytes) :
    (p.receive m).conn.readBuf = p.conn.readBuf := by
  cases m <;> rfl

/-- An end that has closed the connection stays closed and sends nothing. -/
theorem act_closed (h : p.act c = some (q, m)) (hp : p.closed = true) :
    q.closed = true ∧ m = none := by
  unfold act at h
  split at h
  · cases h
  · cases h
  · rw [if_pos hp] at h
    cases h
    exact ⟨hp, rfl⟩
  · rw [if_pos hp] at h
    cases h
    exact ⟨hp, rfl⟩
  · cases h
    exact ⟨rfl, rfl⟩

/-- What the other end does meanwhile does not change the outcome of a call that can be made. -/
theorem act_receive (h : p.act c = some (q, m)) (msg : Option Bytes)
    (hc : c = true → c' = true ∧ msg = none) :
    (p.receive msg).act c' = some (q.receive msg, m) := by
  rcases p with ⟨prog, conn, closed⟩
  cases prog with
  | ret a => cases h
  | raise e => cases h
  | call e k =>
    cases e with
    | write p =>
      cases closed <;> cases msg <;> cases h <;> rfl
    | close =>
      cases msg <;> cases h <;> rfl
    | read n =>
      cases closed with
      | true => cases msg <;> cases h <;> rfl
      | false =>
        by_cases hw : conn.Drained ∧ c = false
        · simp [act, hw] at h
        · simp only [act, hw, Bool.false_eq_true, if_false, Option.some.injEq, Prod.mk.injEq] at h
          obtain ⟨rfl, rfl⟩ := h
          cases msg with
          | none =>
            have hw' : ¬ (conn.Drained ∧ c' = false) := by
              rintro ⟨hd, hf⟩
              cases c with
              | true => simp [(hc rfl).1] at hf
              | false => exact hw ⟨hd, rfl⟩
            simp [act, receive, hw']
          | some msg =>
            have hd : ¬ conn.Drained := by
              intro hd
              cases c with
              | true => cases (hc rfl).2
              | false => exact hw ⟨hd, rfl⟩
            simp [act, receive, WSConn.not_drained_deliver, WSConn.read_deliver hd]

end Peer

structure Net (α β : Type) where
  client : Peer α
  server : Peer β

namespace Net

variable {α β : Type} {s t : Net α β} {e : Endpoint}

/-- The next call of one end. -/
def step (s : Net α β) : Endpoint → Option (Net α β)
  | .client => (s.client.act s.server.closed).map fun (p, m) => ⟨p, s.server.receive m⟩
  | .server => (s.server.act s.client.closed).map fun (p, m) => ⟨s.client.receive m, p⟩

def Step (s : Net α β) (e : Endpoint) (t : Net α β) : Prop := s.step e = some t

theorem step_client_iff : Step s .client t ↔ ∃ p m, s.client.act s.server.closed = some (p, m) ∧
    t = ⟨p, s.server.receive m⟩ := by
  simp [Step, step, eq_comm]

theorem step_server_iff : Step s .server t ↔ ∃ p m, s.server.act s.client.closed = some (p, m) ∧
    t = ⟨s.client.receive m, p⟩ := by
  simp [Step, step, eq_comm]

/-- Calls of the two ends can be made in either order. -/
theorem swap_client_server {u : Net α β} (hc : Step s .client t) (hs : Step s .server u) :
    ∃ v, Step t .server v ∧ Step u .client v := by
  obtain ⟨p, m, hp, rfl⟩ := step_client_iff.mp hc
  obtain ⟨q, n, hq, rfl⟩ := step_server_iff.mp hs
  have hq' : (s.server.receive m).act p.closed = some (q.receive m, n) :=
    Peer.act_receive hq m (Peer.act_closed hp)
  have hp' : (s.client.receive n).act q.closed = some (p.receive n, m) :=
    Peer.act_receive hp n (Peer.act_closed hq)
  exact ⟨⟨p.receive n, q.receive m⟩, step_server_iff.mpr ⟨_, _, hq', rfl⟩,
    step_client_iff.mpr ⟨_, _, hp', rfl⟩⟩

theorem commuting : Commuting (Step (α := α) (β := β)) where
  unique h h' := Option.some.inj (h.symm.trans h')
  swap := by
    intro s a b t u hab ha hb
    cases a with
    | client =>
      cases b with
      | client => exact (hab rfl).elim
      | server => exact swap_client_server ha hb
    | server =>
      cases b with
      | client =>
        obtain ⟨v, hv, hv'⟩ := swap_client_server hb ha
        exact ⟨v, hv', hv⟩
      | server => exact (hab rfl).elim

/-- The net after the calls of a schedule, if all of them can be made. -/
def runSchedule : List Endpoint → Net α β → Option (Net α β)
  | [], s => some s
  | e :: es, s => (s.step e).bind (runSchedule es)

theorem run_of_runSchedule {es : List Endpoint} (h : runSchedule es s = some t) :
    Run Step s es t := by
  induction es generalizing s with
  | nil =>
    cases h
    exact .refl _
  | cons e es ih =>
    obtain ⟨u, hu, hr⟩ := Option.bind_eq_some_iff.mp h
    exact .step hu (ih hr)

/-- An end whose program is over makes no call. -/
theorem stopped_of_done {s : Net α β} (hc : s.client.act s.server.closed = none)
    (hs : s.server.act s.client.closed = none) : Stopped Step s := by
  intro e t hst
  cases e <;> simp [Step, step, hc, hs] at hst

/-- An end that has returned stays as it is: the other end cannot touch its read buffer. -/
theorem server_returned_step {b : β} (hst : Step s e t) (h : s.server.prog = .ret b) :
    t.server.prog = .ret b ∧ t.server.conn.readBuf = s.server.conn.readBuf := by
  cases e with
  | client =>
    obtain ⟨p, m, -, rfl⟩ := step_client_iff.mp hst
    simp [h]
  | server =>
    obtain ⟨p, m, hp, -⟩ := step_server_iff.mp hst
    simp [Peer.act, h] at hp

theorem client_returned_step {a : α} (hst : Step s e t) (h : s.client.prog = .ret a) :
    t.client.prog = .ret a ∧ t.client.conn.readBuf = s.client.conn.readBuf := by
  cases e with
  | client =>
    obtain ⟨p, m, hp, -⟩ := step_client_iff.mp hst
    simp [Peer.act, h] at hp
  | server =>
    obtain ⟨p, m, -, rfl⟩ := step_server_iff.mp hst
    simp [h]

theorem server_returned_run {b : β} {es : List Endpoint} (hr : Run Step s es t)
    (h : s.server.prog = .ret b) :
    t.server.prog = .ret b ∧ t.server.conn.readBuf = s.server.conn.readBuf := by
  induction hr with
  | refl => exact ⟨h, rfl⟩
  | step hst _ ih =>
    obtain ⟨hp, hb⟩ := server_returned_step hst h
    obtain ⟨hp', hb'⟩ := ih hp
    exact ⟨hp', hb'.trans hb⟩

theorem client_returned_run {a : α} {es : List Endpoint} (hr : Run Step s es t)
    (h : s.client.prog = .ret a) :
    t.client.prog = .ret a ∧ t.client.conn.readBuf = s.client.conn.readBuf := by
  induction hr with
  | refl => exact ⟨h, rfl⟩
  | step hst _ ih =>
    obtain ⟨hp, hb⟩ := client_returned_step hst h
    obtain ⟨hp', hb'⟩ := ih hp
    exact ⟨hp', hb'.trans hb⟩

end Net

end SshPanelVpn.ShadowLink

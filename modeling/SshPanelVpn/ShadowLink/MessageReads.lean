import SshPanelVpn.Library.Runs
import SshPanelVpn.ShadowLink.Transport

/-! What the reads of a WebSocket connection have returned, beside the messages it has received. -/
namespace SshPanelVpn.ShadowLink

open Octets Runs

/-- A connection, the messages that its peer has sent and what each read has returned. -/
structure ReadLog where
  conn : WSConn
  arrived : List Bytes
  returned : List Bytes
  deriving DecidableEq, Repr

inductive ReadEvent where
  | message (msg : Bytes)
  | read (n : Nat)

namespace ReadLog

/-- `NewWSConn`. -/
def opened (readLimit : Nat) : ReadLog := ⟨⟨[], [], readLimit⟩, [], []⟩

def step (s : ReadLog) : ReadEvent → ReadLog
  | .message msg => { s with conn := s.conn.deliver msg, arrived := s.arrived ++ [msg] }
  | .read n =>
    match s.conn.read n with
    | (.ok b, conn) => { s with conn := conn, returned := s.returned ++ [b] }
    | (.error _, conn) => { s with conn := conn }

/-- The messages that `ReadMessage` has returned: those that wait no longer. -/
def received (s : ReadLog) : List Bytes := s.arrived.take (s.arrived.length - s.conn.inbox.length)

variable {s t : ReadLog} {n : Nat} {b msg : Bytes} {earlier inbox : List Bytes}

theorem received_eq (h : s.arrived = earlier ++ s.conn.inbox) : s.received = earlier := by
  rw [received, h, List.length_append, Nat.add_sub_cancel, List.take_left]

/-- What is still in the buffer is the end of the last message received. -/
structure InStep (s : ReadLog) : Prop where
  waiting : s.arrived = s.received ++ s.conn.inbox
  stream : s.returned.flatten ++ s.conn.readBuf = s.received.flatten
  rest : s.conn.readBuf ≠ [] → ∃ earlier msg, s.received = earlier ++ [msg] ∧ s.conn.readBuf <:+ msg

/-- The three ways a read can go, with what it makes of the log. -/
theorem step_read_cases (h : s.InStep) (n : Nat) :
    (s.conn.readBuf ≠ [] ∧ (s.step (.read n)).received = s.received ∧
      s.step (.read n) =
        { s with
          conn := { s.conn with readBuf := s.conn.readBuf.drop n }
          returned := s.returned ++ [s.conn.readBuf.take n] }) ∨
    (∃ msg inbox, s.conn.readBuf = [] ∧ s.conn.inbox = msg :: inbox ∧
      (s.step (.read n)).received = s.received ++ [msg] ∧
      s.step (.read n) =
        { s with
          conn := { s.conn with readBuf := msg.drop n, inbox := inbox }
          returned := s.returned ++ [msg.take n] }) ∨
    ((∃ e, (s.conn.read n).1 = .error e) ∧ s.step (.read n) = s) := by
  rcases s.conn.read_cases n with ⟨hb, hr⟩ | ⟨msg, inbox, hb, hi, -, hr⟩ | ⟨e, -, -, hr⟩
  · have hs : s.step (.read n) =
        { s with
          conn := { s.conn with readBuf := s.conn.readBuf.drop n }
          returned := s.returned ++ [s.conn.readBuf.take n] } := by
      simp only [step, hr]
    refine .inl ⟨hb, ?_, hs⟩
    rw [hs]
    rfl
  · have hs : s.step (.read n) =
        { s with
          conn := { s.conn with readBuf := msg.drop n, inbox := inbox }
          returned := s.returned ++ [msg.take n] } := by
      simp only [step, hr]
    refine .inr (.inl ⟨msg, inbox, hb, hi, ?_, hs⟩)
    apply received_eq
    have hwaiting := h.waiting
    rw [hi] at hwaiting
    rw [hs, List.append_assoc]
    exact hwaiting
  · refine .inr (.inr ⟨⟨e, by rw [hr]⟩, ?_⟩)
    simp only [step, hr]

theorem inStep_opened (readLimit : Nat) : (opened readLimit).InStep :=
  ⟨rfl, rfl, fun h => (h rfl).elim⟩

theorem inStep_step (h : s.InStep) (e : ReadEvent) : (s.step e).InStep := by
  cases e with
  | message msg =>
    have hreceived : (s.step (.message msg)).received = s.received := by
      apply received_eq
      change s.arrived ++ [msg] = s.received ++ (s.conn.inbox ++ [msg])
      rw [← List.append_assoc, ← h.waiting]
    refine ⟨?_, ?_, ?_⟩
    · rw [hreceived]
      change s.arrived ++ [msg] = s.received ++ (s.conn.inbox ++ [msg])
      rw [← List.append_assoc, ← h.waiting]
    · rw [hreceived]
      exact h.stream
    · rw [hreceived]
      exact h.rest
  | read n =>
    rcases step_read_cases h n with ⟨hb, hreceived, hs⟩ | ⟨msg, inbox, hb, hi, hreceived, hs⟩ | ⟨-, hs⟩
    · obtain ⟨earlier, msg, hlast, hrest⟩ := h.rest hb
      refine ⟨?_, ?_, ?_⟩
      · rw [hreceived, hs]
        exact h.waiting
      · rw [hreceived, hs, ← h.stream]
        simp
      · rw [hreceived, hs]
        intro _
        exact ⟨earlier, msg, hlast, (List.drop_suffix n _).trans hrest⟩
    · have hstream := h.stream
      rw [hb, List.append_nil] at hstream
      refine ⟨?_, ?_, ?_⟩
      · rw [hreceived, hs, List.append_assoc]
        have hwaiting := h.waiting
        rwa [hi] at hwaiting
      · rw [hreceived, hs]
        simp [hstream]
      · rw [hreceived, hs]
        intro _
        exact ⟨s.received, msg, rfl, List.drop_suffix n msg⟩
    · rwa [hs]

theorem inStep_after (h : s.InStep) (es : List ReadEvent) : (after step s es).InStep := by
  induction es generalizing s with
  | nil => exact h
  | cons e es ih => exact ih (inStep_step h e)

/-- The bytes are of one message: they follow what has been returned of it, and what follows them
in it stays in the buffer. -/
def OfOneMessage (s : ReadLog) (n : Nat) (b : Bytes) : Prop :=
  ∃ earlier front, (s.step (.read n)).received =
      earlier ++ [front ++ b ++ (s.step (.read n)).conn.readBuf] ∧
    s.returned.flatten = earlier.flatten ++ front

theorem ofOneMessage_of_read (h : s.InStep) (hr : (s.conn.read n).1 = .ok b) : s.OfOneMessage n b := by
  have hreturned : (s.step (.read n)).returned = s.returned ++ [b] := by
    simp only [step]
    split
    · next b' conn heq =>
      rw [heq] at hr
      cases hr
      rfl
    · next e conn heq =>
      rw [heq] at hr
      cases hr
  rcases step_read_cases h n with ⟨hb, hreceived, hs⟩ | ⟨msg, inbox, hb, -, hreceived, hs⟩ | ⟨⟨e, he⟩, -⟩
  · obtain ⟨earlier, msg, hlast, front, hfront⟩ := h.rest hb
    rw [hs] at hreturned
    obtain rfl : s.conn.readBuf.take n = b := by simpa using hreturned
    refine ⟨earlier, front, ?_, ?_⟩
    · rw [hreceived, hs, hlast, List.append_assoc, List.take_append_drop, hfront]
    · have hstream := h.stream
      rw [hlast, ← hfront] at hstream
      simpa [← List.append_assoc] using hstream
  · rw [hs] at hreturned
    obtain rfl : msg.take n = b := by simpa using hreturned
    refine ⟨s.received, [], ?_, ?_⟩
    · rw [hreceived, hs, List.nil_append, List.take_append_drop]
    · have hstream := h.stream
      rw [hb] at hstream
      simpa using hstream
  · rw [he] at hr
    cases hr

/-- Whatever arrives and however it is read, the reads have returned the messages received but for
the end that is in the buffer. A read takes at most one more message, and only when the buffer is
empty, and what it returns is of one message. -/
theorem reads_follow_messages (readLimit : Nat) (es : List ReadEvent) :
    let s := after step (opened readLimit) es
    s.returned.flatten ++ s.conn.readBuf = s.received.flatten ∧
      s.arrived = s.received ++ s.conn.inbox ∧
      ∀ n, ((s.step (.read n)).received = s.received ∨
          s.conn.readBuf = [] ∧ ∃ msg, (s.step (.read n)).received = s.received ++ [msg]) ∧
        ∀ b, (s.conn.read n).1 = .ok b → b.length ≤ n ∧ s.OfOneMessage n b := by
  intro s
  have h : s.InStep := inStep_after (inStep_opened readLimit) es
  refine ⟨h.stream, h.waiting, fun n => ⟨?_, ?_⟩⟩
  · rcases step_read_cases h n with ⟨-, hreceived, -⟩ | ⟨msg, -, hb, -, hreceived, -⟩ | ⟨-, hs⟩
    · exact .inl hreceived
    · exact .inr ⟨hb, msg, hreceived⟩
    · exact .inl (congrArg received hs)
  · intro b hr
    exact ⟨(s.conn.read_ok (Prod.ext hr rfl)).2, ofOneMessage_of_read h hr⟩

end ReadLog

end SshPanelVpn.ShadowLink

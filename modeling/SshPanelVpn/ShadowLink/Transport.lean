import Mathlib.Data.List.TakeWhile
import SshPanelVpn.Library.ByteStream
import SshPanelVpn.ShadowLink.Crypto

/-! `internal/transport/ws.go`: a WebSocket connection read as a byte stream. -/
namespace SshPanelVpn.ShadowLink

open Octets ByteStream

abbrev maxMessageSize : Nat := 128 * 1024

/-- `inbox` holds the messages that `ReadMessage` will return, in order, before the connection
ends. A positive `readLimit` is gorilla's `SetReadLimit`, which only the dialling side calls. -/
structure WSConn where
  readBuf : Bytes
  inbox : List Bytes
  readLimit : Nat
  deriving DecidableEq, Repr

/-- Gorilla accepts a message within the limit, zero meaning no limit. -/
def withinLimit (limit : Nat) (msg : Bytes) : Bool := limit == 0 || msg.length ≤ limit

namespace WSConn

/-- `Read` into a buffer of `n` bytes. -/
def read (w : WSConn) (n : Nat) : Result Bytes × WSConn :=
  if 0 < w.readBuf.length then
    (.ok (w.readBuf.take n), { w with readBuf := w.readBuf.drop n })
  else
    match w.inbox with
    | [] => (failWith "websocket: close 1006 (abnormal closure): unexpected EOF", w)
    | msg :: inbox =>
      if withinLimit w.readLimit msg then
        (.ok (msg.take n), { w with readBuf := msg.drop n, inbox := inbox })
      else
        (failWith "websocket: read limit exceeded", w)

/-- A message of the peer arrives. -/
def deliver (w : WSConn) (msg : Bytes) : WSConn := { w with inbox := w.inbox ++ [msg] }

/-- The bytes that reads can still return. -/
def pending (w : WSConn) : Bytes := w.readBuf ++ (w.inbox.takeWhile (withinLimit w.readLimit)).flatten

def weight (w : WSConn) : Nat := w.readBuf.length + (w.inbox.map fun msg => msg.length + 1).sum

variable {w v : WSConn} {n : Nat} {b : Bytes} {e : Fault}

/-- The three ways a read can go. -/
theorem read_cases (w : WSConn) (n : Nat) :
    (w.readBuf ≠ [] ∧
      w.read n = (.ok (w.readBuf.take n), { w with readBuf := w.readBuf.drop n })) ∨
    (∃ msg inbox, w.readBuf = [] ∧ w.inbox = msg :: inbox ∧
      withinLimit w.readLimit msg = true ∧
      w.read n = (.ok (msg.take n), { w with readBuf := msg.drop n, inbox := inbox })) ∨
    (∃ e, w.readBuf = [] ∧ w.inbox.takeWhile (withinLimit w.readLimit) = [] ∧ w.read n = (.error e, w)) := by
  rcases w with ⟨_ | ⟨b, bs⟩, inbox, limit⟩
  · right
    cases inbox with
    | nil => exact Or.inr ⟨_, rfl, rfl, rfl⟩
    | cons msg inbox =>
      by_cases ha : withinLimit limit msg = true
      · exact Or.inl ⟨msg, inbox, rfl, rfl, ha, by simp [read, ha]⟩
      · exact Or.inr ⟨_, rfl, by simp [ha], by simp [read, ha]; rfl⟩
  · exact Or.inl ⟨by simp, by simp [read]⟩

theorem read_ok (h : w.read n = (.ok b, v)) : w.pending = b ++ v.pending ∧ b.length ≤ n := by
  rcases w.read_cases n with ⟨_, hr⟩ | ⟨msg, inbox, hb, hi, ha, hr⟩ | ⟨_, _, _, hr⟩
  · obtain ⟨rfl, rfl⟩ : _ = b ∧ _ = v := by simpa [hr] using h
    constructor
    · simp only [pending, ← List.append_assoc, List.take_append_drop]
    · exact List.length_take_le n _
  · obtain ⟨rfl, rfl⟩ : _ = b ∧ _ = v := by simpa [hr] using h
    constructor
    · simp only [pending, hb, hi, List.takeWhile_cons, ha, if_true, List.flatten_cons,
        List.nil_append, ← List.append_assoc, List.take_append_drop]
    · exact List.length_take_le n _
  · simp [hr] at h

theorem read_weight (hn : 0 < n) (h : w.read n = (.ok b, v)) : v.weight < w.weight := by
  rcases w.read_cases n with ⟨hb, hr⟩ | ⟨msg, inbox, hb, hi, _, hr⟩ | ⟨_, _, _, hr⟩
  · obtain ⟨-, rfl⟩ : _ = b ∧ _ = v := by simpa [hr] using h
    have hl := List.length_pos_of_ne_nil hb
    simp only [weight, List.length_drop]
    omega
  · obtain ⟨-, rfl⟩ : _ = b ∧ _ = v := by simpa [hr] using h
    simp only [weight, hb, hi, List.length_drop, List.map_cons, List.sum_cons, List.length_nil]
    omega
  · simp [hr] at h

theorem read_error (h : w.read n = (.error e, v)) : w.pending = [] := by
  rcases w.read_cases n with ⟨_, hr⟩ | ⟨_, _, _, _, _, hr⟩ | ⟨_, hb, hi, _⟩
  · simp [hr] at h
  · simp [hr] at h
  · simp [pending, hb, hi]

/-- The connection as an `io.Reader`. -/
def reader : Reader WSConn Fault where
  read := read
  pending := pending
  weight := weight
  read_ok := read_ok
  read_weight := read_weight
  read_error := read_error

/-- One read takes a whole message when the buffer is empty and the message fits. -/
theorem read_message {msg : Bytes} {inbox : List Bytes} {limit : Nat}
    (ha : withinLimit limit msg = true) (hn : msg.length ≤ n) :
    read ⟨[], msg :: inbox, limit⟩ n = (.ok msg, ⟨[], inbox, limit⟩) := by
  have hd : msg.drop n = [] := List.drop_eq_nil_of_le hn
  simp [read, ha, List.take_of_length_le hn, hd]

/-- A read of a lone message returns what fits and keeps the rest. -/
theorem read_single {msg : Bytes} {limit : Nat} (n : Nat) (h : withinLimit limit msg = true) :
    read ⟨[], [msg], limit⟩ n = (.ok (msg.take n), ⟨msg.drop n, [], limit⟩) := by
  simp [read, h]

/-- Messages within the limit arrive as the bytes they hold. -/
theorem pending_of_accepts {inbox : List Bytes} {limit : Nat}
    (h : ∀ msg ∈ inbox, limit = 0 ∨ msg.length ≤ limit) :
    pending ⟨[], inbox, limit⟩ = inbox.flatten := by
  have ht : inbox.takeWhile (withinLimit limit) = inbox := by
    rw [List.takeWhile_eq_self_iff]
    intro msg hm
    simpa [withinLimit] using h msg hm
  simp [pending, ht]

end WSConn

end SshPanelVpn.ShadowLink

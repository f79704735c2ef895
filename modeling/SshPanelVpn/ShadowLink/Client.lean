import Mathlib.Data.List.AList
import SshPanelVpn.ShadowLink.Loops

/-! `internal/proxy/socks5.go`: the `Client` with the goroutines of its tunnelled connections, one
access to what they share at a time. -/
namespace SshPanelVpn.ShadowLink

open Octets

/-- Where a connection stands between `dialThroughTunnel` and the end of `tunnelConn.Close`. -/
inductive TunnelPc where
  | dialing
  | failed
  | opened
  | deleted
  | announced
  | closed
  deriving DecidableEq, Repr

/-- A `tunnelStream` with its `tunnelConn`: what was passed to `Write`, and what `Read` gave. -/
structure TunnelStream where
  id : UInt32
  network : Bytes
  addr : Bytes
  pc : TunnelPc
  writing : Option Bytes
  passed : Bytes
  delivered : Bytes
  deriving DecidableEq, Repr

/-- Where `readLoop` stands: at `ReadFrameFrom`, at the lock, or inside the write to a pipe. -/
inductive ReadPc where
  | reading
  | lookup (action : ClientAction)
  | delivering (stream : Nat) (rest : Bytes)
  | ended
  deriving DecidableEq, Repr

@[simp] def ReadPc.ofTurn : Turn ClientAction → ReadPc
  | .act action => .lookup action
  | .skip => .reading
  | .stop => .ended

@[simp] def ReadPc.ofLookup (data : Bytes) : Option Nat → ReadPc
  | none => .reading
  | some stream => .delivering stream data

/-- The streams are numbered in the order they were made; `broken` tells that a write to the
WebSocket has failed, and `closing` and `wsClosed` how far `Close` has come. -/
structure Client where
  sessions : AList fun _ : UInt32 => Nat
  nextID : UInt32
  streams : List TunnelStream
  loop : ReadPc
  broken : Bool
  closing : Bool
  wsClosed : Bool
  sent : List Frame
  received : List Frame

/-- What a goroutine of the client does next, with what its application or the tunnel answers. -/
inductive ClientAct where
  | dial (network addr : Bytes)
  | control (stream : Nat) (ok : Bool)
  | write (stream : Nat) (p : Bytes)
  | data (stream : Nat) (ok : Bool)
  | delete (stream : Nat)
  | announce (stream : Nat) (ok : Bool)
  | closeReader (stream : Nat)
  | frame (frame : Option Frame)
  | lookup
  | read (n : Nat)
  | refused
  | keepalive (padding : Bytes) (ok : Bool)
  | shutdown (ok : Bool)
  | hangUp
  deriving DecidableEq, Repr

/-- The step is a write to the WebSocket that succeeds. -/
@[simp] def ClientAct.sends : ClientAct → Bool
  | .control _ ok | .data _ ok | .announce _ ok | .keepalive _ ok | .shutdown ok => ok
  | _ => false

namespace TunnelStream

@[simps] def goto (s : TunnelStream) (pc : TunnelPc) : TunnelStream := { s with pc := pc }

def controlFrame (s : TunnelStream) : Frame :=
  newControlFrame (encodeStreamID s.id ++ (s.network ++ connectSeparator :: s.addr))

def dataFrame (s : TunnelStream) (p : Bytes) : Frame := newDataFrame (encodeStreamID s.id ++ p)

def closeFrame (s : TunnelStream) : Frame := ⟨frameClose, encodeStreamID s.id⟩

/-- The `Write` has begun. -/
@[simps] def pass (s : TunnelStream) (p : Bytes) : TunnelStream :=
  { s with writing := some p, passed := s.passed ++ p }

@[simps] def written (s : TunnelStream) : TunnelStream := { s with writing := none }

@[simps] def deliver (s : TunnelStream) (p : Bytes) : TunnelStream :=
  { s with delivered := s.delivered ++ p }

end TunnelStream

namespace Client

/-- `NewClient`, once `Connect` has started the loop. -/
def initial : Client := ⟨∅, 0, [], .reading, false, false, false, [], []⟩

/-- The first part of `dialThroughTunnel`, under the lock. -/
@[simps] def dial (c : Client) (network addr : Bytes) : Client :=
  { c with
    nextID := c.nextID + 1
    streams := c.streams ++ [⟨c.nextID, network, addr, .dialing, none, [], []⟩]
    sessions := c.sessions.insert c.nextID c.streams.length }

@[simps] def update (c : Client) (stream : Nat) (f : TunnelStream → TunnelStream) : Client :=
  { c with streams := c.streams.modify stream f }

@[simps] def goto (c : Client) (pc : ReadPc) : Client := { c with loop := pc }

/-- The first part of `tunnelConn.Close`, under the lock. -/
@[simps] def delete (c : Client) (id : UInt32) : Client :=
  { c with sessions := c.sessions.erase id }

/-- `WriteFrameTo` returned. -/
def send (c : Client) (f : Frame) : Bool → Client
  | false => { c with broken := true }
  | true => { c with sent := c.sent ++ [f] }

/-- Without this `WriteFrameTo` cannot succeed. -/
def CanSend (c : Client) (f : Frame) : Prop :=
  c.wsClosed = false ∧ f.payload.length ≤ maxPayloadSize

/-- `ReadFrameFrom` returned, and the `switch` chose what follows. -/
def receive (c : Client) : Option Frame → Client
  | none => c.goto .ended
  | some f => { c with received := c.received ++ [f], loop := .ofTurn (readSwitch f) }

end Client

/-- One access of one goroutine. A write to a pipe lasts until reads have taken all of it or the
reader is closed. -/
inductive ClientStep : Client → ClientAct → Client → Prop where
  | dial {c : Client} {network addr : Bytes} :
      ClientStep c (.dial network addr) (c.dial network addr)
  | control {c : Client} {k : Nat} {ok : Bool} {s : TunnelStream} (hs : c.streams[k]? = some s)
      (hpc : s.pc = .dialing) (hok : ok = true → c.CanSend s.controlFrame) :
      ClientStep c (.control k ok)
        ((c.send s.controlFrame ok).update k (·.goto (if ok then .opened else .failed)))
  | write {c : Client} {k : Nat} {p : Bytes} {s : TunnelStream} (hs : c.streams[k]? = some s)
      (hpc : s.pc ≠ .dialing ∧ s.pc ≠ .failed) (hidle : s.writing = none) (hp : p ≠ []) :
      ClientStep c (.write k p) (c.update k (·.pass p))
  | data {c : Client} {k : Nat} {ok : Bool} {s : TunnelStream} {p : Bytes}
      (hs : c.streams[k]? = some s) (hp : s.writing = some p)
      (hok : ok = true → c.CanSend (s.dataFrame p)) :
      ClientStep c (.data k ok) ((c.send (s.dataFrame p) ok).update k (·.written))
  | delete {c : Client} {k : Nat} {s : TunnelStream} (hs : c.streams[k]? = some s)
      (hpc : s.pc = .opened) :
      ClientStep c (.delete k) ((c.delete s.id).update k (·.goto .deleted))
  | announce {c : Client} {k : Nat} {ok : Bool} {s : TunnelStream} (hs : c.streams[k]? = some s)
      (hpc : s.pc = .deleted) (hok : ok = true → c.CanSend s.closeFrame) :
      ClientStep c (.announce k ok) ((c.send s.closeFrame ok).update k (·.goto .announced))
  | closeReader {c : Client} {k : Nat} {s : TunnelStream} (hs : c.streams[k]? = some s)
      (hpc : s.pc = .announced) :
      ClientStep c (.closeReader k) (c.update k (·.goto .closed))
  | frame {c : Client} {f : Option Frame} (hpc : c.loop = .reading) :
      ClientStep c (.frame f) (c.receive f)
  | lookup {c : Client} {a : ClientAction} (hpc : c.loop = .lookup a) :
      ClientStep c .lookup (c.goto (.ofLookup a.data (c.sessions.lookup a.stream)))
  | read {c : Client} {k n : Nat} {rest : Bytes} {s : TunnelStream}
      (hpc : c.loop = .delivering k rest) (hs : c.streams[k]? = some s) (hopen : s.pc ≠ .closed)
      (hn : n ≤ rest.length) :
      ClientStep c (.read n)
        ((c.update k (·.deliver (rest.take n))).goto
          (if rest.drop n = [] then .reading else .delivering k (rest.drop n)))
  | refused {c : Client} {k : Nat} {rest : Bytes} {s : TunnelStream}
      (hpc : c.loop = .delivering k rest) (hs : c.streams[k]? = some s) (hclosed : s.pc = .closed) :
      ClientStep c .refused (c.goto .reading)
  | keepalive {c : Client} {padding : Bytes} {ok : Bool}
      (hok : ok = true → c.CanSend ⟨frameKeepalive, padding⟩) :
      ClientStep c (.keepalive padding ok) (c.send ⟨frameKeepalive, padding⟩ ok)
  | shutdown {c : Client} {ok : Bool} (hok : ok = true → c.CanSend newCloseFrame) :
      ClientStep c (.shutdown ok) { c.send newCloseFrame ok with closing := true }
  | hangUp {c : Client} (hpc : c.closing = true) :
      ClientStep c .hangUp { c with wsClosed := true }

namespace Client

variable {c : Client} {f : Frame} {ok : Bool}

@[simp] theorem send_sessions : (c.send f ok).sessions = c.sessions := by cases ok <;> rfl
@[simp] theorem send_nextID : (c.send f ok).nextID = c.nextID := by cases ok <;> rfl
@[simp] theorem send_streams : (c.send f ok).streams = c.streams := by cases ok <;> rfl
@[simp] theorem send_loop : (c.send f ok).loop = c.loop := by cases ok <;> rfl
@[simp] theorem send_received : (c.send f ok).received = c.received := by cases ok <;> rfl

@[simp] theorem receive_sessions (f : Option Frame) : (c.receive f).sessions = c.sessions := by
  cases f <;> rfl
@[simp] theorem receive_nextID (f : Option Frame) : (c.receive f).nextID = c.nextID := by
  cases f <;> rfl
@[simp] theorem receive_streams (f : Option Frame) : (c.receive f).streams = c.streams := by
  cases f <;> rfl
@[simp] theorem receive_broken (f : Option Frame) : (c.receive f).broken = c.broken := by
  cases f <;> rfl
@[simp] theorem receive_sent (f : Option Frame) : (c.receive f).sent = c.sent := by
  cases f <;> rfl

end Client

end SshPanelVpn.ShadowLink

import Mathlib.Data.List.AList
import SshPanelVpn.ShadowLink.Loops

/-! `internal/proxy/relay.go`: the sessions of a `ServerRelay` with the goroutines of their
upstream connections, one access to what they share at a time. -/
namespace SshPanelVpn.ShadowLink

open Octets Runs

abbrev SessionId := List Char

/-- A `net.Conn` that `handleControlFrame` dialed: for which session, and as its how many-th. -/
structure ConnRef where
  session : SessionId
  index : Nat
  deriving DecidableEq, Repr

/-- `map[uint32]net.Conn`. -/
abbrev StreamMap := AList fun _ : UInt32 => ConnRef

/-- Where the `relayUpstream` goroutine of a connection stands. -/
inductive UpstreamPc where
  | notStarted
  | reading
  | sending (buf : Bytes) (ended : Bool)
  | closing
  | ended
  deriving DecidableEq, Repr

/-- An upstream connection, what `Write` put into it and what `Read` took out of it. -/
structure Upstream where
  streamID : UInt32
  network : Bytes
  addr : Bytes
  pc : UpstreamPc
  closed : Bool
  broken : Bool
  written : Bytes
  taken : Bytes
  deriving DecidableEq, Repr

/-- Where `HandleConnection` stands: in the handshake, at `ReadFrameFrom`, acting on a frame,
or in `cleanupSession`. -/
inductive LoopPc where
  | handshaking
  | reading
  | acting (action : RelayAction)
  | inserting (id : UInt32) (conn : ConnRef)
  | writing (conn : ConnRef) (data : Bytes)
  | cleanup
  | ended
  deriving DecidableEq, Repr

@[simp] def LoopPc.ofTurn : Turn RelayAction → LoopPc
  | .act action => .acting action
  | .skip => .reading
  | .stop => .cleanup

/-- The connection that the loop holds on to between two accesses. -/
@[simp] def LoopPc.conn? : LoopPc → Option ConnRef
  | .inserting _ conn | .writing conn _ => some conn
  | _ => none

/-- `handleDataFrame` after its look into the map. -/
@[simp] def LoopPc.ofLookup (data : Bytes) : Option ConnRef → LoopPc
  | none => .reading
  | some conn => .writing conn data

/-- What is done on the upstream connections of a session. -/
inductive RelayEvent where
  | dial (network addr : Bytes) (ok : Bool)
  | write (conn : Nat) (data : Bytes) (n : Nat)
  | close (conn : Nat)
  deriving DecidableEq, Repr

/-- One `HandleConnection`: its loop, the connections it dialed, and its history. -/
structure RelaySession where
  loop : LoopPc
  conns : List Upstream
  events : List RelayEvent
  received : List Frame
  sent : List Frame
  deriving DecidableEq, Repr

/-- The `streams` of a `ServerRelay` and the sessions that share them. -/
structure ServerRelay where
  streams : SessionId → Option StreamMap
  sessions : SessionId → RelaySession

/-- What a goroutine of a session does next, with what its client or its upstream answers. -/
inductive RelayAct where
  | establish
  | frame (frame : Option Frame)
  | dial (ok : Bool)
  | insert
  | lookup
  | write (n : Nat)
  | close
  | cleanup (order : List ConnRef)
  | read (conn : Nat) (data : Bytes) (ended : Bool)
  | send (conn : Nat) (ok : Bool)
  | finish (conn : Nat)
  deriving DecidableEq, Repr

namespace Upstream

/-- A connection as `net.DialTimeout` returns it. -/
@[simps] def dialed (id : UInt32) (network addr : Bytes) : Upstream :=
  ⟨id, network, addr, .notStarted, false, false, [], []⟩

/-- `Write` took the first `n` bytes; fewer than all come with an error. -/
@[simps] def wrote (c : Upstream) (data : Bytes) (n : Nat) : Upstream :=
  { c with written := c.written ++ data.take n, broken := c.broken || decide (n < data.length) }

/-- `Read` gave `data`, with an error where `ended`. -/
@[simps] def took (c : Upstream) (data : Bytes) (ended : Bool) : Upstream :=
  { c with
    taken := c.taken ++ data
    pc := if data = [] then (if ended then .closing else .reading) else .sending data ended }

@[simps] def goto (c : Upstream) (pc : UpstreamPc) : Upstream := { c with pc := pc }

@[simps] def close (c : Upstream) : Upstream := { c with closed := true }

end Upstream

namespace RelaySession

def initial : RelaySession := ⟨.handshaking, [], [], [], []⟩

@[simps] def goto (rs : RelaySession) (pc : LoopPc) : RelaySession := { rs with loop := pc }

@[simps] def update (rs : RelaySession) (conn : Nat) (f : Upstream → Upstream) : RelaySession :=
  { rs with conns := rs.conns.modify conn f }

/-- `conn.Close()`. -/
@[simps] def closeConn (rs : RelaySession) (conn : Nat) : RelaySession :=
  { rs with conns := rs.conns.modify conn Upstream.close, events := rs.events ++ [RelayEvent.close conn] }

/-- `conn.Write(data)`. -/
@[simps] def writeConn (rs : RelaySession) (conn : Nat) (data : Bytes) (n : Nat) : RelaySession :=
  { rs with
    conns := rs.conns.modify conn (Upstream.wrote · data n)
    events := rs.events ++ [RelayEvent.write conn data n] }

/-- `ReadFrameFrom` returned, and the `switch` chose what follows. -/
def receive (rs : RelaySession) : Option Frame → RelaySession
  | none => rs.goto .cleanup
  | some frame =>
    { rs with received := rs.received ++ [frame], loop := .ofTurn (relaySwitch frame) }

/-- `net.DialTimeout` returned. -/
def dial (rs : RelaySession) (sessionID : SessionId) (id : UInt32) (network addr : Bytes) :
    Bool → RelaySession
  | false => { rs with loop := .reading, events := rs.events ++ [RelayEvent.dial network addr false] }
  | true =>
    { rs with
      loop := .inserting id ⟨sessionID, rs.conns.length⟩
      conns := rs.conns ++ [Upstream.dialed id network addr]
      events := rs.events ++ [RelayEvent.dial network addr true] }

/-- `WriteFrameTo` of `relayUpstream` returned. -/
def send (rs : RelaySession) (conn : Nat) (id : UInt32) (buf : Bytes) (ended : Bool) :
    Bool → RelaySession
  | false => rs.update conn (Upstream.goto · .closing)
  | true =>
    { rs.update conn (Upstream.goto · (if ended then .closing else .reading)) with
      sent := rs.sent ++ [newDataFrame (encodeStreamID id ++ buf)] }

variable {rs : RelaySession} {conn : Nat} {id : UInt32} {buf : Bytes} {ended ok : Bool}

@[simp] theorem send_loop : (rs.send conn id buf ended ok).loop = rs.loop := by cases ok <;> rfl

@[simp] theorem send_received : (rs.send conn id buf ended ok).received = rs.received := by
  cases ok <;> rfl

end RelaySession

namespace ServerRelay

/-- `NewServerRelay`, before any connection. -/
def initial : ServerRelay := ⟨fun _ => none, fun _ => .initial⟩

def modify (sr : ServerRelay) (sessionID : SessionId) (f : RelaySession → RelaySession) :
    ServerRelay :=
  { sr with sessions := Function.update sr.sessions sessionID (f (sr.sessions sessionID)) }

def setStreams (sr : ServerRelay) (sessionID : SessionId) (streams : Option StreamMap) :
    ServerRelay :=
  { sr with streams := Function.update sr.streams sessionID streams }

def conn? (sr : ServerRelay) (conn : ConnRef) : Option Upstream :=
  (sr.sessions conn.session).conns[conn.index]?

def closeConn (sr : ServerRelay) (conn : ConnRef) : ServerRelay :=
  sr.modify conn.session (·.closeConn conn.index)

/-- The end of `handleControlFrame`, under the lock. -/
def insertStream (sr : ServerRelay) (sessionID : SessionId) (streamID : UInt32) (conn : ConnRef) :
    ServerRelay :=
  sr.setStreams sessionID (some (((sr.streams sessionID).getD ∅).insert streamID conn))

def lookupStream (sr : ServerRelay) (sessionID : SessionId) (streamID : UInt32) :
    Option ConnRef :=
  (sr.streams sessionID).bind (·.lookup streamID)

def closeStream (sr : ServerRelay) (sessionID : SessionId) (streamID : UInt32) : ServerRelay :=
  match sr.streams sessionID with
  | none => sr
  | some streams =>
    match streams.lookup streamID with
    | none => sr
    | some conn => (sr.closeConn conn).setStreams sessionID (some (streams.erase streamID))

/-- What `range streams` goes through, in some order. -/
def held (sr : ServerRelay) (sessionID : SessionId) : List ConnRef :=
  ((sr.streams sessionID).getD ∅).entries.map Sigma.snd

/-- The order is that of the `range` loop. -/
def cleanupSession (sr : ServerRelay) (sessionID : SessionId) (order : List ConnRef) :
    ServerRelay :=
  (order.foldl closeConn sr).setStreams sessionID none

end ServerRelay

/-- One access of one goroutine. A closed connection takes no byte and gives none. -/
inductive RelayStep : ServerRelay → SessionId × RelayAct → ServerRelay → Prop where
  | establish {sr : ServerRelay} {sid : SessionId}
      (hpc : (sr.sessions sid).loop = .handshaking) :
      RelayStep sr (sid, .establish) ((sr.setStreams sid (some ∅)).modify sid (·.goto .reading))
  | frame {sr : ServerRelay} {sid : SessionId} {f : Option Frame}
      (hpc : (sr.sessions sid).loop = .reading) :
      RelayStep sr (sid, .frame f) (sr.modify sid (·.receive f))
  | dial {sr : ServerRelay} {sid : SessionId} {id : UInt32} {network addr : Bytes} {ok : Bool}
      (hpc : (sr.sessions sid).loop = .acting (.connect id network addr)) :
      RelayStep sr (sid, .dial ok) (sr.modify sid (·.dial sid id network addr ok))
  | insert {sr : ServerRelay} {sid : SessionId} {id : UInt32} {conn : ConnRef}
      (hpc : (sr.sessions sid).loop = .inserting id conn) :
      RelayStep sr (sid, .insert)
        (((sr.insertStream sid id conn).modify conn.session
          (·.update conn.index (Upstream.goto · .reading))).modify sid (·.goto .reading))
  | lookup {sr : ServerRelay} {sid : SessionId} {id : UInt32} {data : Bytes}
      (hpc : (sr.sessions sid).loop = .acting (.writeStream id data)) :
      RelayStep sr (sid, .lookup)
        (sr.modify sid (·.goto (.ofLookup data (sr.lookupStream sid id))))
  | write {sr : ServerRelay} {sid : SessionId} {conn : ConnRef} {data : Bytes} {n : Nat}
      {c : Upstream} (hpc : (sr.sessions sid).loop = .writing conn data)
      (hc : sr.conn? conn = some c) (hn : n ≤ data.length) (hclosed : c.closed = true → n = 0) :
      RelayStep sr (sid, .write n)
        ((sr.modify conn.session (·.writeConn conn.index data n)).modify sid (·.goto .reading))
  | close {sr : ServerRelay} {sid : SessionId} {id : UInt32}
      (hpc : (sr.sessions sid).loop = .acting (.closeStream id)) :
      RelayStep sr (sid, .close) ((sr.closeStream sid id).modify sid (·.goto .reading))
  | cleanup {sr : ServerRelay} {sid : SessionId} {order : List ConnRef}
      (hpc : (sr.sessions sid).loop = .cleanup) (horder : order.Perm (sr.held sid)) :
      RelayStep sr (sid, .cleanup order) ((sr.cleanupSession sid order).modify sid (·.goto .ended))
  | read {sr : ServerRelay} {sid : SessionId} {i : Nat} {data : Bytes} {ended : Bool}
      {c : Upstream} (hc : (sr.sessions sid).conns[i]? = some c) (hpc : c.pc = .reading)
      (hn : data.length ≤ relayBufSize) (hclosed : c.closed = true → data = [] ∧ ended = true) :
      RelayStep sr (sid, .read i data ended) (sr.modify sid (·.update i (Upstream.took · data ended)))
  | send {sr : ServerRelay} {sid : SessionId} {i : Nat} {ok : Bool} {c : Upstream} {buf : Bytes}
      {ended : Bool} (hc : (sr.sessions sid).conns[i]? = some c) (hpc : c.pc = .sending buf ended) :
      RelayStep sr (sid, .send i ok) (sr.modify sid (·.send i c.streamID buf ended ok))
  | finish {sr : ServerRelay} {sid : SessionId} {i : Nat} {c : Upstream}
      (hc : (sr.sessions sid).conns[i]? = some c) (hpc : c.pc = .closing) :
      RelayStep sr (sid, .finish i)
        ((sr.closeStream sid c.streamID).modify sid (·.update i (Upstream.goto · .ended)))

end SshPanelVpn.ShadowLink

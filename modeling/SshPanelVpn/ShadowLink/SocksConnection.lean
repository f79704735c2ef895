import SshPanelVpn.ShadowLink.Link
import SshPanelVpn.ShadowLink.Socks5

/-! `internal/proxy/socks5.go`: one `handleSOCKS5` with its two copying goroutines, next to the client
and the server that it dials through. -/
namespace SshPanelVpn.ShadowLink

open Octets

/-- Where a copying goroutine stands: not started, at its read, at the write of what it read, or past
the loop. -/
inductive CopyPc where
  | idle
  | reading
  | writing (p : Bytes)
  | done
  deriving DecidableEq, Repr

/-- Where `handleSOCKS5` stands; in `closing` it closes the tunnel, and then the connection. -/
inductive SocksPc where
  | greeting
  | request
  | connecting (target : Bytes)
  | dialing
  | dialed (ok : Bool)
  | copying
  | closing
  | closed
  | returned
  | crashed
  deriving DecidableEq, Repr

/-- The connection of an application: its buffer, what was written before the copying, its stream by
the place among those of the client, and what the copying has taken from the application and given
to it. -/
structure SocksConn where
  pc : SocksPc
  buf : Bytes
  replies : List Bytes
  stream : Option Nat
  up : CopyPc
  down : CopyPc
  taken : Bytes
  given : Bytes
  deriving DecidableEq, Repr

namespace SocksConn

def initial : SocksConn :=
  ⟨.greeting, List.replicate socksBufSize 0, [], none, .idle, .idle, [], []⟩

@[simps] def goto (c : SocksConn) (pc : SocksPc) : SocksConn := { c with pc := pc }

@[simps] def reply (c : SocksConn) (p : Bytes) (pc : SocksPc) : SocksConn :=
  { c with replies := c.replies ++ [p], pc := pc }

@[simps] def read (c : SocksConn) (data : Bytes) : SocksConn := { c with buf := readInto c.buf data }

/-- The first `Read` returned, with an error where there is no data. -/
def greet (c : SocksConn) : Option Bytes → SocksConn
  | none => c.goto .returned
  | some data =>
    match acceptsGreeting (readInto c.buf data) data.length with
    | .ok true => (c.read data).reply methodReply .request
    | .ok false => (c.read data).goto .returned
    | .error _ => (c.read data).goto .crashed

/-- The second `Read` returned. -/
def ask (c : SocksConn) : Option Bytes → SocksConn
  | none => c.reply (socksReply 0x07) .returned
  | some data =>
    match parseRequest (readInto c.buf data) data.length with
    | .ok (.refuse p) => (c.read data).reply p .returned
    | .ok .giveUp => (c.read data).goto .returned
    | .ok (.connect target) => (c.read data).goto (.connecting target)
    | .error _ => (c.read data).goto .crashed

/-- What the two reads lead to. -/
def afterReads (first second : Option Bytes) : SocksConn :=
  let c := initial.greet first
  if c.pc = .request then c.ask second else c

@[simps] def dial (c : SocksConn) (stream : Nat) : SocksConn :=
  { c with stream := some stream, pc := .dialing }

/-- The reply, and the goroutines where it tells of success. -/
def answer (c : SocksConn) : Bool → SocksConn
  | false => c.reply (socksReply 0x05) .returned
  | true => { c.reply (socksReply 0x00) .copying with up := .reading, down := .reading }

/-- `io.Copy(tunnel, conn)` has read `p`. -/
@[simps] def take (c : SocksConn) (p : Bytes) : SocksConn :=
  { c with up := .writing p, taken := c.taken ++ p }

@[simps] def setUp (c : SocksConn) (up : CopyPc) : SocksConn := { c with up := up }

@[simps] def setDown (c : SocksConn) (down : CopyPc) : SocksConn := { c with down := down }

/-- `io.Copy(conn, tunnel)` has written `p`, or could not. -/
def give (c : SocksConn) (p : Bytes) : Bool → SocksConn
  | false => c.setDown .done
  | true => { c with down := .reading, given := c.given ++ p }

end SocksConn

def tcp : Bytes := ascii "tcp".toList

/-- `io.Copy` reads into a buffer of this size. -/
abbrev copyBufSize : Nat := 32 * 1024

/-- `dialed` remembers how the server's dial for the stream of the connection ended. -/
structure SocksLink where
  link : Link
  conn : SocksConn
  dialed : Option Bool

inductive SocksAct where
  | greeting (data : Option Bytes)
  | request (data : Option Bytes)
  | dial
  | control (ok : Bool)
  | answer
  | take (p : Bytes)
  | pass (ok : Bool)
  | takeEnd
  | read (n : Nat)
  | give (ok : Bool)
  | readEnd
  | finish
  | delete
  | announce (ok : Bool)
  | closeReader
  | close
  /-- Any other step of the client or the server. -/
  | other (a : LinkAct)
  deriving DecidableEq, Repr

/-- The client's step is one of the stream's own goroutines. -/
def ClientAct.on (c : Client) (k : Nat) : ClientAct → Prop
  | .control j _ | .write j _ | .data j _ | .delete j | .announce j _ | .closeReader j => j = k
  | .read _ => ∃ rest, c.loop = .delivering k rest
  | _ => False

def LinkAct.on (l : Link) (k : Nat) : LinkAct → Prop
  | .client a => a.on l.client k
  | .server _ _ => False

namespace SocksLink

def initial : SocksLink := ⟨.initial, .initial, none⟩

/-- The stream that the connection has opened. -/
def stream (s : SocksLink) : Option TunnelStream := s.conn.stream.bind (s.link.client.streams[·]?)

/-- How the server's dial for the stream has ended, after one more step. -/
def dialedAfter (me : SessionId) (s : SocksLink) : LinkAct → Option Bool
  | .server sid (.dial ok) =>
    match (s.link.server.sessions me).loop, s.stream with
    | .acting (.connect id _ _), some stream => if sid = me ∧ id = stream.id then some ok else s.dialed
    | _, _ => s.dialed
  | _ => s.dialed

end SocksLink

/-- One step of `handleSOCKS5` or of a goroutine that it has started, or any other step at the two
ends. -/
inductive SocksStep (me : SessionId) : SocksLink → SocksAct → SocksLink → Prop where
  | greeting {s : SocksLink} {data : Option Bytes} (hpc : s.conn.pc = .greeting) :
      SocksStep me s (.greeting data) { s with conn := s.conn.greet data }
  | request {s : SocksLink} {data : Option Bytes} (hpc : s.conn.pc = .request) :
      SocksStep me s (.request data) { s with conn := s.conn.ask data }
  | dial {s : SocksLink} {target : Bytes} {l : Link} (hpc : s.conn.pc = .connecting target)
      (h : LinkStep me s.link (.client (.dial tcp target)) l) :
      SocksStep me s .dial { s with link := l, conn := s.conn.dial s.link.client.streams.length }
  | control {s : SocksLink} {k : Nat} {ok : Bool} {l : Link} (hpc : s.conn.pc = .dialing)
      (hk : s.conn.stream = some k) (h : LinkStep me s.link (.client (.control k ok)) l) :
      SocksStep me s (.control ok) { s with link := l, conn := s.conn.goto (.dialed ok) }
  | answer {s : SocksLink} {ok : Bool} (hpc : s.conn.pc = .dialed ok) :
      SocksStep me s .answer { s with conn := s.conn.answer ok }
  | take {s : SocksLink} {k : Nat} {p : Bytes} {l : Link} (hpc : s.conn.pc ≠ .returned)
      (hk : s.conn.stream = some k) (hup : s.conn.up = .reading) (hp : p.length ≤ copyBufSize)
      (h : LinkStep me s.link (.client (.write k p)) l) :
      SocksStep me s (.take p) { s with link := l, conn := s.conn.take p }
  | pass {s : SocksLink} {k : Nat} {p : Bytes} {ok : Bool} {l : Link} (hk : s.conn.stream = some k)
      (hup : s.conn.up = .writing p) (h : LinkStep me s.link (.client (.data k ok)) l) :
      SocksStep me s (.pass ok)
        { s with link := l, conn := s.conn.setUp (if ok then .reading else .done) }
  | takeEnd {s : SocksLink} (hup : s.conn.up = .reading) :
      SocksStep me s .takeEnd { s with conn := s.conn.setUp .done }
  | read {s : SocksLink} {k n : Nat} {rest : Bytes} {l : Link} (hk : s.conn.stream = some k)
      (hdown : s.conn.down = .reading) (hloop : s.link.client.loop = .delivering k rest)
      (hn : n ≤ copyBufSize) (h : LinkStep me s.link (.client (.read n)) l) :
      SocksStep me s (.read n) { s with link := l, conn := s.conn.setDown (.writing (rest.take n)) }
  | give {s : SocksLink} {p : Bytes} {ok : Bool} (hpc : s.conn.pc = .returned → ok = false)
      (hdown : s.conn.down = .writing p) :
      SocksStep me s (.give ok) { s with conn := s.conn.give p ok }
  | readEnd {s : SocksLink} {stream : TunnelStream} (hdown : s.conn.down = .reading)
      (hs : s.stream = some stream) (hclosed : stream.pc = .closed) :
      SocksStep me s .readEnd { s with conn := s.conn.setDown .done }
  | finish {s : SocksLink} (hpc : s.conn.pc = .copying)
      (hdone : s.conn.up = .done ∨ s.conn.down = .done) :
      SocksStep me s .finish { s with conn := s.conn.goto .closing }
  | delete {s : SocksLink} {k : Nat} {l : Link} (hpc : s.conn.pc = .closing)
      (hk : s.conn.stream = some k) (h : LinkStep me s.link (.client (.delete k)) l) :
      SocksStep me s .delete { s with link := l }
  | announce {s : SocksLink} {k : Nat} {ok : Bool} {l : Link} (hpc : s.conn.pc = .closing)
      (hk : s.conn.stream = some k) (h : LinkStep me s.link (.client (.announce k ok)) l) :
      SocksStep me s (.announce ok) { s with link := l }
  | closeReader {s : SocksLink} {k : Nat} {l : Link} (hpc : s.conn.pc = .closing)
      (hk : s.conn.stream = some k) (h : LinkStep me s.link (.client (.closeReader k)) l) :
      SocksStep me s .closeReader { s with link := l, conn := s.conn.goto .closed }
  | close {s : SocksLink} (hpc : s.conn.pc = .closed) :
      SocksStep me s .close { s with conn := s.conn.goto .returned }
  | other {s : SocksLink} {a : LinkAct} {l : Link} (hother : ∀ k, s.conn.stream = some k → ¬ a.on s.link k)
      (h : LinkStep me s.link a l) :
      SocksStep me s (.other a) { s with link := l, dialed := s.dialedAfter me a }

end SshPanelVpn.ShadowLink

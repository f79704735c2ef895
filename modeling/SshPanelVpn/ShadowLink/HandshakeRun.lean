import SshPanelVpn.ShadowLink.Handshake
import SshPanelVpn.ShadowLink.Net

/-! `Client.Connect` and `ServerRelay.HandleConnection` up to the end of the handshake, run against
each other. -/
namespace SshPanelVpn.ShadowLink

open Octets Sealing Effects Runs

/-- `fmt.Errorf("ctx: %w", err)`; a panic is not an error. -/
def wrap (ctx : String) : Fault → Fault
  | .error text => .error (ctx ++ ": " ++ text)
  | .panic text => .panic text

/-- A Go string as text, each of its bytes shown as one character. -/
def goString (b : Bytes) : String := String.ofList (b.map fun c => Char.ofNat c.toNat)

/-- `if err != nil { return fmt.Errorf("ctx: %w", err) }`. -/
def orFail {α : Type} (ctx : String) (r : Result α) : ConnProg α :=
  Prog.ofExcept (r.mapError (wrap ctx))

def connRead (ctx : String) (n : Nat) : ConnProg Bytes := .call (.read n) (orFail ctx)

def connWrite (ctx : String) (p : Bytes) : ConnProg Unit := .call (.write p) (orFail ctx)

/-- What the client brings to a handshake: its random draws, its clock and its token. -/
structure ClientSide where
  keyDraw : Result Draw
  helloPad : Result Draw
  authPad : Result Draw
  ts : Time
  authToken : Bytes

/-- What the server brings. A nil `authFunc` accepts every token. -/
structure ServerSide where
  keyDraw : Result Draw
  challengeDraw : Result Draw
  helloPad : Result Draw
  now : Time
  authFunc : Option (Bytes → Bool × Int)

def ServerSide.denies (y : ServerSide) (authToken : Bytes) : Bool :=
  match y.authFunc with
  | none => false
  | some authFunc => !(authFunc authToken).1

/-- `OK` and `DENIED`. -/
def ackOK : Bytes := [0x4f, 0x4b]
def ackDenied : Bytes := [0x44, 0x45, 0x4e, 0x49, 0x45, 0x44]

section Programs

variable (P : Primitives)

/-- The last message is read and not looked at. -/
def performHandshake (x : ClientSide) : ConnProg SessionCipher := do
  let kp ← Prog.ofExcept (P.generateKeyPair x.keyDraw)
  let clientHello ← Prog.ofExcept (buildClientHelloWithTime kp x.ts x.helloPad)
  connWrite "failed to send client hello" clientHello
  let serverHello ← connRead "failed to read server hello" 4096
  let (_, challenge, sessionKey) ← orFail "failed to parse server hello"
    (P.parseServerHello serverHello kp.priv x.ts)
  let clientAuth ← orFail "failed to build client auth"
    (buildClientAuth P challenge sessionKey x.authToken x.authPad)
  connWrite "failed to send client auth" clientAuth
  let _ ← connRead "failed to read server ack" 1024
  Prog.ofExcept (newSessionCipher P.suites sessionKey detectBestCipher)

/-- `Connect` once the WebSocket is up. -/
def connect (x : ClientSide) : ConnProg SessionCipher :=
  (performHandshake P x).handle fun e => .call .close fun _ => .raise (wrap "handshake failed" e)

def performServerHandshake (y : ServerSide) : ConnProg (SessionCipher × Bytes) := do
  let hello ← connRead "read client hello" 4096
  let (timestamp, clientPub) ← orFail "parse client hello" (parseClientHello hello y.now)
  let serverKP ← orFail "generate server keypair" (P.generateKeyPair y.keyDraw)
  let (challenge, serverHello) ← orFail "build server hello"
    (P.buildServerHello serverKP clientPub timestamp y.challengeDraw y.helloPad)
  connWrite "send server hello" serverHello
  let auth ← connRead "read client auth" 4096
  let sessionKey ← orFail "derive session key"
    (P.deriveServerSessionKey serverKP.priv clientPub timestamp challenge)
  let authToken ← orFail "parse client auth" (parseClientAuth P auth challenge sessionKey)
  if y.denies authToken then
    .call (.write ackDenied) fun _ =>
      .raise (.error ("auth denied for token: " ++ goString authToken))
  else do
    connWrite "send ack" ackOK
    let cipher ← Prog.ofExcept (newSessionCipher P.suites sessionKey detectBestCipher)
    return (cipher, authToken)

/-- `HandleConnection` up to `relayLoop`. -/
def handleConnection (y : ServerSide) : ConnProg (SessionCipher × Bytes) :=
  (performServerHandshake P y).handle fun e => .call .close fun _ => .raise e

end Programs

abbrev HandshakeNet := Net SessionCipher (SessionCipher × Bytes)

/-- Both ends right after the WebSocket upgrade; the dialling side has set its read limit. -/
def handshakeStart (P : Primitives) (x : ClientSide) (y : ServerSide) : HandshakeNet where
  client := ⟨connect P x, ⟨[], [], maxMessageSize⟩, false⟩
  server := ⟨handleConnection P y, ⟨[], [], 0⟩, false⟩

def Returned {α : Type} (p : Peer α) : Prop := ∃ a, p.prog = .ret a

/-- Client and server agree on whether the session was established. -/
def Agree (n : HandshakeNet) : Prop := Returned n.client ↔ Returned n.server

/-! The exchange up to the session key, and the client's answer to it. -/

@[simp] theorem orFail_ok {α : Type} (ctx : String) (a : α) : orFail ctx (.ok a) = .ret a := rfl

@[simp] theorem orFail_error {α : Type} (ctx : String) (e : Fault) :
    orFail ctx (.error e : Result α) = .raise (wrap ctx e) := rfl

/-- Both hellos as they are built, read into buffers of 4096 bytes and parsed. -/
structure Opening (P : Primitives) (x : ClientSide) (y : ServerSide) (ckp skp : KeyPair)
    (hello challenge serverHello sessionKey : Bytes) : Prop where
  clientKey : P.generateKeyPair x.keyDraw = .ok ckp
  serverKey : P.generateKeyPair y.keyDraw = .ok skp
  clientHello_built : buildClientHelloWithTime ckp x.ts x.helloPad = .ok hello
  clientHello_le : hello.length ≤ 4096
  clientHello_read : parseClientHello hello y.now = .ok (Time.ofUnix x.ts.unix, ckp.pub)
  serverHello_built : P.buildServerHello skp ckp.pub (Time.ofUnix x.ts.unix) y.challengeDraw
    y.helloPad = .ok (challenge, serverHello)
  serverHello_le : serverHello.length ≤ 4096
  serverHello_read : P.parseServerHello serverHello ckp.priv x.ts =
    .ok (skp.pub, challenge, sessionKey)
  sessionKey_derived : P.deriveServerSessionKey skp.priv ckp.pub (Time.ofUnix x.ts.unix)
    challenge = .ok sessionKey
  sessionKey_length : sessionKey.length = keySize

/-- The client's proof and token as they are built, and parsed from a buffer of 4096 bytes. -/
structure Answer (P : Primitives) (x : ClientSide) (challenge sessionKey auth : Bytes) : Prop where
  clientAuth_built : buildClientAuth P challenge sessionKey x.authToken x.authPad = .ok auth
  clientAuth_le : auth.length ≤ 288 + x.authToken.length
  clientAuth_read : parseClientAuth P (auth.take 4096) challenge sessionKey =
    .ok (x.authToken.take (x.authToken.length % 256))

section Exchange

variable {P : Primitives} {x : ClientSide} {y : ServerSide} {ckp skp : KeyPair}
  {hello challenge serverHello sessionKey auth : Bytes} {cipher : SessionCipher}

/-- A successful draw makes a key pair. -/
theorem exists_keyPair (hP : P.Lawful) (d : Draw) :
    ∃ kp, P.generateKeyPair (.ok d) = .ok kp ∧ P.IsKeyPair kp := by
  obtain ⟨pub, hpub⟩ := hP.x25519_basepoint (fill d.byte x25519KeySize) (length_fill _ _)
  refine ⟨⟨fill d.byte x25519KeySize, pub⟩, ?_, length_fill _ _, hpub⟩
  simp [Primitives.generateKeyPair, hpub, bind, Except.bind, pure, Except.pure]

/-- The hello of a key pair, and what the server makes of it. -/
theorem exists_clientHello (hP : P.Lawful) {kp : KeyPair} (hk : P.IsKeyPair kp) (ts : Time)
    (d : Draw) : ∃ hello, buildClientHelloWithTime kp ts (.ok d) = .ok hello ∧
      hello.length ≤ 4096 ∧ ∀ now, parseClientHello hello now =
        if InWindow ts now then .ok (Time.ofUnix ts.unix, kp.pub)
        else failWith "timestamp outside acceptable window (replay protection)" := by
  obtain ⟨pad, hpad, hpl⟩ := randomPadding_ok d
  refine ⟨unixBytes ts ++ copyInto x25519KeySize kp.pub ++ pad, ?_, ?_, ?_⟩
  · simp [buildClientHelloWithTime, hpad, bind, Except.bind, pure, Except.pure]
  · simp only [List.length_append, length_unixBytes, length_copyInto, x25519KeySize]
    omega
  · intro now
    exact parseClientHello_hello (length_pub hP hk)

theorem exists_opening (hP : P.Lawful) {dk dh ek ec ep : Draw} (hkd : x.keyDraw = .ok dk)
    (hhp : x.helloPad = .ok dh) (hyk : y.keyDraw = .ok ek) (hyc : y.challengeDraw = .ok ec)
    (hyp : y.helloPad = .ok ep) (hw : InWindow x.ts y.now) :
    ∃ ckp skp hello challenge serverHello sessionKey,
      Opening P x y ckp skp hello challenge serverHello sessionKey := by
  obtain ⟨ckp, hckp, hck⟩ := exists_keyPair hP dk
  obtain ⟨skp, hskp, hsk⟩ := exists_keyPair hP ek
  obtain ⟨hello, hbuild, hle, hparse⟩ := exists_clientHello hP hck x.ts dh
  obtain ⟨serverHello, sessionKey, hkl, hsl, hb, hr, hd⟩ :=
    serverHello_exchange hP hck hsk x.ts ec ep
  exact ⟨ckp, skp, hello, fill ec.byte challengeSize, serverHello, sessionKey,
    { clientKey := by rw [hkd, hckp]
      serverKey := by rw [hyk, hskp]
      clientHello_built := by rw [hhp, hbuild]
      clientHello_le := hle
      clientHello_read := by rw [hparse, if_pos hw]
      serverHello_built := by rw [hyc, hyp, hb]
      serverHello_le := by omega
      serverHello_read := hr
      sessionKey_derived := hd
      sessionKey_length := hkl }⟩

theorem exists_answer (hP : P.Lawful) {d : Draw} (hx : x.authPad = .ok d)
    (challenge sessionKey : Bytes) : ∃ auth, Answer P x challenge sessionKey auth := by
  obtain ⟨pad, hpad, hpl⟩ := randomPadding_ok d
  have hmac := hP.hmac_length challenge sessionKey
  let n := UInt8.ofNat x.authToken.length
  let body := (x.authToken ++ pad).take 4063
  have hn : n.toNat = x.authToken.length % 256 := UInt8.toNat_ofNat'
  have hle : x.authToken.length % 256 ≤ x.authToken.length := Nat.mod_le _ _
  have hlt : x.authToken.length % 256 < 256 := Nat.mod_lt _ (by decide)
  have hbody : n.toNat ≤ body.length := by
    rw [hn, List.length_take, List.length_append]
    omega
  have htake : (P.hmac challenge sessionKey ++ n :: (x.authToken ++ pad)).take 4096 =
      P.hmac challenge sessionKey ++ n :: body := by
    rw [List.take_append, hmac, List.take_of_length_le (by rw [hmac]; decide)]
    rfl
  have htok : body.take n.toNat = x.authToken.take (x.authToken.length % 256) := by
    rw [hn, List.take_take, min_eq_left (by omega), List.take_append_of_le_length hle]
  refine ⟨P.hmac challenge sessionKey ++ n :: (x.authToken ++ pad), ?_, ?_, ?_⟩
  · simp [buildClientAuth, hx, hpad, copyInto_of_length hmac, bind, Except.bind, pure, Except.pure,
      n]
  · simp only [List.length_append, List.length_cons, hmac, hmacSize]
    omega
  · rw [htake, parseClientAuth_of_body hP hbody, htok]

end Exchange

/-! The runs of the two programs, case by case. -/

section Runs

variable {P : Primitives} {x : ClientSide} {y : ServerSide} {ckp skp : KeyPair}
  {hello challenge serverHello sessionKey auth token : Bytes} {cipher : SessionCipher} {e : Fault}

theorem withinLimit_serverHello {msg : Bytes} (h : msg.length ≤ 4096) :
    withinLimit maxMessageSize msg = true := by
  have : maxMessageSize = 131072 := rfl
  simp only [withinLimit, Bool.or_eq_true, decide_eq_true_eq]
  omega

/-- Both ends return the same cipher. Bytes of the client's answer beyond the buffer stay behind. -/
def acceptedEnd (cipher : SessionCipher) (token auth : Bytes) : HandshakeNet where
  client := ⟨.ret cipher, ⟨[], [], maxMessageSize⟩, false⟩
  server := ⟨.ret (cipher, token), ⟨auth.drop 4096, [], 0⟩, false⟩

/-- The client returns its cipher although the server has refused the token. -/
def deniedEnd (cipher : SessionCipher) (token auth : Bytes) : HandshakeNet where
  client := ⟨.ret cipher, ⟨[], [], maxMessageSize⟩, false⟩
  server := ⟨.raise (.error ("auth denied for token: " ++ goString token)),
    ⟨auth.drop 4096, [], 0⟩, true⟩

def acceptedSchedule : List Endpoint :=
  [.client, .server, .server, .client, .client, .server, .server, .client]

def deniedSchedule : List Endpoint :=
  [.client, .server, .server, .client, .client, .server, .server, .server, .client]

theorem run_accepted (ho : Opening P x y ckp skp hello challenge serverHello sessionKey)
    (ha : Answer P x challenge sessionKey auth)
    (hc : newSessionCipher P.suites sessionKey detectBestCipher = .ok cipher)
    (hd : y.denies (x.authToken.take (x.authToken.length % 256)) = false) :
    Run Net.Step (handshakeStart P x y) acceptedSchedule
      (acceptedEnd cipher (x.authToken.take (x.authToken.length % 256)) auth) := by
  have hw0 : ∀ msg, withinLimit 0 msg = true := fun _ => rfl
  have hw1 := withinLimit_serverHello ho.serverHello_le
  have hw2 : withinLimit maxMessageSize ackOK = true := by decide
  have hd1 : hello.drop 4096 = [] := List.drop_eq_nil_of_le ho.clientHello_le
  have hd2 : serverHello.drop 4096 = [] := List.drop_eq_nil_of_le ho.serverHello_le
  have hd3 : ackOK.drop 1024 = [] := rfl
  have ht1 : hello.take 4096 = hello := List.take_of_length_le ho.clientHello_le
  have ht2 : serverHello.take 4096 = serverHello := List.take_of_length_le ho.serverHello_le
  apply Net.run_of_runSchedule
  simp [acceptedSchedule, acceptedEnd, handshakeStart, Net.runSchedule, Net.step, Peer.act,
    Peer.receive, connect, performHandshake, handleConnection, performServerHandshake, connRead,
    connWrite, WSConn.deliver, WSConn.Drained, WSConn.read_single, ho.clientKey, ho.serverKey,
    ho.clientHello_built, ho.clientHello_read, ho.serverHello_built, ho.serverHello_read,
    ho.sessionKey_derived, ha.clientAuth_built, ha.clientAuth_read, hc, hd, hw0, hw1, hw2, hd1, hd2,
    hd3, ht1, ht2]

theorem run_denied (ho : Opening P x y ckp skp hello challenge serverHello sessionKey)
    (ha : Answer P x challenge sessionKey auth)
    (hc : newSessionCipher P.suites sessionKey detectBestCipher = .ok cipher)
    (hd : y.denies (x.authToken.take (x.authToken.length % 256)) = true) :
    Run Net.Step (handshakeStart P x y) deniedSchedule
      (deniedEnd cipher (x.authToken.take (x.authToken.length % 256)) auth) := by
  have hw0 : ∀ msg, withinLimit 0 msg = true := fun _ => rfl
  have hw1 := withinLimit_serverHello ho.serverHello_le
  have hw2 : withinLimit maxMessageSize ackDenied = true := by decide
  have hd1 : hello.drop 4096 = [] := List.drop_eq_nil_of_le ho.clientHello_le
  have hd2 : serverHello.drop 4096 = [] := List.drop_eq_nil_of_le ho.serverHello_le
  have hd3 : ackDenied.drop 1024 = [] := rfl
  have ht1 : hello.take 4096 = hello := List.take_of_length_le ho.clientHello_le
  have ht2 : serverHello.take 4096 = serverHello := List.take_of_length_le ho.serverHello_le
  apply Net.run_of_runSchedule
  simp [deniedSchedule, deniedEnd, handshakeStart, Net.runSchedule, Net.step, Peer.act,
    Peer.receive, connect, performHandshake, handleConnection, performServerHandshake, connRead,
    connWrite, WSConn.deliver, WSConn.Drained, WSConn.read_single, ho.clientKey, ho.serverKey,
    ho.clientHello_built, ho.clientHello_read, ho.serverHello_built, ho.serverHello_read,
    ho.sessionKey_derived, ha.clientAuth_built, ha.clientAuth_read, hc, hd, hw0, hw1, hw2, hd1, hd2,
    hd3, ht1, ht2]

/-- Both ends have given up. -/
def Failed (n : HandshakeNet) : Prop :=
  (∃ e, n.client.prog = .raise e) ∧ ∃ e, n.server.prog = .raise e

theorem exists_run_of_schedule {s : HandshakeNet} (es : List Endpoint)
    (h : ∃ t, Net.runSchedule es s = some t ∧ Failed t) :
    ∃ es t, Run Net.Step s es t ∧ Failed t := by
  obtain ⟨t, ht, hf⟩ := h
  exact ⟨es, t, Net.run_of_runSchedule ht, hf⟩

/-- The client fails before it has sent anything. -/
theorem run_client_fails (h : connect P x = .call .close fun _ => .raise e) :
    ∃ es t, Run Net.Step (handshakeStart P x y) es t ∧ Failed t := by
  apply exists_run_of_schedule [.client, .server, .server]
  simp [handshakeStart, Net.runSchedule, Net.step, Peer.act, Peer.receive, h, handleConnection,
    performServerHandshake, connRead, WSConn.Drained, WSConn.read, failWith, Failed]

/-- The server fails on the client's hello, or before it has answered it. -/
theorem run_server_fails (hk : P.generateKeyPair x.keyDraw = .ok ckp)
    (hb : buildClientHelloWithTime ckp x.ts x.helloPad = .ok hello) (hl : hello.length ≤ 4096)
    (h : (∃ e, parseClientHello hello y.now = .error e) ∨
      ∃ r, parseClientHello hello y.now = .ok r ∧
        ((∃ e, P.generateKeyPair y.keyDraw = .error e) ∨
          ∃ skp e, P.generateKeyPair y.keyDraw = .ok skp ∧
            P.buildServerHello skp r.2 r.1 y.challengeDraw y.helloPad = .error e)) :
    ∃ es t, Run Net.Step (handshakeStart P x y) es t ∧ Failed t := by
  have hw : ∀ msg, withinLimit 0 msg = true := fun _ => rfl
  have ht : hello.take 4096 = hello := List.take_of_length_le hl
  have hd : hello.drop 4096 = [] := List.drop_eq_nil_of_le hl
  apply exists_run_of_schedule [.client, .server, .server, .client, .client]
  rcases h with ⟨e, he⟩ | ⟨⟨ts, pub⟩, hr, ⟨e, he⟩ | ⟨skp, e, hs, he⟩⟩
  · simp [handshakeStart, Net.runSchedule, Net.step, Peer.act, Peer.receive, connect,
      performHandshake, handleConnection, performServerHandshake, connRead, connWrite,
      WSConn.deliver, WSConn.Drained, WSConn.read, failWith, Failed, hk, hb, hw, ht, hd, he]
  · simp [handshakeStart, Net.runSchedule, Net.step, Peer.act, Peer.receive, connect,
      performHandshake, handleConnection, performServerHandshake, connRead, connWrite,
      WSConn.deliver, WSConn.Drained, WSConn.read, failWith, Failed, hk, hb, hw, ht, hd, hr, he]
  · simp [handshakeStart, Net.runSchedule, Net.step, Peer.act, Peer.receive, connect,
      performHandshake, handleConnection, performServerHandshake, connRead, connWrite,
      WSConn.deliver, WSConn.Drained, WSConn.read, failWith, Failed, hk, hb, hw, ht, hd, hr, hs,
      he]

/-- The client fails on its answer to the server's hello. -/
theorem run_answer_fails (ho : Opening P x y ckp skp hello challenge serverHello sessionKey)
    (h : buildClientAuth P challenge sessionKey x.authToken x.authPad = .error e) :
    ∃ es t, Run Net.Step (handshakeStart P x y) es t ∧ Failed t := by
  have hw0 : ∀ msg, withinLimit 0 msg = true := fun _ => rfl
  have hw1 := withinLimit_serverHello ho.serverHello_le
  have hd1 : hello.drop 4096 = [] := List.drop_eq_nil_of_le ho.clientHello_le
  have hd2 : serverHello.drop 4096 = [] := List.drop_eq_nil_of_le ho.serverHello_le
  have ht1 : hello.take 4096 = hello := List.take_of_length_le ho.clientHello_le
  have ht2 : serverHello.take 4096 = serverHello := List.take_of_length_le ho.serverHello_le
  apply exists_run_of_schedule [.client, .server, .server, .client, .client, .server, .server]
  simp [handshakeStart, Net.runSchedule, Net.step, Peer.act, Peer.receive, connect,
    performHandshake, handleConnection, performServerHandshake, connRead, connWrite,
    WSConn.deliver, WSConn.Drained, WSConn.read, failWith, Failed, ho.clientKey, ho.serverKey,
    ho.clientHello_built, ho.clientHello_read, ho.serverHello_built, ho.serverHello_read, h, hw0,
    hw1, hd1, hd2, ht1, ht2]

/-! Where the runs end. -/

theorem act_of_raise {α : Type} {p : Peer α} (h : p.prog = .raise e) (c : Bool) :
    p.act c = none := by
  simp [Peer.act, h]

theorem not_returned_of_raise {α : Type} {p : Peer α} (h : p.prog = .raise e) : ¬ Returned p := by
  rintro ⟨a, ha⟩
  rw [h] at ha
  cases ha

theorem Failed.stopped {t : HandshakeNet} (h : Failed t) : Stopped Net.Step t := by
  obtain ⟨⟨e, he⟩, e', he'⟩ := h
  exact Net.stopped_of_done (act_of_raise he _) (act_of_raise he' _)

theorem Failed.agree {t : HandshakeNet} (h : Failed t) : Agree t := by
  obtain ⟨⟨e, he⟩, e', he'⟩ := h
  exact iff_of_false (not_returned_of_raise he) (not_returned_of_raise he')

theorem stopped_acceptedEnd (cipher : SessionCipher) (token auth : Bytes) :
    Stopped Net.Step (acceptedEnd cipher token auth) :=
  Net.stopped_of_done rfl rfl

theorem stopped_deniedEnd (cipher : SessionCipher) (token auth : Bytes) :
    Stopped Net.Step (deniedEnd cipher token auth) :=
  Net.stopped_of_done rfl rfl

theorem agree_acceptedEnd (cipher : SessionCipher) (token auth : Bytes) :
    Agree (acceptedEnd cipher token auth) :=
  iff_of_true ⟨_, rfl⟩ ⟨_, rfl⟩

theorem not_agree_deniedEnd (cipher : SessionCipher) (token auth : Bytes) :
    ¬ Agree (deniedEnd cipher token auth) := by
  intro h
  obtain ⟨a, ha⟩ := h.mp ⟨_, rfl⟩
  cases ha

def ClientSide.DrawsOk (x : ClientSide) : Prop :=
  (∃ d, x.keyDraw = .ok d) ∧ (∃ d, x.helloPad = .ok d) ∧ ∃ d, x.authPad = .ok d

def ServerSide.DrawsOk (y : ServerSide) : Prop :=
  (∃ d, y.keyDraw = .ok d) ∧ (∃ d, y.challengeDraw = .ok d) ∧ ∃ d, y.helloPad = .ok d

/-- Every random draw succeeds, the clocks agree, and `authFunc` refuses the token as the server
reads it: cut to its length modulo 256. -/
def Denied (x : ClientSide) (y : ServerSide) : Prop :=
  x.DrawsOk ∧ y.DrawsOk ∧ InWindow x.ts y.now ∧
    y.denies (x.authToken.take (x.authToken.length % 256)) = true

theorem connect_of_keyDraw_error (h : x.keyDraw = .error e) :
    connect P x = .call .close fun _ => .raise (wrap "handshake failed" e) := by
  simp [connect, performHandshake, Primitives.generateKeyPair, h, bind, Except.bind, Prog.bind,
    Prog.ofExcept]

theorem connect_of_helloPad_error (hk : P.generateKeyPair x.keyDraw = .ok ckp)
    (h : x.helloPad = .error e) :
    connect P x = .call .close fun _ => .raise (wrap "handshake failed" e) := by
  have hb : buildClientHelloWithTime ckp x.ts x.helloPad = .error e := by
    simp [buildClientHelloWithTime, randomPadding, h, bind, Except.bind]
  simp [connect, performHandshake, hk, hb]

/-- A server whose clock or draws fail does not answer the hello. -/
theorem run_of_server_side (hP : P.Lawful) {dk dh : Draw} (hkd : x.keyDraw = .ok dk)
    (hhp : x.helloPad = .ok dh) (h : ¬ (y.DrawsOk ∧ InWindow x.ts y.now)) :
    ∃ es t, Run Net.Step (handshakeStart P x y) es t ∧ Failed t := by
  obtain ⟨ckp, hckp, hck⟩ := exists_keyPair hP dk
  obtain ⟨hello, hbuild, hle, hparse⟩ := exists_clientHello hP hck x.ts dh
  apply run_server_fails (by rw [hkd, hckp]) (by rw [hhp, hbuild]) hle
  by_cases hw : InWindow x.ts y.now
  · refine Or.inr ⟨_, by rw [hparse, if_pos hw], ?_⟩
    cases hyk : y.keyDraw with
    | error e => exact Or.inl ⟨e, rfl⟩
    | ok ek =>
      obtain ⟨skp, hskp, -⟩ := exists_keyPair hP ek
      refine Or.inr ?_
      cases hyc : y.challengeDraw with
      | error e => exact ⟨skp, e, hskp, rfl⟩
      | ok ec =>
        cases hyp : y.helloPad with
        | error e => exact ⟨skp, e, hskp, rfl⟩
        | ok ep => exact (h ⟨⟨⟨_, hyk⟩, ⟨_, hyc⟩, ⟨_, hyp⟩⟩, hw⟩).elim
  · exact Or.inl ⟨_, by rw [hparse, if_neg hw]; rfl⟩

/-- Some run of the handshake ends, with the ends in agreement unless the server refuses. -/
theorem exists_end (hP : P.Lawful) (x : ClientSide) (y : ServerSide) :
    ∃ es t, Run Net.Step (handshakeStart P x y) es t ∧ Stopped Net.Step t ∧
      (Agree t ↔ ¬ Denied x y) := by
  have hfail : (∃ es t, Run Net.Step (handshakeStart P x y) es t ∧ Failed t) → ¬ Denied x y →
      ∃ es t, Run Net.Step (handshakeStart P x y) es t ∧ Stopped Net.Step t ∧
        (Agree t ↔ ¬ Denied x y) := by
    rintro ⟨es, t, hr, hf⟩ hn
    exact ⟨es, t, hr, hf.stopped, iff_of_true hf.agree hn⟩
  cases hkd : x.keyDraw with
  | error e =>
    apply hfail (run_client_fails (connect_of_keyDraw_error hkd))
    rintro ⟨⟨⟨d, hd⟩, -⟩, -⟩
    rw [hkd] at hd
    cases hd
  | ok dk =>
    cases hhp : x.helloPad with
    | error e =>
      obtain ⟨ckp, hckp, -⟩ := exists_keyPair hP dk
      apply hfail (run_client_fails (connect_of_helloPad_error (by rw [hkd, hckp]) hhp))
      rintro ⟨⟨-, ⟨d, hd⟩, -⟩, -⟩
      rw [hhp] at hd
      cases hd
    | ok dh =>
      by_cases hs : y.DrawsOk ∧ InWindow x.ts y.now
      · obtain ⟨hy, hw⟩ := hs
        obtain ⟨⟨ek, hyk⟩, ⟨ec, hyc⟩, ep, hyp⟩ := id hy
        obtain ⟨ckp, skp, hello, challenge, serverHello, sessionKey, ho⟩ :=
          exists_opening hP hkd hhp hyk hyc hyp hw
        cases hap : x.authPad with
        | error e =>
          have hb : buildClientAuth P challenge sessionKey x.authToken x.authPad = .error e := by
            simp [buildClientAuth, randomPadding, hap, bind, Except.bind]
          apply hfail (run_answer_fails ho hb)
          rintro ⟨⟨-, -, d, hd⟩, -⟩
          rw [hap] at hd
          cases hd
        | ok da =>
          obtain ⟨auth, ha⟩ := exists_answer hP hap challenge sessionKey
          have hc := newSessionCipher_ok P.suites ho.sessionKey_length
          have hx : x.DrawsOk := ⟨⟨dk, hkd⟩, ⟨dh, hhp⟩, da, hap⟩
          cases hd : y.denies (x.authToken.take (x.authToken.length % 256)) with
          | false =>
            refine ⟨_, _, run_accepted ho ha hc hd, stopped_acceptedEnd _ _ _,
              iff_of_true (agree_acceptedEnd _ _ _) ?_⟩
            rintro ⟨-, -, -, h⟩
            rw [hd] at h
            cases h
          | true =>
            exact ⟨_, _, run_denied ho ha hc hd, stopped_deniedEnd _ _ _,
              iff_of_false (not_agree_deniedEnd _ _ _) (not_not.mpr ⟨hx, hy, hw, hd⟩)⟩
      · apply hfail (run_of_server_side hP hkd hhp hs)
        rintro ⟨-, hy, hw, -⟩
        exact hs ⟨hy, hw⟩

/-- Every run of the handshake can be taken to its one end, after a bounded number of calls. -/
theorem handshake_ends (hP : P.Lawful) (x : ClientSide) (y : ServerSide) :
    ∃ t bound, Stopped Net.Step t ∧ (Agree t ↔ ¬ Denied x y) ∧
      ∀ es n, Run Net.Step (handshakeStart P x y) es n →
        es.length ≤ bound ∧ ∃ es', Run Net.Step n es' t := by
  obtain ⟨es, t, hr, ht, ha⟩ := exists_end hP x y
  refine ⟨t, es.length, ht, ha, ?_⟩
  intro es' n hn
  obtain ⟨cs, hcs, hl⟩ := Net.commuting.run_extends hr ht hn
  exact ⟨by omega, cs, hcs⟩

/-- In every interleaving the handshake ends, and the ends agree on the outcome exactly if the
server does not refuse the token. -/
theorem established_iff (hP : P.Lawful) (x : ClientSide) (y : ServerSide) :
    (∃ bound, ∀ es n, Run Net.Step (handshakeStart P x y) es n → es.length ≤ bound ∧
      ∃ es' t, Run Net.Step n es' t ∧ Stopped Net.Step t) ∧
    ((∀ es n, Run Net.Step (handshakeStart P x y) es n → Stopped Net.Step n → Agree n) ↔
      ¬ Denied x y) := by
  obtain ⟨t, bound, ht, ha, hall⟩ := handshake_ends hP x y
  constructor
  · refine ⟨bound, ?_⟩
    intro es n hn
    obtain ⟨hl, es', hr⟩ := hall es n hn
    exact ⟨hl, es', t, hr, ht⟩
  · constructor
    · intro h
      obtain ⟨-, es, hr⟩ := hall [] _ (.refl _)
      exact ha.mp (h es t hr ht)
    · intro hd es n hn hs
      obtain ⟨-, es', hr⟩ := hall es n hn
      cases hr with
      | refl => exact ha.mpr hd
      | step hst _ => exact (hs _ _ hst).elim

/-- One read into a buffer of `n` bytes takes the message and leaves nothing behind. -/
def TakenWhole (limit n : Nat) (msg : Bytes) : Prop :=
  ∀ inbox, WSConn.read ⟨[], msg :: inbox, limit⟩ n = (.ok msg, ⟨[], inbox, limit⟩)

theorem takenWhole_of_le {limit n : Nat} {msg : Bytes} (hl : withinLimit limit msg = true)
    (hn : msg.length ≤ n) : TakenWhole limit n msg :=
  fun _ => WSConn.read_message hl hn

/-- Wherever the ends stand, an end that has returned holds what `acceptedEnd` says. -/
theorem returned_of_accepted (ho : Opening P x y ckp skp hello challenge serverHello sessionKey)
    (ha : Answer P x challenge sessionKey auth)
    (hc : newSessionCipher P.suites sessionKey detectBestCipher = .ok cipher)
    (hd : y.denies (x.authToken.take (x.authToken.length % 256)) = false)
    {es : List Endpoint} {n : HandshakeNet} (hn : Run Net.Step (handshakeStart P x y) es n) :
    (∃ es', Run Net.Step n es'
      (acceptedEnd cipher (x.authToken.take (x.authToken.length % 256)) auth)) ∧
    (∀ c, n.client.prog = .ret c → c = cipher ∧ n.client.conn.readBuf = []) ∧
    ∀ c t, n.server.prog = .ret (c, t) → c = cipher ∧
      t = x.authToken.take (x.authToken.length % 256) ∧
        n.server.conn.readBuf = auth.drop 4096 := by
  obtain ⟨es', hr, -⟩ := Net.commuting.run_extends (run_accepted ho ha hc hd)
    (stopped_acceptedEnd _ _ _) hn
  refine ⟨⟨es', hr⟩, ?_, ?_⟩
  · intro c h
    obtain ⟨hp, hb⟩ := Net.client_returned_run hr h
    have hp : (Prog.ret cipher : ConnProg SessionCipher) = .ret c := hp
    cases hp
    exact ⟨rfl, hb.symm⟩
  · intro c t h
    obtain ⟨hp, hb⟩ := Net.server_returned_run hr h
    have hp : (Prog.ret (cipher, x.authToken.take (x.authToken.length % 256)) :
      ConnProg (SessionCipher × Bytes)) = .ret (c, t) := hp
    cases hp
    exact ⟨rfl, rfl, hb.symm⟩

/-- The messages of a handshake fit their buffers, parse to what was built, and give both ends one
challenge and one session key; unless the server refuses the token, every interleaving ends with
both ends holding the cipher of that key and empty read buffers. -/
theorem handshake_exchange (hP : P.Lawful) (hx : x.DrawsOk) (hy : y.DrawsOk)
    (hw : InWindow x.ts y.now) (ht : x.authToken.length ≤ 255) :
    ∃ ckp skp hello challenge serverHello sessionKey auth cipher,
      Opening P x y ckp skp hello challenge serverHello sessionKey ∧
      buildClientAuth P challenge sessionKey x.authToken x.authPad = .ok auth ∧
      parseClientAuth P auth challenge sessionKey = .ok x.authToken ∧
      newSessionCipher P.suites sessionKey detectBestCipher = .ok cipher ∧
      (TakenWhole 0 4096 hello ∧ TakenWhole maxMessageSize 4096 serverHello ∧
        TakenWhole 0 4096 auth ∧ TakenWhole maxMessageSize 1024 ackOK) ∧
      (y.denies x.authToken = false → ∀ es n, Run Net.Step (handshakeStart P x y) es n →
        (∃ es', Run Net.Step n es' (acceptedEnd cipher x.authToken auth)) ∧
        (∀ c, n.client.prog = .ret c → c = cipher ∧ n.client.conn.readBuf = []) ∧
        ∀ c t, n.server.prog = .ret (c, t) → c = cipher ∧ t = x.authToken ∧
          n.server.conn.readBuf = []) := by
  obtain ⟨⟨dk, hkd⟩, ⟨dh, hhp⟩, da, hap⟩ := hx
  obtain ⟨⟨ek, hyk⟩, ⟨ec, hyc⟩, ep, hyp⟩ := hy
  obtain ⟨ckp, skp, hello, challenge, serverHello, sessionKey, ho⟩ :=
    exists_opening hP hkd hhp hyk hyc hyp hw
  obtain ⟨auth, ha⟩ := exists_answer hP hap challenge sessionKey
  have hc := newSessionCipher_ok P.suites ho.sessionKey_length
  have hle : auth.length ≤ 4096 := by
    have := ha.clientAuth_le
    omega
  have htok : x.authToken.take (x.authToken.length % 256) = x.authToken := by
    rw [Nat.mod_eq_of_lt (by omega), List.take_length]
  have hread := ha.clientAuth_read
  rw [List.take_of_length_le hle, htok] at hread
  refine ⟨ckp, skp, hello, challenge, serverHello, sessionKey, auth, _, ho, ha.clientAuth_built,
    hread, hc, ⟨?_, ?_, ?_, ?_⟩, ?_⟩
  · exact takenWhole_of_le rfl ho.clientHello_le
  · exact takenWhole_of_le (withinLimit_serverHello ho.serverHello_le) ho.serverHello_le
  · exact takenWhole_of_le rfl hle
  · exact takenWhole_of_le (by decide) (by decide)
  · intro hd es n hn
    rw [← htok] at hd
    have h := returned_of_accepted ho ha hc hd hn
    rwa [htok, List.drop_eq_nil_of_le hle] at h

end Runs

/-! Concrete handshakes: exclusive or stands for the key agreement, and nothing is secret. -/

def xorBytes (a b : Bytes) : Bytes := (List.range 32).map fun i => a.getD i 0 ^^^ b.getD i 0

def plainPrimitives : Primitives where
  x25519 scalar point := .ok (xorBytes scalar point)
  basepoint := 9 :: List.replicate 31 0
  hkdf secret salt info n := .ok (copyInto n (secret ++ salt ++ info))
  hmac data key := copyInto hmacSize (key ++ data)
  suites := nullSuites

theorem getD_xorBytes (a b : Bytes) {i : Nat} (h : i < 32) :
    (xorBytes a b).getD i 0 = a.getD i 0 ^^^ b.getD i 0 := by
  simp [xorBytes, h]

theorem plainPrimitives_comm {kp kp' : KeyPair} (h : plainPrimitives.IsKeyPair kp)
    (h' : plainPrimitives.IsKeyPair kp') :
    xorBytes kp.priv kp'.pub = xorBytes kp'.priv kp.pub := by
  have hp : kp.pub = xorBytes kp.priv plainPrimitives.basepoint := (Except.ok.inj h.pub_eq).symm
  have hp' : kp'.pub = xorBytes kp'.priv plainPrimitives.basepoint :=
    (Except.ok.inj h'.pub_eq).symm
  apply List.map_congr_left
  intro i hi
  have hi := List.mem_range.mp hi
  rw [hp, hp', getD_xorBytes _ _ hi, getD_xorBytes _ _ hi, ← UInt8.xor_assoc, ← UInt8.xor_assoc,
    UInt8.xor_comm (kp.priv.getD i 0)]

theorem plainPrimitives_lawful : plainPrimitives.Lawful where
  x25519_length scalar point out h := by
    obtain rfl := Except.ok.inj h
    simp [xorBytes]
  x25519_basepoint scalar _ := ⟨_, rfl⟩
  x25519_honest kp kp' _ _ := ⟨_, rfl⟩
  x25519_comm kp kp' h h' := congrArg Except.ok (plainPrimitives_comm h h')
  hkdf_ok secret salt info n _ := ⟨_, rfl, length_copyInto _ _⟩
  hmac_length data key := length_copyInto _ _
  chacha20poly1305 := nullAead_correct aeadOverhead

def plainClient (authToken : Bytes) : ClientSide :=
  ⟨zeroDraw, zeroDraw, zeroDraw, Time.ofUnix 0, authToken⟩

def plainServer (authFunc : Option (Bytes → Bool × Int)) : ServerSide :=
  ⟨zeroDraw, zeroDraw, zeroDraw, Time.ofUnix 0, authFunc⟩

theorem plainClient_drawsOk (authToken : Bytes) : (plainClient authToken).DrawsOk :=
  ⟨⟨_, rfl⟩, ⟨_, rfl⟩, _, rfl⟩

theorem plainServer_drawsOk (authFunc : Option (Bytes → Bool × Int)) :
    (plainServer authFunc).DrawsOk :=
  ⟨⟨_, rfl⟩, ⟨_, rfl⟩, _, rfl⟩

/-- An empty token against a server that refuses every token. -/
theorem refused_disagree : ∃ es n,
    Run Net.Step (handshakeStart plainPrimitives (plainClient [])
      (plainServer (some fun _ => (false, 0)))) es n ∧ Stopped Net.Step n ∧ ¬ Agree n := by
  obtain ⟨es, t, hr, ht, ha⟩ := exists_end plainPrimitives_lawful (plainClient [])
    (plainServer (some fun _ => (false, 0)))
  refine ⟨es, t, hr, ht, ?_⟩
  rw [ha, not_not]
  exact ⟨plainClient_drawsOk [], plainServer_drawsOk _, by decide, rfl⟩

/-- A server without `authFunc`. -/
theorem established_iff_open : ¬ Denied (plainClient [1, 2]) (plainServer none) ∧ ∀ es n,
    Run Net.Step (handshakeStart plainPrimitives (plainClient [1, 2]) (plainServer none)) es n →
      Stopped Net.Step n → Agree n := by
  have hopen : ¬ Denied (plainClient [1, 2]) (plainServer none) := by
    rintro ⟨-, -, -, h⟩
    cases h
  refine ⟨hopen, ?_⟩
  exact (established_iff plainPrimitives_lawful (plainClient [1, 2]) (plainServer none)).2.mpr hopen

theorem handshake_exchange_plain : ∃ ckp skp hello challenge serverHello sessionKey,
    Opening plainPrimitives (plainClient [1, 2]) (plainServer none) ckp skp hello challenge
      serverHello sessionKey := by
  obtain ⟨ckp, skp, hello, challenge, serverHello, sessionKey, -, -, ho, -⟩ :=
    handshake_exchange plainPrimitives_lawful (plainClient_drawsOk [1, 2])
      (plainServer_drawsOk none) (by decide) (by decide)
  exact ⟨ckp, skp, hello, challenge, serverHello, sessionKey, ho⟩

end SshPanelVpn.ShadowLink

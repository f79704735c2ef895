import Mathlib.Data.List.GetD
import SshPanelVpn.ShadowLink.Crypto
import SshPanelVpn.ShadowLink.GoTime

/-! `internal/protocol/handshake.go`: the four messages of the handshake and the session key. -/
namespace SshPanelVpn.ShadowLink

open Octets Sealing

def timestampWindow : Int := 30 * Time.second

abbrev x25519KeySize : Nat := 32
abbrev hmacSize : Nat := 32
abbrev challengeSize : Nat := 32
abbrev minHandshakePad : Nat := 32
abbrev maxHandshakePad : Nat := 256

/-- The packages that the handshake calls. `hkdf` reads a number of bytes from
`hkdf.New(sha256.New, secret, salt, info)`. -/
structure Primitives where
  x25519 : (scalar point : Bytes) → Result Bytes
  basepoint : Bytes
  hkdf : (secret salt info : Bytes) → Nat → Result Bytes
  hmac : (data key : Bytes) → Bytes
  suites : AeadSuites

/-- `copy` into a buffer of `n` zero bytes. -/
def copyInto (n : Nat) (src : Bytes) : Bytes := (src ++ List.replicate n 0).take n

structure KeyPair where
  priv : Bytes
  pub : Bytes
  deriving DecidableEq, Repr

/-- `PutUint64` of `uint64(ts.Unix())`, big-endian. -/
def unixBytes (ts : Time) : Bytes := beBytes 8 ts.unix.toUInt64.toNat

/-- `info` of the session keys: `shadowlink-session-v1`. -/
def sessionInfo : Bytes :=
  [0x73, 0x68, 0x61, 0x64, 0x6f, 0x77, 0x6c, 0x69, 0x6e, 0x6b, 0x2d, 0x73, 0x65, 0x73, 0x73, 0x69,
    0x6f, 0x6e, 0x2d, 0x76, 0x31]

def randomPadding (min max : Nat) (draw : Result Draw) : Result Bytes :=
  let diff := if max - min = 0 then 1 else max - min
  match draw with
  | .error e => .error e
  | .ok d => .ok (fill d.byte (min + d.int % diff))

def buildClientHelloWithTime (kp : KeyPair) (ts : Time) (padDraw : Result Draw) : Result Bytes := do
  let pad ← randomPadding minHandshakePad maxHandshakePad padDraw
  return unixBytes ts ++ copyInto x25519KeySize kp.pub ++ pad

def parseClientHello (data : Bytes) (now : Time) : Result (Time × Bytes) :=
  if data.length < 8 + x25519KeySize then
    failWith "client hello too short"
  else
    let ts := UInt64.ofNat (beNat (data.take 8))
    let timestamp := Time.ofUnix ts.toInt64
    if now.sub timestamp > timestampWindow ∨ timestamp.sub now > timestampWindow then
      failWith "timestamp outside acceptable window (replay protection)"
    else
      .ok (timestamp, (data.drop 8).take x25519KeySize)

def buildClientAuth (P : Primitives) (challenge sessionKey authToken : Bytes)
    (padDraw : Result Draw) : Result Bytes := do
  let mac := P.hmac challenge sessionKey
  let pad ← randomPadding minHandshakePad maxHandshakePad padDraw
  return copyInto hmacSize mac ++ UInt8.ofNat authToken.length :: (authToken ++ pad)

/-- The byte after the MAC says how many of the bytes that follow are the token. -/
def parseClientAuth (P : Primitives) (data challenge sessionKey : Bytes) : Result Bytes :=
  if data.length < hmacSize + 1 then
    failWith "client auth too short"
  else if P.hmac challenge sessionKey ≠ data.take hmacSize then
    failWith "HMAC verification failed"
  else
    let tokenLen := (data.getD hmacSize 0).toNat
    if data.length < hmacSize + 1 + tokenLen then
      failWith "auth token truncated"
    else
      .ok ((data.drop (hmacSize + 1)).take tokenLen)

namespace Primitives

variable (P : Primitives)

def generateKeyPair (draw : Result Draw) : Result KeyPair := do
  let d ← draw
  let priv := fill d.byte x25519KeySize
  let pub ← P.x25519 priv P.basepoint
  return ⟨priv, pub⟩

def deriveSessionKey (sharedSecret salt : Bytes) : Result Bytes :=
  P.hkdf sharedSecret salt sessionInfo keySize

/-- The challenge, then the message. -/
def buildServerHello (serverKP : KeyPair) (clientPub : Bytes) (timestamp : Time)
    (challengeDraw padDraw : Result Draw) : Result (Bytes × Bytes) := do
  let d ← challengeDraw
  let challenge := fill d.byte challengeSize
  let pad ← randomPadding minHandshakePad maxHandshakePad padDraw
  let sharedSecret ← P.x25519 serverKP.priv clientPub
  let tempKey ← P.deriveSessionKey sharedSecret (unixBytes timestamp)
  let tempCipher ← newSessionCipher P.suites tempKey cipherChaCha20Poly1305
  let (encPayload, _) := tempCipher.encrypt (challenge ++ pad)
  return (challenge, copyInto x25519KeySize serverKP.pub ++ encPayload)

/-- Server public key, challenge and session key. -/
def parseServerHello (data clientPriv : Bytes) (timestamp : Time) :
    Result (Bytes × Bytes × Bytes) :=
  if data.length < x25519KeySize + nonceSize + aeadOverhead then
    failWith "server hello too short"
  else do
    let serverPub := data.take x25519KeySize
    let sharedSecret ← P.x25519 clientPriv serverPub
    let tempKey ← P.deriveSessionKey sharedSecret (unixBytes timestamp)
    let tempCipher ← newSessionCipher P.suites tempKey cipherChaCha20Poly1305
    let payload ← (tempCipher.decrypt (data.drop x25519KeySize)).1
    if payload.length < challengeSize then
      failWith "decrypted payload too short for challenge"
    else
      let challenge := payload.take challengeSize
      let sessionKey ← P.deriveSessionKey sharedSecret (unixBytes timestamp ++ challenge)
      return (serverPub, challenge, sessionKey)

def deriveServerSessionKey (serverPriv clientPub : Bytes) (timestamp : Time)
    (challenge : Bytes) : Result Bytes := do
  let sharedSecret ← P.x25519 serverPriv clientPub
  P.deriveSessionKey sharedSecret (unixBytes timestamp ++ challenge)

/-- A key pair as `GenerateKeyPair` makes them. -/
structure IsKeyPair (kp : KeyPair) : Prop where
  length_priv : kp.priv.length = x25519KeySize
  pub_eq : P.x25519 kp.priv P.basepoint = .ok kp.pub

/-- What the packages document: X25519 gives 32 bytes, is defined on honest keys and commutes, HKDF
yields as many bytes as it is asked for, HMAC-SHA256 yields 32, and the AEAD opens what it seals. -/
structure Lawful : Prop where
  x25519_length : ∀ scalar point out, P.x25519 scalar point = .ok out → out.length = x25519KeySize
  x25519_basepoint : ∀ scalar, scalar.length = x25519KeySize →
    ∃ pub, P.x25519 scalar P.basepoint = .ok pub
  x25519_honest : ∀ kp kp', P.IsKeyPair kp → P.IsKeyPair kp' →
    ∃ secret, P.x25519 kp.priv kp'.pub = .ok secret
  x25519_comm : ∀ kp kp', P.IsKeyPair kp → P.IsKeyPair kp' →
    P.x25519 kp.priv kp'.pub = P.x25519 kp'.priv kp.pub
  hkdf_ok : ∀ secret salt info n, n ≤ 255 * 32 →
    ∃ key, P.hkdf secret salt info n = .ok key ∧ key.length = n
  hmac_length : ∀ data key, (P.hmac data key).length = hmacSize
  chacha20poly1305 : P.suites.chacha20poly1305.Correct aeadOverhead

end Primitives

/-! The messages one by one. -/

theorem copyInto_of_length {n : Nat} {src : Bytes} (h : src.length = n) : copyInto n src = src := by
  rw [copyInto, List.take_left' h]

@[simp] theorem length_copyInto (n : Nat) (src : Bytes) : (copyInto n src).length = n := by
  simp [copyInto]

/-- The padding that a successful draw gives. -/
theorem randomPadding_ok (d : Draw) :
    ∃ pad, randomPadding minHandshakePad maxHandshakePad (.ok d) = .ok pad ∧ pad.length ≤ 255 := by
  refine ⟨_, rfl, ?_⟩
  have h := Nat.mod_lt d.int (show 0 < 224 by decide)
  simp only [minHandshakePad, maxHandshakePad, length_fill]
  simp only [Nat.reduceSub, OfNat.ofNat_ne_zero, if_false]
  omega

@[simp] theorem length_unixBytes (ts : Time) : (unixBytes ts).length = 8 := by
  simp [unixBytes]

/-- The timestamp goes through `uint64`, eight bytes and `int64` unchanged. -/
theorem unix_of_unixBytes (ts : Time) :
    (UInt64.ofNat (beNat (unixBytes ts))).toInt64 = ts.unix := by
  have h := ts.unix.toUInt64.toNat_lt
  rw [unixBytes, beNat_beBytes_of_lt (by simpa using h), UInt64.ofNat_toNat, Int64.toInt64_toUInt64]

/-- The server's clock is at most 30 seconds off the whole seconds of the client's time. -/
def InWindow (ts now : Time) : Prop :=
  now.nanos - (Time.ofUnix ts.unix).nanos ≤ timestampWindow ∧
    (Time.ofUnix ts.unix).nanos - now.nanos ≤ timestampWindow

instance (ts now : Time) : Decidable (InWindow ts now) := inferInstanceAs (Decidable (_ ∧ _))

theorem inWindow_iff (ts now : Time) : InWindow ts now ↔
    ¬ (now.sub (Time.ofUnix ts.unix) > timestampWindow ∨
      (Time.ofUnix ts.unix).sub now > timestampWindow) := by
  have h0 : 0 ≤ timestampWindow := by decide
  have h1 : timestampWindow < 2 ^ 63 - 1 := by decide
  rw [InWindow, ← Time.sub_le_iff _ _ h0 h1, ← Time.sub_le_iff _ _ h0 h1]
  omega

section ClientHello

variable {kp : KeyPair} {ts now : Time} {pad : Bytes}

theorem parseClientHello_hello (hp : kp.pub.length = x25519KeySize) :
    parseClientHello (unixBytes ts ++ copyInto x25519KeySize kp.pub ++ pad) now =
      if InWindow ts now then .ok (Time.ofUnix ts.unix, kp.pub)
      else failWith "timestamp outside acceptable window (replay protection)" := by
  have h8 : (unixBytes ts ++ copyInto x25519KeySize kp.pub ++ pad).take 8 = unixBytes ts := by
    rw [List.append_assoc, List.take_left' (length_unixBytes ts)]
  have hpub : ((unixBytes ts ++ copyInto x25519KeySize kp.pub ++ pad).drop 8).take x25519KeySize =
      kp.pub := by
    rw [List.append_assoc, List.drop_left' (length_unixBytes ts), copyInto_of_length hp,
      List.take_left' hp]
  have hlen : ¬ (unixBytes ts ++ copyInto x25519KeySize kp.pub ++ pad).length <
      8 + x25519KeySize := by
    simp
  rw [parseClientHello, if_neg hlen]
  simp only [h8, hpub, unix_of_unixBytes]
  by_cases hw : InWindow ts now
  · rw [if_neg ((inWindow_iff ts now).mp hw), if_pos hw]
  · rw [if_pos (not_not.mp (fun hn => hw ((inWindow_iff ts now).mpr hn))), if_neg hw]

end ClientHello

section ClientAuth

variable {P : Primitives} {challenge sessionKey body : Bytes} {n : UInt8}

/-- With a valid MAC in front, the length byte says how much of the rest is returned. -/
theorem parseClientAuth_of_body (hP : P.Lawful) (hn : n.toNat ≤ body.length) :
    parseClientAuth P (P.hmac challenge sessionKey ++ n :: body) challenge sessionKey =
      .ok (body.take n.toNat) := by
  have hmac := hP.hmac_length challenge sessionKey
  have htake : (P.hmac challenge sessionKey ++ n :: body).take hmacSize =
      P.hmac challenge sessionKey := List.take_left' hmac
  have hdrop : (P.hmac challenge sessionKey ++ n :: body).drop (hmacSize + 1) = body := by
    rw [← List.drop_drop, List.drop_left' hmac, List.drop_one, List.tail_cons]
  have hget : (P.hmac challenge sessionKey ++ n :: body).getD hmacSize 0 = n := by
    rw [List.getD_append_right _ _ _ _ (le_of_eq hmac), hmac, Nat.sub_self, List.getD_cons_zero]
  have hlen : (P.hmac challenge sessionKey ++ n :: body).length = hmacSize + 1 + body.length := by
    rw [List.length_append, hmac, List.length_cons]
    omega
  have hlong : ¬ (P.hmac challenge sessionKey ++ n :: body).length < hmacSize + 1 := by omega
  have hfits : ¬ (P.hmac challenge sessionKey ++ n :: body).length <
      hmacSize + 1 + n.toNat := by omega
  simp only [parseClientAuth, htake, hdrop, hget, hlong, hfits, if_false, ne_eq, not_true_eq_false]

end ClientAuth

section ServerHello

variable {P : Primitives} {ckp skp : KeyPair}

/-- The shared secret of two honest key pairs, and what is derived from it. -/
theorem exists_sharedSecret (hP : P.Lawful) (hc : P.IsKeyPair ckp) (hs : P.IsKeyPair skp) :
    ∃ secret, P.x25519 ckp.priv skp.pub = .ok secret ∧ P.x25519 skp.priv ckp.pub = .ok secret := by
  obtain ⟨secret, h⟩ := hP.x25519_honest ckp skp hc hs
  exact ⟨secret, h, by rw [← hP.x25519_comm ckp skp hc hs, h]⟩

theorem exists_derivedKey (hP : P.Lawful) (secret salt : Bytes) :
    ∃ key, P.deriveSessionKey secret salt = .ok key ∧ key.length = keySize :=
  hP.hkdf_ok secret salt sessionInfo keySize (by decide)

theorem newSessionCipher_ok (A : AeadSuites) {key : Bytes} (hk : key.length = keySize) :
    newSessionCipher A key cipherChaCha20Poly1305 =
      .ok ⟨⟨A.chacha20poly1305, key⟩, 0, 0, cipherChaCha20Poly1305, hk⟩ := by
  simp [newSessionCipher, hk]

theorem length_pub (hP : P.Lawful) {kp : KeyPair} (h : P.IsKeyPair kp) :
    kp.pub.length = x25519KeySize :=
  hP.x25519_length _ _ _ h.pub_eq

/-- A fresh cipher opens the first message of another one under the same key. -/
theorem decrypt_encrypt {sc rc : SessionCipher} (hA : sc.aead.alg.Correct aeadOverhead)
    (hk : rc.aead = sc.aead) (hn : rc.recvNonce ≤ sc.sendNonce) (plaintext : Bytes) :
    (rc.decrypt (sc.encrypt plaintext).1).1 = .ok plaintext := by
  have hnonce : (sc.sealCall plaintext).nonce.length = nonceSize := length_nonceBytes _
  rw [SessionCipher.encrypt_eq]
  apply SessionCipher.decrypt_ok_iff.mpr
  refine ⟨⟨?_, ?_⟩, ?_⟩
  · have hct : (sc.sealCall plaintext).ciphertext.length = plaintext.length + aeadOverhead :=
      hA.length_sealText _ _ _
    rw [List.length_append, hnonce, hct]
    omega
  · rw [← nonceSeq_take, List.take_left' hnonce, SessionCipher.sealCall, nonceSeq_nonceBytes]
    exact hn
  · rw [SessionCipher.opened, List.take_left' hnonce, List.drop_left' hnonce, hk]
    exact hA.openText_sealText _ _ _

/-- The server hello as the server builds it and the client takes it apart. -/
theorem serverHello_exchange (hP : P.Lawful) (hc : P.IsKeyPair ckp) (hs : P.IsKeyPair skp)
    (ts : Time) (dc dp : Draw) :
    ∃ msg sessionKey, sessionKey.length = keySize ∧ msg.length ≤ 347 ∧
      P.buildServerHello skp ckp.pub (Time.ofUnix ts.unix) (.ok dc) (.ok dp) =
        .ok (fill dc.byte challengeSize, msg) ∧
      P.parseServerHello msg ckp.priv ts =
        .ok (skp.pub, fill dc.byte challengeSize, sessionKey) ∧
      P.deriveServerSessionKey skp.priv ckp.pub (Time.ofUnix ts.unix)
        (fill dc.byte challengeSize) = .ok sessionKey := by
  obtain ⟨secret, hcs, hss⟩ := exists_sharedSecret hP hc hs
  obtain ⟨tempKey, htemp, htl⟩ := exists_derivedKey hP secret (unixBytes ts)
  obtain ⟨sessionKey, hsess, hsl⟩ :=
    exists_derivedKey hP secret (unixBytes ts ++ fill dc.byte challengeSize)
  obtain ⟨pad, hpad, hpl⟩ := randomPadding_ok dp
  have hsalt : unixBytes (Time.ofUnix ts.unix) = unixBytes ts := by
    rw [unixBytes, Time.unix_ofUnix, unixBytes]
  have hpub := length_pub hP hs
  let temp : SessionCipher :=
    ⟨⟨P.suites.chacha20poly1305, tempKey⟩, 0, 0, cipherChaCha20Poly1305, htl⟩
  have hcipher : newSessionCipher P.suites tempKey cipherChaCha20Poly1305 = .ok temp :=
    newSessionCipher_ok P.suites htl
  let payload := fill dc.byte challengeSize ++ pad
  have hdec : (temp.decrypt (temp.encrypt payload).1).1 = .ok payload :=
    decrypt_encrypt hP.chacha20poly1305 rfl (UInt64.le_refl _) payload
  have hplen : payload.length = challengeSize + pad.length := by simp [payload]
  have henc : (temp.encrypt payload).1.length = nonceSize + (payload.length + aeadOverhead) := by
    rw [SessionCipher.encrypt_eq, List.length_append]
    simp [SessionCipher.sealCall, temp, hP.chacha20poly1305.length_sealText]
  refine ⟨skp.pub ++ (temp.encrypt payload).1, sessionKey, hsl, ?_, ?_, ?_, ?_⟩
  · rw [List.length_append, hpub, henc, hplen]
    simp only [x25519KeySize, nonceSize, challengeSize, aeadOverhead]
    omega
  · simp [Primitives.buildServerHello, hpad, hss, hsalt, htemp, hcipher, bind, Except.bind, pure,
      Except.pure, copyInto_of_length hpub, payload]
  · have hlen : ¬ (skp.pub ++ (temp.encrypt payload).1).length <
        x25519KeySize + nonceSize + aeadOverhead := by
      rw [List.length_append, hpub, henc]
      omega
    have hshort : ¬ payload.length < challengeSize := by omega
    have hch : payload.take challengeSize = fill dc.byte challengeSize :=
      List.take_left' (length_fill _ _)
    rw [Primitives.parseServerHello, if_neg hlen, List.take_left' hpub, List.drop_left' hpub]
    simp [hcs, htemp, hcipher, hdec, hshort, hch, hsess, bind, Except.bind, pure, Except.pure]
  · simp [Primitives.deriveServerSessionKey, hss, hsalt, hsess, bind, Except.bind]

end ServerHello

end SshPanelVpn.ShadowLink

import Mathlib.Data.Set.Function
import SshPanelVpn.Library.Indexed
import SshPanelVpn.ShadowLink.ClientAuth

/-! Any number of server handshakes, fed by an attacker who hears every message and delivers what he
likes. -/
namespace SshPanelVpn.ShadowLink

open Octets Effects Runs Indexed

/-- Where a connection program can stand after it has read the messages, in order. -/
inductive Feeds {α : Type} : ConnProg α → List Bytes → ConnProg α → Prop where
  | refl (p : ConnProg α) : Feeds p [] p
  | read {n : Nat} {k : Result Bytes → ConnProg α} {m : Bytes} {ms : List Bytes} {q : ConnProg α} :
      m.length ≤ n → Feeds (k (.ok m)) ms q → Feeds (.call (.read n) k) (m :: ms) q
  | readFails {n : Nat} {k : Result Bytes → ConnProg α} {e : Fault} {ms : List Bytes}
      {q : ConnProg α} : Feeds (k (.error e)) ms q → Feeds (.call (.read n) k) ms q
  | write {p : Bytes} {k : Result Unit → ConnProg α} {r : Result Unit} {ms : List Bytes}
      {q : ConnProg α} : Feeds (k r) ms q → Feeds (.call (.write p) k) ms q
  | close {k : Unit → ConnProg α} {ms : List Bytes} {q : ConnProg α} :
      Feeds (k ()) ms q → Feeds (.call .close k) ms q

namespace Feeds

variable {α β : Type} {p q r : ConnProg α} {ms ns : List Bytes} {ctx : String} {a : α} {e : Fault}

theorem trans (h : Feeds p ms q) (h' : Feeds q ns r) : Feeds p (ms ++ ns) r := by
  induction h with
  | refl p => exact h'
  | read hlen _ ih => exact .read hlen (ih h')
  | readFails _ ih => exact .readFails (ih h')
  | write _ ih => exact .write (ih h')
  | close _ ih => exact .close (ih h')

theorem not_ret_of_raise : ¬ Feeds (.raise e) ms (.ret a) := by
  intro h
  cases h

theorem of_ret {b : α} (h : Feeds (.ret b) ms (.ret a)) : b = a ∧ ms = [] := by
  cases h
  exact ⟨rfl, rfl⟩

/-! What a program that returns has got from its calls. -/

theorem of_read {n : Nat} {f : Bytes → ConnProg α}
    (h : Feeds (connRead ctx n >>= f) ms (.ret a)) :
    ∃ m ns, ms = m :: ns ∧ m.length ≤ n ∧ Feeds (f m) ns (.ret a) := by
  cases h with
  | read hlen h => exact ⟨_, _, rfl, hlen, h⟩
  | readFails h => exact (not_ret_of_raise h).elim

theorem of_write {msg : Bytes} {f : Unit → ConnProg α}
    (h : Feeds (connWrite ctx msg >>= f) ms (.ret a)) : Feeds (f ()) ms (.ret a) := by
  cases h with
  | @write _ _ r _ _ h =>
    cases r with
    | ok u => exact h
    | error e => exact (not_ret_of_raise h).elim

theorem of_orFail {x : Result β} {f : β → ConnProg α}
    (h : Feeds (orFail ctx x >>= f) ms (.ret a)) : ∃ b, x = .ok b ∧ Feeds (f b) ms (.ret a) := by
  cases x with
  | ok b => exact ⟨b, rfl, h⟩
  | error e => exact (not_ret_of_raise h).elim

theorem of_ofExcept {x : Result β} {f : β → ConnProg α}
    (h : Feeds (Prog.ofExcept x >>= f) ms (.ret a)) :
    ∃ b, x = .ok b ∧ Feeds (f b) ms (.ret a) := by
  cases x with
  | ok b => exact ⟨b, rfl, h⟩
  | error e => exact (not_ret_of_raise h).elim

/-- A handler that closes the connection and raises does not return. -/
theorem of_handle_close (h : Feeds (p.handle fun e => .call .close fun _ => .raise e) ms (.ret a)) :
    Feeds p ms (.ret a) := by
  induction p generalizing ms with
  | ret b =>
    obtain ⟨rfl, rfl⟩ := of_ret h
    exact .refl _
  | raise e =>
    cases h with
    | close h => exact (not_ret_of_raise h).elim
  | call c k ih =>
    cases h with
    | read hlen h => exact .read hlen (ih _ h)
    | readFails h => exact .readFails (ih _ h)
    | write h => exact .write (ih _ h)
    | close h => exact .close (ih _ h)

end Feeds

/-- The challenge that the server draws, if it can draw one. -/
def ServerSide.challenge (y : ServerSide) : Option Bytes :=
  match y.challengeDraw with
  | .error _ => none
  | .ok d => some (fill d.byte challengeSize)

/-- The challenge and the session key that the server computes once it has the client's hello. -/
def ServerSide.opening (P : Primitives) (y : ServerSide) (hello : Bytes) :
    Result (Bytes × Bytes) := do
  let (timestamp, clientPub) ← parseClientHello hello y.now
  let serverKP ← P.generateKeyPair y.keyDraw
  let (challenge, _) ← P.buildServerHello serverKP clientPub timestamp y.challengeDraw y.helloPad
  let sessionKey ← P.deriveServerSessionKey serverKP.priv clientPub timestamp challenge
  return (challenge, sessionKey)

section Opening

variable {P : Primitives} {y : ServerSide} {hello challenge serverHello sessionKey clientPub : Bytes}
  {skp : KeyPair} {timestamp : Time} {challengeDraw padDraw : Result Draw}

theorem bind_ok {α β : Type} {x : Result α} {f : α → Result β} {b : β} (h : x >>= f = .ok b) :
    ∃ a, x = .ok a ∧ f a = .ok b := by
  cases x with
  | error e => cases h
  | ok a => exact ⟨a, rfl, h⟩

theorem buildServerHello_challenge
    (h : P.buildServerHello skp clientPub timestamp challengeDraw padDraw =
      .ok (challenge, serverHello)) :
    ∃ d, challengeDraw = .ok d ∧ challenge = fill d.byte challengeSize := by
  unfold Primitives.buildServerHello at h
  obtain ⟨d, hd, h⟩ := bind_ok h
  obtain ⟨pad, -, h⟩ := bind_ok h
  obtain ⟨secret, -, h⟩ := bind_ok h
  obtain ⟨tempKey, -, h⟩ := bind_ok h
  obtain ⟨tempCipher, -, h⟩ := bind_ok h
  cases h
  exact ⟨d, hd, rfl⟩

theorem ServerSide.opening_ok_iff :
    y.opening P hello = .ok (challenge, sessionKey) ↔
      ∃ timestamp clientPub skp serverHello,
        parseClientHello hello y.now = .ok (timestamp, clientPub) ∧
        P.generateKeyPair y.keyDraw = .ok skp ∧
        P.buildServerHello skp clientPub timestamp y.challengeDraw y.helloPad =
          .ok (challenge, serverHello) ∧
        P.deriveServerSessionKey skp.priv clientPub timestamp challenge = .ok sessionKey := by
  unfold opening
  constructor
  · intro h
    obtain ⟨⟨timestamp, clientPub⟩, hp, h⟩ := bind_ok h
    obtain ⟨skp, hk, h⟩ := bind_ok h
    obtain ⟨⟨c, serverHello⟩, hb, h⟩ := bind_ok h
    obtain ⟨key, hd, h⟩ := bind_ok h
    cases h
    exact ⟨timestamp, clientPub, skp, serverHello, hp, hk, hb, hd⟩
  · rintro ⟨timestamp, clientPub, skp, serverHello, hp, hk, hb, hd⟩
    simp [hp, hk, hb, hd, bind, Except.bind, pure, Except.pure]

theorem ServerSide.challenge_of_opening (h : y.opening P hello = .ok (challenge, sessionKey)) :
    y.challenge = some challenge := by
  obtain ⟨timestamp, clientPub, skp, serverHello, -, -, hb, -⟩ := opening_ok_iff.mp h
  obtain ⟨d, hd, rfl⟩ := buildServerHello_challenge hb
  simp [challenge, hd]

end Opening

/-- One connection of the server: what it brings, the messages it has read and what it does next. -/
structure ServerHandshake where
  side : ServerSide
  reads : List Bytes
  prog : ConnProg (SessionCipher × Bytes)

/-- What the connection returns to a call. -/
inductive WireReply where
  | read (r : Result Bytes)
  | write (r : Result Unit)
  | close

/-- A `ClientAuth` that somebody with the session key has sent. -/
structure SentAuth where
  challenge : Bytes
  sessionKey : Bytes
  message : Bytes
  deriving DecidableEq, Repr

namespace ServerHandshake

def start (P : Primitives) (y : ServerSide) : ServerHandshake := ⟨y, [], handleConnection P y⟩

/-- A read returns at most as many bytes as the buffer has. -/
def resume (h : ServerHandshake) (r : WireReply) : Option ServerHandshake :=
  match h.prog, r with
  | .call (.read n) k, .read (.ok m) =>
    if m.length ≤ n then some { h with reads := h.reads ++ [m], prog := k (.ok m) } else none
  | .call (.read _) k, .read (.error e) => some { h with prog := k (.error e) }
  | .call (.write _) k, .write r => some { h with prog := k r }
  | .call .close k, .close => some { h with prog := k () }
  | _, _ => none

/-- The session is established. -/
def Established (h : ServerHandshake) : Prop := ∃ r, h.prog = .ret r

instance decidableEstablished (h : ServerHandshake) : Decidable h.Established :=
  match hp : h.prog with
  | .ret r => .isTrue ⟨r, hp⟩
  | .raise _ => .isFalse fun ⟨_, hr⟩ => by cases hp.symm.trans hr
  | .call _ _ => .isFalse fun ⟨_, hr⟩ => by cases hp.symm.trans hr

/-- The challenge and the session key of this handshake, after its first message. -/
def opened (P : Primitives) (h : ServerHandshake) : Option (Bytes × Bytes) :=
  match h.reads with
  | [] => none
  | hello :: _ => (h.side.opening P hello).toOption

/-- `ParseClientAuth` succeeds on the second message. -/
def Accepts (P : Primitives) (h : ServerHandshake) (m : Bytes) : Prop :=
  ∃ hello challenge sessionKey token, h.reads = [hello, m] ∧
    h.side.opening P hello = .ok (challenge, sessionKey) ∧
    parseClientAuth P m challenge sessionKey = .ok token

variable {P : Primitives} {h h' : ServerHandshake} {r : WireReply} {m : Bytes}

theorem resume_spec (hr : h.resume r = some h') : h'.side = h.side ∧
    ∃ ms, h'.reads = h.reads ++ ms ∧ Feeds h.prog ms h'.prog ∧
      ∀ m ∈ ms, ms = [m] ∧ r = .read (.ok m) := by
  unfold resume at hr
  split at hr
  · next n k m hprog =>
    split at hr
    · next hlen =>
      cases hr
      refine ⟨rfl, [m], rfl, hprog ▸ .read hlen (.refl _), ?_⟩
      intro m' hm'
      obtain rfl := List.mem_singleton.mp hm'
      exact ⟨rfl, rfl⟩
    · cases hr
  · next hprog =>
    cases hr
    exact ⟨rfl, [], (List.append_nil _).symm, hprog ▸ .readFails (.refl _), by simp⟩
  · next hprog =>
    cases hr
    exact ⟨rfl, [], (List.append_nil _).symm, hprog ▸ .write (.refl _), by simp⟩
  · next hprog =>
    cases hr
    exact ⟨rfl, [], (List.append_nil _).symm, hprog ▸ .close (.refl _), by simp⟩
  · cases hr

/-- A message that is accepted carries the MAC of this handshake's challenge and key. -/
theorem Accepts.opened_eq (ha : h.Accepts P m) :
    ∃ challenge sessionKey, h.opened P = some (challenge, sessionKey) ∧
      h.side.challenge = some challenge ∧ authMac m = P.hmac challenge sessionKey := by
  obtain ⟨hello, challenge, sessionKey, token, hreads, hopen, hparse⟩ := ha
  refine ⟨challenge, sessionKey, ?_, ServerSide.challenge_of_opening hopen,
    (parseClientAuth_eq_ok_iff.mp hparse).1⟩
  rw [opened, hreads]
  simp [hopen, Except.toOption]

/-- A session is established only through a message that is accepted. -/
theorem accepts_of_established (hf : Feeds (handleConnection P h.side) h.reads h.prog)
    (he : h.Established) : ∃ m, h.Accepts P m := by
  obtain ⟨r, hr⟩ := he
  rw [hr] at hf
  obtain ⟨hello, ms, hms, -, hf⟩ := (Feeds.of_handle_close hf).of_read
  obtain ⟨⟨timestamp, clientPub⟩, hp, hf⟩ := hf.of_orFail
  obtain ⟨skp, hk, hf⟩ := hf.of_orFail
  obtain ⟨⟨challenge, serverHello⟩, hb, hf⟩ := hf.of_orFail
  obtain ⟨auth, ns, rfl, -, hf⟩ := (hf.of_write).of_read
  obtain ⟨sessionKey, hd, hf⟩ := hf.of_orFail
  obtain ⟨token, ha, hf⟩ := hf.of_orFail
  have hrest : ns = [] := by
    split at hf
    · cases hf with
      | write hf => cases hf
    · obtain ⟨cipher, -, hf⟩ := (hf.of_write).of_ofExcept
      exact hf.of_ret.2
  subst hrest
  exact ⟨auth, hello, challenge, sessionKey, token, hms,
    ServerSide.opening_ok_iff.mpr ⟨timestamp, clientPub, skp, serverHello, hp, hk, hb, hd⟩, ha⟩

end ServerHandshake

/-- The server's handshakes, in the order of their connections, and every `ClientAuth` sent by one
who knows the session key. -/
structure Handshakes where
  conns : List ServerHandshake
  sent : List SentAuth

inductive HandshakeAct where
  | accept (y : ServerSide)
  | resume (conn : Nat) (r : WireReply)
  | answer (challenge sessionKey authToken : Bytes) (padDraw : Result Draw)

namespace Handshakes

def initial : Handshakes := ⟨[], []⟩

def act (P : Primitives) (s : Handshakes) : HandshakeAct → Option Handshakes
  | .accept y => some { s with conns := s.conns ++ [ServerHandshake.start P y] }
  | .resume conn r =>
    match s.conns[conn]? with
    | none => none
    | some h => (h.resume r).map fun h' => { s with conns := s.conns.set conn h' }
  | .answer challenge sessionKey authToken padDraw =>
    match buildClientAuth P challenge sessionKey authToken padDraw with
    | .error _ => none
    | .ok message => some { s with sent := s.sent ++ [⟨challenge, sessionKey, message⟩] }

def Step (P : Primitives) (s : Handshakes) (a : HandshakeAct) (t : Handshakes) : Prop :=
  s.act P a = some t

/-- The attacker has no session key: a MAC that passes under one is a MAC he has recorded. -/
def Unforged (P : Primitives) (s : Handshakes) : HandshakeAct → Prop
  | .resume conn (.read (.ok m)) =>
    ∀ p ∈ s.conns[conn]?.bind (ServerHandshake.opened P), authMac m = P.hmac p.1 p.2 →
      ∃ r ∈ s.sent, authMac r.message = authMac m
  | _ => True

instance decidableUnforged (P : Primitives) (s : Handshakes) (a : HandshakeAct) :
    Decidable (s.Unforged P a) := by
  unfold Unforged
  split <;> infer_instance

/-- No challenge is drawn twice. -/
def Fresh (s : Handshakes) : Prop :=
  ∀ (i j : Nat) (g h : ServerHandshake) (challenge : Bytes), s.conns[i]? = some g →
    s.conns[j]? = some h → g.side.challenge = some challenge →
      h.side.challenge = some challenge → i = j

/-- The challenges and session keys of all handshakes and all answers. -/
def InUse (P : Primitives) (s : Handshakes) : Set (Bytes × Bytes) :=
  {p | (∃ h ∈ s.conns, h.opened P = some p) ∨ ∃ r ∈ s.sent, p = (r.challenge, r.sessionKey)}

/-- No two of the MACs in use collide. -/
def NoCollision (P : Primitives) (s : Handshakes) : Prop :=
  Set.InjOn (fun p => P.hmac p.1 p.2) (s.InUse P)

/-- A `ClientAuth` is good for one handshake only, the one it was made for. -/
structure ReplaySafe (P : Primitives) (s : Handshakes) : Prop where
  /-- Messages with one MAC are accepted in one handshake. -/
  once : ∀ (i j : Nat) (g h : ServerHandshake) (m m' : Bytes), s.conns[i]? = some g →
    s.conns[j]? = some h → g.Accepts P m → h.Accepts P m' → authMac m = authMac m' → i = j
  /-- What is accepted carries the MAC of an answer to this handshake's challenge, under its key. -/
  own : ∀ h ∈ s.conns, ∀ m, h.Accepts P m → ∃ r ∈ s.sent, authMac r.message = authMac m ∧
    h.opened P = some (r.challenge, r.sessionKey)
  /-- An answer that is accepted was computed on this handshake's challenge and key. -/
  recorded : ∀ h ∈ s.conns, ∀ r ∈ s.sent, ∀ m, h.Accepts P m → authMac m = authMac r.message →
    h.opened P = some (r.challenge, r.sessionKey)
  /-- Nothing else establishes a session. -/
  established : ∀ h ∈ s.conns, h.Established → ∃ m, h.Accepts P m

/-- What holds in every state: each connection stands where its messages have led it, each answer
carries the MAC it was built with, and what is accepted has been recorded. -/
structure Inv (P : Primitives) (s : Handshakes) : Prop where
  fed : ∀ h ∈ s.conns, Feeds (handleConnection P h.side) h.reads h.prog
  built : ∀ r ∈ s.sent, authMac r.message = P.hmac r.challenge r.sessionKey
  heard : ∀ h ∈ s.conns, ∀ m, h.Accepts P m → ∃ r ∈ s.sent, authMac r.message = authMac m

variable {P : Primitives} {s t : Handshakes} {a : HandshakeAct} {as : List HandshakeAct}

theorem not_accepts_start (y : ServerSide) (m : Bytes) :
    ¬ (ServerHandshake.start P y).Accepts P m := by
  rintro ⟨hello, challenge, sessionKey, token, hreads, -, -⟩
  cases hreads

/-- A message that makes a connection accept is the one it was just given. -/
theorem accepts_resume {h h' : ServerHandshake} {r : WireReply} {m : Bytes}
    (hr : h.resume r = some h') (ha : h'.Accepts P m) :
    h.Accepts P m ∨ r = .read (.ok m) ∧ h'.opened P = h.opened P := by
  obtain ⟨hside, ms, hreads, -, hms⟩ := ServerHandshake.resume_spec hr
  obtain ⟨hello, challenge, sessionKey, token, hacc, hopen, hparse⟩ := ha
  rw [hreads] at hacc
  rw [hside] at hopen
  cases ms with
  | nil =>
    rw [List.append_nil] at hacc
    exact .inl ⟨hello, challenge, sessionKey, token, hacc, hopen, hparse⟩
  | cons m' ms =>
    obtain ⟨hone, hr'⟩ := hms m' List.mem_cons_self
    rw [hone] at hacc hreads
    have hsplit : h.reads ++ [m'] = [hello] ++ [m] := hacc
    obtain ⟨hbefore, hlast⟩ := List.append_inj' hsplit rfl
    obtain rfl : m' = m := by simpa using hlast
    refine .inr ⟨hr', ?_⟩
    rw [ServerHandshake.opened, ServerHandshake.opened, hreads, hbefore, hside]
    rfl

theorem inv_initial : Inv P initial :=
  ⟨by simp [initial], by simp [initial], by simp [initial]⟩

theorem Inv.step (hP : P.Lawful) (hst : Step P s a t) (hu : s.Unforged P a) (hs : Inv P s) :
    Inv P t := by
  cases a with
  | accept y =>
    cases hst
    refine ⟨?_, hs.built, ?_⟩
    · intro h hh
      rcases List.mem_append.mp hh with hh | hh
      · exact hs.fed h hh
      · obtain rfl := List.mem_singleton.mp hh
        exact .refl _
    · intro h hh m ha
      rcases List.mem_append.mp hh with hh | hh
      · exact hs.heard h hh m ha
      · obtain rfl := List.mem_singleton.mp hh
        exact (not_accepts_start y m ha).elim
  | resume conn r =>
    simp only [Step, act] at hst
    split at hst
    · cases hst
    · next h hconn =>
      obtain ⟨h', hr, rfl⟩ := Option.map_eq_some_iff.mp hst
      have hmem := List.mem_of_getElem? hconn
      obtain ⟨hside, ms, hreads, hfeeds, -⟩ := ServerHandshake.resume_spec hr
      refine ⟨?_, hs.built, ?_⟩
      · intro g hg
        rcases List.mem_or_eq_of_mem_set hg with hg | rfl
        · exact hs.fed g hg
        · rw [hside, hreads]
          exact (hs.fed h hmem).trans hfeeds
      · intro g hg m ha
        rcases List.mem_or_eq_of_mem_set hg with hg | rfl
        · exact hs.heard g hg m ha
        · rcases accepts_resume hr ha with hbefore | ⟨rfl, hsame⟩
          · exact hs.heard h hmem m hbefore
          · obtain ⟨challenge, sessionKey, hopen, -, hmac⟩ := ha.opened_eq
            apply hu (challenge, sessionKey) _ hmac
            rw [hconn]
            exact hsame.symm.trans hopen
  | answer challenge sessionKey authToken padDraw =>
    simp only [Step, act] at hst
    split at hst
    · cases hst
    · next message hbuild =>
      cases hst
      refine ⟨hs.fed, ?_, ?_⟩
      · intro r hr
        rcases List.mem_append.mp hr with hr | hr
        · exact hs.built r hr
        · obtain rfl := List.mem_singleton.mp hr
          exact authMac_buildClientAuth hP hbuild
      · intro h hh m ha
        obtain ⟨r, hr, hmac⟩ := hs.heard h hh m ha
        exact ⟨r, List.mem_append_left _ hr, hmac⟩

theorem Inv.of_run (hP : P.Lawful) (hrun : Run (Guarded (Step P) (Unforged P)) s as t)
    (hs : Inv P s) : Inv P t :=
  hrun.invariant (fun _ _ _ hst hs => hs.step hP hst.2 hst.1) hs

/-- An answer with the MAC of an accepted message was computed for that handshake. -/
theorem Inv.opened_of_accepts (hs : Inv P s) (hinj : s.NoCollision P) {h : ServerHandshake}
    {r : SentAuth} {m : Bytes} (hh : h ∈ s.conns) (hr : r ∈ s.sent) (ha : h.Accepts P m)
    (hmac : authMac m = authMac r.message) : h.opened P = some (r.challenge, r.sessionKey) := by
  obtain ⟨challenge, sessionKey, hopen, -, hm⟩ := ha.opened_eq
  have heq : (challenge, sessionKey) = (r.challenge, r.sessionKey) := by
    apply hinj (.inl ⟨h, hh, hopen⟩) (.inr ⟨r, hr, rfl⟩)
    change P.hmac challenge sessionKey = P.hmac r.challenge r.sessionKey
    rw [← hm, hmac, hs.built r hr]
  rw [hopen, heq]

/-- Whatever the attacker delivers in however many handshakes, a recorded `ClientAuth` passes in at
most one of them, the one it was made for. -/
theorem replaySafe_of_run (hP : P.Lawful)
    (hrun : Run (Guarded (Step P) (Unforged P)) initial as s) (hfresh : s.Fresh)
    (hinj : s.NoCollision P) : s.ReplaySafe P := by
  have hs : Inv P s := Inv.of_run hP hrun inv_initial
  refine ⟨?_, ?_, ?_, ?_⟩
  · intro i j g h m m' hi hj hg hh hmac
    obtain ⟨c, k, hgo, hgc, hgm⟩ := hg.opened_eq
    obtain ⟨c', k', hho, hhc, hhm⟩ := hh.opened_eq
    have heq : (c, k) = (c', k') := by
      apply hinj (.inl ⟨g, List.mem_of_getElem? hi, hgo⟩) (.inl ⟨h, List.mem_of_getElem? hj, hho⟩)
      change P.hmac c k = P.hmac c' k'
      rw [← hgm, hmac, hhm]
    cases heq
    exact hfresh i j g h c hi hj hgc hhc
  · intro h hh m ha
    obtain ⟨r, hr, hmac⟩ := hs.heard h hh m ha
    exact ⟨r, hr, hmac, hs.opened_of_accepts hinj hh hr ha hmac.symm⟩
  · intro h hh r hr m ha hmac
    exact hs.opened_of_accepts hinj hh hr ha hmac
  · intro h hh he
    exact ServerHandshake.accepts_of_established (hs.fed h hh) he

/-! A recorded hello and a recorded answer in a second handshake. -/

/-- Acts that can be carried out one after the other, no MAC being forged. -/
def perform (P : Primitives) (s : Handshakes) : List HandshakeAct → Option Handshakes
  | [] => some s
  | a :: as => if s.Unforged P a then (s.act P a).bind fun t => t.perform P as else none

theorem run_of_perform (h : s.perform P as = some t) :
    Run (Guarded (Step P) (Unforged P)) s as t := by
  induction as generalizing s with
  | nil =>
    cases h
    exact .refl _
  | cons a as ih =>
    simp only [perform] at h
    split at h
    · next hu =>
      obtain ⟨u, hstep, hrest⟩ := Option.bind_eq_some_iff.mp h
      exact .step ⟨hu, hstep⟩ (ih hrest)
    · cases h

def recordedHello : Bytes := List.replicate 8 0 ++ 9 :: List.replicate 63 0

def recordedAuth : Bytes := 9 :: (List.replicate 31 0 ++ [2, 1, 2] ++ List.replicate 32 0)

/-- Another key and another challenge. -/
def secondServer : ServerSide :=
  { plainServer none with
    keyDraw := .ok ⟨0, fun _ => 1⟩
    challengeDraw := .ok ⟨0, fun _ => 1⟩ }

def replay : List HandshakeAct :=
  [.accept (plainServer none), .resume 0 (.read (.ok recordedHello)), .resume 0 (.write (.ok ())),
    .answer (List.replicate 32 0) (9 :: List.replicate 31 0) [1, 2] zeroDraw,
    .resume 0 (.read (.ok recordedAuth)), .resume 0 (.write (.ok ())), .accept secondServer,
    .resume 1 (.read (.ok recordedHello)), .resume 1 (.write (.ok ())),
    .resume 1 (.read (.ok recordedAuth))]

def replayed : Handshakes := (initial.perform plainPrimitives replay).getD initial

theorem run_replay :
    Run (Guarded (Step plainPrimitives) (Unforged plainPrimitives)) initial replay replayed := by
  have hsome : (initial.perform plainPrimitives replay).isSome = true := by decide +kernel
  obtain ⟨t, ht⟩ := Option.isSome_iff_exists.mp hsome
  apply run_of_perform
  rw [replayed, ht]
  rfl

theorem fresh_replayed : replayed.Fresh := by
  have hdraws : replayed.conns.map (·.side.challenge) =
      [some (List.replicate 32 0), some (List.replicate 32 1)] := by decide +kernel
  have hne : (List.replicate 32 0 : Bytes) ≠ List.replicate 32 1 := by decide
  intro i j g h challenge hi hj hg hh
  have hi' := congrArg (·[i]?) hdraws
  have hj' := congrArg (·[j]?) hdraws
  simp only [List.getElem?_map, hi, hj, hg, hh, Option.map_some] at hi' hj'
  match i, j with
  | 0, 0 => rfl
  | 1, 1 => rfl
  | 0, 1 => simp_all
  | 1, 0 => simp_all
  | i + 2, _ => simp at hi'
  | _, j + 2 => simp at hj'

theorem noCollision_replayed : replayed.NoCollision plainPrimitives := by
  have hopened : replayed.conns.map (·.opened plainPrimitives) =
      [some (List.replicate 32 0, 9 :: List.replicate 31 0),
        some (List.replicate 32 1, 8 :: List.replicate 31 1)] := by decide +kernel
  have hsent : replayed.sent =
      [⟨List.replicate 32 0, 9 :: List.replicate 31 0, recordedAuth⟩] := by decide +kernel
  have hmac : plainPrimitives.hmac (List.replicate 32 0) (9 :: List.replicate 31 0) ≠
      plainPrimitives.hmac (List.replicate 32 1) (8 :: List.replicate 31 1) := by decide
  have huse : ∀ p ∈ replayed.InUse plainPrimitives,
      p = (List.replicate 32 0, 9 :: List.replicate 31 0) ∨
        p = (List.replicate 32 1, 8 :: List.replicate 31 1) := by
    rintro p (⟨h, hh, hp⟩ | ⟨r, hr, rfl⟩)
    · have hmem := List.mem_map_of_mem (f := (·.opened plainPrimitives)) hh
      rw [hopened, hp] at hmem
      simpa using hmem
    · rw [hsent] at hr
      obtain rfl := List.mem_singleton.mp hr
      exact .inl rfl
  intro p hp q hq hsame
  rcases huse p hp with rfl | rfl
  · rcases huse q hq with rfl | rfl
    · rfl
    · exact (hmac hsame).elim
  · rcases huse q hq with rfl | rfl
    · exact (hmac hsame.symm).elim
    · rfl

/-- Both handshakes have read the recorded messages, and the first one is established. -/
theorem replaySafe_of_run_replay : replayed.ReplaySafe plainPrimitives ∧
    (replayed.conns.map fun h => (h.reads, decide h.Established)) =
      [([recordedHello, recordedAuth], true), ([recordedHello, recordedAuth], false)] :=
  ⟨replaySafe_of_run plainPrimitives_lawful run_replay fresh_replayed noCollision_replayed,
    by decide +kernel⟩

end Handshakes

end SshPanelVpn.ShadowLink

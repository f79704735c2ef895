import SshPanelVpn.ShadowLink.Loops

/-! `internal/proxy/socks5.go`: what `handleSOCKS5` reads before it dials. -/
namespace SshPanelVpn.ShadowLink

open Octets

/-! Addresses as Go writes them. -/

def ascii (cs : List Char) : Bytes := cs.map fun c => UInt8.ofNat c.toNat

/-- `strconv.Itoa`, for a number that is not negative. -/
def itoa (n : Nat) : Bytes := ascii (Nat.toDigits 10 n)

def colon : UInt8 := 0x3a

def dotted (ip : Bytes) : Bytes := [0x2e].intercalate (ip.map fun b => itoa b.toNat)

/-- The 16-bit groups of an IPv6 address. -/
def groups : Bytes → List Nat
  | a :: b :: ip => (a.toNat * 256 + b.toNat) :: groups ip
  | _ => []

def hexGroups (gs : List Nat) : Bytes :=
  [colon].intercalate (gs.map fun g => ascii (Nat.toDigits 16 g))

/-- Where the longest run of at least two zero groups begins and ends, the first of equal ones. -/
def longestZeros (gs : List Nat) : Option (Nat × Nat) :=
  (List.range gs.length).foldl (fun best i =>
    let l := ((gs.drop i).takeWhile (· = 0)).length
    match best with
    | none => if 2 ≤ l then some (i, i + l) else none
    | some (s, e) => if e - s < l then some (i, i + l) else some (s, e)) none

def ip6String (ip : Bytes) : Bytes :=
  let gs := groups ip
  match longestZeros gs with
  | none => hexGroups gs
  | some (s, e) => hexGroups (gs.take s) ++ [colon, colon] ++ hexGroups (gs.drop e)

/-- `net.IP.To4`. -/
def to4 (ip : Bytes) : Option Bytes :=
  if ip.length = 4 then some ip
  else if ip.length = 16 ∧ ip.take 12 = List.replicate 10 0 ++ [0xff, 0xff] then some (ip.drop 12)
  else none

/-- `net.IP.String`, for 4 or 16 bytes. -/
def ipString (ip : Bytes) : Bytes :=
  match to4 ip with
  | some ip4 => dotted ip4
  | none => ip6String ip

/-- `net.JoinHostPort`. -/
def joinHostPort (host port : Bytes) : Bytes :=
  if colon ∈ host then 0x5b :: (host ++ 0x5d :: colon :: port) else host ++ colon :: port

example : ipString [10, 0, 0, 1] = ascii "10.0.0.1".toList := by decide

/-! The two messages. -/

abbrev socksBufSize : Nat := 258

/-- `conn.Read(buf)` put `data` at the front; what was behind stays. -/
def readInto (buf data : Bytes) : Bytes := data ++ buf.drop data.length

def index (buf : Bytes) (i : Nat) : Result UInt8 :=
  match buf[i]? with
  | some b => .ok b
  | none => .error (.panic "index out of range")

def slice (buf : Bytes) (i j : Nat) : Result Bytes :=
  if i ≤ j ∧ j ≤ buf.length then .ok ((buf.take j).drop i)
  else .error (.panic "slice bounds out of range")

def methodReply : Bytes := [0x05, 0x00]

def socksReply (code : UInt8) : Bytes := [0x05, code, 0x00, 0x01, 0, 0, 0, 0, 0, 0]

/-- How a request is answered: with a refusal, not at all, or by dialing. -/
inductive RequestTurn where
  | refuse (reply : Bytes)
  | giveUp
  | connect (target : Bytes)
  deriving DecidableEq, Repr

/-- The greeting, read with `n` bytes, is accepted. -/
def acceptsGreeting (buf : Bytes) (n : Nat) : Result Bool :=
  if n < 2 then .ok false
  else do
    let version ← index buf 0
    return version = 0x05

def connectTurn (host port : Bytes) : RequestTurn :=
  .connect (joinHostPort host (itoa (beNat port)))

/-- The `switch` on the address type. -/
def parseAddress (buf : Bytes) (n : Nat) (addressType : UInt8) : Result RequestTurn :=
  if addressType = 0x01 then
    if n < 10 then .ok .giveUp
    else do
      let ip ← slice buf 4 8
      let port ← slice buf 8 10
      return connectTurn (ipString ip) port
  else if addressType = 0x03 then do
    let domainLen ← index buf 4
    if n < 5 + domainLen.toNat + 2 then .ok .giveUp
    else do
      let domain ← slice buf 5 (5 + domainLen.toNat)
      let port ← slice buf (5 + domainLen.toNat) (7 + domainLen.toNat)
      return connectTurn domain port
  else if addressType = 0x04 then
    if n < 22 then .ok .giveUp
    else do
      let ip ← slice buf 4 20
      let port ← slice buf 20 22
      return connectTurn (ipString ip) port
  else .ok (.refuse (socksReply 0x08))

/-- The request, read with `n` bytes. -/
def parseRequest (buf : Bytes) (n : Nat) : Result RequestTurn :=
  if n < 7 then .ok (.refuse (socksReply 0x07))
  else do
    let version ← index buf 0
    if version ≠ 0x05 then .ok (.refuse (socksReply 0x07))
    else do
      let command ← index buf 1
      if command ≠ 0x01 then .ok (.refuse (socksReply 0x07))
      else do
        let addressType ← index buf 3
        parseAddress buf n addressType

/-! Only what has just been read is looked at. -/

section Bounds

variable {data : Bytes} {i j : Nat}

theorem slice_append (stale : Bytes) (hij : i ≤ j) (hj : j ≤ data.length) :
    slice (data ++ stale) i j = .ok ((data.take j).drop i) := by
  rw [slice, if_pos ⟨hij, hj.trans (by simp)⟩, List.take_append_of_le_length hj]

end Bounds

/-- The answer as a function of the bytes of the request alone, from the address type on. -/
def addressTurn (addressType : UInt8) (body : Bytes) : RequestTurn :=
  if addressType = 0x01 then
    if body.length < 6 then .giveUp else connectTurn (ipString (body.take 4)) ((body.drop 4).take 2)
  else if addressType = 0x03 then
    match body with
    | [] => .giveUp
    | len :: body =>
      if body.length < len.toNat + 2 then .giveUp
      else connectTurn (body.take len.toNat) ((body.drop len.toNat).take 2)
  else if addressType = 0x04 then
    if body.length < 18 then .giveUp else connectTurn (ipString (body.take 16)) ((body.drop 16).take 2)
  else .refuse (socksReply 0x08)

def requestTurn (data : Bytes) : RequestTurn :=
  match data with
  | version :: command :: _ :: addressType :: body =>
    if body.length < 3 ∨ version ≠ 0x05 ∨ command ≠ 0x01 then .refuse (socksReply 0x07)
    else addressTurn addressType body
  | _ => .refuse (socksReply 0x07)

theorem parseAddress_eq {v c r t : UInt8} {body : Bytes} (stale : Bytes) (hbody : 3 ≤ body.length) :
    parseAddress (v :: c :: r :: t :: body ++ stale) (body.length + 4) t = .ok (addressTurn t body) := by
  have hslice : ∀ i j, i ≤ j → j ≤ body.length →
      slice (v :: c :: r :: t :: body ++ stale) (i + 4) (j + 4) = .ok ((body.drop i).take (j - i)) := by
    intro i j hij hj
    rw [slice_append stale (by omega) (by simpa using hj)]
    have hcons : ∀ k, (v :: c :: r :: t :: body).drop (k + 4) = body.drop k := fun k => rfl
    rw [List.drop_take, hcons, Nat.add_sub_add_right]
  unfold parseAddress addressTurn
  split
  · by_cases hn : body.length < 6
    · rw [if_pos hn, if_pos (by omega)]
    · rw [if_neg hn, if_neg (by omega), hslice 0 4 (by omega) (by omega), hslice 4 6 (by omega) (by omega)]
      rfl
  · split
    · cases body with
      | nil => simp at hbody
      | cons len body =>
        have hlen : (len :: body).length = body.length + 1 := rfl
        have hindex : index (v :: c :: r :: t :: len :: body ++ stale) 4 = .ok len := rfl
        rw [hindex]
        simp only [bind, Except.bind]
        by_cases hn : body.length < len.toNat + 2
        · rw [if_pos hn, if_pos (by omega)]
        · rw [if_neg hn, if_neg (by omega), Nat.add_comm 5, Nat.add_comm 7,
            hslice 1 (len.toNat + 1) (by omega) (by omega),
            hslice (len.toNat + 1) (len.toNat + 3) (by omega) (by omega)]
          simp only [List.drop_succ_cons, List.drop_zero, Nat.add_sub_cancel]
          rw [show len.toNat + 3 - (len.toNat + 1) = 2 by omega]
          rfl
    · split
      · by_cases hn : body.length < 18
        · rw [if_pos hn, if_pos (by omega)]
        · rw [if_neg hn, if_neg (by omega), hslice 0 16 (by omega) (by omega),
            hslice 16 18 (by omega) (by omega)]
          rfl
      · rfl

/-- The request is read within the bytes of this read, whatever was in the buffer. -/
theorem parseRequest_eq (data stale : Bytes) :
    parseRequest (data ++ stale) data.length = .ok (requestTurn data) := by
  rcases data with _ | ⟨v, _ | ⟨c, _ | ⟨r, _ | ⟨t, body⟩⟩⟩⟩
  · rfl
  · rfl
  · rfl
  · rfl
  · have h0 : index (v :: c :: r :: t :: body ++ stale) 0 = .ok v := rfl
    have h1 : index (v :: c :: r :: t :: body ++ stale) 1 = .ok c := rfl
    have h3 : index (v :: c :: r :: t :: body ++ stale) 3 = .ok t := rfl
    have hlen : (v :: c :: r :: t :: body).length = body.length + 4 := rfl
    unfold parseRequest requestTurn
    dsimp only
    rw [hlen]
    by_cases hn : body.length < 3
    · rw [if_pos (by omega), if_pos (Or.inl hn)]
    · rw [if_neg (by omega), h0, h1, h3]
      simp only [bind, Except.bind]
      by_cases hv : v ≠ 0x05
      · rw [if_pos hv, if_pos (Or.inr (Or.inl hv))]
      · rw [if_neg hv]
        by_cases hc : c ≠ 0x01
        · rw [if_pos hc, if_pos (Or.inr (Or.inr hc))]
        · rw [if_neg hc, if_neg (not_or.mpr ⟨hn, not_or.mpr ⟨hv, hc⟩⟩)]
          exact parseAddress_eq stale (Nat.not_lt.mp hn)

/-! CONNECT requests. -/

inductive SocksAddress where
  | ipv4 (ip : Bytes) (h : ip.length = 4)
  | domain (name : Bytes) (h : name.length < 256)
  | ipv6 (ip : Bytes) (h : ip.length = 16)

namespace SocksAddress

def type : SocksAddress → UInt8
  | ipv4 _ _ => 0x01
  | domain _ _ => 0x03
  | ipv6 _ _ => 0x04

def bytes : SocksAddress → Bytes
  | ipv4 ip _ => ip
  | domain name _ => UInt8.ofNat name.length :: name
  | ipv6 ip _ => ip

def host : SocksAddress → Bytes
  | ipv4 ip _ => ipString ip
  | domain name _ => name
  | ipv6 ip _ => ipString ip

theorem length_bytes_pos (address : SocksAddress) : 0 < address.bytes.length := by
  cases address with
  | ipv4 ip h => exact h ▸ Nat.zero_lt_succ 3
  | domain name h => exact Nat.zero_lt_succ _
  | ipv6 ip h => exact h ▸ Nat.zero_lt_succ 15

end SocksAddress

structure SocksRequest where
  address : SocksAddress
  port : Bytes
  hport : port.length = 2

namespace SocksRequest

/-- The request as it is sent; the reserved byte is not looked at. -/
def bytes (q : SocksRequest) (reserved : UInt8) : Bytes :=
  0x05 :: 0x01 :: reserved :: q.address.type :: (q.address.bytes ++ q.port)

def target (q : SocksRequest) : Bytes := joinHostPort q.address.host (itoa (beNat q.port))

theorem addressTurn_bytes (q : SocksRequest) (more : Bytes) :
    addressTurn q.address.type (q.address.bytes ++ q.port ++ more) = .connect q.target := by
  obtain ⟨address, port, hport⟩ := q
  have htake : ∀ pre : Bytes, (pre ++ port ++ more).take pre.length = pre ∧
      ((pre ++ port ++ more).drop pre.length).take 2 = port := by
    intro pre
    refine ⟨?_, ?_⟩
    · rw [List.append_assoc, List.take_left' rfl]
    · rw [List.append_assoc, List.drop_left' rfl, List.take_left' hport]
  cases address with
  | ipv4 ip h =>
    obtain ⟨hip, hp⟩ := htake ip
    rw [h] at hip hp
    change addressTurn 0x01 (ip ++ port ++ more) = connectTurn (ipString ip) port
    unfold addressTurn
    rw [if_pos rfl, if_neg (by simp only [List.length_append, h, hport]; omega), hip, hp]
  | domain name h =>
    obtain ⟨hname, hp⟩ := htake name
    have hlen : (UInt8.ofNat name.length).toNat = name.length := by
      rw [UInt8.toNat_ofNat', Nat.mod_eq_of_lt h]
    change addressTurn 0x03 (UInt8.ofNat name.length :: (name ++ port ++ more)) = connectTurn name port
    rw [addressTurn, if_neg (by decide), if_pos rfl]
    rw [hlen, if_neg (by simp only [List.length_append, hport]; omega), hname, hp]
  | ipv6 ip h =>
    obtain ⟨hip, hp⟩ := htake ip
    rw [h] at hip hp
    change addressTurn 0x04 (ip ++ port ++ more) = connectTurn (ipString ip) port
    unfold addressTurn
    rw [if_neg (by decide), if_neg (by decide), if_pos rfl,
      if_neg (by simp only [List.length_append, h, hport]; omega), hip, hp]

/-- What `addressTurn` takes for the address and the port are the first bytes of the body. -/
theorem take_two_isPrefix (body : Bytes) (k : Nat) : body.take k ++ (body.drop k).take 2 <+: body := by
  rw [← List.take_add]
  exact List.take_prefix _ _

theorem exists_of_addressTurn {t : UInt8} {body target : Bytes} (h : addressTurn t body = .connect target) :
    ∃ q : SocksRequest, q.target = target ∧ q.address.type = t ∧ q.address.bytes ++ q.port <+: body := by
  have htwo : ∀ k, k + 2 ≤ body.length → ((body.drop k).take 2).length = 2 := by
    intro k hk
    simp only [List.length_take, List.length_drop]
    omega
  unfold addressTurn at h
  split at h
  · next ht =>
    split at h
    · cases h
    · next hn =>
      cases h
      exact ⟨⟨.ipv4 (body.take 4) (by simp; omega), _, htwo 4 (by omega)⟩, rfl, ht.symm,
        take_two_isPrefix body 4⟩
  · split at h
    · next ht =>
      split at h
      · cases h
      · next len name =>
        split at h
        · cases h
        · next hn =>
          cases h
          have hlen := len.toNat_lt
          have hname : (name.take len.toNat).length = len.toNat := by
            simp only [List.length_take]
            omega
          refine ⟨⟨.domain (name.take len.toNat) (by omega), (name.drop len.toNat).take 2, ?_⟩, rfl, ht.symm,
            ?_⟩
          · simp only [List.length_take, List.length_drop]
            omega
          · simp only [SocksAddress.bytes, hname, UInt8.ofNat_toNat, List.cons_append]
            exact (List.cons_prefix_cons.mpr ⟨rfl, take_two_isPrefix name len.toNat⟩)
    · split at h
      · next ht =>
        split at h
        · cases h
        · next hn =>
          cases h
          exact ⟨⟨.ipv6 (body.take 16) (by simp; omega), _, htwo 16 (by omega)⟩, rfl, ht.symm,
            take_two_isPrefix body 16⟩
      · cases h

end SocksRequest

/-- Dialing is the answer just where the bytes begin with a request, and to its target. -/
theorem requestTurn_connect_iff {data target : Bytes} :
    requestTurn data = .connect target ↔
      ∃ (q : SocksRequest) (reserved : UInt8), q.target = target ∧ q.bytes reserved <+: data := by
  constructor
  · intro h
    unfold requestTurn at h
    split at h
    · next v c r t body =>
      split at h
      · cases h
      · next hok =>
        obtain ⟨-, hv, hc⟩ := not_or.mp hok |>.imp_right not_or.mp
        obtain ⟨q, htarget, rfl, hbody⟩ := SocksRequest.exists_of_addressTurn h
        rw [not_not.mp hv, not_not.mp hc]
        refine ⟨q, r, htarget, ?_⟩
        simp only [SocksRequest.bytes, List.cons_prefix_cons, true_and]
        exact hbody
    · cases h
  · rintro ⟨q, r, rfl, more, rfl⟩
    have hlen : ¬ (q.address.bytes ++ q.port ++ more).length < 3 := by
      have haddress := q.address.length_bytes_pos
      have hport := q.hport
      simp only [List.length_append]
      omega
    rw [SocksRequest.bytes]
    simp only [List.cons_append, requestTurn]
    rw [if_neg (not_or.mpr ⟨hlen, by simp⟩)]
    exact q.addressTurn_bytes more

end SshPanelVpn.ShadowLink

import SshPanelVpn.ShadowLink.HandshakeRun

/-! The last message of the client: which token the server takes from it. -/
namespace SshPanelVpn.ShadowLink

open Octets

/-- The byte in which the message says how long its token is. -/
def authTokenLen (data : Bytes) : Nat := (data.getD hmacSize 0).toNat

/-- The MAC in front of the message. -/
def authMac (data : Bytes) : Bytes := data.take hmacSize

/-- The token that the server reads out of what `BuildClientAuth` makes is the one that went in; an
error is fine. -/
def TokenReadBack (P : Primitives) (challenge sessionKey token : Bytes) (padDraw : Result Draw) :
    Prop :=
  match buildClientAuth P challenge sessionKey token padDraw with
  | .error _ => True
  | .ok msg => parseClientAuth P msg challenge sessionKey = .ok token

/-- If the server takes a token from the message at all, it is this one. -/
def TokenIntact (P : Primitives) (challenge sessionKey token data : Bytes) : Prop :=
  ∀ t, parseClientAuth P data challenge sessionKey = .ok t → t = token

section Parsing

variable {P : Primitives} {challenge sessionKey token data msg : Bytes} {padDraw : Result Draw}

theorem buildClientAuth_ok (hP : P.Lawful)
    (h : buildClientAuth P challenge sessionKey token padDraw = .ok msg) :
    ∃ pad, msg = P.hmac challenge sessionKey ++ UInt8.ofNat token.length :: (token ++ pad) := by
  unfold buildClientAuth at h
  cases hpad : randomPadding minHandshakePad maxHandshakePad padDraw with
  | error e => simp [hpad, bind, Except.bind] at h
  | ok pad =>
    refine ⟨pad, ?_⟩
    simp only [hpad, bind, Except.bind, pure, Except.pure, Except.ok.injEq] at h
    rw [← h, copyInto_of_length (hP.hmac_length _ _)]

theorem authMac_buildClientAuth (hP : P.Lawful)
    (h : buildClientAuth P challenge sessionKey token padDraw = .ok msg) :
    authMac msg = P.hmac challenge sessionKey := by
  obtain ⟨pad, rfl⟩ := buildClientAuth_ok hP h
  exact List.take_left' (hP.hmac_length _ _)

/-- Behind the right MAC the length byte and the bytes it counts are taken as they are. -/
theorem parseClientAuth_eq_ok_iff {t : Bytes} :
    parseClientAuth P data challenge sessionKey = .ok t ↔
      authMac data = P.hmac challenge sessionKey ∧
        hmacSize + 1 + authTokenLen data ≤ data.length ∧
        t = (data.drop (hmacSize + 1)).take (authTokenLen data) := by
  unfold parseClientAuth authMac authTokenLen
  by_cases hshort : data.length < hmacSize + 1
  · rw [if_pos hshort]
    constructor
    · intro h
      cases h
    · rintro ⟨-, hlen, -⟩
      omega
  · rw [if_neg hshort]
    by_cases hmac : P.hmac challenge sessionKey ≠ data.take hmacSize
    · rw [if_pos hmac]
      constructor
      · intro h
        cases h
      · rintro ⟨h, -⟩
        exact (hmac h.symm).elim
    · rw [if_neg hmac]
      have hmac' := (not_not.mp hmac).symm
      dsimp only
      split
      · next hcut =>
        constructor
        · intro h
          cases h
        · rintro ⟨-, hlen, -⟩
          omega
      · next hfits =>
        constructor
        · intro h
          exact ⟨hmac', by omega, (Except.ok.inj h).symm⟩
        · rintro ⟨-, -, rfl⟩
          rfl

/-- What the server makes of an unchanged message. -/
theorem parseClientAuth_buildClientAuth (hP : P.Lawful) (challenge sessionKey token : Bytes)
    (d : Draw) :
    ∃ msg pad, buildClientAuth P challenge sessionKey token (.ok d) = .ok msg ∧
      parseClientAuth P msg challenge sessionKey =
        .ok ((token ++ pad).take (token.length % 256)) := by
  obtain ⟨pad, hpad, -⟩ := randomPadding_ok d
  refine ⟨P.hmac challenge sessionKey ++ UInt8.ofNat token.length :: (token ++ pad), pad, ?_, ?_⟩
  · simp [buildClientAuth, hpad, bind, Except.bind, pure, Except.pure,
      copyInto_of_length (hP.hmac_length _ _)]
  · have hn : (UInt8.ofNat token.length).toNat = token.length % 256 := UInt8.toNat_ofNat'
    have hmod := Nat.mod_le token.length 256
    rw [parseClientAuth_of_body hP (by rw [hn, List.length_append]; omega), hn]

theorem tokenReadBack_iff_draw (hP : P.Lawful) :
    TokenReadBack P challenge sessionKey token padDraw ↔
      (∃ e, padDraw = .error e) ∨ token.length ≤ 255 := by
  cases padDraw with
  | error e =>
    refine iff_of_true ?_ (.inl ⟨e, rfl⟩)
    simp [TokenReadBack, buildClientAuth, randomPadding, bind, Except.bind]
  | ok d =>
    obtain ⟨msg, pad, hbuild, hparse⟩ :=
      parseClientAuth_buildClientAuth hP challenge sessionKey token d
    rw [TokenReadBack, hbuild]
    dsimp only
    rw [hparse]
    constructor
    · intro h
      right
      have hlen := congrArg List.length (Except.ok.inj h)
      rw [List.length_take, List.length_append] at hlen
      have hmod := Nat.mod_lt token.length (show 0 < 256 by decide)
      omega
    · rintro (⟨e, he⟩ | hshort)
      · cases he
      · rw [Nat.mod_eq_of_lt (by omega), List.take_left' rfl]

/-- A token of at most 255 bytes is read back, whatever the padding; and two such tokens are never
taken for each other. -/
theorem tokenReadBack_iff (hP : P.Lawful) :
    (TokenReadBack P challenge sessionKey token padDraw ↔
      (∃ e, padDraw = .error e) ∨ token.length ≤ 255) ∧
    ∀ (token' : Bytes) (padDraw' : Result Draw) (msg msg' : Bytes),
      buildClientAuth P challenge sessionKey token padDraw = .ok msg → token.length ≤ 255 →
      buildClientAuth P challenge sessionKey token' padDraw' = .ok msg' → token'.length ≤ 255 →
      parseClientAuth P msg challenge sessionKey = parseClientAuth P msg' challenge sessionKey →
        token = token' := by
  refine ⟨tokenReadBack_iff_draw hP, ?_⟩
  intro token' padDraw' msg msg' hm hlen hm' hlen' hsame
  have h : TokenReadBack P challenge sessionKey token padDraw :=
    (tokenReadBack_iff_draw hP).mpr (.inr hlen)
  have h' : TokenReadBack P challenge sessionKey token' padDraw' :=
    (tokenReadBack_iff_draw hP).mpr (.inr hlen')
  rw [TokenReadBack, hm] at h
  rw [TokenReadBack, hm'] at h'
  exact Except.ok.inj (h.symm.trans (hsame.trans h'))

/-! What somebody without the key can make of the message. -/

theorem tokenIntact_iff_edit (hP : P.Lawful)
    (h : buildClientAuth P challenge sessionKey token padDraw = .ok msg) :
    TokenIntact P challenge sessionKey token data ↔
      authMac data ≠ authMac msg ∨ data.length < hmacSize + 1 + authTokenLen data ∨
        (data.drop (hmacSize + 1)).take (authTokenLen data) = token := by
  rw [authMac_buildClientAuth hP h]
  constructor
  · intro hkept
    by_cases hmac : authMac data = P.hmac challenge sessionKey
    · by_cases hlen : hmacSize + 1 + authTokenLen data ≤ data.length
      · exact .inr (.inr (hkept _ (parseClientAuth_eq_ok_iff.mpr ⟨hmac, hlen, rfl⟩)))
      · exact .inr (.inl (by omega))
    · exact .inl hmac
  · intro hedit t ht
    obtain ⟨hmac, hlen, rfl⟩ := parseClientAuth_eq_ok_iff.mp ht
    rcases hedit with hedit | hedit | hedit
    · exact (hedit hmac).elim
    · omega
    · exact hedit

/-- The MAC of a message can be put in front of any token. -/
theorem exists_edit (hP : P.Lawful)
    (h : buildClientAuth P challenge sessionKey token padDraw = .ok msg) {other : Bytes}
    (hother : other.length ≤ 255) : ∃ data, authMac data = authMac msg ∧
      parseClientAuth P data challenge sessionKey = .ok other := by
  have hmac := authMac_buildClientAuth hP h
  have hn : (UInt8.ofNat other.length).toNat = other.length := by
    rw [UInt8.toNat_ofNat', Nat.mod_eq_of_lt (by omega)]
  refine ⟨P.hmac challenge sessionKey ++ UInt8.ofNat other.length :: other, ?_, ?_⟩
  · rw [hmac]
    exact List.take_left' (hP.hmac_length _ _)
  · rw [parseClientAuth_of_body hP (by omega), hn, List.take_length]

/-- The token is intact exactly if the edit hits the MAC, cuts the message off or leaves the counted
bytes as they are; and from every message any other token can be made. -/
theorem tokenIntact_iff (hP : P.Lawful)
    (h : buildClientAuth P challenge sessionKey token padDraw = .ok msg) :
    (∀ data, TokenIntact P challenge sessionKey token data ↔
      authMac data ≠ authMac msg ∨ data.length < hmacSize + 1 + authTokenLen data ∨
        (data.drop (hmacSize + 1)).take (authTokenLen data) = token) ∧
    ∀ other : Bytes, other.length ≤ 255 → ∃ data, authMac data = authMac msg ∧
      parseClientAuth P data challenge sessionKey = .ok other :=
  ⟨fun _ => tokenIntact_iff_edit hP h, fun _ hother => exists_edit hP h hother⟩

end Parsing

theorem tokenReadBack_short : TokenReadBack plainPrimitives [1] [2] [3, 4] zeroDraw :=
  ((tokenReadBack_iff plainPrimitives_lawful).1).mpr (.inr (by decide))

/-- 256 bytes wrap to none: the server reads the empty token. -/
theorem not_tokenReadBack : ¬ ∀ (P : Primitives) (challenge sessionKey token : Bytes)
    (padDraw : Result Draw), P.Lawful → TokenReadBack P challenge sessionKey token padDraw := by
  intro h
  have hread := (tokenReadBack_iff_draw plainPrimitives_lawful).mp
    (h plainPrimitives [1] [2] (List.replicate 256 3) zeroDraw plainPrimitives_lawful)
  rcases hread with ⟨e, he⟩ | hlen
  · cases he
  · rw [List.length_replicate] at hlen
    omega

/-- A message for the token `3, 4`, its last bytes exchanged. -/
theorem tokenIntact_padding : TokenIntact plainPrimitives [1] [2] [3, 4]
    (copyInto hmacSize [2, 1] ++ [2, 3, 4, 9, 9]) :=
  have hbuild : buildClientAuth plainPrimitives [1] [2] [3, 4] zeroDraw = .ok _ := rfl
  ((tokenIntact_iff plainPrimitives_lawful hbuild).1 _).mpr (.inr (.inr (by decide)))

/-- The length byte is set to one. -/
theorem not_tokenIntact : ¬ ∀ (P : Primitives) (challenge sessionKey token : Bytes)
    (padDraw : Result Draw) (msg data : Bytes), P.Lawful →
      buildClientAuth P challenge sessionKey token padDraw = .ok msg →
        TokenIntact P challenge sessionKey token data := by
  intro h
  have hintact := h plainPrimitives [1] [2] [3, 4] zeroDraw _
    (copyInto hmacSize [2, 1] ++ [1, 3, 4]) plainPrimitives_lawful rfl [3] (by decide)
  cases hintact

end SshPanelVpn.ShadowLink

import SshPanelVpn.ShadowLink.SocksDialogue

/-! What the SOCKS5 replies tell the application of the server's dial. -/
namespace SshPanelVpn.ShadowLink

open Octets Runs

/-- The application is told of success only where the server has dialed, and of a failed dial by
another reply, once it is told anything; then no end has the stream. -/
structure Truthful (me : SessionId) (s : SocksLink) : Prop where
  success : socksReply 0x00 ∈ s.conn.replies → s.dialed = some true
  failure : s.dialed = some false → s.conn.pc = .dialing ∨ (∃ ok, s.conn.pc = .dialed ok) ∨
    (∃ code, code ≠ 0x00 ∧ socksReply code ∈ s.conn.replies) ∧ ∀ stream, s.stream = some stream →
      s.link.client.sessions.lookup stream.id = none ∧ s.link.server.lookupStream me stream.id = none

/-- The two reads return what the application has sent. -/
def FromApp (first second : Option Bytes) (_ : SocksLink) : SocksAct → Prop
  | .greeting data => data = first
  | .request data => data = second
  | _ => True

/-- The reads give a greeting and a request to connect. -/
def AsksToConnect (first second : Option Bytes) : Prop :=
  ∃ greeting request, first = some greeting ∧ second = some request ∧
    (2 ≤ greeting.length ∧ greeting[0]? = some 0x05) ∧
    ∃ (q : SocksRequest) (reserved : UInt8), q.bytes reserved <+: request

/-- The handler does not get as far as the dial. -/
structure Refused (first : Option Bytes) (s : SocksLink) : Prop where
  pc : s.conn.pc = .greeting ∨ s.conn.pc = .returned ∨ s.conn.pc = .crashed ∨
    s.conn.pc = .request ∧ ∃ greeting, first = some greeting ∧
      2 ≤ greeting.length ∧ greeting[0]? = some 0x05
  replies : ∀ p ∈ s.conn.replies, p ≠ socksReply 0x00
  stream : s.conn.stream = none
  dialed : s.dialed = none
  idle : s.conn.up = .idle ∧ s.conn.down = .idle

section Refused

variable {me : SessionId} {first second : Option Bytes} {s t : SocksLink} {a : SocksAct}

theorem refused_initial (l : Link) : Refused first ⟨l, .initial, none⟩ where
  pc := .inl rfl
  replies p hp := by cases hp
  stream := rfl
  dialed := rfl
  idle := ⟨rfl, rfl⟩

theorem Refused.greet (h : Refused first s) : Refused first { s with conn := s.conn.greet first } := by
  cases hfirst : first with
  | none => exact ⟨.inr (.inl rfl), h.replies, h.stream, h.dialed, h.idle⟩
  | some data =>
    simp only [SocksConn.greet, readInto, SocksConn.acceptsGreeting_eq]
    by_cases hok : 2 ≤ data.length ∧ data[0]? = some 0x05
    · simp only [hok]
      refine ⟨.inr (.inr (.inr ⟨rfl, data, rfl, hok⟩)), ?_, h.stream, h.dialed, h.idle⟩
      intro p hp
      obtain hp | rfl := by simpa using hp
      · exact h.replies p hp
      · decide
    · simp only [hok]
      exact ⟨.inr (.inl rfl), h.replies, h.stream, h.dialed, h.idle⟩

theorem requestTurn_refuse {data p : Bytes} (h : requestTurn data = .refuse p) : p ≠ socksReply 0x00 := by
  have haddress : ∀ {t : UInt8} {body : Bytes}, addressTurn t body = .refuse p → p = socksReply 0x08 := by
    intro t body h
    unfold addressTurn at h
    split at h
    · split at h <;> cases h
    · split at h
      · split at h
        · cases h
        · split at h <;> cases h
      · split at h
        · split at h <;> cases h
        · cases h
          rfl
  unfold requestTurn at h
  split at h
  · split at h
    · cases h
      decide
    · rw [haddress h]
      decide
  · cases h
    decide

theorem Refused.ask (hno : ¬ AsksToConnect first second) (h : Refused first s)
    (hpc : s.conn.pc = .request) : Refused first { s with conn := s.conn.ask second } := by
  have hreply : ∀ (c : SocksConn) p, p ≠ socksReply 0x00 → c.replies = s.conn.replies →
      c.stream = s.conn.stream → c.up = s.conn.up → c.down = s.conn.down →
      Refused first { s with conn := c.reply p .returned } := by
    intro c p hp hreplies hstream hup hdown
    refine ⟨.inr (.inl rfl), ?_, hstream.trans h.stream, h.dialed, hup.trans h.idle.1,
      hdown.trans h.idle.2⟩
    intro p' hp'
    simp only [SocksConn.reply_replies, hreplies, List.mem_append, List.mem_singleton] at hp'
    obtain hp' | rfl := hp'
    · exact h.replies p' hp'
    · exact hp
  cases hsecond : second with
  | none => exact hreply s.conn _ (by decide) rfl rfl rfl rfl
  | some data =>
    simp only [SocksConn.ask, readInto, parseRequest_eq]
    cases hturn : requestTurn data with
    | refuse p =>
      exact hreply (s.conn.read data) p (requestTurn_refuse hturn) rfl rfl rfl rfl
    | giveUp => exact ⟨.inr (.inl rfl), h.replies, h.stream, h.dialed, h.idle⟩
    | connect target =>
      obtain ⟨q, reserved, -, hbytes⟩ := requestTurn_connect_iff.mp hturn
      obtain ⟨greeting, hgreeting, hok⟩ : ∃ greeting, first = some greeting ∧
          2 ≤ greeting.length ∧ greeting[0]? = some 0x05 := by
        simpa [hpc] using h.pc
      exact absurd ⟨greeting, data, hgreeting, hsecond, hok, q, reserved, hbytes⟩ hno

theorem refused_stable (hno : ¬ AsksToConnect first second) :
    Stable (Guarded (SocksStep me) (FromApp first second)) (Refused first) := by
  rintro s a t ⟨happ, hstep⟩ h
  have hpc := h.pc
  obtain ⟨hup, hdown⟩ := h.idle
  cases hstep with
  | greeting =>
    obtain rfl : _ = first := happ
    exact h.greet
  | request hrequest =>
    obtain rfl : _ = second := happ
    exact h.ask hno hrequest
  | other =>
    refine ⟨h.pc, h.replies, h.stream, ?_, h.idle⟩
    have hnone : s.stream = none := by simp [SocksLink.stream, h.stream]
    simp only [SocksLink.dialedAfter, hnone, h.dialed]
    split
    · split
      · next hsome => cases hsome
      · rfl
    · rfl
  | _ => simp_all

theorem Refused.truthful (h : Refused first s) : Truthful me s where
  success hreply := absurd rfl (h.replies _ hreply)
  failure hdialed := by
    rw [h.dialed] at hdialed
    cases hdialed

end Refused

/-! A request that is taken up. -/

section Lengths

variable {n k : Nat} {ip host port : Bytes}

theorem length_intercalate_le (sep : UInt8) {texts : List Bytes} (h : ∀ t ∈ texts, t.length ≤ k) :
    ([sep].intercalate texts).length ≤ texts.length * (k + 1) := by
  induction texts with
  | nil => simp
  | cons t texts ih =>
    have ht := h t List.mem_cons_self
    have hrest := ih fun t' ht' => h t' (List.mem_cons_of_mem t ht')
    rw [List.length_cons, Nat.succ_mul]
    cases texts with
    | nil =>
      rw [List.intercalate_singleton]
      omega
    | cons t' texts =>
      rw [List.intercalate_cons_cons, List.length_append, List.length_append, List.length_singleton]
      omega

theorem length_itoa_le (hk : 0 < k) (hn : n < 10 ^ k) : (itoa n).length ≤ k := by
  rw [itoa, ascii, List.length_map]
  exact (Nat.length_toDigits_le_iff (by decide) hk).mpr hn

theorem length_dotted_le (ip : Bytes) : (dotted ip).length ≤ ip.length * 4 := by
  refine (length_intercalate_le (k := 3) 0x2e ?_).trans_eq (by rw [List.length_map])
  intro t ht
  obtain ⟨b, -, rfl⟩ := List.mem_map.mp ht
  have hb := b.toNat_lt
  exact length_itoa_le (by decide) (by omega)

theorem length_groups_le (ip : Bytes) : (groups ip).length ≤ ip.length := by
  fun_induction groups ip with
  | case1 a b ip ih =>
    simp only [List.length_cons]
    omega
  | case2 => exact Nat.zero_le _

theorem lt_of_mem_groups {g : Nat} (hg : g ∈ groups ip) : g < 16 ^ 4 := by
  fun_induction groups ip with
  | case1 a b ip ih =>
    obtain rfl | hg := List.mem_cons.mp hg
    · have ha := a.toNat_lt
      have hb := b.toNat_lt
      omega
    · exact ih hg
  | case2 => cases hg

theorem length_hexGroups_le (gs : List Nat) (h : ∀ g ∈ gs, g < 16 ^ 4) :
    (hexGroups gs).length ≤ gs.length * 5 := by
  refine (length_intercalate_le (k := 4) colon ?_).trans_eq (by rw [List.length_map])
  intro t ht
  obtain ⟨g, hg, rfl⟩ := List.mem_map.mp ht
  rw [ascii, List.length_map]
  exact (Nat.length_toDigits_le_iff (by decide) (by decide)).mpr (h g hg)

theorem length_ip6String_le (ip : Bytes) : (ip6String ip).length ≤ ip.length * 10 + 2 := by
  have hgroups := length_groups_le ip
  unfold ip6String
  dsimp only
  split
  · have hall := length_hexGroups_le (groups ip) fun g hg => lt_of_mem_groups hg
    omega
  · next s e _ =>
    have hfirst := length_hexGroups_le ((groups ip).take s) fun g hg =>
      lt_of_mem_groups (List.mem_of_mem_take hg)
    have hlast := length_hexGroups_le ((groups ip).drop e) fun g hg =>
      lt_of_mem_groups (List.mem_of_mem_drop hg)
    simp only [List.length_append, List.length_cons, List.length_nil, List.length_take,
      List.length_drop] at hfirst hlast ⊢
    omega

theorem length_ipString_le (h : ip.length ≤ 16) : (ipString ip).length ≤ 162 := by
  unfold ipString
  split
  · next ip4 h4 =>
    have hlen : ip4.length = 4 := by
      unfold to4 at h4
      split at h4
      · cases h4
        assumption
      · split at h4
        · cases h4
          rw [List.length_drop]
          omega
        · cases h4
    have hle := length_dotted_le ip4
    omega
  · have hle := length_ip6String_le ip
    omega

theorem length_joinHostPort_le : (joinHostPort host port).length ≤ host.length + port.length + 3 := by
  unfold joinHostPort
  split
  · simp only [List.length_cons, List.length_append]
    omega
  · simp only [List.length_cons, List.length_append]
    omega

/-- The target fits into a control frame. -/
theorem SocksRequest.length_target_le (q : SocksRequest) : q.target.length ≤ 263 := by
  have hhost : q.address.host.length ≤ 255 := by
    cases q.address with
    | ipv4 ip h => exact (length_ipString_le (h ▸ by decide)).trans (by decide)
    | domain name h => exact Nat.le_of_lt_succ h
    | ipv6 ip h => exact (length_ipString_le h.le).trans (by decide)
  have hport : (itoa (beNat q.port)).length ≤ 5 := by
    have hlt := leNat_lt q.port.reverse
    rw [List.length_reverse, q.hport] at hlt
    exact length_itoa_le (by decide) (hlt.trans (by decide))
  have hle : q.target.length ≤ _ := length_joinHostPort_le
  omega

end Lengths

/-- Both ends once the application has its reply of success: the server has not done anything yet. -/
structure Answered (target : Bytes) (s : SocksLink) : Prop where
  client : s.link.client = ⟨(∅ : AList fun _ : UInt32 => Nat).insert 0 0, 1,
    [⟨0, tcp, target, .opened, none, [], []⟩], .reading, false, false, false,
    [newControlFrame (encodeStreamID 0 ++ (tcp ++ connectSeparator :: target))], []⟩
  server : s.link.server = .initial
  conn : s.conn =
    ⟨.copying, s.conn.buf, [methodReply, socksReply 0x00], some 0, .reading, .reading, [], []⟩
  dialed : s.dialed = none

def answeredActs (greeting request : Bytes) : List SocksAct :=
  [.greeting (some greeting), .request (some request), .dial, .control true, .answer]

theorem exists_answered {greeting request target : Bytes} {C : SocksLink → SocksAct → Prop}
    (me : SessionId) (hgreeting : 2 ≤ greeting.length ∧ greeting[0]? = some 0x05)
    (hrequest : requestTurn request = .connect target)
    (hC : ∀ s a, s.link.client.broken = false → a ∈ answeredActs greeting request → C s a) :
    ∃ s, Run (Guarded (SocksStep me) C) SocksLink.initial (answeredActs greeting request) s ∧
      Answered target s := by
  obtain ⟨q, reserved, rfl, -⟩ := requestTurn_connect_iff.mp hrequest
  let c : SocksConn := (SocksConn.initial.read greeting).reply methodReply .request
  let c' : SocksConn := (c.read request).goto (.connecting q.target)
  have hgreet : SocksStep me .initial (.greeting (some greeting)) ⟨.initial, c, none⟩ := by
    have hc : SocksConn.initial.greet (some greeting) = c := by
      simp only [SocksConn.greet, readInto, SocksConn.acceptsGreeting_eq, hgreeting]
      rfl
    rw [← hc]
    exact .greeting rfl
  have hask : SocksStep me ⟨.initial, c, none⟩ (.request (some request)) ⟨.initial, c', none⟩ := by
    have hc' : c.ask (some request) = c' := by
      simp only [SocksConn.ask, readInto, parseRequest_eq, hrequest]
      rfl
    rw [← hc']
    exact .request rfl
  have hlen := q.length_target_le
  refine ⟨_, .step ⟨hC _ _ rfl (by simp [answeredActs]), hgreet⟩ <|
    .step ⟨hC _ _ rfl (by simp [answeredActs]), hask⟩ <|
    .step ⟨hC _ _ rfl (by simp [answeredActs]), .dial rfl (.client .dial fun f hf => by cases hf)⟩ <|
    .step ⟨hC _ _ rfl (by simp [answeredActs]), .control rfl rfl
      (.client (.control rfl rfl fun _ => ⟨rfl, ?_⟩) fun f hf => by cases hf)⟩ <|
    .step ⟨hC _ _ rfl (by simp [answeredActs]), .answer rfl⟩ <| .refl _, ?_⟩
  · change (encodeStreamID 0 ++ (tcp ++ connectSeparator :: q.target)).length ≤ 65535
    have htcp : tcp.length = 3 := rfl
    simp only [List.length_append, length_encodeStreamID, List.length_cons, htcp]
    omega
  · exact ⟨rfl, rfl, rfl, rfl⟩

/-- No step of the server is needed. -/
theorem exists_untruthful {first second : Option Bytes} (h : AsksToConnect first second) (me : SessionId) :
    ∃ acts s, Run (Guarded (SocksStep me) (FromApp first second)) SocksLink.initial acts s ∧
      socksReply 0x00 ∈ s.conn.replies ∧ s.dialed = none := by
  obtain ⟨greeting, request, rfl, rfl, hgreeting, q, reserved, hbytes⟩ := h
  have happ : ∀ s a, a ∈ answeredActs greeting request → FromApp (some greeting) (some request) s a := by
    intro s a ha
    simp only [answeredActs, List.mem_cons, List.not_mem_nil, or_false] at ha
    obtain rfl | rfl | rfl | rfl | rfl := ha
    · exact rfl
    · exact rfl
    all_goals exact trivial
  obtain ⟨s, hrun, hs⟩ := exists_answered me hgreeting
    (requestTurn_connect_iff.mpr ⟨q, reserved, rfl, hbytes⟩) fun s a _ => happ s a
  refine ⟨_, s, hrun, ?_, hs.dialed⟩
  rw [hs.conn]
  exact List.mem_cons_of_mem _ List.mem_cons_self

/-- For every request and over all interleavings: the replies tell the truth of the server's dial just
where the request is not one to connect, so that nothing is dialed. -/
theorem truthful_iff (first second : Option Bytes) (me : SessionId) :
    (∀ l acts s, Run (Guarded (SocksStep me) (FromApp first second)) ⟨l, .initial, none⟩ acts s →
      Truthful me s) ↔ ¬ AsksToConnect first second := by
  constructor
  · intro h hasks
    obtain ⟨acts, s, hrun, hreply, hnone⟩ := exists_untruthful hasks me
    have hdialed := (h _ acts s hrun).success hreply
    rw [hnone] at hdialed
    cases hdialed
  · intro hno l acts s hrun
    exact (hrun.invariant (refused_stable hno) (refused_initial l)).truthful

/-- The application that asks for 10.0.0.1 is told of success before the server dials. -/
theorem not_truthful : ¬ ∀ (first second : Option Bytes) (me : SessionId) (l : Link) (acts : List SocksAct)
    (s : SocksLink), Run (Guarded (SocksStep me) (FromApp first second)) ⟨l, .initial, none⟩ acts s →
      Truthful me s := by
  intro h
  have hasks : AsksToConnect (some sampleDialogue.greeting) (some (sampleDialogue.request.bytes 0x00)) :=
    ⟨_, _, rfl, rfl, by decide, sampleDialogue.request, 0x00, List.prefix_rfl⟩
  obtain ⟨acts, s, hrun, hreply, hnone⟩ := exists_untruthful hasks []
  have hdialed := (h _ _ [] _ acts s hrun).success hreply
  rw [hnone] at hdialed
  cases hdialed

end SshPanelVpn.ShadowLink

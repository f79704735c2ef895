import SshPanelVpn.Panel.SessionRows

/-! Whose address `get_active_sessions` gives a session. -/
namespace SshPanelVpn.Panel

open Effects PyString

/-! What `grep 'pid=…'` finds. -/

section Lines

variable {w x y : Str} {c : Char}

theorem contains_cons (w : Str) (c : Char) (s : Str) :
    contains w (c :: s) = (w.isPrefixOf (c :: s) || contains w s) := by
  simp [contains]

/-- Nothing begins where its first character does not occur. -/
theorem contains_skip (h : c ∉ x) : contains (c :: w) (x ++ y) = contains (c :: w) y := by
  induction x with
  | nil => rfl
  | cons d x ih =>
    have hne : c ≠ d := fun he => h (he ▸ List.mem_cons_self ..)
    have hnone : (c :: w).isPrefixOf (d :: x ++ y) = false := by simp [List.isPrefixOf, hne]
    rw [List.cons_append, contains_cons, ← List.cons_append, hnone, Bool.false_or]
    exact ih fun hm => h (List.mem_cons_of_mem _ hm)

/-- `pid=` does not begin in a text without `=`, nor go on past a character that it does not have. -/
theorem contains_front (h : '=' ∉ x) (hc : c ∉ "pid=".toList) :
    contains ("pid=".toList ++ w) (x ++ c :: y) = contains ("pid=".toList ++ w) y := by
  have hchars : 'p' ≠ c ∧ 'i' ≠ c ∧ 'd' ≠ c ∧ '=' ≠ c := by
    refine ⟨?_, ?_, ?_, ?_⟩ <;> (rintro rfl; exact hc (by decide))
  obtain ⟨hp, hi, hd, heq⟩ := hchars
  induction x with
  | nil => exact contains_skip (c := 'p') (x := [c]) (by simpa using hp)
  | cons b x ih =>
    have hx : '=' ∉ x := fun hm => h (List.mem_cons_of_mem _ hm)
    -- the fourth character of what begins in `x` is either in `x` or the one behind it
    have hnone : ("pid=".toList ++ w).isPrefixOf (b :: x ++ c :: y) = false := by
      rcases x with _ | ⟨e, _ | ⟨f, _ | ⟨g, x⟩⟩⟩
      · simp [List.isPrefixOf, hi]
      · simp [List.isPrefixOf, hd]
      · simp [List.isPrefixOf, heq]
      · have hg : '=' ≠ g := fun he => hx (by rw [he]; simp)
        simp [List.isPrefixOf, hg]
    rw [List.cons_append, contains_cons, ← List.cons_append, hnone, Bool.false_or]
    exact ih hx

/-- Digits that go on with digits up to a comma. -/
theorem decimal_isPrefix (m n : Nat) (y : Str) :
    decimal m <+: decimal n ++ ',' :: y ↔ decimal m <+: decimal n := by
  constructor
  · rintro ⟨t, ht⟩
    rcases List.append_eq_append_iff.mp ht with ⟨a, ha, -⟩ | ⟨a, ha, hrest⟩
    · exact ⟨a, ha.symm⟩
    · cases a with
      | nil =>
        rw [List.append_nil] at ha
        rw [ha]
      | cons c a =>
        obtain rfl : ',' = c := (List.cons.inj hrest).1
        have hcomma : ',' ∈ decimal m := by
          rw [ha]
          simp
        exact absurd (isDigit_of_mem_decimal hcomma).1 (by decide)
  · exact fun h => h.trans (List.prefix_append _ _)

/-- One process of a line, and what follows it. -/
theorem contains_userText {u : SocketUser} (hname : '=' ∉ u.name) (n : Nat) (y : Str) :
    contains ("pid=".toList ++ decimal n) (Socket.userText u ++ y) =
      ((decimal n).isPrefixOf (decimal u.pid) || contains ("pid=".toList ++ decimal n) y) := by
  have hdigits : ∀ m : Nat, 'p' ∉ decimal m :=
    fun m hm => absurd (isDigit_of_mem_decimal hm).2 (by decide)
  have htext : Socket.userText u ++ y = "(\"".toList ++ (u.name ++ '"' :: (",".toList ++
      ('p' :: ("id=".toList ++ (decimal u.pid ++ ',' :: ("fd=".toList ++ decimal u.fd ++
        ")".toList ++ y)))))) := by
    change "(\"".toList ++ u.name ++ "\",pid=".toList ++ decimal u.pid ++ ",fd=".toList ++
      decimal u.fd ++ ")".toList ++ y = _
    simp
  have hhit : ("pid=".toList ++ decimal n).isPrefixOf ('p' :: ("id=".toList ++ (decimal u.pid ++
      ',' :: ("fd=".toList ++ decimal u.fd ++ ")".toList ++ y)))) =
        (decimal n).isPrefixOf (decimal u.pid) := by
    rw [Bool.eq_iff_iff, List.isPrefixOf_iff_prefix, List.isPrefixOf_iff_prefix,
      ← decimal_isPrefix n u.pid]
    exact List.prefix_append_right_inj "pid=".toList
  have hafter : contains ("pid=".toList ++ decimal n) ("id=".toList ++ (decimal u.pid ++
      ',' :: ("fd=".toList ++ decimal u.fd ++ ")".toList ++ y))) =
        contains ("pid=".toList ++ decimal n) y := by
    have hrest : "id=".toList ++ (decimal u.pid ++ ',' :: ("fd=".toList ++ decimal u.fd ++
        ")".toList ++ y)) = ("id=".toList ++ decimal u.pid ++ ",fd=".toList ++ decimal u.fd ++
          ")".toList) ++ y := by
      simp
    rw [hrest]
    refine contains_skip (c := 'p') ?_
    simp [hdigits]
  rw [htext]
  calc contains ("pid=".toList ++ decimal n) _
      = contains ("pid=".toList ++ decimal n) _ := contains_skip (x := "(\"".toList) (by decide)
    _ = contains ("pid=".toList ++ decimal n) _ := contains_front hname (by decide)
    _ = contains ("pid=".toList ++ decimal n) _ := contains_skip (x := ",".toList) (by decide)
    _ = _ := by rw [contains_cons, hhit, hafter]

theorem contains_users {users : List SocketUser} (hnames : ∀ u ∈ users, '=' ∉ u.name) (n : Nat) :
    contains ("pid=".toList ++ decimal n)
      (",".toList.intercalate (users.map Socket.userText) ++ ")".toList) =
        users.any fun u => (decimal n).isPrefixOf (decimal u.pid) := by
  induction users with
  | nil => exact contains_skip (x := ")".toList) (y := []) (by decide)
  | cons u users ih =>
    have hrest := ih fun v hv => hnames v (List.mem_cons_of_mem _ hv)
    have hu := hnames u (List.mem_cons_self ..)
    rw [List.any_cons, ← hrest]
    cases users with
    | nil =>
      have htext : ",".toList.intercalate ([u].map Socket.userText) ++ ")".toList =
          Socket.userText u ++ ")".toList := by simp [List.intercalate]
      rw [htext, contains_userText hu]
      rfl
    | cons v users =>
      have htext : ",".toList.intercalate ((u :: v :: users).map Socket.userText) ++ ")".toList =
          Socket.userText u ++ (",".toList ++
            (",".toList.intercalate ((v :: users).map Socket.userText) ++ ")".toList)) := by
        simp [List.intercalate]
      rw [htext, contains_userText hu]
      exact congrArg _ (contains_skip (x := ",".toList) (by decide))

theorem mentions_iff {k : Socket} {n : Nat}
    (hcolumns : ∀ w ∈ [k.state, k.recvQ, k.sendQ, k.localAddress, k.peer], '=' ∉ w)
    (hnames : ∀ u ∈ k.users, '=' ∉ u.name) :
    k.mentions (decimal n) = true ↔ ∃ m ∈ k.owners, decimal n <+: decimal m := by
  have hline : k.line = (k.state ++ ' ' :: (k.recvQ ++ ' ' :: (k.sendQ ++ ' ' :: (k.localAddress ++
      ' ' :: (k.peer ++ ' ' :: "users:".toList))))) ++ '(' ::
        (",".toList.intercalate (k.users.map Socket.userText) ++ ")".toList) := by
    simp [Socket.line]
  have hfront : '=' ∉ k.state ++ ' ' :: (k.recvQ ++ ' ' :: (k.sendQ ++ ' ' :: (k.localAddress ++
      ' ' :: (k.peer ++ ' ' :: "users:".toList)))) := by
    simp only [List.forall_mem_cons] at hcolumns
    simp [hcolumns]
  rw [Socket.mentions, hline, contains_front hfront (by decide), contains_users hnames,
    List.any_eq_true]
  simp only [Socket.owners, List.mem_map, List.isPrefixOf_iff_prefix, exists_exists_and_eq_and]

end Lines

/-! Attribution. -/

/-- The session has no address, one of `auth.log`, or that of a socket that its own process holds. -/
def OwnPeer (env : SessionEnv) (server : Nat) (process : Str × Str) (s : Session) : Prop :=
  s.clientIp = none ∨ (env.ssAddress server process.1 = none ∧
      s.clientIp = env.logAddress server process.1) ∨
    ∃ k ∈ env.sockets server process.1, s.pid ∈ k.owners ∧ k.address = s.clientIp

/-- The first line that is found for the pid and shows an address has the address of a socket that the
process of this pid holds. -/
def FoundOwn (env : SessionEnv) (server : Nat) (pid : Str) : Prop :=
  ∀ k ∈ (env.sockets server pid).find? fun k => k.mentions pid && k.address.isSome,
    ∃ k' ∈ env.sockets server pid, (∃ n ∈ int pid, n ∈ k'.owners) ∧ k'.address = k.address

theorem findSome?_filter {α β : Type} {p : α → Bool} {f : α → Option β} (l : List α) :
    (l.filter p).findSome? f = (l.find? fun a => p a && (f a).isSome).bind f := by
  induction l with
  | nil => rfl
  | cons a l ih =>
    cases hp : p a with
    | false => simp [hp, ih]
    | true =>
      cases hf : f a with
      | none => simp [hp, hf, ih]
      | some b => simp [hp, hf]

section Attribution

variable {env : SessionEnv} {server : Nat} {process : Str × Str} {s : Session}

theorem ownPeer_iff (h : env.session server process = some s) :
    OwnPeer env server process s ↔ FoundOwn env server process.1 := by
  obtain ⟨n, hn, rfl⟩ := Option.map_eq_some_iff.mp h
  have hss : env.ssAddress server process.1 = ((env.sockets server process.1).find? fun k =>
      k.mentions process.1 && k.address.isSome).bind Socket.address := findSome?_filter _
  unfold OwnPeer FoundOwn
  cases hfind : (env.sockets server process.1).find? fun k =>
      k.mentions process.1 && k.address.isSome with
  | none =>
    rw [hfind] at hss
    have hlog : env.sessionIp server process.1 = env.logAddress server process.1 := by
      rw [SessionEnv.sessionIp, hss]
      rfl
    simp only [Option.not_mem_none, false_imp_iff, implies_true, iff_true]
    exact .inr (.inl ⟨hss, hlog⟩)
  | some k =>
    have hk := List.find?_some hfind
    simp only [Bool.and_eq_true, Option.isSome_iff_exists] at hk
    obtain ⟨-, ip, hip⟩ := hk
    have hssip : env.ssAddress server process.1 = some ip := by
      rw [hss, hfind]
      exact hip
    have hsession : env.sessionIp server process.1 = some ip := by
      rw [SessionEnv.sessionIp, hssip]
      rfl
    simp only [hsession, hssip, reduceCtorEq, false_and, false_or, Option.mem_def, Option.some.injEq,
      forall_eq', hip, hn, exists_eq_left']

theorem forall₂_iff_of_map {α β : Type} {f : α → Option β} {R : α → β → Prop} {P : α → Prop}
    (hR : ∀ a b, f a = some b → (R a b ↔ P a)) {l : List α} {l' : List β}
    (h : l.map f = l'.map some) : List.Forall₂ R l l' ↔ ∀ a ∈ l, P a := by
  induction l generalizing l' with
  | nil =>
    obtain rfl := List.map_eq_nil_iff.mp h.symm
    simp
  | cons a l ih =>
    cases l' with
    | nil => cases h
    | cons b l' =>
      obtain ⟨hhead, htail⟩ := List.cons.inj h
      rw [List.forall₂_cons, List.forall_mem_cons, ih htail, hR a b hhead]

/-- A pid that no other pid on the sockets begins with gets an address of its own. -/
theorem foundOwn_of_no_longer {n : Nat}
    (hcolumns : ∀ k ∈ env.sockets server (decimal n),
      ∀ w ∈ [k.state, k.recvQ, k.sendQ, k.localAddress, k.peer], '=' ∉ w)
    (hnames : ∀ k ∈ env.sockets server (decimal n), ∀ u ∈ k.users, '=' ∉ u.name)
    (h : ∀ k ∈ env.sockets server (decimal n), ∀ m ∈ k.owners, decimal n <+: decimal m → m = n) :
    FoundOwn env server (decimal n) := by
  intro k hk
  have hin := List.mem_of_find?_eq_some hk
  have hfound := List.find?_some hk
  rw [Bool.and_eq_true] at hfound
  obtain ⟨m, hm, hp⟩ := (mentions_iff (hcolumns k hin) (hnames k hin)).mp hfound.1
  obtain rfl := h k hin m hm hp
  exact ⟨k, hin, ⟨m, int_decimal m, hm⟩, rfl⟩

end Attribution

/-- Whatever a node shows: the sessions of a list that `get_active_sessions` returns have an address of
their own, or none, exactly if the first address found for each pid is one of its process. -/
theorem ownPeers_iff (env : SessionEnv) (server : Server) (w : SessionWorld) (sessions : List Session)
    (hrun : (getActiveSessions server).run (SessionWorld.handler env) w = (.ok sessions, w)) :
    List.Forall₂ (OwnPeer env server.id) (env.processes server.id) sessions ↔
      ∀ p ∈ env.processes server.id, FoundOwn env server.id p.1 := by
  have hrep : env.reported server.id = some sessions := by
    rw [run_getActiveSessions] at hrun
    cases hreported : env.reported server.id with
    | none =>
      rw [hreported] at hrun
      cases (Prod.mk.inj hrun).1
    | some sessions' =>
      rw [hreported] at hrun
      rw [Except.ok.inj (Prod.mk.inj hrun).1]
  have heach : ∀ p s, env.session server.id p = some s →
      (OwnPeer env server.id p s ↔ FoundOwn env server.id p.1) := fun _ _ h => ownPeer_iff h
  exact forall₂_iff_of_map heach (map_session hrep)

theorem ownPeers_iff_sample : List.Forall₂ (OwnPeer (twoSessions ipv4Socket) sampleServer.id)
    ((twoSessions ipv4Socket).processes sampleServer.id)
    [⟨"alice".toList, 10, some "192.0.2.7".toList⟩, ⟨"alice".toList, 20, none⟩] := by
  have hrep : (twoSessions ipv4Socket).reported sampleServer.id =
      some [⟨"alice".toList, 10, some "192.0.2.7".toList⟩, ⟨"alice".toList, 20, none⟩] := by
    decide +kernel
  refine (ownPeers_iff (twoSessions ipv4Socket) sampleServer aliceWorld _ ?_).mpr ?_
  · rw [run_getActiveSessions, hrep]
  · unfold FoundOwn
    decide +kernel

/-! Two processes, the pid of one the beginning of the other's. -/

def longerSocket : Socket := sshSocket "192.0.2.9:6000".toList 123 (by decide)

def shorterSocket : Socket := sshSocket "192.0.2.7:5001".toList 12 (by decide)

def longerFirst : SessionEnv :=
  { twoSessions ipv4Socket with
    ps := fun _ => ⟨0, "12 alice sshd: alice@pts/0\n123 bob sshd: bob@pts/1\n".toList⟩
    sockets := fun _ _ => [longerSocket, shorterSocket] }

/-- Pid 12 is given the address of pid 123. -/
theorem not_ownPeers : ¬ ∀ (env : SessionEnv) (server : Server) (w : SessionWorld)
    (sessions : List Session),
    (getActiveSessions server).run (SessionWorld.handler env) w = (.ok sessions, w) →
      List.Forall₂ (OwnPeer env server.id) (env.processes server.id) sessions := by
  intro h
  have hrep : longerFirst.reported sampleServer.id =
      some [⟨"alice".toList, 12, some "192.0.2.9".toList⟩,
        ⟨"bob".toList, 123, some "192.0.2.9".toList⟩] := by
    decide +kernel
  have hown := h longerFirst sampleServer aliceWorld _ (by rw [run_getActiveSessions, hrep])
  have hprocesses : longerFirst.processes sampleServer.id =
      [("12".toList, "alice".toList), ("123".toList, "bob".toList)] := by
    decide +kernel
  rw [hprocesses, List.forall₂_cons] at hown
  have hnot : ¬ OwnPeer longerFirst sampleServer.id ("12".toList, "alice".toList)
      ⟨"alice".toList, 12, some "192.0.2.9".toList⟩ := by
    unfold OwnPeer
    decide +kernel
  exact hnot hown.1

end SshPanelVpn.Panel

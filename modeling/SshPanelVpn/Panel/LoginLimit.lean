import SshPanelVpn.Panel.LimitsConf
import SshPanelVpn.Panel.SessionLimits

/-! `check_maxlogins.sh`, the script that `_ensure_maxlogin_script` installs in PAM, next to the limit that
`sync_active_sessions` enforces. -/
namespace SshPanelVpn.Panel

open Posix PyString

/-! The script. -/

/-- An unsigned number. -/
def bashNat (ds : Str) : Option Int :=
  if ds ≠ [] ∧ ds.all Char.isDigit then some (ds.foldl (fun n d => 10 * n + (d.toNat - 48)) 0 : Nat)
  else none

def bashSigned : Str → Option Int
  | '-' :: ds => (bashNat ds).map fun n => -n
  | '+' :: ds => bashNat ds
  | ds => bashNat ds

/-- The numbers that `[ … -gt … ]` takes: of 64 bits, between blanks. -/
def bashInt (s : Str) : Option Int :=
  (bashSigned ((s.dropWhile isBlank).reverse.dropWhile isBlank).reverse).filter
    fun n => -9223372036854775808 ≤ n ∧ n < 9223372036854775808

/-- `[ a -gt b ]`; it fails for what is no number. -/
def testGt (a b : Str) : Bool :=
  match bashInt a, bashInt b with
  | some m, some n => n < m
  | _, _ => false

example : testGt "10".toList "9".toList = true := by decide
example : testGt "10".toList "9\n9".toList = false := by decide

/-- `$(…)` of a command that prints the lines. -/
def substitution (lines : List Str) : Str :=
  ((lines.flatMap (· ++ ['\n'])).reverse.dropWhile (· == '\n')).reverse

/-- What the script finds on the node: `id -u`, the lines of `limits.conf`, and `pgrep -cu … sshd`. -/
structure LoginNode where
  uid : Str → Option Nat
  limits : List Str
  pgrep : Str → Nat

namespace LoginNode

/-- `$MAX`. -/
def maxLogins (node : LoginNode) (user : Str) : Str :=
  substitution ((node.limits.filter fun l =>
    awkField 1 l = user ∧ contains "maxlogins".toList l = true).map (awkField 4))

/-- The script exits with 0. `pgrep` fails where it counts none. -/
def admits (node : LoginNode) (user : Str) : Bool :=
  if user = [] then true
  else match node.uid user with
    | none => true
    | some uid =>
      if uid < 1000 then true
      else if node.maxLogins user = [] then true
      else if node.maxLogins user = "0".toList then true
      else if node.pgrep user = 0 then true
      else if testGt (decimal (node.pgrep user)) (node.maxLogins user) then false
      else true

/-- No uid, or that of a system user. -/
def Exempt (node : LoginNode) (user : Str) : Prop := ∀ uid ∈ node.uid user, uid < 1000

instance exemptDecidable (node : LoginNode) (user : Str) : Decidable (node.Exempt user) :=
  inferInstanceAs (Decidable (∀ uid ∈ node.uid user, uid < 1000))

end LoginNode

/-! Numbers. -/

theorem isBlank_decimal {n : Nat} {c : Char} (h : c ∈ decimal n) : isBlank c = false := by
  have hspace := isSpace_decimal h
  cases hb : isBlank c with
  | false => rfl
  | true =>
    simp only [isBlank, Bool.or_eq_true, beq_iff_eq] at hb
    rcases hb with rfl | rfl <;> cases hspace

theorem bashNat_decimal (n : Nat) : bashNat (decimal n) = some (n : Int) := by
  have hdigits : (decimal n).all Char.isDigit = true := by
    rw [List.all_eq_true]
    intro c hc
    obtain ⟨h1, h2⟩ := isDigit_of_mem_decimal hc
    simp only [Char.isDigit, Bool.and_eq_true, decide_eq_true_eq]
    exact ⟨h1, h2⟩
  have hnum : (decimal n).foldl (fun m c => 10 * m + (c.toNat - 48)) 0 = n :=
    Nat.ofDigitChars_ten_toDigits
  rw [bashNat, if_pos ⟨decimal_ne_nil n, hdigits⟩, hnum]

/-- Bash reads what the panel and pgrep write, up to its largest number. -/
theorem bashInt_decimal (n : Nat) :
    bashInt (decimal n) = if n < 9223372036854775808 then some (n : Int) else none := by
  have htrim : (((decimal n).dropWhile isBlank).reverse.dropWhile isBlank).reverse = decimal n := by
    have h := Words.trim_append (decimal_ne_nil n)
      (fun c hc => isBlank_decimal (List.mem_of_mem_head? hc))
      (fun c hc => isBlank_decimal (List.mem_of_mem_getLast? hc)) (w := [])
      fun c hc => absurd hc List.not_mem_nil
    rwa [List.append_nil] at h
  have hsign : ∀ c ∈ decimal n, c ≠ '-' ∧ c ≠ '+' := by
    intro c hc
    have hlow := (isDigit_of_mem_decimal hc).1
    constructor
    · rintro rfl
      exact absurd hlow (by decide)
    · rintro rfl
      exact absurd hlow (by decide)
  have hunsigned : bashSigned (decimal n) = some (n : Int) := by
    unfold bashSigned
    split
    · next heq => exact ((hsign _ (heq ▸ List.mem_cons_self ..)).1 rfl).elim
    · next heq => exact ((hsign _ (heq ▸ List.mem_cons_self ..)).2 rfl).elim
    · exact bashNat_decimal n
  rw [bashInt, htrim, hunsigned]
  by_cases hn : n < 9223372036854775808
  · rw [if_pos hn]
    apply Option.filter_some_pos
    simp only [decide_eq_true_eq]
    omega
  · rw [if_neg hn]
    apply Option.filter_some_neg
    simp only [decide_eq_false_iff_not]
    omega

theorem testGt_decimal (m n : Nat) :
    testGt (decimal m) (decimal n) = true ↔ n < m ∧ m < 9223372036854775808 := by
  unfold testGt
  rw [bashInt_decimal, bashInt_decimal]
  by_cases hm : m < 9223372036854775808
  · by_cases hn : n < 9223372036854775808
    · rw [if_pos hm, if_pos hn, decide_eq_true_eq, Int.ofNat_lt]
      exact ⟨fun h => ⟨h, hm⟩, And.left⟩
    · simp only [if_pos hm, if_neg hn, Bool.false_eq_true, false_iff]
      omega
  · simp only [if_neg hm, Bool.false_eq_true, false_iff]
    omega

/-! The limit that the script reads. -/

theorem awkField_one (l : Str) : awkField 1 l = firstField l := Words.head_words l

theorem awkField_limitsLine {u : Str} (h : validUsername u = true) (n : Nat) :
    awkField 4 (limitsLine u n) = decimal n := by
  have hline : limitsLine u n = u ++ ' ' :: (" hard  maxlogins  ".toList ++ decimal n) := by
    simp [limitsLine]
  have hwords : Words.words isBlank (" hard  maxlogins  ".toList ++ decimal n) =
      "hard".toList :: "maxlogins".toList :: Words.words isBlank (decimal n) := rfl
  have hnumber : Words.words isBlank (decimal n) = [decimal n] :=
    Words.words_word (fun c hc => isBlank_decimal hc) (decimal_ne_nil n)
  rw [awkField, awkFields, hline,
    Words.words_cons (fun c hc => not_isBlank_of_valid h hc) (ne_nil_of_valid h) rfl, hwords, hnumber]
  rfl

theorem contains_limitsLine (u : Str) (n : Int) :
    contains "maxlogins".toList (limitsLine u n) = true := by
  rw [contains_iff]
  refine ⟨u ++ "  hard  ".toList, "  ".toList ++ decimal n, ?_⟩
  simp [limitsLine]

/-- `$MAX` is the number of the line that `set_max_logins` has left. -/
theorem maxLogins_eq {node : LoginNode} {u : Str} {n : Nat} (h : validUsername u = true)
    (hfile : entries u node.limits = [limitsLine u n]) : node.maxLogins u = decimal n := by
  have hlines : node.limits.filter (fun l =>
      awkField 1 l = u ∧ contains "maxlogins".toList l = true) = [limitsLine u n] := by
    have hboth : node.limits.filter (fun l =>
        awkField 1 l = u ∧ contains "maxlogins".toList l = true) =
          (entries u node.limits).filter fun l => contains "maxlogins".toList l := by
      rw [entries, List.filter_filter]
      apply List.filter_congr
      intro l _
      simp [awkField_one, Bool.and_comm]
    rw [hboth, hfile, List.filter_cons_of_pos (contains_limitsLine u n), List.filter_nil]
  have hdigit : ∀ c ∈ (decimal n).reverse.head?, (c == '\n') = false := by
    intro c hc
    have hspace := isSpace_decimal (List.mem_reverse.mp (List.mem_of_mem_head? hc))
    by_contra hnl
    rw [Bool.not_eq_false, beq_iff_eq] at hnl
    subst hnl
    cases hspace
  rw [LoginNode.maxLogins, hlines]
  simp only [List.map_cons, List.map_nil, awkField_limitsLine h, substitution, List.flatMap_cons,
    List.flatMap_nil, List.append_nil, List.reverse_append, List.reverse_cons, List.reverse_nil,
    List.nil_append, List.singleton_append]
  rw [List.dropWhile_cons_of_pos rfl]
  cases hr : (decimal n).reverse with
  | nil => exact (decimal_ne_nil n (List.reverse_eq_nil_iff.mp hr)).elim
  | cons c cs =>
    rw [hr] at hdigit
    rw [List.dropWhile_cons_of_neg (by simp [hdigit c rfl]), ← hr, List.reverse_reverse]

/-- Whom the script lets in. -/
theorem admits_iff {node : LoginNode} {u : Str} {n : Nat} (h : validUsername u = true)
    (hfile : entries u node.limits = [limitsLine u n]) : node.admits u = true ↔
      node.Exempt u ∨ n = 0 ∨ node.pgrep u ≤ n ∨ 9223372036854775808 ≤ node.pgrep u := by
  have hzero : decimal n = "0".toList ↔ n = 0 := by
    constructor
    · intro heq
      exact decimal_inj (n := 0) heq
    · rintro rfl
      rfl
  unfold LoginNode.admits LoginNode.Exempt
  rw [if_neg (ne_nil_of_valid h), maxLogins_eq h hfile]
  cases node.uid u with
  | none => simp
  | some uid =>
    by_cases huid : uid < 1000
    · simp [huid]
    · have hgt := testGt_decimal (node.pgrep u) n
      simp only [huid, if_false, decimal_ne_nil, hzero, Option.mem_def, Option.some.injEq,
        forall_eq', false_or]
      by_cases hn : n = 0
      · simp [hn]
      · by_cases hnone : node.pgrep u = 0
        · simp [hnone]
        · simp only [hn, hnone, if_false, false_or]
          cases htest : testGt (decimal (node.pgrep u)) (decimal n) with
          | true =>
            have hover := hgt.mp htest
            simp only [if_true, Bool.false_eq_true, false_iff]
            omega
          | false =>
            have hunder : ¬ (n < node.pgrep u ∧ node.pgrep u < 9223372036854775808) := by
              intro hover
              rw [hgt.mpr hover] at htest
              cases htest
            simp only [Bool.false_eq_true, if_false, true_iff]
            omega

/-! Both limits. -/

section Limits

variable {node : LoginNode} {env : SessionEnv} {srv : Server} {db : Db} {rows : List ActiveSession}
  {sessions : List Session} {acc : Account}

/-- The task kills none of the user's sessions exactly if there are no more than the limit, or if the
account is not ACTIVE. -/
theorem kills_none_iff (hin : acc ∈ db.accounts) (hserver : acc.server = srv.id)
    (hpids : (sessions.map Session.pid).Nodup) :
    (∀ s ∈ own acc.username sessions, ¬ Kills env srv db rows sessions s.pid) ↔
      acc.status ≠ .active ∨ (own acc.username sessions).length ≤ acc.maxConnections := by
  by_cases hactive : acc.status = .active
  · have hcount : ((own acc.username sessions).countP fun s => Kills env srv db rows sessions s.pid) =
        (own acc.username sessions).length - acc.maxConnections :=
      countP_kills hpids hin hserver hactive
    have hnone : (∀ s ∈ own acc.username sessions, ¬ Kills env srv db rows sessions s.pid) ↔
        ((own acc.username sessions).countP fun s => Kills env srv db rows sessions s.pid) = 0 := by
      simp [List.countP_eq_zero]
    rw [hnone, hcount, Nat.sub_eq_zero_iff_le]
    simp [hactive]
  · simp only [hactive, ne_eq, not_false_iff, true_or, iff_true]
    intro s hs hk
    exact hactive (excess_of_kills hpids hin hserver hs hk).1

end Limits

/-- Both limits say the same of one more login. -/
def LimitsAgree (node : LoginNode) (acc : Account) : Prop :=
  if acc.status ≠ .active then
    node.Exempt acc.username ∨ acc.maxConnections = 0 ∨
      node.pgrep acc.username ≤ acc.maxConnections ∨ 9223372036854775808 ≤ node.pgrep acc.username
  else if node.Exempt acc.username then node.pgrep acc.username < acc.maxConnections
  else 0 < acc.maxConnections ∧ node.pgrep acc.username ≠ acc.maxConnections ∧
    (node.pgrep acc.username < acc.maxConnections ∨ node.pgrep acc.username < 9223372036854775808)

/-- The script lets one more session in exactly if the task would then kill none of the user's: where the
limits agree, so for an ACTIVE account with a limit of its own and not as many sessions as that. -/
theorem admits_iff_kills_none_iff (node : LoginNode) (env : SessionEnv) (srv : Server) (db : Db)
    (rows : List ActiveSession) (sessions : List Session) (acc : Account)
    (hvalid : validUsername acc.username = true) (hin : acc ∈ db.accounts)
    (hserver : acc.server = srv.id)
    (hfile : entries acc.username node.limits = [limitsLine acc.username acc.maxConnections])
    (hpids : (sessions.map Session.pid).Nodup)
    (hcount : (own acc.username sessions).length = node.pgrep acc.username + 1) :
    (node.admits acc.username = true ↔
        ∀ s ∈ own acc.username sessions, ¬ Kills env srv db rows sessions s.pid) ↔
      LimitsAgree node acc := by
  rw [admits_iff hvalid hfile, kills_none_iff hin hserver hpids, hcount]
  unfold LimitsAgree
  by_cases hactive : acc.status = .active
  · by_cases hexempt : node.Exempt acc.username
    · simp only [hactive, hexempt, true_or, true_iff, ne_eq, not_true_eq_false, false_or, if_false,
        if_true]
      omega
    · simp only [hactive, hexempt, false_or, ne_eq, not_true_eq_false, if_false]
      omega
  · simp [hactive]

/-- A node whose `limits.conf` holds the line of the user. -/
def sampleLoginNode (limit sessions : Nat) : LoginNode where
  uid := fun _ => some 1000
  limits := [limitsLine "alice".toList limit]
  pgrep := fun _ => sessions

/-- An account with three places. -/
def threefoldAccount : Account := { NodeChange.sampleAccount .ssh with maxConnections := 3 }

def threefoldDb : Db :=
  { sampleWorld.db with
    accounts := ⟨[threefoldAccount], List.nodup_singleton _, List.nodup_singleton _,
      List.nodup_singleton _, List.nodup_singleton _⟩ }

/-- A second login of three: let in, and both sessions are left alone. -/
theorem admits_iff_kills_none_iff_threefold :
    (sampleLoginNode 3 1).admits "alice".toList = true ↔ ∀ s ∈ own "alice".toList sampleSessions,
      ¬ Kills quietEnv sampleServer threefoldDb [] sampleSessions s.pid :=
  (admits_iff_kills_none_iff (sampleLoginNode 3 1) quietEnv sampleServer threefoldDb [] sampleSessions
    threefoldAccount (by decide) (List.mem_singleton.mpr rfl) rfl (by decide) (by decide)
    (by decide)).mpr (by unfold LimitsAgree; decide)

/-- A second login under a limit of one is let in, and the task kills it. -/
theorem not_admits_iff_kills_none : ¬ ∀ (node : LoginNode) (env : SessionEnv) (srv : Server) (db : Db)
    (rows : List ActiveSession) (sessions : List Session) (acc : Account),
    validUsername acc.username = true → acc ∈ db.accounts → acc.server = srv.id →
    acc.status = .active → ¬ node.Exempt acc.username →
    entries acc.username node.limits = [limitsLine acc.username acc.maxConnections] →
    (sessions.map Session.pid).Nodup →
    (own acc.username sessions).length = node.pgrep acc.username + 1 →
      (node.admits acc.username = true ↔
        ∀ s ∈ own acc.username sessions, ¬ Kills env srv db rows sessions s.pid) := by
  intro h
  have hagree := h (sampleLoginNode 1 1) quietEnv sampleServer (NodeChange.sampleAccountWorld .ssh).db []
    sampleSessions (NodeChange.sampleAccount .ssh) (by decide) (List.mem_singleton.mpr rfl) rfl rfl
    (by decide) (by decide) (by decide) (by decide)
  have hadmits : (sampleLoginNode 1 1).admits "alice".toList = true := by decide +kernel
  have hkilled : Kills quietEnv sampleServer (NodeChange.sampleAccountWorld .ssh).db [] sampleSessions
      30 := by
    decide +kernel
  exact hagree.mp hadmits ⟨"alice".toList, 30, none⟩ (by decide) hkilled

end SshPanelVpn.Panel

import Mathlib.Algebra.GroupWithZero.Nat
import Mathlib.Logic.Function.Iterate
import SshPanelVpn.Library.Runs
import SshPanelVpn.Panel.CommandSafety
import SshPanelVpn.Panel.IsoDates

/-! The iptables rules of `setup_traffic_accounting`, and what is read of them, where any command of any
run may fail. -/
namespace SshPanelVpn.Panel

open Effects PyString Runs

/-- A rule `-j RETURN` of a chain, with its counters. -/
structure ReturnRule where
  packets : Nat
  bytes : Nat
  deriving DecidableEq, Repr

/-- The filter table: the rules `-m owner --uid-owner uid -j chain` of OUTPUT, and the user chains. -/
structure Iptables where
  output : List (Str × Str)
  chain : Str → Option (List ReturnRule)

/-- The longest name of a chain that iptables accepts. -/
def maxChainName : Nat := 28

def padLeft (n : Nat) (s : Str) : Str := List.replicate (n - s.length) ' ' ++ s

/-- A rule in the listing `-nvx`. -/
def ReturnRule.line (r : ReturnRule) : Str :=
  padLeft 8 (decimal r.packets) ++ ' ' :: (padLeft 8 (decimal r.bytes) ++
    " RETURN     all  --  *      *       0.0.0.0/0            0.0.0.0/0           ".toList)

def listingTitles : Str :=
  "    pkts      bytes target     prot opt in     out     source               destination         ".toList

namespace Iptables

/-- The lines of `iptables -L chain -nvx`. -/
def listing (t : Iptables) (c : Str) : List Str :=
  match t.chain c with
  | some rules =>
    ("Chain ".toList ++ c ++ " (".toList ++ decimal (t.output.countP fun rule => rule.2 = c) ++
      " references)".toList) :: listingTitles :: rules.map ReturnRule.line
  | none => []

def setChain (t : Iptables) (c : Str) (rules : List ReturnRule) : Iptables :=
  { t with chain := Function.update t.chain c (some rules) }

/-- What a command for the user prints and does, on a node where it has the id `uid`. -/
def exec (t : Iptables) (uid : Option Nat) (u : Str) : Cmd → CommandResult × Iptables
  | .idUser =>
    match uid with
    | some n => (⟨0, decimal n, []⟩, t)
    | none => (⟨1, [], []⟩, t)
  | .chainList => (if (t.chain (chainName u)).isSome then ⟨0, [], []⟩ else ⟨1, [], []⟩, t)
  | .chainNew =>
    if (chainName u).length ≤ maxChainName ∧ t.chain (chainName u) = none then
      (⟨0, [], []⟩, t.setChain (chainName u) [])
    else (⟨1, [], []⟩, t)
  | .chainJump uid =>
    if (t.chain (chainName u)).isSome then
      (⟨0, [], []⟩, { t with output := t.output ++ [(uid, chainName u)] })
    else (⟨2, [], []⟩, t)
  | .chainReturn =>
    match t.chain (chainName u) with
    | some rules => (⟨0, [], []⟩, t.setChain (chainName u) (rules ++ [⟨0, 0⟩]))
    | none => (⟨1, [], []⟩, t)
  -- the status of the pipeline is that of `tail`
  | .chainCounters => (⟨0, ((t.listing (chainName u)).getLast?).getD [], []⟩, t)
  | _ => (⟨0, [], []⟩, t)

/-- A packet in a chain: the first rule counts it and returns. -/
def countIn (bytes : Nat) : List ReturnRule → List ReturnRule
  | [] => []
  | r :: rules => ⟨r.packets + 1, r.bytes + bytes⟩ :: rules

def count (t : Iptables) (c : Str) (bytes : Nat) : Iptables :=
  match t.chain c with
  | some rules => t.setChain c (countIn bytes rules)
  | none => t

/-- A packet that a process of the user sends goes through every rule of OUTPUT for it. -/
def send (t : Iptables) (packet : Nat × Nat) : Iptables :=
  t.output.foldl (fun t rule => if rule.1 = decimal packet.1 then t.count rule.2 packet.2 else t) t

end Iptables

/-- How a command ends: carried out; with another exit code than 0, which is for a lock on the tables as
well; or with an exception, before or after its effect. -/
inductive CmdEnd where
  | finishes
  | fails (code : Nat)
  | raises (applied : Bool)
  deriving DecidableEq, Repr

namespace CmdEnd

def effective : CmdEnd → Bool
  | finishes => true
  | fails _ => false
  | raises applied => applied

/-- The run goes on. -/
def returns : CmdEnd → Bool
  | raises _ => false
  | _ => true

end CmdEnd

/-- One run: the id of the user on the node, and how its commands end. -/
structure SetupRun where
  uid : Option Nat
  ends : Cmd → CmdEnd

namespace SetupRun

def exec (r : SetupRun) (u : Str) (cmd : Cmd) (t : Iptables) : Except Exc CommandResult × Iptables :=
  match r.ends cmd with
  | .finishes => (.ok (t.exec r.uid u cmd).1, (t.exec r.uid u cmd).2)
  | .fails code => (.ok ⟨code + 1, [], []⟩, t)
  | .raises applied => (.error (.sshError []), if applied then (t.exec r.uid u cmd).2 else t)

/-- The commands of one user on one node, whatever replies to other calls. -/
def handler {σ : Type} (H : (c : Call) → σ → Reply c × σ) (r : SetupRun) :
    (c : Call) → σ × Iptables → Reply c × (σ × Iptables)
  | .exec _ u cmd, (s, t) => ((r.exec u cmd t).1, (s, (r.exec u cmd t).2))
  | c, (s, t) => ((H c s).1, ((H c s).2, t))

/-- The id with which the run sends its three commands: `id` prints it, and `iptables -L` does not find
the chain, or fails although the chain is there. -/
def sends (r : SetupRun) (present : Bool) : Option Nat :=
  if r.ends .idUser = .finishes then
    match r.ends .chainList with
    | .finishes => if present then none else r.uid
    | .fails _ => r.uid
    | .raises _ => none
  else none

/-- `iptables -N` takes effect where there is no chain. -/
def creates (r : SetupRun) : Bool := (r.sends false).isSome && (r.ends .chainNew).effective

/-- The ids for which the run adds a rule to OUTPUT. -/
def jumped (r : SetupRun) (present : Bool) : List Nat :=
  match r.sends present with
  | some n =>
    if (r.ends .chainNew).returns && (r.ends (.chainJump (decimal n))).effective then [n] else []
  | none => []

/-- The number of rules that it adds to the chain. -/
def returned (r : SetupRun) (present : Bool) : Nat :=
  match r.sends present with
  | some n =>
    if (r.ends .chainNew).returns && (r.ends (.chainJump (decimal n))).returns &&
      (r.ends .chainReturn).effective then 1 else 0
  | none => 0

end SetupRun

section Setup

variable {σ : Type} (H : (c : Call) → σ → Reply c × σ) (server : Server) (u : Str)

/-- The node after a run. -/
def setup (s : σ × Iptables) (r : SetupRun) : σ × Iptables :=
  ((SSHManager.setupTrafficAccounting server u).run (r.handler H) s).2

/-- What `get_user_bandwidth_bytes` returns for the user. -/
def bandwidth (r : SetupRun) (s : σ × Iptables) : Except Exc Nat :=
  ((SSHManager.getUserBandwidthBytes server u).run (r.handler H) s).1

end Setup

/-- The chain is there, is reached from OUTPUT for the user, and ends in a RETURN rule. -/
structure Iptables.Accounted (t : Iptables) (u : Str) (n : Nat) : Prop where
  chain : ∃ rules, t.chain (chainName u) = some rules ∧ rules ≠ []
  reached : (decimal n, chainName u) ∈ t.output

/-- Nothing of the user's chain is there. -/
structure Iptables.Fresh (t : Iptables) (u : Str) : Prop where
  chain : t.chain (chainName u) = none
  output : ∀ rule ∈ t.output, rule.2 ≠ chainName u

/-- From the first run that creates the chain on, one rule is added to OUTPUT, for the id, and one to the
chain. -/
def MadeOnce (n : Nat) (rs : List SetupRun) : Prop :=
  ∃ before r later, rs = before ++ r :: later ∧ (∀ b ∈ before, b.creates = false) ∧ r.creates = true ∧
    r.jumped false ++ later.flatMap (SetupRun.jumped · true) = [n] ∧
    r.returned false + (later.map (SetupRun.returned · true)).sum = 1

/-! What is read. -/

section Reading

variable {t : Iptables} {c u : Str} {n b : Nat}

theorem isSpace_blanks {k : Nat} {c : Char} (h : c ∈ List.replicate k ' ') : isSpace c = true := by
  obtain rfl := (List.mem_replicate.mp h).2
  rfl

/-- The second word of a rule's line is its number of bytes. -/
theorem split_line (r : ReturnRule) :
    ∃ words, split r.line = decimal r.packets :: decimal r.bytes :: words := by
  unfold ReturnRule.line padLeft
  rw [split_eq, List.append_assoc, Words.words_front fun c hc => isSpace_blanks hc,
    Words.words_cons (fun c hc => isSpace_decimal hc) (decimal_ne_nil _) rfl, List.append_assoc,
    Words.words_front fun c hc => isSpace_blanks hc]
  have htail : " RETURN     all  --  *      *       0.0.0.0/0            0.0.0.0/0           ".toList =
      ' ' :: "RETURN     all  --  *      *       0.0.0.0/0            0.0.0.0/0           ".toList := rfl
  rw [htail, Words.words_cons (fun c hc => isSpace_decimal hc) (decimal_ne_nil _) rfl]
  exact ⟨_, rfl⟩

theorem bandwidthBytes_line (r : ReturnRule) (error : Str) :
    SSHManager.bandwidthBytes ⟨0, strip r.line, error⟩ = .ok r.bytes := by
  obtain ⟨words, hwords⟩ := split_line r
  have hsplit : split (strip (strip r.line)) = decimal r.packets :: decimal r.bytes :: words := by
    rw [split_strip, split_strip, hwords]
  have hne : strip (strip r.line) ≠ [] := by
    intro h
    rw [h] at hsplit
    cases hsplit
  have hok : CommandResult.ok ⟨0, strip r.line, error⟩ = true := rfl
  unfold SSHManager.bandwidthBytes
  simp only [hok, hne, Bool.true_eq_false, or_self, if_false, hsplit, isdigit_decimal, if_true,
    int_decimal]

end Reading

/-! One run. -/

section Run

variable {σ : Type} {H : (c : Call) → σ → Reply c × σ} {server : Server} {u : Str} {r : SetupRun}
  {s : σ} {t : Iptables} {cmd : Cmd} {n b : Nat}

/-- The table after a command. -/
def SetupRun.table (r : SetupRun) (u : Str) (cmd : Cmd) (t : Iptables) : Iptables :=
  if (r.ends cmd).effective then (t.exec r.uid u cmd).2 else t

theorem run_exec_finishes (h : r.ends cmd = .finishes) :
    (SSHManager.run server u cmd).run (r.handler H) (s, t) =
      (.ok ⟨(t.exec r.uid u cmd).1.exitCode, strip (t.exec r.uid u cmd).1.stdout,
        strip (t.exec r.uid u cmd).1.stderr⟩, (s, (t.exec r.uid u cmd).2)) := by
  simp [SSHManager.run, SetupRun.handler, SetupRun.exec, h]

theorem run_exec_fails {code : Nat} (h : r.ends cmd = .fails code) :
    (SSHManager.run server u cmd).run (r.handler H) (s, t) = (.ok ⟨code + 1, [], []⟩, (s, t)) := by
  have hblank : strip [] = [] := rfl
  simp [SSHManager.run, SetupRun.handler, SetupRun.exec, h, hblank]

theorem run_exec_raises {applied : Bool} (h : r.ends cmd = .raises applied) :
    (SSHManager.run server u cmd).run (r.handler H) (s, t) =
      (.error (.sshError []), (s, r.table u cmd t)) := by
  simp [SSHManager.run, SetupRun.handler, SetupRun.exec, SetupRun.table, CmdEnd.effective, h]

theorem run_exec (r : SetupRun) (cmd : Cmd) (s : σ) (t : Iptables) :
    ∃ res, (SSHManager.run server u cmd).run (r.handler H) (s, t) = (res, (s, r.table u cmd t)) ∧
      res.isOk = (r.ends cmd).returns := by
  cases h : r.ends cmd with
  | finishes =>
    have htable : r.table u cmd t = (t.exec r.uid u cmd).2 := by simp [SetupRun.table, CmdEnd.effective, h]
    rw [htable]
    exact ⟨_, run_exec_finishes h, rfl⟩
  | fails code =>
    have htable : r.table u cmd t = t := by simp [SetupRun.table, CmdEnd.effective, h]
    rw [htable]
    exact ⟨_, run_exec_fails h, rfl⟩
  | raises applied => exact ⟨_, run_exec_raises h, rfl⟩

/-- What is read of a chain is the counter of its last rule. -/
theorem bandwidth_eq {rules : List ReturnRule} {rule : ReturnRule}
    (hr : r.ends .chainCounters = .finishes) (h : t.chain (chainName u) = some rules)
    (hlast : rules.getLast? = some rule) : bandwidth H server u r (s, t) = .ok rule.bytes := by
  have hline : ((t.listing (chainName u)).getLast?).getD [] = rule.line := by
    have hne : rules.map ReturnRule.line ≠ [] := by
      intro hnil
      rw [List.map_eq_nil_iff.mp hnil] at hlast
      cases hlast
    simp [Iptables.listing, h, List.getLast?_cons, hlast]
  rw [bandwidth, SSHManager.getUserBandwidthBytes, Prog.run_bind_ok (run_exec_finishes hr)]
  simp only [Iptables.exec, hline, bandwidthBytes_line, Prog.ofExcept_ok, Prog.run_ret]

/-- The table after some commands, the first exception of which ends them. -/
def SetupRun.tables (r : SetupRun) (u : Str) : List Cmd → Iptables → Iptables
  | [], t => t
  | cmd :: cmds, t =>
    if (r.ends cmd).returns then r.tables u cmds (r.table u cmd t) else r.table u cmd t

/-- What a run leaves. -/
def SetupRun.leaves (r : SetupRun) (u : Str) (t : Iptables) : Iptables :=
  match r.sends (t.chain (chainName u)).isSome with
  | some n => r.tables u [.chainNew, .chainJump (decimal n), .chainReturn] t
  | none => t

/-- A command, and the rest where it does not raise. -/
theorem run_then {α : Type} {cmds : List Cmd} {f : CommandResult → PanelProg α}
    (hf : ∀ res t, ((f res).run (r.handler H) (s, t)).2 = (s, r.tables u cmds t)) :
    ((SSHManager.run server u cmd >>= f).run (r.handler H) (s, t)).2 =
      (s, r.tables u (cmd :: cmds) t) := by
  obtain ⟨res, hrun, hok⟩ : ∃ res, (SSHManager.run server u cmd).run (r.handler H) (s, t) =
      (res, (s, r.table u cmd t)) ∧ res.isOk = (r.ends cmd).returns := run_exec r cmd s t
  rw [SetupRun.tables, ← hok]
  rcases res with e | x
  · rw [Prog.run_bind_error hrun]
    rfl
  · rw [Prog.run_bind_ok hrun]
    exact hf x _

theorem setup_eq (H : (c : Call) → σ → Reply c × σ) (server : Server) (u : Str) (x : σ × Iptables)
    (r : SetupRun) : setup H server u x r = (x.1, r.leaves u x.2) := by
  obtain ⟨s, t⟩ := x
  have hmake : ∀ uid : Str, ((do
      let _ ← SSHManager.run server u .chainNew
      let _ ← SSHManager.run server u (.chainJump uid)
      let _ ← SSHManager.run server u .chainReturn
      return () : PanelProg Unit).run (r.handler H) (s, t)).2 =
        (s, r.tables u [.chainNew, .chainJump uid, .chainReturn] t) := by
    intro uid
    exact run_then fun _ t => run_then fun _ t => run_then fun _ t => rfl
  unfold setup SSHManager.setupTrafficAccounting SetupRun.leaves SetupRun.sends
  have hid : (t.exec r.uid u .idUser).2 = t := by
    cases huid : r.uid <;> rfl
  have hlist : (t.exec r.uid u .chainList).2 = t := rfl
  cases hi : r.ends .idUser with
  | raises applied =>
    rw [Prog.run_bind_error (run_exec_raises hi), SetupRun.table, hid, ite_self]
    simp
  | fails code =>
    rw [Prog.run_bind_ok (run_exec_fails hi)]
    simp [strip]
  | finishes =>
    rw [Prog.run_bind_ok (run_exec_finishes hi), hid]
    cases huid : r.uid with
    | none =>
      have hsends : (match r.ends .chainList with
          | .finishes => if (t.chain (chainName u)).isSome then none else none
          | .fails _ => none
          | .raises _ => none : Option Nat) = none := by
        split <;> simp
      simp only [if_true, hsends]
      simp [Iptables.exec, strip]
    | some n =>
      have hstrip : strip (strip (decimal n)) = decimal n := by
        rw [strip_word fun c hc => isSpace_decimal hc, strip_word fun c hc => isSpace_decimal hc]
      have hfound : ¬ (decimal n = [] ∨ isdigit (decimal n) = false) := by
        simp [decimal_ne_nil, isdigit_decimal]
      simp only [Iptables.exec, hstrip, hfound, if_false]
      cases hl : r.ends .chainList with
      | raises applied =>
        rw [Prog.run_bind_error (run_exec_raises hl), SetupRun.table, hlist, ite_self]
        simp
      | fails code =>
        rw [Prog.run_bind_ok (run_exec_fails hl)]
        simpa using hmake (decimal n)
      | finishes =>
        rw [Prog.run_bind_ok (run_exec_finishes hl), hlist]
        cases ht : t.chain (chainName u) with
        | some rules => simp [Iptables.exec, ht]
        | none => simpa [Iptables.exec, ht] using hmake (decimal n)

end Run

/-! Runs and traffic. -/

/-- What happens on the node. -/
inductive NodeEvent where
  | run (r : SetupRun)
  | sends (uid bytes : Nat)

section Node

variable {σ : Type} (H : (c : Call) → σ → Reply c × σ) (server : Server) (u : Str)

def happens (x : σ × Iptables) : NodeEvent → σ × Iptables
  | .run r => setup H server u x r
  | .sends uid bytes => (x.1, x.2.send (uid, bytes))

/-- The rules are there, and from then on `get_user_bandwidth_bytes` returns what the user sends. -/
def Counted (n : Nat) (x : σ × Iptables) : Prop :=
  x.2.Accounted u n ∧ ∀ (r : SetupRun) (packets : List (Nat × Nat)),
    r.ends .chainCounters = .finishes → ∃ before, bandwidth H server u r x = .ok before ∧
      bandwidth H server u r (x.1, packets.foldl Iptables.send x.2) =
        .ok (before + ((packets.filter fun packet => packet.1 = n).map Prod.snd).sum)

end Node

def runs : List NodeEvent → List SetupRun
  | [] => []
  | .run r :: es => r :: runs es
  | .sends _ _ :: es => runs es

/-- How often a packet of the user goes through the chain. -/
def Iptables.hits (t : Iptables) (u : Str) (n : Nat) : Nat :=
  t.output.countP fun rule => rule = (decimal n, chainName u)

section Traffic

variable {t : Iptables} {c u : Str} {n b : Nat}

theorem count_output : (t.count c b).output = t.output := by
  unfold Iptables.count
  split <;> rfl

theorem count_chain {d : Str} : (t.count d b).chain c =
    if d = c then (t.chain c).map (Iptables.countIn b) else t.chain c := by
  unfold Iptables.count
  split
  · next rules hd =>
    by_cases hdc : d = c
    · subst hdc
      simp [Iptables.setChain, hd]
    · simp [Iptables.setChain, hdc, Ne.symm hdc]
  · next hd =>
    by_cases hdc : d = c
    · subst hdc
      simp [hd]
    · simp [hdc]

theorem send_output (packet : Nat × Nat) : (t.send packet).output = t.output := by
  have hfold : ∀ (rules : List (Str × Str)) (t : Iptables), (rules.foldl (fun t rule =>
      if rule.1 = decimal packet.1 then t.count rule.2 packet.2 else t) t).output = t.output := by
    intro rules
    induction rules with
    | nil => exact fun _ => rfl
    | cons rule rules ih =>
      intro t
      rw [List.foldl_cons, ih]
      split
      · exact count_output
      · rfl
  exact hfold t.output t

/-- Each rule of OUTPUT for the sender that leads to the chain counts there. -/
theorem send_chain (packet : Nat × Nat) : (t.send packet).chain (chainName u) =
    (Option.map (Iptables.countIn packet.2))^[t.hits u packet.1] (t.chain (chainName u)) := by
  have hfold : ∀ (rules : List (Str × Str)) (t : Iptables), (rules.foldl (fun t rule =>
      if rule.1 = decimal packet.1 then t.count rule.2 packet.2 else t) t).chain (chainName u) =
        (Option.map (Iptables.countIn packet.2))^[rules.countP fun rule =>
          rule = (decimal packet.1, chainName u)] (t.chain (chainName u)) := by
    intro rules
    induction rules with
    | nil => exact fun _ => rfl
    | cons rule rules ih =>
      intro t
      obtain ⟨uid, d⟩ := rule
      rw [List.foldl_cons, ih, List.countP_cons]
      by_cases huid : uid = decimal packet.1
      · by_cases hd : d = chainName u
        · simp [huid, hd, count_chain, Function.iterate_succ_apply]
        · simp [huid, hd, count_chain]
      · simp [huid]
  exact hfold t.output t

theorem hits_send (packet : Nat × Nat) : (t.send packet).hits u n = t.hits u n := by
  rw [Iptables.hits, send_output, Iptables.hits]

end Traffic

/-! What a history leaves. -/

/-- Nothing of the chain is there. -/
structure Iptables.Unmade (t : Iptables) (u : Str) : Prop where
  chain : t.chain (chainName u) = none
  hits : ∀ n, t.hits u n = 0

/-- The chain has `k` rules, and rules of OUTPUT for these ids lead to it. -/
structure Iptables.Made (t : Iptables) (u : Str) (ids : List Nat) (k : Nat) : Prop where
  chain : ∃ rules, t.chain (chainName u) = some rules ∧ rules.length = k
  hits : ∀ n, t.hits u n = ids.count n

section Commands

variable {u : Str} {r : SetupRun} {t : Iptables} {ids : List Nat} {k n : Nat} {uid : Option Nat}

theorem made_new (h : t.Made u ids k) : (t.exec uid u .chainNew).2 = t := by
  obtain ⟨rules, hrules, -⟩ := h.chain
  simp [Iptables.exec, hrules]

theorem made_jump (h : t.Made u ids k) :
    (t.exec uid u (.chainJump (decimal n))).2.Made u (ids ++ [n]) k := by
  obtain ⟨rules, hrules, hlen⟩ := h.chain
  have htable : (t.exec uid u (.chainJump (decimal n))).2 =
      { t with output := t.output ++ [(decimal n, chainName u)] } := by
    simp [Iptables.exec, hrules]
  rw [htable]
  refine ⟨⟨rules, hrules, hlen⟩, fun m => ?_⟩
  have hold : t.output.countP (fun rule => rule = (decimal m, chainName u)) = ids.count m := h.hits m
  rw [Iptables.hits, List.countP_append, hold, List.count_append]
  by_cases hm : n = m
  · simp [hm]
  · have hne : decimal n ≠ decimal m := fun he => hm (decimal_inj he)
    simp [hm, hne]

theorem made_return (h : t.Made u ids k) : (t.exec uid u .chainReturn).2.Made u ids (k + 1) := by
  obtain ⟨rules, hrules, hlen⟩ := h.chain
  have htable : (t.exec uid u .chainReturn).2 = t.setChain (chainName u) (rules ++ [⟨0, 0⟩]) := by
    simp [Iptables.exec, hrules]
  rw [htable]
  refine ⟨⟨rules ++ [⟨0, 0⟩], by simp [Iptables.setChain], by simp [hlen]⟩, h.hits⟩

theorem unmade_new (h : t.Unmade u) (hlen : (chainName u).length ≤ maxChainName) :
    (t.exec uid u .chainNew).2.Made u [] 0 := by
  have htable : (t.exec uid u .chainNew).2 = t.setChain (chainName u) [] := by
    simp [Iptables.exec, hlen, h.chain]
  rw [htable]
  exact ⟨⟨[], by simp [Iptables.setChain], rfl⟩, h.hits⟩

/-- The two rules, for a chain that is there. -/
theorem made_rest (h : t.Made u ids k) :
    (r.tables u [.chainJump (decimal n), .chainReturn] t).Made u
      (ids ++ if (r.ends (.chainJump (decimal n))).effective then [n] else [])
      (k + if (r.ends (.chainJump (decimal n))).returns && (r.ends .chainReturn).effective then 1
        else 0) := by
  have hjumped : (r.table u (.chainJump (decimal n)) t).Made u
      (ids ++ if (r.ends (.chainJump (decimal n))).effective then [n] else []) k := by
    rw [SetupRun.table]
    split
    · exact made_jump h
    · rwa [List.append_nil]
  simp only [SetupRun.tables]
  cases hgoes : (r.ends (.chainJump (decimal n))).returns with
  | false => simpa using hjumped
  | true =>
    rw [if_pos rfl, ite_self, SetupRun.table, Bool.true_and]
    split
    · exact made_return hjumped
    · exact hjumped

theorem made_leaves (h : t.Made u ids k) :
    (r.leaves u t).Made u (ids ++ r.jumped true) (k + r.returned true) := by
  obtain ⟨rules, hrules, -⟩ := h.chain
  have hnew : r.table u .chainNew t = t := by
    rw [SetupRun.table, made_new h, ite_self]
  simp only [SetupRun.leaves, SetupRun.jumped, SetupRun.returned, hrules, Option.isSome_some]
  cases r.sends true with
  | none => simpa using h
  | some n =>
    dsimp only
    rw [SetupRun.tables, hnew]
    cases hgoes : (r.ends .chainNew).returns with
    | false => simpa using h
    | true => simpa [hgoes] using made_rest h

/-- The run that creates the chain. -/
theorem made_creates (h : t.Unmade u) (hlen : (chainName u).length ≤ maxChainName)
    (hr : r.creates = true) : (r.leaves u t).Made u (r.jumped false) (r.returned false) := by
  simp only [SetupRun.creates, Bool.and_eq_true] at hr
  obtain ⟨n, hn⟩ := Option.isSome_iff_exists.mp hr.1
  have hnew : (r.table u .chainNew t).Made u [] 0 := by
    rw [SetupRun.table, if_pos hr.2]
    exact unmade_new h hlen
  simp only [SetupRun.leaves, SetupRun.jumped, SetupRun.returned, h.chain, Option.isSome_none, hn]
  rw [SetupRun.tables]
  cases hgoes : (r.ends .chainNew).returns with
  | false => simpa using hnew
  | true => simpa using made_rest hnew

/-- Without the chain the other commands do nothing. -/
theorem tables_unmade (h : t.Unmade u) :
    r.tables u [.chainJump (decimal n), .chainReturn] t = t := by
  have hjump : r.table u (.chainJump (decimal n)) t = t := by
    simp [SetupRun.table, Iptables.exec, h.chain]
  have hreturn : r.table u .chainReturn t = t := by
    simp [SetupRun.table, Iptables.exec, h.chain]
  simp [SetupRun.tables, hjump, hreturn]

theorem unmade_leaves (h : t.Unmade u)
    (hr : r.creates = false ∨ ¬ (chainName u).length ≤ maxChainName) : r.leaves u t = t := by
  simp only [SetupRun.leaves, h.chain, Option.isSome_none]
  cases hsends : r.sends false with
  | none => rfl
  | some n =>
    have hnew : r.table u .chainNew t = t := by
      rcases hr with hr | hr
      · have hnot : (r.ends .chainNew).effective = false := by simpa [SetupRun.creates, hsends] using hr
        simp [SetupRun.table, hnot]
      · simp [SetupRun.table, Iptables.exec, hr]
    dsimp only
    rw [SetupRun.tables, hnew, tables_unmade h, ite_self]

/-- Packets in a chain: its first rule counts them all. -/
theorem chain_iterate (j b : Nat) (rule : ReturnRule) (rules : List ReturnRule) : ∃ rule',
    (Option.map (Iptables.countIn b))^[j] (some (rule :: rules)) = some (rule' :: rules) ∧
      rule'.bytes = rule.bytes + j * b := by
  induction j generalizing rule with
  | zero => exact ⟨rule, rfl, by omega⟩
  | succ j ih =>
    obtain ⟨rule', hr, hb⟩ := ih ⟨rule.packets + 1, rule.bytes + b⟩
    refine ⟨rule', hr, hb.trans ?_⟩
    dsimp only
    rw [Nat.succ_mul]
    omega

theorem iterate_nil (j b : Nat) :
    (Option.map (Iptables.countIn b))^[j] (some []) = some [] := by
  induction j with
  | zero => rfl
  | succ j ih => exact ih

theorem unmade_of_fresh (h : t.Fresh u) : t.Unmade u := by
  refine ⟨h.chain, ?_⟩
  intro n
  rw [Iptables.hits, List.countP_eq_zero]
  intro rule hrule heq
  rw [of_decide_eq_true heq] at hrule
  exact h.output _ hrule rfl

theorem unmade_send (h : t.Unmade u) (packet : Nat × Nat) : (t.send packet).Unmade u := by
  refine ⟨?_, fun n => (hits_send packet).trans (h.hits n)⟩
  rw [send_chain, h.hits packet.1, h.chain]
  rfl

theorem made_send (h : t.Made u ids k) (packet : Nat × Nat) : (t.send packet).Made u ids k := by
  refine ⟨?_, fun n => (hits_send packet).trans (h.hits n)⟩
  obtain ⟨rules, hrules, hlen⟩ := h.chain
  rw [send_chain, hrules]
  cases rules with
  | nil => exact ⟨[], iterate_nil _ _, hlen⟩
  | cons rule rules =>
    obtain ⟨rule', hr, -⟩ := chain_iterate (t.hits u packet.1) packet.2 rule rules
    exact ⟨rule' :: rules, hr, hlen⟩

end Commands

section History

variable {σ : Type} {H : (c : Call) → σ → Reply c × σ} {server : Server} {u : Str} {r : SetupRun}
  {x : σ × Iptables} {t : Iptables} {es : List NodeEvent} {ids : List Nat} {k n : Nat}

theorem unmade_after (h : x.2.Unmade u)
    (hr : ∀ r ∈ runs es, r.creates = false ∨ ¬ (chainName u).length ≤ maxChainName) :
    (after (happens H server u) x es).2.Unmade u := by
  induction es generalizing x with
  | nil => exact h
  | cons e es ih =>
    rw [after_cons]
    cases e with
    | sends uid bytes => exact ih (unmade_send h (uid, bytes)) hr
    | run r =>
      refine ih ?_ fun r' hr' => hr r' (List.mem_cons_of_mem _ hr')
      rw [happens, setup_eq, unmade_leaves h (hr r List.mem_cons_self)]
      exact h

/-- What the runs add to a chain that is there. -/
theorem made_after (h : x.2.Made u ids k) : (after (happens H server u) x es).2.Made u
    (ids ++ (runs es).flatMap (SetupRun.jumped · true))
    (k + ((runs es).map (SetupRun.returned · true)).sum) := by
  induction es generalizing x ids k with
  | nil => simpa [runs] using h
  | cons e es ih =>
    rw [after_cons]
    cases e with
    | sends uid bytes => exact ih (made_send h (uid, bytes))
    | run r =>
      have hstep : (happens H server u x (.run r)).2.Made u (ids ++ r.jumped true)
          (k + r.returned true) := by
        rw [happens, setup_eq]
        exact made_leaves h
      simpa [runs, List.append_assoc, Nat.add_assoc] using ih hstep

theorem made_of_runs (h : x.2.Unmade u) (hlen : (chainName u).length ≤ maxChainName)
    {before later : List SetupRun} (hes : runs es = before ++ r :: later)
    (hbefore : ∀ b ∈ before, b.creates = false) (hr : r.creates = true) :
    (after (happens H server u) x es).2.Made u
      (r.jumped false ++ later.flatMap (SetupRun.jumped · true))
      (r.returned false + (later.map (SetupRun.returned · true)).sum) := by
  induction es generalizing x before with
  | nil => cases before <;> cases hes
  | cons e es ih =>
    rw [after_cons]
    cases e with
    | sends uid bytes => exact ih (unmade_send h (uid, bytes)) hes hbefore
    | run r' =>
      cases before with
      | nil =>
        obtain ⟨rfl, rfl⟩ := List.cons.inj hes
        have hmade : (happens H server u x (.run r')).2.Made u (r'.jumped false)
            (r'.returned false) := by
          rw [happens, setup_eq]
          exact made_creates h hlen hr
        exact made_after hmade
      | cons b before =>
        obtain ⟨rfl, hrest⟩ := List.cons.inj hes
        refine ih ?_ hrest fun b hb => hbefore b (List.mem_cons_of_mem _ hb)
        rw [happens, setup_eq, unmade_leaves h (.inl (hbefore r' List.mem_cons_self))]
        exact h

theorem mem_of_hits (h : t.hits u n ≠ 0) : (decimal n, chainName u) ∈ t.output := by
  obtain ⟨rule, hrule, heq⟩ := List.countP_pos_iff.mp (Nat.pos_of_ne_zero h)
  rw [of_decide_eq_true heq] at hrule
  exact hrule

/-- The counter of the only rule follows what the user sends. -/
theorem bytes_sends (h : t.Made u [n] 1) {rule : ReturnRule}
    (hrule : t.chain (chainName u) = some [rule]) (packets : List (Nat × Nat)) :
    ∃ rule', (packets.foldl Iptables.send t).chain (chainName u) = some [rule'] ∧ rule'.bytes =
      rule.bytes + ((packets.filter fun packet => packet.1 = n).map Prod.snd).sum := by
  induction packets generalizing t rule with
  | nil => exact ⟨rule, hrule, rfl⟩
  | cons packet packets ih =>
    have hchain := send_chain (t := t) (u := u) packet
    obtain ⟨rule₁, hr₁, hb₁⟩ := chain_iterate (t.hits u packet.1) packet.2 rule []
    rw [hrule, hr₁] at hchain
    obtain ⟨rule', hr, hb⟩ := ih (made_send h packet) hchain
    refine ⟨rule', hr, hb.trans ?_⟩
    rw [hb₁, h.hits packet.1]
    by_cases hn : packet.1 = n
    · simp [hn, Nat.add_assoc]
    · have hcount : [n].count packet.1 = 0 := List.count_eq_zero.mpr (by simpa using hn)
      simp [hn, hcount]

/-- One packet shows how often the last rule of the chain counts a user. -/
theorem bytes_packet (h : t.Made u ids k) {rule : ReturnRule} {rules : List ReturnRule}
    (hrules : t.chain (chainName u) = some (rule :: rules)) (m : Nat) : ∃ last last',
    (rule :: rules).getLast? = some last ∧
      (∃ rules', (t.send (m, 1)).chain (chainName u) = some rules' ∧ rules'.getLast? = some last') ∧
        last'.bytes = last.bytes + if rules = [] then ids.count m else 0 := by
  obtain ⟨rule', hr, hb⟩ := chain_iterate (t.hits u m) 1 rule rules
  have hchain : (t.send (m, 1)).chain (chainName u) = some (rule' :: rules) := by
    rw [send_chain, hrules]
    exact hr
  rw [h.hits m] at hb
  cases rules with
  | nil => exact ⟨rule, rule', rfl, ⟨_, hchain, rfl⟩, by simpa using hb⟩
  | cons rule₂ rules =>
    obtain ⟨last, hlast⟩ : ∃ last, (rule₂ :: rules).getLast? = some last :=
      Option.isSome_iff_exists.mp (by simp)
    have hboth : ∀ first : ReturnRule, (first :: rule₂ :: rules).getLast? = some last := by
      intro first
      rw [List.getLast?_cons_cons, hlast]
    exact ⟨last, last, hboth rule, ⟨_, hchain, hboth rule'⟩, by simp⟩

theorem counted_iff (h : x.2.Made u ids k) : Counted H server u n x ↔ ids = [n] ∧ k = 1 := by
  obtain ⟨rules, hrules, hlen⟩ := h.chain
  constructor
  · rintro ⟨⟨⟨rules', hrules', hne⟩, -⟩, hreads⟩
    obtain rfl := Option.some.inj (hrules.symm.trans hrules')
    obtain ⟨rule, rest, rfl⟩ := List.exists_cons_of_ne_nil hne
    have hcounts : ∀ m, (if rest = [] then ids.count m else 0) = [n].count m := by
      intro m
      obtain ⟨last, last', hlast, ⟨rules', hrules', hlast'⟩, hbytes⟩ := bytes_packet h hrules m
      obtain ⟨before, hread, hread'⟩ := hreads ⟨none, fun _ => .finishes⟩ [(m, 1)] rfl
      rw [bandwidth_eq rfl hrules hlast] at hread
      rw [List.foldl_cons, List.foldl_nil, bandwidth_eq rfl hrules' hlast'] at hread'
      obtain rfl := Except.ok.inj hread
      have heq := Except.ok.inj hread'
      rw [hbytes] at heq
      by_cases hm : m = n
      · subst hm
        simpa using heq
      · have hzero : [n].count m = 0 := List.count_eq_zero.mpr (by simpa using hm)
        rw [hzero]
        simpa [hm] using heq
    have hrest : rest = [] := by
      by_contra hrest
      have hone := hcounts n
      rw [if_neg hrest] at hone
      simp at hone
    have hperm : ids.Perm [n] := by
      rw [List.perm_iff_count]
      intro m
      rw [← hcounts m, if_pos hrest]
    exact ⟨List.perm_singleton.mp hperm, by rw [← hlen, hrest]; rfl⟩
  · rintro ⟨rfl, rfl⟩
    obtain ⟨rule, rfl⟩ := List.length_eq_one_iff.mp hlen
    refine ⟨⟨⟨_, hrules, List.cons_ne_nil _ _⟩, mem_of_hits ?_⟩, ?_⟩
    · rw [h.hits n]
      simp
    · intro r packets hr
      obtain ⟨rule', hrule', hbytes⟩ := bytes_sends h hrules packets
      have hlast : ∀ rule : ReturnRule, [rule].getLast? = some rule := fun _ => rfl
      refine ⟨rule.bytes, bandwidth_eq hr hrules (hlast rule), ?_⟩
      rw [bandwidth_eq hr hrule' (hlast rule'), hbytes]

theorem runs_append (es es' : List NodeEvent) : runs (es ++ es') = runs es ++ runs es' := by
  induction es with
  | nil => rfl
  | cons e es ih =>
    cases e with
    | sends uid bytes => exact ih
    | run r => exact congrArg (r :: ·) ih

theorem length_chainName (u : Str) : (chainName u).length = 7 + u.length := by
  have hprefix : "SSHVPN_".toList.length = 7 := by decide
  calc (chainName u).length = "SSHVPN_".toList.length + u.length := List.length_append
    _ = 7 + u.length := congrArg (· + u.length) hprefix

theorem length_chainName_le : (chainName u).length ≤ maxChainName ↔ u.length ≤ 21 := by
  rw [length_chainName, maxChainName]
  omega

/-- The traffic is counted exactly if a run has made the chain once and whole. -/
theorem counted_iff_of_runs (hfresh : x.2.Fresh u) :
    Counted H server u n (after (happens H server u) x es) ↔ u.length ≤ 21 ∧ MadeOnce n (runs es) := by
  have hunmade := unmade_of_fresh hfresh
  rw [← length_chainName_le]
  constructor
  · intro hcounted
    have hchain : ¬ (after (happens H server u) x es).2.Unmade u := by
      intro h
      obtain ⟨⟨⟨rules, hrules, -⟩, -⟩, -⟩ := hcounted
      rw [h.chain] at hrules
      cases hrules
    have hlen : (chainName u).length ≤ maxChainName := by
      by_contra hlong
      exact hchain (unmade_after hunmade fun _ _ => .inr hlong)
    cases hfind : (runs es).find? SetupRun.creates with
    | none =>
      refine (hchain (unmade_after hunmade fun r hr => .inl ?_)).elim
      simpa using List.find?_eq_none.mp hfind r hr
    | some r =>
      obtain ⟨hr, before, later, hes, hbefore⟩ := List.find?_eq_some_iff_append.mp hfind
      have hnone : ∀ b ∈ before, b.creates = false := by
        intro b hb
        simpa using hbefore b hb
      obtain ⟨hids, hk⟩ := (counted_iff (made_of_runs hunmade hlen hes hnone hr)).mp hcounted
      exact ⟨hlen, before, r, later, hes, hnone, hr, hids, hk⟩
  · rintro ⟨hlen, before, r, later, hes, hbefore, hr, hids, hk⟩
    exact (counted_iff (made_of_runs hunmade hlen hes hbefore hr)).mpr ⟨hids, hk⟩

end History

/-- After a run, whether it returns or raises, the user's traffic is counted exactly if the name of the
chain is not too long, and counted from the first run that has created the chain on, exactly one rule for
the id has been added to OUTPUT, none for another id, and one rule to the chain. -/
theorem counted_iff_of_setup {σ : Type} (H : (c : Call) → σ → Reply c × σ) (server : Server) (u : Str)
    {x : σ × Iptables} (es : List NodeEvent) (r : SetupRun) (n : Nat) (hfresh : x.2.Fresh u) :
    Counted H server u n (setup H server u (after (happens H server u) x es) r) ↔
      u.length ≤ 21 ∧ MadeOnce n (runs es ++ [r]) := by
  have hafter : setup H server u (after (happens H server u) x es) r =
      after (happens H server u) x (es ++ [NodeEvent.run r]) := by
    rw [after_append]
    rfl
  have hruns : runs es ++ [r] = runs (es ++ [NodeEvent.run r]) := by
    rw [runs_append]
    rfl
  rw [hafter, hruns]
  exact counted_iff_of_runs hfresh

/-! Two runs for one user. -/

theorem zero_inRange : minMicros ≤ 0 ∧ 0 ≤ maxMicros := by decide

/-- A node on which only the user's commands are answered. -/
def silent : (c : Call) → Unit → Reply c × Unit
  | .now, _ => (⟨0, zero_inRange⟩, ())
  | .generatePassword, _ => ([], ())
  | .newTokens, _ => (([], []), ())
  | .connect _, _ => (.ok (), ())
  | .exec _ _ _, _ => (.ok ⟨0, [], []⟩, ())
  | .http _ _, _ => (.error .connectionError, ())
  | .getServer _, _ => (none, ())
  | .getPlan _, _ => (none, ())
  | .getAccount _, _ => (none, ())
  | .activeServers, _ => ([], ())
  | .activeServersByLoad, _ => ([], ())
  | .currentUserCount _, _ => (0, ())
  | .selectAccounts _, _ => ([], ())
  | .insertAccount _, _ => (.error .integrityError, ())
  | .saveAccount _ _, _ => ((), ())
  | .insertAuditLog _, _ => ((), ())
  | .begin, _ => ((), ())
  | .commit, _ => ((), ())
  | .rollback, _ => ((), ())

def emptyTable : Iptables := ⟨[], fun _ => none⟩

def smallNode : Server :=
  ⟨0, "node".toList, "10.0.0.1".toList, .ssh, .active, 10, 0, 0, []⟩

/-- A run to its end. -/
def wholeRun : SetupRun := ⟨some 1000, fun _ => .finishes⟩

/-- A run whose connection is lost while the chain is created. -/
def cutRun : SetupRun := ⟨some 1000, fun cmd => if cmd = .chainNew then .raises true else .finishes⟩

/-- A run in which the tables are locked until the chain has been tried. -/
def lockedRun : SetupRun := ⟨some 1000, fun cmd => if cmd = .chainNew then .fails 3 else .finishes⟩

theorem counted_iff_of_setup_locked : Counted silent smallNode "bob".toList 1000
    (setup silent smallNode "bob".toList (after (happens silent smallNode "bob".toList)
      ((), emptyTable) [.run lockedRun, .run wholeRun, .sends 1000 5]) wholeRun) := by
  have hfresh : emptyTable.Fresh "bob".toList := ⟨rfl, fun _ h => absurd h List.not_mem_nil⟩
  refine (counted_iff_of_setup silent smallNode "bob".toList
    [.run lockedRun, .run wholeRun, .sends 1000 5] wholeRun 1000 hfresh).mpr ⟨by decide, ?_⟩
  refine ⟨[lockedRun], wholeRun, [wholeRun], rfl, ?_, rfl, rfl, rfl⟩
  intro b hb
  rw [List.mem_singleton.mp hb]
  rfl

/-- The run after a cut one returns, and has done nothing. -/
theorem not_counted_of_setup : ¬ ∀ (u : Str) (es : List NodeEvent) (r : SetupRun) (n : Nat),
    validUsername u = true → r.uid = some n →
    ((SSHManager.setupTrafficAccounting smallNode u).run (r.handler silent)
      (after (happens silent smallNode u) ((), emptyTable) es)).1 = .ok () →
    Counted silent smallNode u n
      (setup silent smallNode u (after (happens silent smallNode u) ((), emptyTable) es) r) := by
  intro h
  obtain ⟨⟨-, hreached⟩, -⟩ := h "bob".toList [.run cutRun] wholeRun 1000 (by decide) rfl rfl
  have hout : (setup silent smallNode "bob".toList (after (happens silent smallNode "bob".toList)
      ((), emptyTable) [.run cutRun]) wholeRun).2.output = [] := by
    decide +kernel
  rw [hout] at hreached
  cases hreached

end SshPanelVpn.Panel

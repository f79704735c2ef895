import SshPanelVpn.Library.Runs
import SshPanelVpn.Panel.CommandSafety

/-! `limits.conf` as `set_max_logins` leaves it: the command as the shell splits it, and what grep, sed
and echo do to the lines of the file. -/
namespace SshPanelVpn.Panel

open Effects Posix Runs

/-! grep and sed. -/

/-- A character that stands for itself in a basic regular expression between slashes. -/
def isLiteral (c : Char) : Bool := c ∉ ['\\', '.', '[', '*', '^', '$', '/']

/-- The characters that a line begins with if it matches the pattern. -/
def anchored : Str → Option Str
  | '^' :: cs => if cs.all isLiteral then some cs else none
  | _ => none

/-- `/pattern/c\text`: what the lines to change begin with, and the text that replaces them. -/
def changeScript : Str → Option (Str × Str)
  | '/' :: script =>
    match anchored (script.takeWhile (· ≠ '/')), script.dropWhile (· ≠ '/') with
    | some start, '/' :: 'c' :: '\\' :: text => if '\\' ∈ text then none else some (start, text)
    | _, _ => none
  | _ => none

/-- The file after `grep -q … limits.conf && sed -i … limits.conf || echo … >> limits.conf`; `none` for
any other command. Every line of the file is ended; to a last one that is not, echo would add its own
without a break, which is left out here. -/
def editLimits (command : Str) (lines : List Str) : Option (List Str) :=
  match tokenise command with
  | .ok [grep, q, pattern, file, and, sed, i, script, file', or, echo, line, append, file''] =>
    if [grep, q, file, and, sed, i, file', or, echo, append, file''] =
        [literalWord "grep", literalWord "-q", limitsConf, .op "&&".toList, literalWord "sed",
          literalWord "-i", limitsConf, .op "||".toList, literalWord "echo", .op ">>".toList,
          limitsConf] then
      match (wordText pattern).bind anchored, (wordText script).bind changeScript, wordText line with
      | some start, some (start', text), some line =>
        if lines.any fun l => start.isPrefixOf l then
          some (lines.map fun l => if start'.isPrefixOf l then text else l)
        else some (lines ++ [line])
      | _, _, _ => none
    else none
  | _ => none

/-- What that is for a name that is read as it is written. -/
def setLimit (u : Str) (n : Int) (lines : List Str) : List Str :=
  if lines.any fun l => u.isPrefixOf l then
    lines.map fun l => if u.isPrefixOf l then limitsLine u n else l
  else lines ++ [limitsLine u n]

/-- The first field of a line, as awk counts them. -/
def firstField (l : Str) : Str := (l.dropWhile isBlank).takeWhile fun c => !isBlank c

/-- The lines for a user. -/
def entries (u : Str) (lines : List Str) : List Str := lines.filter fun l => firstField l = u

/-! The characters of a name that the serializer accepts. -/

theorem validUsername_char {u : Str} (h : validUsername u = true) {c : Char} (hc : c ∈ u) :
    (c.isLower || c.isDigit || c == '_' || c == '-') = true := by
  cases u with
  | nil => cases hc
  | cons d ds =>
    simp only [validUsername, Bool.and_eq_true, List.all_eq_true] at h
    obtain ⟨⟨⟨hd, -⟩, -⟩, hds⟩ := h
    rcases List.mem_cons.mp hc with rfl | hc
    · rcases Bool.or_eq_true _ _ ▸ hd with hlower | hunderscore
      · simp [hlower]
      · simp [hunderscore]
    · exact hds c hc

/-- A character outside the class is in no name. -/
theorem notMem_validUsername {u : Str} (h : validUsername u = true) {c : Char}
    (hc : (c.isLower || c.isDigit || c == '_' || c == '-') = false) : c ∉ u := by
  intro hm
  rw [validUsername_char h hm] at hc
  cases hc

section Text

variable {u : Str}

theorem isLiteral_of_valid (h : validUsername u = true) : u.all isLiteral = true := by
  apply List.all_eq_true.mpr
  intro c hc
  simp only [isLiteral, decide_eq_true_eq]
  intro hbad
  have hnone : ['\\', '.', '[', '*', '^', '$', '/'].all
      (fun d => !(d.isLower || d.isDigit || d == '_' || d == '-')) = true := by decide
  have hclass := List.all_eq_true.mp hnone c hbad
  rw [Bool.not_eq_true'] at hclass
  exact notMem_validUsername h hclass hc

theorem decimal_no_backslash (n : Int) : '\\' ∉ decimal n := by
  intro h
  exact absurd (decimal_chars h) (by decide)

theorem limitsLine_no_backslash (h : validUsername u = true) (n : Int) : '\\' ∉ limitsLine u n := by
  rw [Cmd.limitsLine_eq]
  intro hm
  rcases List.mem_append.mp hm with hm | hm
  · exact notMem_validUsername h (by decide) hm
  · rcases List.mem_append.mp hm with hm | hm
    · exact absurd hm (by decide)
    · exact decimal_no_backslash n hm

theorem changeScript_eq (h : validUsername u = true) (n : Int) :
    changeScript ('/' :: '^' :: (u ++ '/' :: 'c' :: '\\' :: limitsLine u n)) =
      some (u, limitsLine u n) := by
  have hslash : ∀ c ∈ '^' :: u, decide (c ≠ '/') = true := by
    intro c hc
    rcases List.mem_cons.mp hc with rfl | hc
    · rfl
    · have hne : c ≠ '/' := fun he => notMem_validUsername h (by decide) (he ▸ hc)
      simpa using hne
  have htake : ('^' :: (u ++ '/' :: 'c' :: '\\' :: limitsLine u n)).takeWhile (· ≠ '/') =
      '^' :: u := by
    rw [← List.cons_append, List.takeWhile_append_of_pos hslash]
    simp
  have hdrop : ('^' :: (u ++ '/' :: 'c' :: '\\' :: limitsLine u n)).dropWhile (· ≠ '/') =
      '/' :: 'c' :: '\\' :: limitsLine u n := by
    rw [← List.cons_append, List.dropWhile_append_of_pos hslash]
    simp
  simp only [changeScript, htake, hdrop, anchored, isLiteral_of_valid h, if_true,
    limitsLine_no_backslash h n, if_false]

/-- The words of the command. -/
theorem tokenise_maxLogins (h : ∀ c ∈ u, Plain c) (n : Int) :
    tokenise ((Cmd.maxLogins n).text u) = .ok [literalWord "grep", literalWord "-q",
      .word (('^' :: u).map .lit), limitsConf, .op "&&".toList, literalWord "sed", literalWord "-i",
      .word (('/' :: '^' :: (u ++ '/' :: 'c' :: '\\' :: limitsLine u n)).map .lit), limitsConf,
      .op "||".toList, literalWord "echo", .word ((limitsLine u n).map .lit), .op ">>".toList,
      limitsConf] := by
  obtain ⟨line, hrest⟩ : ∃ line, (Cmd.limitsRest n).map Piece.lit = line := ⟨_, rfl⟩
  rw [Cmd.fits_maxLoginsShape n u h, Cmd.limitsLine_eq]
  simp only [Shape.fill, Except.map, hrest, List.map_append, List.map_cons]
  simp [Cmd.maxLoginsShape, fill_word, Slot.fill, Slot.fill_pieces, literalWords, nameWord]

/-- For a valid name the command does what its author meant by it. -/
theorem editLimits_maxLogins (h : validUsername u = true) (n : Int) (lines : List Str) :
    editLimits ((Cmd.maxLogins n).text u) lines = some (setLimit u n lines) := by
  have hpattern : anchored ('^' :: u) = some u := by
    simp [anchored, isLiteral_of_valid h]
  unfold editLimits setLimit
  rw [tokenise_maxLogins (plain_of_validUsername h)]
  simp only [if_true, wordText_literal, Option.bind_some, hpattern, changeScript_eq h]
  split <;> rfl

end Text

/-! Calls of `set_max_logins` on one node. -/

/-- What a command does to the file; no other command writes it. -/
def Cmd.onLimits (u : Str) : Cmd → List Str → List Str
  | .maxLogins n, lines => (editLimits ((Cmd.maxLogins n).text u) lines).getD lines
  | _, lines => lines

/-- The handler, with the file of the node. -/
def withLimits {σ : Type} (H : (c : Call) → σ → Reply c × σ) :
    (c : Call) → σ × List Str → Reply c × (σ × List Str)
  | .exec server u cmd, (s, lines) =>
    ((H (.exec server u cmd) s).1, ((H (.exec server u cmd) s).2, cmd.onLimits u lines))
  | c, (s, lines) => ((H c s).1, ((H c s).2, lines))

section Handler

variable {σ : Type} {H : (c : Call) → σ → Reply c × σ} {server : Server} {u : Str}

/-- Whatever the commands reply, the script's commands leave the file as it is. -/
theorem limits_ensureMaxloginScript (s : σ × List Str) :
    ((SSHManager.ensureMaxloginScript server u).run (withLimits H) s).2.2 = s.2 := by
  have hcalls : (SSHManager.ensureMaxloginScript server u).AllCalls
      fun c => ∀ t : σ × List Str, (withLimits H c t).2.2 = t.2 := by
    have hexec : ∀ cmd : Cmd, (∀ lines, cmd.onLimits u lines = lines) →
        (SSHManager.run server u cmd).AllCalls
          fun c => ∀ t : σ × List Str, (withLimits H c t).2.2 = t.2 := by
      intro cmd hcmd
      refine ⟨fun t => hcmd t.2, ?_⟩
      intro r
      exact (Prog.allCalls_ofExcept _).bind fun _ => trivial
    refine (hexec _ fun _ => rfl).bind ?_
    intro check
    split
    · trivial
    · exact (hexec _ fun _ => rfl).bind fun _ => (hexec _ fun _ => rfl).bind fun _ =>
        (hexec _ fun _ => rfl).bind fun _ => trivial
  refine hcalls.run_related (r := fun s t : σ × List Str => t.2 = s.2) (fun _ => rfl)
    (fun h h' => h'.trans h) ?_ s
  intro c t hc
  exact hc t

theorem limits_setMaxLogins (n : Int) (s : σ × List Str) :
    ((SSHManager.setMaxLogins server u n).run (withLimits H) s).2.2 =
      (Cmd.maxLogins n).onLimits u s.2 := by
  unfold SSHManager.setMaxLogins
  rw [Prog.run_bind]
  have hfirst : ((SSHManager.run server u (.maxLogins n)).run (withLimits H) s).2.2 =
      (Cmd.maxLogins n).onLimits u s.2 := by
    simp only [SSHManager.run, Prog.perform_bind, Prog.run_call, withLimits]
    cases (H (.exec server u (.maxLogins n)) s.1).1 with
    | error e => simp only [Prog.ofExcept_error, Prog.raise_bind, Prog.run_raise]
    | ok result => simp only [Prog.ofExcept_ok, Prog.ret_bind, Prog.pure_eq, Prog.run_ret]
  rcases hr : (SSHManager.run server u (.maxLogins n)).run (withLimits H) s with ⟨e | a, t⟩
  · rw [hr] at hfirst
    exact hfirst
  · rw [hr] at hfirst
    have hscript : ((SSHManager.ensureMaxloginScript server u).run (withLimits H) t).2.2 = t.2 :=
      limits_ensureMaxloginScript t
    simp only [Prog.run_bind]
    rcases hs : (SSHManager.ensureMaxloginScript server u).run (withLimits H) t with ⟨e | b, t'⟩
    · rw [hs] at hscript
      exact hscript.trans hfirst
    · rw [hs] at hscript
      exact hscript.trans hfirst

end Handler

/-- The file, and the number of the last call for each name. -/
structure LimitsState where
  lines : List Str
  limit : Str → Option Int

namespace LimitsState

/-- One call. -/
def call (s : LimitsState) (c : Str × Int) : LimitsState :=
  ⟨(Cmd.maxLogins c.2).onLimits c.1 s.lines, Function.update s.limit c.1 (some c.2)⟩

/-- Each name that has been called for has one line, with the number of its last call. -/
def IsMap (s : LimitsState) : Prop :=
  ∀ u n, s.limit u = some n → entries u s.lines = [limitsLine u n]

/-- The call leaves such a file, and the lines of every other name. -/
def Sets (s : LimitsState) (c : Str × Int) : Prop :=
  (s.call c).IsMap ∧ ∀ v ≠ c.1, entries v (s.call c).lines = entries v s.lines

/-- No line begins with the name and goes on with more of its first field. -/
def Distinct (s : LimitsState) (c : Str × Int) : Prop :=
  ∀ l ∈ s.lines, c.1 <+: l → firstField l = c.1

end LimitsState

/-! First fields. -/

section Fields

variable {u v l : Str} {n : Int} {lines : List Str}

theorem not_isBlank_of_valid (h : validUsername u = true) {c : Char} (hc : c ∈ u) :
    isBlank c = false := by
  cases hb : isBlank c with
  | false => rfl
  | true =>
    simp only [isBlank, Bool.or_eq_true, beq_iff_eq] at hb
    rcases hb with rfl | rfl
    · exact absurd hc (notMem_validUsername h (by decide))
    · exact absurd hc (notMem_validUsername h (by decide))

theorem ne_nil_of_valid (h : validUsername u = true) : u ≠ [] := by
  rintro rfl
  cases h

/-- A line that begins with a name begins with its first field. -/
theorem firstField_of_isPrefix (h : validUsername u = true) (hl : u <+: l) :
    firstField l = l.takeWhile fun c => !isBlank c := by
  obtain ⟨rest, rfl⟩ := hl
  unfold firstField
  cases u with
  | nil => exact (ne_nil_of_valid h rfl).elim
  | cons c cs =>
    rw [List.cons_append, List.dropWhile_cons_of_neg]
    simp [not_isBlank_of_valid h (List.mem_cons_self ..)]

/-- A name that a line begins with is the beginning of its first field. -/
theorem isPrefix_firstField (h : validUsername u = true) (hl : u <+: l) : u <+: firstField l := by
  rw [firstField_of_isPrefix h hl]
  obtain ⟨rest, rfl⟩ := hl
  rw [List.takeWhile_append_of_pos]
  · exact List.prefix_append _ _
  · intro c hc
    simp [not_isBlank_of_valid h hc]

theorem isPrefix_limitsLine (u : Str) (n : Int) : u <+: limitsLine u n := by
  rw [Cmd.limitsLine_eq]
  exact List.prefix_append _ _

theorem firstField_limitsLine (h : validUsername u = true) (n : Int) :
    firstField (limitsLine u n) = u := by
  rw [firstField_of_isPrefix h (isPrefix_limitsLine u n), Cmd.limitsLine_eq,
    List.takeWhile_append_of_pos]
  · have hrest : (Cmd.limitsRest n).takeWhile (fun c => !isBlank c) = [] := rfl
    rw [hrest, List.append_nil]
  · intro c hc
    simp [not_isBlank_of_valid h hc]

/-! What a call does to the lines of each name. -/

theorem mem_entries : l ∈ entries u lines ↔ l ∈ lines ∧ firstField l = u := by
  simp [entries]

theorem entries_append (lines lines' : List Str) :
    entries u (lines ++ lines') = entries u lines ++ entries u lines' := List.filter_append ..

theorem entries_limitsLine (h : validUsername u = true) (n : Int) :
    entries v [limitsLine u n] = if u = v then [limitsLine u n] else [] := by
  simp [entries, firstField_limitsLine h, List.filter_cons]

/-- The lines that begin with another name are lost. -/
theorem entries_change_of_ne (h : validUsername u = true) (hv : v ≠ u) (n : Int) (lines : List Str) :
    entries v (lines.map fun l => if u.isPrefixOf l then limitsLine u n else l) =
      (entries v lines).filter fun l => !u.isPrefixOf l := by
  induction lines with
  | nil => rfl
  | cons l lines ih =>
    have hline : firstField (limitsLine u n) ≠ v := by
      rw [firstField_limitsLine h]
      exact hv.symm
    simp only [entries] at ih ⊢
    by_cases hp : u.isPrefixOf l = true
    · simp only [List.map_cons, hp, if_true, List.filter_cons, hline, decide_false, Bool.false_eq_true,
        if_false, ih]
      by_cases hl : firstField l = v
      · simp only [hl, decide_true, if_true, List.filter_cons, hp, Bool.not_true, Bool.false_eq_true,
          if_false]
      · simp only [hl, decide_false, Bool.false_eq_true, if_false]
    · simp only [List.map_cons, if_neg hp, List.filter_cons, ih]
      by_cases hl : firstField l = v
      · have hkeep : (!u.isPrefixOf l) = true := by
          rw [Bool.eq_false_iff.mpr hp]
          rfl
        simp only [hl, decide_true, if_true, List.filter_cons, hkeep]
      · simp only [hl, decide_false, Bool.false_eq_true, if_false]

/-- The lines of the name are changed where they begin with it. -/
theorem entries_change_self (h : validUsername u = true) (n : Int)
    (hd : ∀ l ∈ lines, u <+: l → firstField l = u) :
    entries u (lines.map fun l => if u.isPrefixOf l then limitsLine u n else l) =
      (entries u lines).map fun l => if u.isPrefixOf l then limitsLine u n else l := by
  induction lines with
  | nil => rfl
  | cons l lines ih =>
    have hrest := ih fun l hl => hd l (List.mem_cons_of_mem _ hl)
    simp only [entries] at hrest ⊢
    by_cases hp : u.isPrefixOf l = true
    · have hl := hd l (List.mem_cons_self ..) (List.isPrefixOf_iff_prefix.mp hp)
      simp only [List.map_cons, hp, if_true, List.filter_cons, firstField_limitsLine h, hl,
        decide_true, hrest]
    · simp only [List.map_cons, if_neg hp, List.filter_cons]
      by_cases hl : firstField l = u
      · simp only [hl, decide_true, if_true, List.map_cons, if_neg hp, hrest]
      · simp only [hl, decide_false, Bool.false_eq_true, if_false, hrest]

end Fields

namespace LimitsState

variable {s : LimitsState} {u v : Str} {n : Int}

/-- The lines of a name are those of its last call. -/
def Tidy (s : LimitsState) (u : Str) : Prop :=
  entries u s.lines = ((s.limit u).map (limitsLine u)).toList

theorem lines_call (h : validUsername u = true) (s : LimitsState) (n : Int) :
    (s.call (u, n)).lines = setLimit u n s.lines := by
  simp [call, Cmd.onLimits, editLimits_maxLogins h]

theorem limit_call_self (s : LimitsState) : (s.call (u, n)).limit u = some n :=
  Function.update_self ..

theorem limit_call_of_ne (s : LimitsState) (hv : v ≠ u) : (s.call (u, n)).limit v = s.limit v :=
  Function.update_of_ne hv ..

/-- What is left of the lines of another name. -/
theorem entries_call_of_ne (h : validUsername u = true) (hv : v ≠ u) (s : LimitsState) (n : Int) :
    entries v (s.call (u, n)).lines = (entries v s.lines).filter fun l => !u.isPrefixOf l := by
  rw [lines_call h, setLimit]
  split
  · exact entries_change_of_ne h hv n s.lines
  · next hnone =>
    have hkeep : (entries v s.lines).filter (fun l => !u.isPrefixOf l) = entries v s.lines := by
      apply List.filter_eq_self.mpr
      intro l hl
      cases hp : u.isPrefixOf l with
      | false => rfl
      | true => exact (hnone (List.any_eq_true.mpr ⟨l, (mem_entries.mp hl).1, hp⟩)).elim
    rw [entries_append, entries_limitsLine h, if_neg hv.symm, List.append_nil, hkeep]

theorem entries_call_of_distinct (h : validUsername u = true) (hd : s.Distinct (u, n))
    (hv : v ≠ u) : entries v (s.call (u, n)).lines = entries v s.lines := by
  rw [entries_call_of_ne h hv]
  apply List.filter_eq_self.mpr
  intro l hl
  obtain ⟨hmem, rfl⟩ := mem_entries.mp hl
  cases hp : u.isPrefixOf l with
  | false => rfl
  | true => exact (hv (hd l hmem (List.isPrefixOf_iff_prefix.mp hp))).elim

/-- The call leaves one line for its name. -/
theorem entries_call_self (h : validUsername u = true) (ht : s.Tidy u) (hd : s.Distinct (u, n)) :
    entries u (s.call (u, n)).lines = [limitsLine u n] := by
  rw [lines_call h, setLimit]
  split
  · next hany =>
    obtain ⟨l, hl, hp⟩ := List.any_eq_true.mp hany
    have hmem : l ∈ entries u s.lines :=
      mem_entries.mpr ⟨hl, hd l hl (List.isPrefixOf_iff_prefix.mp hp)⟩
    rw [entries_change_self h n hd]
    rw [ht] at hmem ⊢
    cases hm : s.limit u with
    | none => simp [hm] at hmem
    | some m => simp [isPrefix_limitsLine u m]
  · next hnone =>
    have hempty : entries u s.lines = [] := by
      rw [ht]
      cases hm : s.limit u with
      | none => rfl
      | some m =>
        have hmem : limitsLine u m ∈ entries u s.lines := by
          rw [ht, hm]
          exact List.mem_singleton.mpr rfl
        exact (hnone (List.any_eq_true.mpr ⟨_, (mem_entries.mp hmem).1,
          List.isPrefixOf_iff_prefix.mpr (isPrefix_limitsLine u m)⟩)).elim
    rw [entries_append, hempty, entries_limitsLine h, if_pos rfl, List.nil_append]

/-- One call sets its own entry and no other exactly where no other line begins with the name. -/
theorem sets_iff (h : validUsername u = true) (ht : s.Tidy u) (hs : s.IsMap) :
    s.Sets (u, n) ↔ s.Distinct (u, n) := by
  constructor
  · rintro ⟨-, hother⟩ l hl hp
    by_contra hv
    have hkept := hother (firstField l) hv
    rw [entries_call_of_ne h hv] at hkept
    have hmem := List.filter_eq_self.mp hkept l (mem_entries.mpr ⟨hl, rfl⟩)
    rw [List.isPrefixOf_iff_prefix.mpr hp] at hmem
    cases hmem
  · intro hd
    refine ⟨?_, fun v hv => entries_call_of_distinct h hd hv⟩
    intro v m hm
    by_cases hv : v = u
    · subst hv
      rw [limit_call_self] at hm
      cases hm
      exact entries_call_self h ht hd
    · rw [limit_call_of_ne s hv] at hm
      rw [entries_call_of_distinct h hd hv]
      exact hs v m hm

theorem tidy_call (h : validUsername u = true) (hu : s.Tidy u) (hd : s.Distinct (u, n))
    (hv : s.Tidy v) : (s.call (u, n)).Tidy v := by
  unfold Tidy
  by_cases hvu : v = u
  · subst hvu
    rw [entries_call_self h hu hd, limit_call_self]
    rfl
  · rw [entries_call_of_distinct h hd hvu, limit_call_of_ne s hvu]
    exact hv

/-- After such a call another name meets the same lines as before, and the new line. -/
theorem distinct_call (h : validUsername u = true) (hd : s.Distinct (u, n))
    (hv : validUsername v = true) (m : Int) :
    (s.call (u, n)).Distinct (v, m) ↔ s.Distinct (v, m) ∧ (v <+: u → v = u) := by
  have hnew : v <+: limitsLine u n ↔ v <+: u := by
    constructor
    · intro hp
      have hfirst := isPrefix_firstField hv hp
      rwa [firstField_limitsLine h] at hfirst
    · intro hp
      exact hp.trans (isPrefix_limitsLine u n)
  have hline : (v <+: limitsLine u n → firstField (limitsLine u n) = v) ↔ (v <+: u → v = u) := by
    rw [hnew, firstField_limitsLine h, eq_comm]
  unfold Distinct at hd ⊢
  rw [lines_call h, setLimit]
  split
  · next hany =>
    obtain ⟨l₀, hl₀, hp₀⟩ := List.any_eq_true.mp hany
    -- what is replaced has the same first field as what replaces it
    have hsame : ∀ l ∈ s.lines, u <+: l →
        ((v <+: l → firstField l = v) ↔ (v <+: u → v = u)) := by
      intro l hl hp
      have hfirst : firstField l = u := hd l hl hp
      have hvl : v <+: l ↔ v <+: u := by
        constructor
        · intro hvl
          exact hfirst ▸ isPrefix_firstField hv hvl
        · intro hvu
          exact hvu.trans hp
      rw [hvl, hfirst, eq_comm]
    constructor
    · intro hall
      have hvu : v <+: u → v = u := by
        refine hline.mp (hall _ (List.mem_map.mpr ⟨l₀, hl₀, ?_⟩))
        rw [if_pos hp₀]
      refine ⟨?_, hvu⟩
      intro l hl
      by_cases hp : u <+: l
      · exact (hsame l hl hp).mpr hvu
      · refine hall l (List.mem_map.mpr ⟨l, hl, ?_⟩)
        rw [if_neg fun h => hp (List.isPrefixOf_iff_prefix.mp h)]
    · rintro ⟨hall, hvu⟩ l hl
      obtain ⟨l', hl', rfl⟩ := List.mem_map.mp hl
      split
      · exact hline.mpr hvu
      · exact hall l' hl'
  · constructor
    · intro hall
      exact ⟨fun l hl => hall l (List.mem_append_left _ hl),
        hline.mp (hall _ (List.mem_append_right _ (List.mem_singleton.mpr rfl)))⟩
    · rintro ⟨hall, hvu⟩ l hl
      rcases List.mem_append.mp hl with hl | hl
      · exact hall l hl
      · obtain rfl := List.mem_singleton.mp hl
        exact hline.mpr hvu

/-- Along a run the condition is one on the names and on the first file. -/
theorem along_sets_iff {calls : List (Str × Int)} (hvalid : ∀ c ∈ calls, validUsername c.1 = true)
    (htidy : ∀ c ∈ calls, s.Tidy c.1) (hs : s.IsMap) : Along call Sets s calls ↔
      (∀ c ∈ calls, s.Distinct c) ∧ calls.Pairwise fun c d => d.1 <+: c.1 → d.1 = c.1 := by
  induction calls generalizing s with
  | nil => simp [Along]
  | cons c calls ih =>
    obtain ⟨u, n⟩ := c
    have hu := hvalid _ (List.mem_cons_self ..)
    have hrest : ∀ d ∈ calls, validUsername d.1 = true :=
      fun d hd => hvalid d (List.mem_cons_of_mem _ hd)
    have htu := htidy _ (List.mem_cons_self ..)
    simp only [Along, sets_iff hu htu hs, List.pairwise_cons, List.forall_mem_cons]
    by_cases hd : s.Distinct (u, n)
    · have hnext := ih hrest
        (fun d hd' => tidy_call hu htu hd (htidy d (List.mem_cons_of_mem _ hd')))
        ((sets_iff hu htu hs).mpr hd).1
      rw [hnext]
      have hdist : (∀ d ∈ calls, (s.call (u, n)).Distinct d) ↔
          (∀ d ∈ calls, s.Distinct d) ∧ ∀ d ∈ calls, d.1 <+: u → d.1 = u := by
        constructor
        · intro hall
          exact ⟨fun d hd' => ((distinct_call hu hd (hrest d hd') d.2).mp (hall d hd')).1,
            fun d hd' => ((distinct_call hu hd (hrest d hd') d.2).mp (hall d hd')).2⟩
        · rintro ⟨hall, hnames⟩ d hd'
          exact (distinct_call hu hd (hrest d hd') d.2).mpr ⟨hall d hd', hnames d hd'⟩
      rw [hdist]
      simp only [hd, true_and, and_assoc]
    · simp [hd]

/-- From a file without entries for the names of the calls: each call leaves one line for each name
called for so far and changes no other entry, exactly if no line of the file begins with a name of the
calls and no name begins with a different one that is called for after it. -/
theorem sets_of_calls_iff {lines : List Str} {calls : List (Str × Int)}
    (hvalid : ∀ c ∈ calls, validUsername c.1 = true) (hlines : ∀ c ∈ calls, entries c.1 lines = []) :
    Along call Sets ⟨lines, fun _ => none⟩ calls ↔
      (∀ c ∈ calls, ∀ l ∈ lines, ¬ c.1 <+: l) ∧
        calls.Pairwise fun c d => d.1 <+: c.1 → d.1 = c.1 := by
  have hmap : IsMap ⟨lines, fun _ => none⟩ := by
    intro u n h
    cases h
  have htidy : ∀ c ∈ calls, Tidy ⟨lines, fun _ => none⟩ c.1 := hlines
  rw [along_sets_iff hvalid htidy hmap]
  have hfirst : (∀ c ∈ calls, Distinct ⟨lines, fun _ => none⟩ c) ↔
      ∀ c ∈ calls, ∀ l ∈ lines, ¬ c.1 <+: l := by
    constructor
    · intro h c hc l hl hp
      have hmem : l ∈ entries c.1 lines := mem_entries.mpr ⟨hl, h c hc l hl hp⟩
      rw [hlines c hc] at hmem
      cases hmem
    · intro h c hc l hl hp
      exact (h c hc l hl hp).elim
  rw [hfirst]

/-- A file with another user's line, and calls for two names. -/
theorem sets_of_calls_iff_sample :
    Along call Sets ⟨["root hard nproc 5".toList], fun _ => none⟩
        [("bob".toList, 1), ("alice".toList, 2)] ↔
      (∀ c ∈ [("bob".toList, (1 : Int)), ("alice".toList, 2)], ∀ l ∈ ["root hard nproc 5".toList],
          ¬ c.1 <+: l) ∧
        [("bob".toList, (1 : Int)), ("alice".toList, 2)].Pairwise
          fun c d => d.1 <+: c.1 → d.1 = c.1 :=
  sets_of_calls_iff (by decide) (by decide)

/-- `bob` takes the line of `bobby`. -/
theorem not_isMap_of_calls : ¬ ∀ (lines : List Str) (calls : List (Str × Int)),
    (∀ c ∈ calls, validUsername c.1 = true) → (∀ c ∈ calls, entries c.1 lines = []) →
      (after call ⟨lines, fun _ => none⟩ calls).IsMap := by
  intro h
  have hmap := h [] [("bobby".toList, 2), ("bob".toList, 1)] (by decide) (by decide)
    "bobby".toList 2 rfl
  have hlost : entries "bobby".toList (after call ⟨[], fun _ => none⟩
      [("bobby".toList, 2), ("bob".toList, 1)]).lines = [] := by
    decide +kernel
  rw [hlost] at hmap
  cases hmap

end LimitsState

end SshPanelVpn.Panel

import SshPanelVpn.Panel.Ssh

/-! How the shell reads each command: the shape that it has for every plain username. -/
namespace SshPanelVpn.Panel

open PyString Posix

/-! The tokens around the name. -/

/-- A word read as it is written. -/
def literalWord (s : String) : Token Piece := .word (s.toList.map .lit)

/-- The characters of a word that needs no expansion. -/
def wordText : Token Piece → Option Str
  | .word ps => ps.mapM fun
    | .lit c => some c
    | _ => none
  | _ => none

theorem wordText_literal (cs : Str) : wordText (.word (cs.map .lit)) = some cs := by
  induction cs with
  | nil => rfl
  | cons c cs ih =>
    simp only [wordText] at ih
    simp [wordText, ih]

def literalWords (ws : List String) : List (Token Piece) := ws.map literalWord

section Tails

variable (ts : List (Token Piece)) (ps : List Piece)

theorem tokensFrom_orTrue : tokensFrom ⟨ts, .word ps true .none⟩ " || true".toList =
    .ok (ts ++ Token.word ps :: [.op "||".toList, literalWord "true"]) := by
  have h : tokenise "|| true".toList = .ok [.op "||".toList, literalWord "true"] := rfl
  exact tokensFrom_space h

theorem tokensFrom_pipeChpasswd : tokensFrom ⟨ts, .word ps true .none⟩ " | chpasswd".toList =
    .ok (ts ++ Token.word ps :: [.op "|".toList, literalWord "chpasswd"]) := by
  have h : tokenise "| chpasswd".toList = .ok [.op "|".toList, literalWord "chpasswd"] := rfl
  exact tokensFrom_space h

theorem tokensFrom_jumpReturn : tokensFrom ⟨ts, .word ps false .none⟩ " -j RETURN".toList =
    .ok (ts ++ Token.word ps :: literalWords ["-j", "RETURN"]) := by
  have h : tokenise "-j RETURN".toList = .ok (literalWords ["-j", "RETURN"]) := rfl
  exact tokensFrom_space h

theorem tokensFrom_listTail : tokensFrom ⟨ts, .word ps false .none⟩ " -n 2>/dev/null".toList =
    .ok (ts ++ Token.word ps ::
      [literalWord "-n", .ioNumber "2".toList, .op ">".toList, literalWord "/dev/null"]) := by
  have h : tokenise "-n 2>/dev/null".toList =
      .ok [literalWord "-n", .ioNumber "2".toList, .op ">".toList, literalWord "/dev/null"] := rfl
  exact tokensFrom_space h

theorem tokensFrom_countersTail :
    tokensFrom ⟨ts, .word ps false .none⟩ " -nvx 2>/dev/null | tail -1".toList =
      .ok (ts ++ Token.word ps :: ([literalWord "-nvx", .ioNumber "2".toList, .op ">".toList,
        literalWord "/dev/null", .op "|".toList, literalWord "tail", literalWord "-1"])) := by
  have h : tokenise "-nvx 2>/dev/null | tail -1".toList =
      .ok [literalWord "-nvx", .ioNumber "2".toList, .op ">".toList, literalWord "/dev/null",
        .op "|".toList, literalWord "tail", literalWord "-1"] := rfl
  exact tokensFrom_space h

end Tails

/-! The pieces of the line that edits `limits.conf`; each `_q` closes the quotes around it. -/

section Limits

variable (ts : List (Token Piece)) (ps : List Piece)

def limitsConf : Token Piece := literalWord "/etc/security/limits.conf"

theorem lex_grep : lex ⟨[], .blank⟩ "grep -q '^'".toList =
    .ok ⟨literalWords ["grep", "-q"], .word [.lit '^'] true .none⟩ := rfl

theorem lex_sed :
    lex ⟨ts, .word ps true .none⟩ "'' /etc/security/limits.conf && sed -i '/^'".toList =
      .ok ⟨ts ++ Token.word ps :: ([limitsConf, .op "&&".toList] ++ literalWords ["sed", "-i"]),
        .word ("/^".toList.map .lit) true .none⟩ := by
  have hquotes : lex ⟨ts, .word ps true .none⟩ "''".toList = .ok ⟨ts, .word ps true .none⟩ := rfl
  have h : lex ⟨[], .blank⟩ "/etc/security/limits.conf && sed -i '/^'".toList =
      .ok ⟨[limitsConf, .op "&&".toList] ++ literalWords ["sed", "-i"],
        .word ("/^".toList.map .lit) true .none⟩ := rfl
  change lex _ ("''".toList ++ ' ' :: "/etc/security/limits.conf && sed -i '/^'".toList) = _
  rw [lex_append, hquotes]
  exact lex_space h

theorem lex_change : lex ⟨ts, .word ps true .none⟩ "'/c\\".toList =
    .ok ⟨ts, .word (ps ++ "/c\\".toList.map .lit) true .single⟩ := by
  have h : lex ⟨ts, .word ps true .none⟩ "'/c\\".toList =
      .ok ⟨ts, .word (ps ++ [Piece.lit '/'] ++ [Piece.lit 'c'] ++ [Piece.lit '\\']) true .single⟩ := rfl
  rw [h]
  simp

theorem lex_echo :
    lex ⟨ts, .word ps true .single⟩ "' /etc/security/limits.conf || echo '".toList =
      .ok ⟨ts ++ Token.word ps :: [limitsConf, .op "||".toList, literalWord "echo"],
        .word [] true .single⟩ := by
  have hquote : lex ⟨ts, .word ps true .single⟩ "'".toList = .ok ⟨ts, .word ps true .none⟩ := rfl
  have h : lex ⟨[], .blank⟩ "/etc/security/limits.conf || echo '".toList =
      .ok ⟨[limitsConf, .op "||".toList, literalWord "echo"], .word [] true .single⟩ := rfl
  change lex _ ("'".toList ++ ' ' :: "/etc/security/limits.conf || echo '".toList) = _
  rw [lex_append, hquote]
  exact lex_space h

theorem tokensFrom_append_conf :
    tokensFrom ⟨ts, .word ps true .single⟩ "' >> /etc/security/limits.conf".toList =
      .ok (ts ++ Token.word ps :: [.op ">>".toList, limitsConf]) := by
  have hquote : lex ⟨ts, .word ps true .single⟩ "'".toList = .ok ⟨ts, .word ps true .none⟩ := rfl
  have h : tokenise ">> /etc/security/limits.conf".toList = .ok [.op ">>".toList, limitsConf] := rfl
  change tokensFrom _ ("'".toList ++ ' ' :: ">> /etc/security/limits.conf".toList) = _
  rw [tokensFrom_append hquote]
  exact tokensFrom_space h

end Limits

/-! The shape of each command. -/

theorem decimal_chars {n : Int} {c : Char} (h : c ∈ decimal n) : c = '-' ∨ c.isDigit = true := by
  cases n with
  | ofNat n => exact Or.inr (Nat.isDigit_of_mem_toDigits (by omega) (by omega) h)
  | negSucc n =>
    rcases List.mem_cons.mp h with rfl | h
    · exact Or.inl rfl
    · exact Or.inr (Nat.isDigit_of_mem_toDigits (by omega) (by omega) h)

theorem plain_of_isDigitChar {c : Char} (h : isDigitChar c = true) : Plain c :=
  plain_of_class (by decide) h

namespace Cmd

/-- A command that ends with the quoted name. -/
theorem fits_quotedLast {before : Str} {ts : List (Token Piece)}
    (hb : lex ⟨[], .blank⟩ before = .ok ⟨ts, .blank⟩) :
    Fits (fun v => before ++ shellQuote v) (nameShape ts [] [] []) := by
  have ha : ∀ ps, tokensFrom ⟨ts, .word ps true .none⟩ [] = .ok (ts ++ [Token.word (ps ++ [])]) := by
    intro ps
    rw [List.append_nil]
    rfl
  have h := fits_quoted hb ha
  simpa [shellQuote] using h

theorem fits_useradd :
    Fits useradd.text (nameShape (literalWords ["useradd", "-m", "-s", "/bin/false"]) [] [] []) :=
  fits_quotedLast rfl

theorem fits_userdel : Fits userdel.text (nameShape (literalWords ["userdel", "-rf"]) [] [] []) :=
  fits_quotedLast rfl

theorem fits_usermodLock :
    Fits usermodLock.text (nameShape (literalWords ["usermod", "-L"]) [] [] []) :=
  fits_quotedLast rfl

theorem fits_usermodUnlock :
    Fits usermodUnlock.text (nameShape (literalWords ["usermod", "-U"]) [] [] []) :=
  fits_quotedLast rfl

theorem fits_idUser : Fits idUser.text (nameShape (literalWords ["id", "-u"]) [] [] []) :=
  fits_quotedLast rfl

theorem fits_pkill : Fits pkill.text (nameShape (literalWords ["pkill", "-u"]) [] []
    [.op "||".toList, literalWord "true"]) := by
  refine fits_quoted rfl ?_
  intro ps
  simpa using tokensFrom_orTrue (literalWords ["pkill", "-u"]) ps

theorem fits_chpasswd (password : Str) : ∃ S, Fits (chpasswd password).text S := by
  have hb : lex ⟨[], .blank⟩ "echo ".toList = .ok ⟨literalWords ["echo"], .blank⟩ := rfl
  have hcolon : ∀ ps, lex ⟨literalWords ["echo"], .word ps true .none⟩ ":".toList =
      .ok ⟨literalWords ["echo"], .word (ps ++ [Piece.lit ':']) true .none⟩ := fun _ => rfl
  by_cases hz : '\x00' ∈ password
  · refine ⟨.error .nul, ?_⟩
    intro v hv
    change tokenise ("echo ".toList ++ singleQuote v ++ ":".toList ++ singleQuote password ++
      " | chpasswd".toList) = _
    simp only [List.append_assoc]
    rw [tokenise, tokensFrom_append hb, tokensFrom_append (lex_blank_singleQuote (plain_no_nul hv)),
      tokensFrom_append (hcolon _), tokensFrom, lex_append, lex_singleQuote_nul hz]
    rfl
  · refine ⟨nameShape (literalWords ["echo"]) [] (.lit ':' :: password.map .lit)
      [.op "|".toList, literalWord "chpasswd"], ?_⟩
    have ha : ∀ ps, tokensFrom ⟨literalWords ["echo"], .word ps true .none⟩
        (":".toList ++ shellQuote password ++ " | chpasswd".toList) =
          .ok (literalWords ["echo"] ++ Token.word (ps ++ Piece.lit ':' :: password.map .lit) ::
            [.op "|".toList, literalWord "chpasswd"]) := by
      intro ps
      rw [List.append_assoc, tokensFrom_append (hcolon ps), shellQuote,
        tokensFrom_append (lex_singleQuote hz), tokensFrom_pipeChpasswd, List.append_assoc]
      rfl
    have h := fits_quoted hb ha
    have htext : (chpasswd password).text = fun v => "echo ".toList ++ shellQuote v ++
        ":".toList ++ shellQuote password ++ " | chpasswd".toList := rfl
    simpa only [htext, shellQuote, List.append_assoc] using h

theorem fits_chage (date : Str) : ∃ S, Fits (chage date).text S := by
  have hb : lex ⟨[], .blank⟩ "chage -E ".toList = .ok ⟨literalWords ["chage", "-E"], .blank⟩ := rfl
  by_cases hz : '\x00' ∈ date
  · refine ⟨.error .nul, ?_⟩
    intro v _
    have hs : step ⟨literalWords ["chage", "-E"], .blank⟩ '\'' =
        step ⟨literalWords ["chage", "-E"], .word [] false .none⟩ '\'' := rfl
    have hq : lex ⟨literalWords ["chage", "-E"], .blank⟩ (singleQuote date) = .error .nul := by
      rw [← lex_singleQuote_nul hz, singleQuote, List.cons_append, lex, lex, hs]
    change tokenise ("chage -E ".toList ++ singleQuote date ++ " ".toList ++ singleQuote v) = _
    simp only [List.append_assoc]
    rw [tokenise, tokensFrom_append hb, tokensFrom, lex_append, hq]
    rfl
  · have hdate : lex ⟨[], .blank⟩ ("chage -E ".toList ++ shellQuote date ++ " ".toList) =
        .ok ⟨literalWords ["chage", "-E"] ++ [Token.word (date.map .lit)], .blank⟩ := by
      rw [List.append_assoc, lex_append, hb, shellQuote]
      simp only
      rw [lex_append, lex_blank_singleQuote hz]
      rfl
    exact ⟨_, fits_quotedLast hdate⟩

/-- The name, three times bare, and the number in their words. -/
def maxLoginsShape (line : List Piece) : List (Token Slot) :=
  (literalWords ["grep", "-q"]).map Token.lift ++ nameWord [.lit '^'] [] ::
    (([limitsConf, .op "&&".toList] ++ literalWords ["sed", "-i"]).map Token.lift ++
      .word ("/^".toList.map (fun c => Slot.piece (.lit c)) ++ Slot.hole ::
        ("/c\\".toList.map (fun c => Slot.piece (.lit c)) ++ Slot.hole :: line.map Slot.piece)) ::
    ([limitsConf, .op "||".toList, literalWord "echo"].map Token.lift ++ nameWord [] line ::
      [.op ">>".toList, limitsConf].map Token.lift))

/-- The words after the name in its line. -/
def limitsRest (n : Int) : Str := "  hard  maxlogins  ".toList ++ decimal n

theorem limitsLine_eq (v : Str) (n : Int) : limitsLine v n = v ++ limitsRest n :=
  List.append_assoc v "  hard  maxlogins  ".toList (decimal n)

theorem limitsRest_chars {n : Int} : '\'' ∉ limitsRest n ∧ '\x00' ∉ limitsRest n := by
  constructor
  · intro h
    rcases List.mem_append.mp h with h | h
    · exact absurd h (by decide)
    · exact absurd (decimal_chars h) (by decide)
  · intro h
    rcases List.mem_append.mp h with h | h
    · exact absurd h (by decide)
    · exact absurd (decimal_chars h) (by decide)

theorem fits_maxLoginsShape (n : Int) :
    Fits (maxLogins n).text (.ok (maxLoginsShape ((limitsRest n).map .lit))) := by
  obtain ⟨line, hrest⟩ : ∃ line, (limitsRest n).map Piece.lit = line := ⟨_, rfl⟩
  obtain ⟨hq, hz⟩ := limitsRest_chars (n := n)
  rw [hrest]
  intro v hv
  have hvq : '\'' ∉ v := fun h => absurd (hv _ h) (by decide)
  have hline : ∀ ts ps, lex ⟨ts, .word ps true .single⟩ (limitsLine v n) =
      .ok ⟨ts, .word (ps ++ (v.map .lit ++ line)) true .single⟩ := by
    intro ts ps
    rw [limitsLine_eq, lex_single]
    · rw [List.map_append, hrest]
    · exact fun h => (List.mem_append.mp h).elim hvq hq
    · exact fun h => (List.mem_append.mp h).elim (plain_no_nul hv) hz
  have htext : (maxLogins n).text v = "grep -q '^".toList ++ shellQuote v ++
      "' /etc/security/limits.conf ".toList ++ "&& sed -i '/^".toList ++ shellQuote v ++
      "/c\\".toList ++ limitsLine v n ++ "' /etc/security/limits.conf ".toList ++
      "|| echo '".toList ++ limitsLine v n ++ "' >> /etc/security/limits.conf".toList := rfl
  have hpieces : (maxLogins n).text v = "grep -q '^'".toList ++ (v ++
      ("'' /etc/security/limits.conf && sed -i '/^'".toList ++ (v ++ ("'/c\\".toList ++ (limitsLine v n ++
        ("' /etc/security/limits.conf || echo '".toList ++ (limitsLine v n ++
          "' >> /etc/security/limits.conf".toList))))))) := by
    rw [htext]
    simp [shellQuote, singleQuote_plain hv]
  rw [hpieces, tokenise, tokensFrom_append lex_grep, tokensFrom_append (lex_plain hv (Or.inr rfl)),
    tokensFrom_append (lex_sed _ _), tokensFrom_append (lex_plain hv (Or.inr rfl)),
    tokensFrom_append (lex_change _ _), tokensFrom_append (hline _ _),
    tokensFrom_append (lex_echo _ _), tokensFrom_append (hline _ _), tokensFrom_append_conf]
  simp [Shape.fill, Except.map, maxLoginsShape, fill_word, Slot.fill, Slot.fill_pieces]

theorem fits_maxLogins (n : Int) : ∃ S, Fits (maxLogins n).text S := ⟨_, fits_maxLoginsShape n⟩

/-! The chain's name ends with the bare name. -/

theorem text_chainList : chainList.text = fun v =>
    "iptables -L ".toList ++ "SSHVPN_".toList ++ v ++ " -n 2>/dev/null".toList := by
  funext v
  rw [List.append_assoc "iptables -L ".toList]
  rfl

theorem text_chainNew :
    chainNew.text = fun v => "iptables -N ".toList ++ "SSHVPN_".toList ++ v := by
  funext v
  rw [List.append_assoc "iptables -N ".toList]
  rfl

theorem text_chainReturn : chainReturn.text = fun v =>
    "iptables -A ".toList ++ "SSHVPN_".toList ++ v ++ " -j RETURN".toList := by
  funext v
  rw [List.append_assoc "iptables -A ".toList]
  rfl

theorem text_chainCounters : chainCounters.text = fun v =>
    "iptables -L ".toList ++ "SSHVPN_".toList ++ v ++ " -nvx 2>/dev/null | tail -1".toList := by
  funext v
  rw [List.append_assoc "iptables -L ".toList]
  rfl

theorem fits_chainList :
    Fits chainList.text (nameShape (literalWords ["iptables", "-L"]) ("SSHVPN_".toList.map .lit) []
      [literalWord "-n", .ioNumber "2".toList, .op ">".toList, literalWord "/dev/null"]) := by
  have hb : lex ⟨[], .blank⟩ ("iptables -L ".toList ++ "SSHVPN_".toList) =
      .ok ⟨literalWords ["iptables", "-L"], .word ("SSHVPN_".toList.map .lit) false .none⟩ := rfl
  rw [text_chainList]
  exact fits_bare hb (by decide) (tokensFrom_listTail _)

theorem fits_chainNew :
    Fits chainNew.text (nameShape (literalWords ["iptables", "-N"]) ("SSHVPN_".toList.map .lit) [] []) := by
  have hb : lex ⟨[], .blank⟩ ("iptables -N ".toList ++ "SSHVPN_".toList) =
      .ok ⟨literalWords ["iptables", "-N"], .word ("SSHVPN_".toList.map .lit) false .none⟩ := rfl
  rw [text_chainNew]
  exact fits_bareLast hb (by decide)

theorem fits_chainReturn :
    Fits chainReturn.text (nameShape (literalWords ["iptables", "-A"]) ("SSHVPN_".toList.map .lit) []
      (literalWords ["-j", "RETURN"])) := by
  have hb : lex ⟨[], .blank⟩ ("iptables -A ".toList ++ "SSHVPN_".toList) =
      .ok ⟨literalWords ["iptables", "-A"], .word ("SSHVPN_".toList.map .lit) false .none⟩ := rfl
  rw [text_chainReturn]
  exact fits_bare hb (by decide) (tokensFrom_jumpReturn _)

/-- The user id, read from the node, is a word of its own. -/
theorem fits_chainJump {uid : Str} (huid : isdigit uid = true) : ∃ S, Fits (chainJump uid).text S := by
  have hdigit := fun c hc => isDigitChar_of_isdigit huid (c := c) hc
  cases uid with
  | nil => simp [isdigit] at huid
  | cons d ds =>
    let ts := literalWords ["iptables", "-A", "OUTPUT", "-m", "owner", "--uid-owner"]
    have hb : lex ⟨[], .blank⟩ "iptables -A OUTPUT -m owner --uid-owner ".toList =
        .ok ⟨ts, .blank⟩ := rfl
    have hd : lex ⟨ts, .blank⟩ (d :: ds) = .ok ⟨ts, .word ((d :: ds).map .lit) false .none⟩ := by
      have hstart : step ⟨ts, .blank⟩ d = .ok ⟨ts, .word [.lit d] false .none⟩ :=
        (plain_of_isDigitChar (hdigit d (by simp))).start
          (by rintro rfl; exact absurd (hdigit '#' (by simp)) (by decide))
          (by rintro rfl; exact absurd (hdigit '~' (by simp)) (by decide))
      rw [lex_cons_ok hstart, lex_plain _ (Or.inl (by simp))]
      · simp
      · intro c hc
        exact plain_of_isDigitChar (hdigit c (List.mem_cons_of_mem _ hc))
    have hjump : lex ⟨[], .blank⟩ "-j SSHVPN_".toList =
        .ok ⟨[literalWord "-j"], .word ("SSHVPN_".toList.map .lit) false .none⟩ := rfl
    have hj : ∀ ps, lex ⟨ts, .word ps false .none⟩ " -j SSHVPN_".toList =
        .ok ⟨ts ++ [Token.word ps] ++ [literalWord "-j"], .word ("SSHVPN_".toList.map .lit) false .none⟩ := by
      intro ps
      change lex ⟨ts, .word ps false .none⟩ (' ' :: "-j SSHVPN_".toList) = _
      rw [lex_space hjump, List.append_assoc]
      rfl
    have hbefore : lex ⟨[], .blank⟩ ("iptables -A OUTPUT -m owner --uid-owner ".toList ++ (d :: ds) ++
        " -j SSHVPN_".toList) = .ok ⟨ts ++ [Token.word ((d :: ds).map .lit)] ++ [literalWord "-j"],
          .word ("SSHVPN_".toList.map .lit) false .none⟩ := by
      rw [List.append_assoc, lex_append, hb]
      simp only
      rw [lex_append, hd]
      exact hj _
    have htext : (chainJump (d :: ds)).text = fun v => "iptables -A OUTPUT -m owner --uid-owner ".toList ++
        (d :: ds) ++ " -j ".toList ++ ("SSHVPN_".toList ++ v) := rfl
    refine ⟨nameShape (ts ++ [Token.word ((d :: ds).map .lit)] ++ [literalWord "-j"])
      ("SSHVPN_".toList.map .lit) [] [], ?_⟩
    simpa [htext] using fits_bareLast hbefore (by decide)

theorem lex_counters : lex ⟨[], .blank⟩ ("iptables -L ".toList ++ "SSHVPN_".toList) =
    .ok ⟨literalWords ["iptables", "-L"], .word ("SSHVPN_".toList.map .lit) false .none⟩ := rfl

theorem tail_counters : Tail " -nvx 2>/dev/null | tail -1".toList "-nvx".toList
    "2>/dev/null | tail -1".toList := by
  have hplain : "-nvx".toList.all (fun c => decide (Plain c)) = true := by decide
  have hquote : " -nvx 2>/dev/null | tail -1".toList.all
      (fun c => decide (c ∉ ['\'', '\x00', '"', '$', backquote, '\\'])) = true := by decide
  refine ⟨rfl, by decide, ?_, ?_⟩
  · intro c hc
    exact of_decide_eq_true (List.all_eq_true.mp hplain c hc)
  · intro c hc
    exact of_decide_eq_true (List.all_eq_true.mp hquote c hc)

theorem literalUse_chainCounters_iff (u : Str) :
    LiteralUse chainCounters.text u ↔ ∀ c ∈ u, Plain c := by
  rw [text_chainCounters]
  exact literalUse_bare_iff lex_counters (by decide) (tokensFrom_countersTail _) tail_counters

theorem literalUse {cmd : Cmd} (hc : cmd.Numeric) {u : Str} (hu : ∀ c ∈ u, Plain c) :
    LiteralUse cmd.text u := by
  have hfits : ∃ S, Fits cmd.text S := by
    cases cmd with
    | useradd => exact ⟨_, fits_useradd⟩
    | chpasswd password => exact fits_chpasswd password
    | pkill => exact ⟨_, fits_pkill⟩
    | userdel => exact ⟨_, fits_userdel⟩
    | usermodLock => exact ⟨_, fits_usermodLock⟩
    | usermodUnlock => exact ⟨_, fits_usermodUnlock⟩
    | chage date => exact fits_chage date
    | maxLogins n => exact fits_maxLogins n
    | checkMaxloginScript => exact ⟨_, fits_const _⟩
    | installMaxloginScript => exact ⟨_, fits_const _⟩
    | chmodMaxloginScript => exact ⟨_, fits_const _⟩
    | pamMaxloginScript => exact ⟨_, fits_const _⟩
    | idUser => exact ⟨_, fits_idUser⟩
    | chainList => exact ⟨_, fits_chainList⟩
    | chainNew => exact ⟨_, fits_chainNew⟩
    | chainJump uid => exact fits_chainJump hc
    | chainReturn => exact ⟨_, fits_chainReturn⟩
    | chainCounters => exact ((literalUse_chainCounters_iff []).mpr (by simp)).imp fun _ h => h.1
  obtain ⟨S, hS⟩ := hfits
  exact hS.literalUse hu

end Cmd

end SshPanelVpn.Panel

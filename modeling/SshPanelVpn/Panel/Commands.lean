import SshPanelVpn.Library.PosixNames
import SshPanelVpn.Library.PyString

/-! The command lines of `servers/ssh.py`. -/
namespace SshPanelVpn.Panel

open Posix PyString

/-- A Python string. -/
abbrev Str := List Char

/-- `str(n)`. -/
def decimal : Int → Str
  | .ofNat n => Nat.toDigits 10 n
  | .negSucc n => '-' :: Nat.toDigits 10 (n + 1)

/-- `_q`: `value.replace` puts the four characters of a closed, escaped and reopened quote. -/
def shellQuote (value : Str) : Str := singleQuote value

/-- One character of base64 output. -/
def base64Char (n : Nat) : Char :=
  ("ABCDEFGHIJKLMNOPQRSTUVWXYZabcdefghijklmnopqrstuvwxyz0123456789+/".toList).getD n '='

/-- `base64.b64encode` of the codes of ASCII characters. -/
def b64encode : List Nat → Str
  | a :: b :: c :: rest =>
    [base64Char (a / 4), base64Char (a % 4 * 16 + b / 16), base64Char (b % 16 * 4 + c / 64),
      base64Char (c % 64)] ++ b64encode rest
  | [a, b] => [base64Char (a / 4), base64Char (a % 4 * 16 + b / 16), base64Char (b % 16 * 4), '=']
  | [a] => [base64Char (a / 4), base64Char (a % 4 * 16), '=', '=']
  | [] => []

/-- The script that `_ensure_maxlogin_script` installs. -/
def maxloginScript : Str :=
  ("#!/bin/bash\n" ++
    "USER=\"$\x7bPAM_USER:-\x7d\"\n" ++
    "[ -z \"$USER\" ] && exit 0\n" ++
    "UID_NUM=$(id -u \"$USER\" 2>/dev/null) || exit 0\n" ++
    "[ \"$UID_NUM\" -lt 1000 ] && exit 0\n" ++
    "MAX=$(awk -v u=\"$USER\" '$1==u && /maxlogins/\x7bprint $4\x7d' /etc/security/limits.conf 2>/dev/null)\n" ++
    "[ -z \"$MAX\" ] && exit 0\n" ++
    "[ \"$MAX\" = \"0\" ] && exit 0\n" ++
    "CURRENT=$(pgrep -cu \"$USER\" sshd 2>/dev/null) || exit 0\n" ++
    "[ \"$CURRENT\" -gt \"$MAX\" ] && exit 1\n" ++
    "exit 0\n").toList

/-- The commands that `SSHManager` runs for one user. -/
inductive Cmd where
  | useradd
  | chpasswd (password : Str)
  | pkill
  | userdel
  | usermodLock
  | usermodUnlock
  | chage (date : Str)
  | maxLogins (n : Int)
  | checkMaxloginScript
  | installMaxloginScript
  | chmodMaxloginScript
  | pamMaxloginScript
  | idUser
  | chainList
  | chainNew
  | chainJump (uid : Str)
  | chainReturn
  | chainCounters
  deriving DecidableEq, Repr

/-- `f"SSHVPN_{username}"`. -/
def chainName (username : Str) : Str := "SSHVPN_".toList ++ username

/-- The line of `limits.conf`, written by `set_max_logins` without quoting. -/
def limitsLine (username : Str) (n : Int) : Str :=
  username ++ "  hard  maxlogins  ".toList ++ decimal n

namespace Cmd

/-- The f-string of each command, filled in for a username. -/
def text : Cmd → Str → Str
  | useradd, u => "useradd -m -s /bin/false ".toList ++ shellQuote u
  | chpasswd password, u =>
    "echo ".toList ++ shellQuote u ++ ":".toList ++ shellQuote password ++ " | chpasswd".toList
  | pkill, u => "pkill -u ".toList ++ shellQuote u ++ " || true".toList
  | userdel, u => "userdel -rf ".toList ++ shellQuote u
  | usermodLock, u => "usermod -L ".toList ++ shellQuote u
  | usermodUnlock, u => "usermod -U ".toList ++ shellQuote u
  | chage date, u => "chage -E ".toList ++ shellQuote date ++ " ".toList ++ shellQuote u
  | maxLogins n, u =>
    "grep -q '^".toList ++ shellQuote u ++ "' /etc/security/limits.conf ".toList ++
      "&& sed -i '/^".toList ++ shellQuote u ++ "/c\\".toList ++ limitsLine u n ++
      "' /etc/security/limits.conf ".toList ++
      "|| echo '".toList ++ limitsLine u n ++ "' >> /etc/security/limits.conf".toList
  | checkMaxloginScript, _ =>
    "test -f /etc/ssh/check_maxlogins.sh && grep -q 'pgrep.*sshd' /etc/ssh/check_maxlogins.sh && echo ok".toList
  | installMaxloginScript, _ =>
    "echo '".toList ++ b64encode (maxloginScript.map Char.toNat) ++
      "' | base64 -d > /etc/ssh/check_maxlogins.sh".toList
  | chmodMaxloginScript, _ => "chmod +x /etc/ssh/check_maxlogins.sh".toList
  | pamMaxloginScript, _ =>
    "grep -q 'check_maxlogins' /etc/pam.d/sshd || ".toList ++
      "sed -i '/^@include common-auth/i auth required pam_exec.so quiet /etc/ssh/check_maxlogins.sh' /etc/pam.d/sshd".toList
  | idUser, u => "id -u ".toList ++ shellQuote u
  | chainList, u => "iptables -L ".toList ++ chainName u ++ " -n 2>/dev/null".toList
  | chainNew, u => "iptables -N ".toList ++ chainName u
  | chainJump uid, u =>
    "iptables -A OUTPUT -m owner --uid-owner ".toList ++ uid ++ " -j ".toList ++ chainName u
  | chainReturn, u => "iptables -A ".toList ++ chainName u ++ " -j RETURN".toList
  | chainCounters, u =>
    "iptables -L ".toList ++ chainName u ++ " -nvx 2>/dev/null | tail -1".toList

end Cmd

/-! Numbers in decimal. -/

theorem isDigit_of_mem_decimal {n : Nat} {c : Char} (h : c ∈ decimal n) :
    48 ≤ c.toNat ∧ c.toNat ≤ 57 := by
  have hd : c.isDigit = true := Nat.isDigit_of_mem_toDigits (by decide) (by decide) h
  simp only [Char.isDigit, Bool.and_eq_true, decide_eq_true_eq] at hd
  exact hd

theorem isSpace_decimal {n : Nat} {c : Char} (h : c ∈ decimal n) : isSpace c = false := by
  obtain ⟨h1, h2⟩ := isDigit_of_mem_decimal h
  cases hs : isSpace c with
  | false => rfl
  | true =>
    simp only [isSpace, decide_eq_true_eq, List.mem_cons, List.not_mem_nil, or_false] at hs
    omega

theorem decimal_ne_nil (n : Nat) : decimal n ≠ [] := Nat.toDigits_ne_nil

theorem digitValue_decimal {n : Nat} {c : Char} (h : c ∈ decimal n) :
    digitValue c = some (c.toNat - 48) := by
  obtain ⟨h1, h2⟩ := isDigit_of_mem_decimal h
  have h3 : c.toNat < 48 + 10 := by omega
  rw [digitValue, decimalZeros, List.find?_cons_of_pos (by simp [h1, h3])]
  rfl

theorem isdigit_decimal (n : Nat) : isdigit (decimal n) = true := by
  simp only [isdigit, Bool.and_eq_true, List.all_eq_true]
  constructor
  · simp [decimal_ne_nil n]
  · intro c hc
    simp [isDigitChar, digitValue_decimal hc]

theorem mapM_digits {s : Str} {f : Char → Nat} (h : ∀ c ∈ s, digitValue c = some (f c)) :
    s.mapM digitValue = some (s.map f) := by
  induction s with
  | nil => rfl
  | cons c s ih =>
    have hc := h c (List.mem_cons_self ..)
    have hs := ih fun d hd => h d (List.mem_cons_of_mem _ hd)
    simp [List.mapM_cons, hc, hs]

/-- A number is read as it has been written. -/
theorem int_decimal (n : Nat) : int (decimal n) = some n := by
  have hvalues : (decimal n).mapM digitValue = some ((decimal n).map fun c => c.toNat - 48) :=
    mapM_digits fun c hc => digitValue_decimal hc
  have hnum : (decimal n).foldl (fun m c => 10 * m + (c.toNat - 48)) 0 = n :=
    Nat.ofDigitChars_ten_toDigits
  rw [int, hvalues, Option.map_some, List.foldl_map, hnum]

theorem decimal_inj {m n : Nat} (h : decimal m = decimal n) : m = n := by
  have hint := congrArg int h
  rw [int_decimal, int_decimal] at hint
  exact Option.some.inj hint

end SshPanelVpn.Panel

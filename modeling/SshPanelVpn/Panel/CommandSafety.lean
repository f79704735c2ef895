import SshPanelVpn.Panel.CommandShapes

/-! Which usernames the functions of `SSHManager` use as literal data only. -/
namespace SshPanelVpn.Panel

open Effects PyString Posix

inductive UserOp where
  | createUser (password : Str)
  | deleteUser
  | lockUser
  | unlockUser
  | setExpiry (dateStr : Str)
  | setMaxLogins (n : Int)
  | setupTrafficAccounting
  | getUserBandwidthBytes

/-- The function called for a user on a server, its result dropped. -/
def UserOp.prog (server : Server) (u : Str) : UserOp → PanelProg Unit
  | createUser password => SSHManager.createUser server u password >>= fun _ => return ()
  | deleteUser => SSHManager.deleteUser server u >>= fun _ => return ()
  | lockUser => SSHManager.lockUser server u >>= fun _ => return ()
  | unlockUser => SSHManager.unlockUser server u >>= fun _ => return ()
  | setExpiry dateStr => SSHManager.setExpiry server u dateStr >>= fun _ => return ()
  | setMaxLogins n => SSHManager.setMaxLogins server u n >>= fun _ => return ()
  | setupTrafficAccounting => SSHManager.setupTrafficAccounting server u
  | getUserBandwidthBytes => SSHManager.getUserBandwidthBytes server u >>= fun _ => return ()

/-- The function may run the command for the user on some node. -/
def UserOp.Sends (op : UserOp) (u : Str) (cmd : Cmd) : Prop :=
  ∃ server, (op.prog server u).MayCall (.exec server u cmd)

theorem UserOp.allCalls_prog {P : Call → Prop} {server : Server} {u : Str}
    (h : ∀ cmd : Cmd, cmd.Numeric → P (.exec server u cmd)) (op : UserOp) :
    (op.prog server u).AllCalls P := by
  cases op with
  | createUser password => exact (SSHManager.allCalls_createUser h password).bind fun _ => trivial
  | deleteUser => exact (SSHManager.allCalls_deleteUser h).bind fun _ => trivial
  | lockUser => exact (SSHManager.allCalls_run h).bind fun _ => trivial
  | unlockUser => exact (SSHManager.allCalls_run h).bind fun _ => trivial
  | setExpiry dateStr => exact (SSHManager.allCalls_run h).bind fun _ => trivial
  | setMaxLogins n => exact (SSHManager.allCalls_setMaxLogins h n).bind fun _ => trivial
  | setupTrafficAccounting => exact SSHManager.allCalls_setupTrafficAccounting h
  | getUserBandwidthBytes => exact (SSHManager.allCalls_getUserBandwidthBytes h).bind fun _ => trivial

theorem UserOp.Sends.numeric {op : UserOp} {u : Str} {cmd : Cmd} (h : op.Sends u cmd) :
    cmd.Numeric := by
  obtain ⟨server, hm⟩ := h
  have hall : (op.prog server u).AllCalls fun c => ∀ cmd, c = .exec server u cmd → cmd.Numeric :=
    op.allCalls_prog fun cmd hcmd cmd' he => by cases he; exact hcmd
  exact hall.mayCall hm cmd rfl

theorem sends_chainCounters (u : Str) : UserOp.getUserBandwidthBytes.Sends u .chainCounters :=
  ⟨⟨0, [], [], .ssh, .active, 0, 0, 0, []⟩, .now _⟩

/-- Every command of every function uses the name as data if and only if all its characters are
literal in a bare word. -/
theorem commands_literal_iff (u : Str) :
    (∀ op : UserOp, ∀ cmd, op.Sends u cmd → LiteralUse cmd.text u) ↔ ∀ c ∈ u, Plain c := by
  constructor
  · intro h
    exact (Cmd.literalUse_chainCounters_iff u).mp (h _ _ (sends_chainCounters u))
  · intro hu op cmd hs
    exact Cmd.literalUse hs.numeric hu

/-- A name with a semicolon ends the chain's name and begins a second command. -/
theorem not_commands_literal :
    ¬ ∀ op : UserOp, ∀ cmd, op.Sends "x;reboot".toList cmd → LiteralUse cmd.text "x;reboot".toList := by
  intro h
  have hplain := (Cmd.literalUse_chainCounters_iff _).mp (h _ _ (sends_chainCounters _))
  exact hplain ';' (by decide) (by decide)

/-! The names that the API's serializers accept. -/

/-- `^[a-z_][a-z0-9_-]{2,31}$`. -/
def validUsername : Str → Bool
  | [] => false
  | c :: cs =>
    (c.isLower || c == '_') && 2 ≤ cs.length && cs.length ≤ 31 &&
      cs.all fun d => d.isLower || d.isDigit || d == '_' || d == '-'

theorem plain_of_validUsername {u : Str} (h : validUsername u = true) : ∀ c ∈ u, Plain c := by
  have hchar : ∀ c : Char, (c.isLower || c.isDigit || c == '_' || c == '-') = true → Plain c :=
    fun _ hc => plain_of_class (p := fun c => c.isLower || c.isDigit || c == '_' || c == '-')
      rfl hc
  cases u with
  | nil => simp
  | cons c cs =>
    simp only [validUsername, Bool.and_eq_true, List.all_eq_true] at h
    obtain ⟨⟨⟨hc, -⟩, -⟩, hcs⟩ := h
    intro d hd
    rcases List.mem_cons.mp hd with rfl | hd
    · refine hchar d ?_
      rcases Bool.or_eq_true _ _ ▸ hc with hlower | hunderscore
      · simp [hlower]
      · simp [hunderscore]
    · exact hchar d (hcs d hd)

/-- For them the functions only send what they were written to send. -/
theorem validUsername_commands_literal {u : Str} (h : validUsername u = true) {op : UserOp} {cmd : Cmd}
    (hs : op.Sends u cmd) : LiteralUse cmd.text u :=
  Cmd.literalUse hs.numeric (plain_of_validUsername h)

end SshPanelVpn.Panel

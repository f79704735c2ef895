import SshPanelVpn.Panel.EntryPoints
import SshPanelVpn.Panel.Specs

/-! What the operations do to the tables, whatever happens on the nodes. -/
namespace SshPanelVpn.Panel

open Effects ShadowLink
open Effects.Prog (Triple run_bind)

/-- Nothing of the nodes is observed, and no failure ends the account of what happens. -/
def tables : Observation Unit := ⟨fun _ => (), fun _ => false⟩

/-- The calls that write no table. -/
def Call.Quiet : Call → Prop
  | .insertAccount _ => False
  | .saveAccount _ _ => False
  | .insertAuditLog _ => False
  | .begin => False
  | .commit => False
  | .rollback => False
  | _ => True

/-- A program that writes no table. -/
abbrev Quiet {α : Type} (p : PanelProg α) : Prop := p.AllCalls Call.Quiet

section Remote

variable {server : Server} {u : Str}

theorem quiet_connect : Quiet (SSHManager.connect server) := SSHManager.allCalls_connect trivial

theorem quiet_run (cmd : Cmd) : Quiet (SSHManager.run server u cmd) :=
  ⟨trivial, fun _ => (Prog.allCalls_ofExcept _).bind fun _ => trivial⟩

theorem quiet_exec : ∀ cmd : Cmd, cmd.Numeric → Call.Quiet (.exec server u cmd) :=
  fun _ _ => trivial

theorem quiet_bridgeRequest (path : String) (data : TokenRequest) :
    Quiet (ShadowLinkManager.bridgeRequest server "POST" path data) :=
  ShadowLinkManager.allCalls_bridgeRequest (fun _ => trivial) _ _ _

theorem quiet_logged {request : PanelProg BridgeResponse} (h : Quiet request) :
    Quiet (logged request) := allCalls_logged h

theorem quiet_accountServer (a : Account) : Quiet (accountServer a) := allCalls_accountServer trivial

end Remote

namespace World

/-- The rows and the open transactions. -/
def sameTables (w w' : World) : Prop := w'.db = w.db ∧ w'.saved = w.saved

theorem handler_quiet (env : Env) {c : Call} (hc : c.Quiet) (w : World) :
    w.sameTables (handler env c w).2 := by
  cases c with
  | connect server =>
    simp only [handler, connect]
    split <;> exact ⟨rfl, rfl⟩
  | exec server u cmd =>
    simp only [handler, exec]
    split
    · exact ⟨rfl, rfl⟩
    · split
      · split <;> exact ⟨rfl, rfl⟩
      · exact ⟨rfl, rfl⟩
  | http server request =>
    simp only [handler, http]
    split
    · exact ⟨rfl, rfl⟩
    · split <;> exact ⟨rfl, rfl⟩
    · exact ⟨rfl, rfl⟩
  | insertAccount account => exact hc.elim
  | saveAccount account fields => exact hc.elim
  | insertAuditLog entry => exact hc.elim
  | begin => exact hc.elim
  | commit => exact hc.elim
  | rollback => exact hc.elim
  | _ => exact ⟨rfl, rfl⟩

end World

theorem tables_quiet {α : Type} {env : Env} {p : PanelProg α} {I : View Unit → Prop}
    (hp : Quiet p) : tables.Spec env I p (fun _ => I) I := by
  refine hp.triple ?_
  intro c w hc hw hok
  obtain ⟨hdb, hsaved⟩ := World.handler_quiet env hc w
  have hview : tables.view (World.handler env c w).2 = tables.view w := by
    simp only [Observation.view, hdb, hsaved]
  rw [hview]
  exact hw (tables.ok_of_handler hok)

section Services

variable {env : Env} {I : View Unit → Prop}

theorem tables_accountServer {a : Account} {X : View Unit → Prop} (h : ∀ v, I v → X v) :
    tables.Spec env I (accountServer a) (fun _ => I) X :=
  (tables_quiet (quiet_accountServer a)).imp (fun _ hv => hv) (fun _ _ hv => hv) h

theorem quiet_lockUser (server : Server) (u : Str) : Quiet (SSHManager.lockUser server u) :=
  quiet_run _

theorem quiet_unlockUser (server : Server) (u : Str) : Quiet (SSHManager.unlockUser server u) :=
  quiet_run _

theorem quiet_deleteUser (server : Server) (u : Str) : Quiet (SSHManager.deleteUser server u) :=
  SSHManager.allCalls_deleteUser quiet_exec

end Services

end SshPanelVpn.Panel

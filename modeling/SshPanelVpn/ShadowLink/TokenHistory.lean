import SshPanelVpn.ShadowLink.Revocation
import SshPanelVpn.ShadowLink.TokenText

/-! What a token is answered, as a matter of the token file and the requests since. -/
namespace SshPanelVpn.ShadowLink

open Octets Runs

/-- A change of the registry. -/
inductive TokenOp where
  | register (token : List Char) (maxConns : Int)
  | deregister (token : List Char)
  | suspend (token : List Char)
  | activate (token : List Char)
  deriving DecidableEq, Repr

namespace TokenOp

def token : TokenOp → List Char
  | register token _ => token
  | deregister token => token
  | suspend token => token
  | activate token => token

/-- It says whether the token is registered. -/
def settles : TokenOp → Bool
  | register _ _ => true
  | deregister _ => true
  | _ => false

/-- It says whether a registered token is active. -/
def switches : TokenOp → Bool
  | deregister _ => false
  | _ => true

/-- The limit with which it registers the token. -/
def limit (token : List Char) : TokenOp → Option Int
  | register t maxConns => if t = token then some maxConns else none
  | _ => none

def effect : TokenOp → Option (Int × Bool) → Option (Int × Bool)
  | register _ maxConns, _ => some (maxConns, true)
  | deregister _, _ => none
  | suspend _, i => i.map fun i => (i.1, false)
  | activate _, i => i.map fun i => (i.1, true)

end TokenOp

/-- The change that a request asks for, if it is let in. -/
def BridgeRequest.tokenOp (r : BridgeRequest) (apiKey : List Char) : Option TokenOp :=
  match r.body with
  | none => none
  | some req =>
    if (apiKey = [] ∨ r.apiKey = apiKey) ∧ r.method = "POST" then
      if r.path = "/api/tokens" then some (.register req.token req.maxConns)
      else if r.path = "/api/tokens/delete" then some (.deregister req.token)
      else if r.path = "/api/tokens/suspend" then some (.suspend req.token)
      else if r.path = "/api/tokens/activate" then some (.activate req.token)
      else none
    else none

/-! The history of a token: `file` has the entries of the token file, `ops` the changes since, the
oldest first. -/

namespace TokenHistory

def inFile (file : List TokenInfo) (token : List Char) : Option TokenInfo :=
  file.find? fun info => info.token = token

/-- Present in the file, or registered since the last deregistration. -/
def registered (file : List TokenInfo) (ops : List TokenOp) (token : List Char) : Bool :=
  match (ops.filter fun op => op.settles ∧ op.token = token).getLast? with
  | some (.register _ _) => true
  | some _ => false
  | none => (inFile file token).isSome

/-- The registrations, suspensions and activations that came while the token was registered, after
`before`. -/
def switched (file : List TokenInfo) (token : List Char) : (before ops : List TokenOp) → List TokenOp
  | _, [] => []
  | before, op :: ops =>
    if op.switches ∧ op.token = token ∧ registered file (before ++ [op]) token then
      op :: switched file token (before ++ [op]) ops
    else switched file token (before ++ [op]) ops

/-- The last of these is no suspension; without any, the file has the token active. -/
def active (file : List TokenInfo) (ops : List TokenOp) (token : List Char) : Bool :=
  match (switched file token [] ops).getLast? with
  | some (.suspend _) => false
  | some _ => true
  | none => ((inFile file token).map TokenInfo.active).getD false

/-- The limit of the last registration, or of the file. -/
def maxConns (file : List TokenInfo) (ops : List TokenOp) (token : List Char) : Int :=
  match (ops.filterMap (TokenOp.limit token)).getLast? with
  | some n => n
  | none => ((inFile file token).map TokenInfo.maxConns).getD 0

/-- What the history says of a token. -/
def held (file : List TokenInfo) (ops : List TokenOp) (token : List Char) : Option (Int × Bool) :=
  if registered file ops token then some (maxConns file ops token, active file ops token) else none

variable {file : List TokenInfo} {ops before : List TokenOp} {op : TokenOp} {token : List Char}

theorem switched_append : switched file token before (ops ++ [op]) =
    switched file token before ops ++
      if op.switches ∧ op.token = token ∧ registered file (before ++ ops ++ [op]) token then [op]
      else [] := by
  induction ops generalizing before with
  | nil => simp [switched]
  | cons o ops ih =>
    simp only [List.cons_append, switched, ih, List.append_assoc, List.nil_append]
    split <;> rfl

/-- A change of another token. -/
theorem held_append_of_ne (h : op.token ≠ token) : held file (ops ++ [op]) token = held file ops token := by
  have hregistered : registered file (ops ++ [op]) token = registered file ops token := by
    simp [registered, h]
  have hactive : active file (ops ++ [op]) token = active file ops token := by
    simp [active, switched_append, h]
  have hmax : maxConns file (ops ++ [op]) token = maxConns file ops token := by
    cases op with
    | register t n =>
      have ht : t ≠ token := h
      simp [maxConns, TokenOp.limit, ht]
    | _ => simp [maxConns, TokenOp.limit]
  rw [held, hregistered, hactive, hmax, held]

/-- The last change of the token decides with what was before it. -/
theorem held_append_self : held file (ops ++ [op]) op.token = op.effect (held file ops op.token) := by
  cases op with
  | register t n => simp [held, registered, active, switched_append, maxConns, TokenOp.limit, TokenOp.settles,
      TokenOp.switches, TokenOp.token, TokenOp.effect]
  | deregister t => simp [held, registered, TokenOp.settles, TokenOp.token, TokenOp.effect]
  | suspend t =>
    have hregistered : registered file (ops ++ [TokenOp.suspend t]) t = registered file ops t := by
      simp [registered, TokenOp.settles]
    simp only [TokenOp.token, held, hregistered, TokenOp.effect]
    by_cases hreg : registered file ops t = true
    · simp [hreg, active, switched_append, maxConns, TokenOp.limit, TokenOp.switches, TokenOp.token,
        hregistered]
    · simp [hreg]
  | activate t =>
    have hregistered : registered file (ops ++ [TokenOp.activate t]) t = registered file ops t := by
      simp [registered, TokenOp.settles]
    simp only [TokenOp.token, held, hregistered, TokenOp.effect]
    by_cases hreg : registered file ops t = true
    · simp [hreg, active, switched_append, maxConns, TokenOp.limit, TokenOp.switches, TokenOp.token,
        hregistered]
    · simp [hreg]

theorem held_append : held file (ops ++ [op]) =
    BridgeServer.change (held file ops) op.token op.effect := by
  funext t
  by_cases ht : op.token = t
  · subst ht
    simp [BridgeServer.change, held_append_self]
  · simp [BridgeServer.change, held_append_of_ne ht, Ne.symm ht]

/-- A token is answered by its history. -/
theorem answer_held : BridgeServer.answer (held file ops token) =
    if registered file ops token ∧ active file ops token then (true, maxConns file ops token)
    else (false, 0) := by
  unfold held
  cases registered file ops token <;> cases active file ops token <;> rfl

end TokenHistory

/-! The bridge goes by the history. -/

namespace BridgeServer

variable {J : TokenJson} {bs : BridgeServer} {r : BridgeRequest} {tokens : List TokenInfo}
  {apiKey : List Char} {file : Option Bytes}

/-- The entries of the token file, none where it is not there or not the JSON of entries. -/
def entries (J : TokenJson) (file : Option Bytes) : List TokenInfo := (file.bind J.unmarshal).getD []

/-- The process, started with this file, after these requests. -/
def served (J : TokenJson) (apiKey : List Char) (file : Option Bytes) (rs : List BridgeRequest) :
    BridgeServer :=
  after (fun bs r => (bs.serveHTTP r).2) (newBridgeServer J apiKey file) rs

theorem apiKey_serveHTTP (bs : BridgeServer) (r : BridgeRequest) :
    (bs.serveHTTP r).2.apiKey = bs.apiKey := by
  simp only [serveHTTP, registerToken, deregisterToken, suspendToken, activateToken, postOnly, withBody,
    setActive, listTokens, methodNotAllowed]
  repeat' split
  all_goals rfl

theorem change_id (held : List Char → Option (Int × Bool)) (token : List Char) :
    change held token id = held := Function.update_eq_self _ _

/-- A request that asks for a change does that to the token. -/
theorem held_of_tokenOp {op : TokenOp} (h : r.tokenOp bs.apiKey = some op) :
    (bs.serveHTTP r).2.held = change bs.held op.token op.effect := by
  obtain ⟨method, path, key, body⟩ := r
  cases body with
  | none => cases h
  | some req =>
    simp only [BridgeRequest.tokenOp] at h
    split at h
    · next hin =>
      obtain ⟨hkey, rfl⟩ := hin
      have hin : ¬ (bs.apiKey ≠ [] ∧ key ≠ bs.apiKey) := by tauto
      split at h
      · next hp =>
        cases h
        subst hp
        refine (held_serveHTTP ?_).trans rfl
        simp [serveHTTP, hin, registerToken, withBody]
      · split at h
        · next hp =>
          cases h
          subst hp
          refine (held_serveHTTP ?_).trans rfl
          simp [serveHTTP, hin, postOnly, deregisterToken, withBody]
        · split at h
          · next hp =>
            cases h
            subst hp
            refine (held_serveHTTP ?_).trans rfl
            simp [serveHTTP, hin, postOnly, suspendToken, withBody]
          · split at h
            · next hp =>
              cases h
              subst hp
              refine (held_serveHTTP ?_).trans rfl
              simp [serveHTTP, hin, postOnly, activateToken, withBody]
            · cases h
    · cases h

/-- Any other request changes nothing. -/
theorem held_of_not_tokenOp (h : r.tokenOp bs.apiKey = none) : (bs.serveHTTP r).2.held = bs.held := by
  rcases serveHTTP_cases bs r with hsame | ⟨hm, hok, req, hbody, hheld⟩
  · rw [hsame]
  · have hin : bs.apiKey = [] ∨ r.apiKey = bs.apiKey := by
      by_contra hout
      obtain ⟨hne, hkey⟩ := not_or.mp hout
      simp [serveHTTP, hne, hkey] at hok
    have heffect : requestEffect r.path req = id := by
      simp only [BridgeRequest.tokenOp, hbody, hin, hm, and_self, if_true] at h
      unfold requestEffect
      split_ifs at h ⊢
      rfl
    rw [hheld, heffect, change_id]

/-- A file with different tokens is loaded entry by entry. -/
theorem registry_new (hfile : ((entries J file).map TokenInfo.token).Nodup) (token : List Char) :
    (newBridgeServer J apiKey file).registry token = TokenHistory.inFile (entries J file) token := by
  have hempty : (∅ : AList fun _ : List Char => TokenInfo).lookup token = none := rfl
  have hfold : (newBridgeServer J apiKey file).tokens =
      (entries J file).foldl (fun m t => m.insert t.token t) ∅ := by
    unfold newBridgeServer loadTokens entries
    cases file with
    | none => rfl
    | some data =>
      dsimp only [Option.bind_some]
      cases J.unmarshal data <;> rfl
  apply Option.ext
  intro info
  rw [registry, hfold, lookup_foldl_insert _ hfile]
  simp only [hempty, reduceCtorEq, and_false, or_false]
  exact (Indexed.find?_key_iff hfile).symm

theorem held_new (hfile : ((entries J file).map TokenInfo.token).Nodup) :
    (newBridgeServer J apiKey file).held = TokenHistory.held (entries J file) [] := by
  funext token
  have hregistry : (newBridgeServer J apiKey file).registry token =
      TokenHistory.inFile (entries J file) token := registry_new hfile token
  rw [registry] at hregistry
  rw [held, hregistry]
  cases hfind : TokenHistory.inFile (entries J file) token with
  | none => simp [TokenHistory.held, TokenHistory.registered, hfind]
  | some info =>
    simp [TokenHistory.held, TokenHistory.registered, TokenHistory.active, TokenHistory.maxConns,
      TokenHistory.switched, hfind]

/-- Requests go on with the history. -/
theorem held_after {file : List TokenInfo} {ops : List TokenOp} (rs : List BridgeRequest)
    (h : bs.held = TokenHistory.held file ops) :
    (after (fun bs r => (bs.serveHTTP r).2) bs rs).held =
      TokenHistory.held file (ops ++ rs.filterMap (·.tokenOp bs.apiKey)) := by
  induction rs generalizing bs ops with
  | nil => simpa using h
  | cons r rs ih =>
    rw [after_cons]
    cases hop : r.tokenOp bs.apiKey with
    | none =>
      rw [ih ((held_of_not_tokenOp hop).trans h), apiKey_serveHTTP]
      simp [hop]
    | some op =>
      have hstep : (bs.serveHTTP r).2.held = TokenHistory.held file (ops ++ [op]) := by
        rw [held_of_tokenOp hop, h, TokenHistory.held_append]
      rw [ih hstep, apiKey_serveHTTP]
      simp [hop]

theorem keyed_after (hk : bs.Keyed) (rs : List BridgeRequest) :
    (after (fun bs r => (bs.serveHTTP r).2) bs rs).Keyed := by
  induction rs generalizing bs with
  | nil => exact hk
  | cons r rs ih => exact ih (keyed_serveHTTP hk r)

theorem apiKey_after (rs : List BridgeRequest) :
    (after (fun bs r => (bs.serveHTTP r).2) bs rs).apiKey = bs.apiKey := by
  induction rs generalizing bs with
  | nil => rfl
  | cons r rs ih => exact ih.trans (apiKey_serveHTTP bs r)

theorem apiKey_new : (newBridgeServer J apiKey file).apiKey = apiKey := by
  unfold newBridgeServer loadTokens
  repeat' split
  all_goals rfl

/-- From a token file with different tokens, and after any requests: a token is accepted with its
limit exactly if its history has it registered and active; a request that names no or another token
leaves its answer; and each entry is kept under its own token. -/
theorem authenticateToken_history (J : TokenJson) (apiKey : List Char) (file : Option Bytes)
    (rs : List BridgeRequest) (hfile : ((entries J file).map TokenInfo.token).Nodup) :
    let bs := served J apiKey file rs
    let ops := rs.filterMap (·.tokenOp apiKey)
    (∀ token, bs.authenticateToken token =
      if TokenHistory.registered (entries J file) ops token ∧
          TokenHistory.active (entries J file) ops token then
        (true, TokenHistory.maxConns (entries J file) ops token)
      else (false, 0)) ∧
    (∀ r token, (∀ op, r.tokenOp apiKey = some op → op.token ≠ token) →
      (bs.serveHTTP r).2.authenticateToken token = bs.authenticateToken token) ∧
    bs.Keyed := by
  intro bs ops
  have hheld : bs.held = TokenHistory.held (entries J file) ops := by
    have hnew : (newBridgeServer J apiKey file).held = TokenHistory.held (entries J file) [] :=
      held_new hfile
    have h := held_after rs hnew
    rwa [apiKey_new] at h
  have hkey : bs.apiKey = apiKey := (apiKey_after rs).trans apiKey_new
  refine ⟨?_, ?_, keyed_after keyed_new rs⟩
  · intro token
    rw [authenticateToken_eq, hheld, TokenHistory.answer_held]
  · intro r token hother
    rw [authenticateToken_eq, authenticateToken_eq]
    cases hop : r.tokenOp bs.apiKey with
    | none => rw [held_of_not_tokenOp hop]
    | some op =>
      rw [hkey] at hop
      have hne := hother op hop
      rw [← hkey] at hop
      rw [held_of_tokenOp hop, change, Function.update_of_ne hne.symm]

/-- A token that the file has suspended is activated. -/
theorem authenticateToken_history_sample :
    (served textJson [] (some (textJson.marshalIndent [⟨['t'], 2, false⟩]))
      [⟨"POST", "/api/tokens/activate", [], some ⟨['t'], 0⟩⟩]).authenticateToken ['t'] = (true, 2) := by
  have hentries : entries textJson (some (textJson.marshalIndent [⟨['t'], 2, false⟩])) =
      [⟨['t'], 2, false⟩] := by
    simp [entries, textJson_lawful.unmarshal_marshalIndent]
  have h := (authenticateToken_history textJson [] (some (textJson.marshalIndent [⟨['t'], 2, false⟩]))
    [⟨"POST", "/api/tokens/activate", [], some ⟨['t'], 0⟩⟩] (by rw [hentries]; decide)).1 ['t']
  rw [hentries] at h
  exact h

end BridgeServer

end SshPanelVpn.ShadowLink

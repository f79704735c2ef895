import Mathlib.Data.List.AList

/-! `internal/api/bridge.go`: the token registry and its HTTP interface. -/
namespace SshPanelVpn.ShadowLink

structure TokenInfo where
  token : List Char
  maxConns : Int
  active : Bool
  deriving DecidableEq, Repr

/-- The registry and its key; the store on disk and the relay are left out. -/
structure BridgeServer where
  tokens : AList (fun _ : List Char => TokenInfo)
  apiKey : List Char

/-- The fields of a JSON request body; a missing number decodes to zero. -/
structure TokenRequest where
  token : List Char
  maxConns : Int
  deriving DecidableEq, Repr

/-- `body` is `none` where it is not the JSON of the fields. -/
structure BridgeRequest where
  method : String
  path : String
  apiKey : List Char
  body : Option TokenRequest
  deriving DecidableEq, Repr

/-- `text` is the status of a JSON answer, or the text of `http.Error`. -/
structure BridgeResponse where
  status : Nat
  text : String
  tokens : List TokenInfo := []
  deriving DecidableEq, Repr

namespace BridgeServer

/-- `http.Error(w, "method not allowed", http.StatusMethodNotAllowed)`. -/
def methodNotAllowed (bs : BridgeServer) : BridgeResponse × BridgeServer :=
  (⟨405, "method not allowed", []⟩, bs)

/-- Decode the body or answer 400. -/
def withBody (bs : BridgeServer) (r : BridgeRequest)
    (handler : TokenRequest → BridgeResponse × BridgeServer) : BridgeResponse × BridgeServer :=
  match r.body with
  | none => (⟨400, "invalid request body", []⟩, bs)
  | some req => handler req

def registerToken (bs : BridgeServer) (r : BridgeRequest) : BridgeResponse × BridgeServer :=
  bs.withBody r fun req =>
    (⟨200, "registered", []⟩,
      { bs with tokens := bs.tokens.insert req.token ⟨req.token, req.maxConns, true⟩ })

def deregisterToken (bs : BridgeServer) (r : BridgeRequest) : BridgeResponse × BridgeServer :=
  bs.withBody r fun req => (⟨200, "deregistered", []⟩, { bs with tokens := bs.tokens.erase req.token })

/-- `info.Active = active` where the token is known. -/
def setActive (bs : BridgeServer) (token : List Char) (active : Bool) : BridgeServer :=
  match bs.tokens.lookup token with
  | some info => { bs with tokens := bs.tokens.insert token { info with active := active } }
  | none => bs

def suspendToken (bs : BridgeServer) (r : BridgeRequest) : BridgeResponse × BridgeServer :=
  bs.withBody r fun req => (⟨200, "suspended", []⟩, bs.setActive req.token false)

def activateToken (bs : BridgeServer) (r : BridgeRequest) : BridgeResponse × BridgeServer :=
  bs.withBody r fun req => (⟨200, "activated", []⟩, bs.setActive req.token true)

def listTokens (bs : BridgeServer) : BridgeResponse × BridgeServer :=
  (⟨200, "", bs.tokens.entries.map Sigma.snd⟩, bs)

/-- A path that only takes POST. -/
def postOnly (bs : BridgeServer) (r : BridgeRequest)
    (handler : BridgeServer → BridgeRequest → BridgeResponse × BridgeServer) :
    BridgeResponse × BridgeServer :=
  if r.method = "POST" then handler bs r else bs.methodNotAllowed

def serveHTTP (bs : BridgeServer) (r : BridgeRequest) : BridgeResponse × BridgeServer :=
  if bs.apiKey ≠ [] ∧ r.apiKey ≠ bs.apiKey then (⟨401, "unauthorized", []⟩, bs)
  else if r.path = "/api/tokens" then
    if r.method = "POST" then bs.registerToken r
    else if r.method = "GET" then bs.listTokens
    else bs.methodNotAllowed
  else if r.path = "/api/tokens/delete" then bs.postOnly r deregisterToken
  else if r.path = "/api/tokens/suspend" then bs.postOnly r suspendToken
  else if r.path = "/api/tokens/activate" then bs.postOnly r activateToken
  -- `serverStatus` and `activeSessions` report on the relay
  else if r.path = "/api/status" ∨ r.path = "/api/sessions" then (⟨200, "", []⟩, bs)
  else if r.path = "/api/health" then (⟨200, "ok", []⟩, bs)
  else (⟨404, "404 page not found", []⟩, bs)

/-- `AuthenticateToken`, which the relay asks for every connection. -/
def authenticateToken (bs : BridgeServer) (token : List Char) : Bool × Int :=
  match bs.tokens.lookup token with
  | some info => if info.active then (true, info.maxConns) else (false, 0)
  | none => (false, 0)

/-! The registry as a map from tokens to limits and states. -/

/-- The connections that a token allows, and whether it is active. -/
def held (bs : BridgeServer) (token : List Char) : Option (Int × Bool) :=
  (bs.tokens.lookup token).map fun info => (info.maxConns, info.active)

/-- What a registered token is answered. -/
def answer : Option (Int × Bool) → Bool × Int
  | some (maxConns, true) => (true, maxConns)
  | _ => (false, 0)

theorem authenticateToken_eq (bs : BridgeServer) (token : List Char) :
    bs.authenticateToken token = answer (bs.held token) := by
  unfold authenticateToken held
  cases bs.tokens.lookup token with
  | none => rfl
  | some info =>
    obtain ⟨_, maxConns, active⟩ := info
    cases active <;> rfl

/-- A change of one token. -/
def change (held : List Char → Option (Int × Bool)) (token : List Char)
    (g : Option (Int × Bool) → Option (Int × Bool)) : List Char → Option (Int × Bool) :=
  Function.update held token (g (held token))

theorem held_insert (bs : BridgeServer) (token : List Char) (info : TokenInfo) :
    held { bs with tokens := bs.tokens.insert token info } =
      Function.update bs.held token (some (info.maxConns, info.active)) := by
  funext t
  by_cases ht : t = token
  · subst ht
    simp [held]
  · simp [held, ht]

theorem held_setActive (bs : BridgeServer) (token : List Char) (active : Bool) :
    (bs.setActive token active).held = change bs.held token (Option.map fun i => (i.1, active)) := by
  unfold setActive change
  cases h : bs.tokens.lookup token with
  | none =>
    funext t
    by_cases ht : t = token
    · subst ht
      simp [held, h]
    · simp [ht]
  | some info =>
    simp only
    rw [held_insert]
    simp [held, h]

theorem held_erase (bs : BridgeServer) (token : List Char) :
    held { bs with tokens := bs.tokens.erase token } = change bs.held token fun _ => none := by
  funext t
  by_cases ht : t = token
  · subst ht
    simp [held, change]
  · simp [held, change, ht]

/-- What a request of the panel does to a token, once it is let in. -/
def requestEffect (path : String) (req : TokenRequest) : Option (Int × Bool) → Option (Int × Bool) :=
  if path = "/api/tokens" then fun _ => some (req.maxConns, true)
  else if path = "/api/tokens/delete" then fun _ => none
  else if path = "/api/tokens/suspend" then Option.map fun i => (i.1, false)
  else if path = "/api/tokens/activate" then Option.map fun i => (i.1, true)
  else id

theorem held_serveHTTP {bs : BridgeServer} {path : String} {apiKey : List Char} {req : TokenRequest}
    (h : (bs.serveHTTP ⟨"POST", path, apiKey, some req⟩).1.status < 400) :
    (bs.serveHTTP ⟨"POST", path, apiKey, some req⟩).2.held =
      change bs.held req.token (requestEffect path req) := by
  have hid : change bs.held req.token id = bs.held := Function.update_eq_self _ _
  by_cases hkey : bs.apiKey ≠ [] ∧ apiKey ≠ bs.apiKey
  · simp [serveHTTP, hkey] at h
  · by_cases hreg : path = "/api/tokens"
    · simpa [serveHTTP, hkey, requestEffect, hreg, registerToken, withBody, change] using
        held_insert bs req.token ⟨req.token, req.maxConns, true⟩
    · by_cases hdel : path = "/api/tokens/delete"
      · simpa [serveHTTP, hkey, requestEffect, hdel, postOnly, deregisterToken, withBody] using
          held_erase bs req.token
      · by_cases hsus : path = "/api/tokens/suspend"
        · simpa [serveHTTP, hkey, requestEffect, hsus, postOnly, suspendToken, withBody] using
            held_setActive bs req.token false
        · by_cases hact : path = "/api/tokens/activate"
          · simpa [serveHTTP, hkey, requestEffect, hact, postOnly, activateToken, withBody] using
              held_setActive bs req.token true
          · rw [requestEffect, if_neg hreg, if_neg hdel, if_neg hsus, if_neg hact, hid]
            unfold serveHTTP
            rw [if_neg hkey, if_neg hreg, if_neg hdel, if_neg hsus, if_neg hact]
            split
            · rfl
            · split <;> rfl

end BridgeServer

end SshPanelVpn.ShadowLink

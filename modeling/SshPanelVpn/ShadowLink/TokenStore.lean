import SshPanelVpn.Library.Bytes
import SshPanelVpn.Library.Runs
import SshPanelVpn.ShadowLink.Bridge

/-! `internal/api/bridge.go`: the token file, with the system calls of `saveTokens` one at a time. -/
namespace SshPanelVpn.ShadowLink

open Octets Runs

/-- `encoding/json` on token lists. -/
structure TokenJson where
  marshalIndent : List TokenInfo → Bytes
  unmarshal : Bytes → Option (List TokenInfo)

/-- Unmarshalling inverts marshalling, and a text that is cut off is an error. -/
structure TokenJson.Lawful (J : TokenJson) : Prop where
  unmarshal_marshalIndent : ∀ tokens, J.unmarshal (J.marshalIndent tokens) = some tokens
  unmarshal_cut : ∀ tokens data, data <+: J.marshalIndent tokens → data ≠ J.marshalIndent tokens →
    J.unmarshal data = none

namespace BridgeServer

/-- The registry as a map. -/
def registry (bs : BridgeServer) (token : List Char) : Option TokenInfo := bs.tokens.lookup token

/-- `file` is `none` where `ReadFile` fails. -/
def loadTokens (J : TokenJson) (bs : BridgeServer) (file : Option Bytes) : BridgeServer :=
  match file with
  | none => bs
  | some data =>
    match J.unmarshal data with
    | none => bs
    | some tokens => { bs with tokens := tokens.foldl (fun m t => m.insert t.token t) bs.tokens }

def newBridgeServer (J : TokenJson) (apiKey : List Char) (file : Option Bytes) : BridgeServer :=
  loadTokens J ⟨∅, apiKey⟩ file

/-- The handler of the request gets to `saveTokens`. -/
def saves (bs : BridgeServer) (r : BridgeRequest) : Bool :=
  match r.body with
  | none => false
  | some req =>
    (bs.apiKey = [] ∨ r.apiKey = bs.apiKey) ∧ r.method = "POST" ∧
      (r.path = "/api/tokens" ∨ r.path = "/api/tokens/delete" ∨
        (r.path = "/api/tokens/suspend" ∨ r.path = "/api/tokens/activate") ∧
          (bs.tokens.lookup req.token).isSome)

/-- What `saveTokens` collects from the map, in some order. -/
def Collects (bs : BridgeServer) (tokens : List TokenInfo) : Prop :=
  tokens.Perm (bs.tokens.entries.map Sigma.snd)

/-- Each token is registered under itself. -/
def Keyed (bs : BridgeServer) : Prop := ∀ token info, bs.registry token = some info → info.token = token

end BridgeServer

/-- Where the request stands that holds the lock: about to open the file, writing to it (so many
bytes are in it), or past `saveTokens`. -/
inductive StorePc where
  | idle
  | opening (data : Bytes)
  | writing (data : Bytes) (n : Nat)
  | answering
  deriving DecidableEq, Repr

/-- The process with its file. `answered` is the registry after the last answered request, `stored`
the registry that the file is whole of: `none` while it is cut off. -/
structure TokenStore where
  bridge : BridgeServer
  file : Option Bytes
  pc : StorePc
  answered : List Char → Option TokenInfo
  stored : Option (List Char → Option TokenInfo)

inductive StoreAct where
  | request (r : BridgeRequest) (order : List TokenInfo)
  | openFails
  | openTruncates
  | write (n : Nat)
  | writeEnds
  | answer
  | crash
  deriving DecidableEq, Repr

namespace TokenStore

/-- The process starts. -/
def start (J : TokenJson) (apiKey : List Char) (file : Option Bytes) : TokenStore where
  bridge := .newBridgeServer J apiKey file
  file := file
  pc := .idle
  answered := (BridgeServer.newBridgeServer J apiKey file).registry
  stored := some (BridgeServer.newBridgeServer J apiKey file).registry

/-- So many bytes are in the file. -/
def wrote (s : TokenStore) (data : Bytes) (n : Nat) : TokenStore :=
  { s with
    file := some (data.take n)
    pc := .writing data n
    stored := if n = data.length then some s.bridge.registry else none }

end TokenStore

/-- One request after the other; the process can end at any time, and starts again. -/
inductive StoreStep (J : TokenJson) : TokenStore → StoreAct → TokenStore → Prop where
  | unsaved {s : TokenStore} {r : BridgeRequest} (hpc : s.pc = .idle)
      (hno : s.bridge.saves r = false) :
      StoreStep J s (.request r []) { s with
        bridge := (s.bridge.serveHTTP r).2
        answered := (s.bridge.serveHTTP r).2.registry }
  | saved {s : TokenStore} {r : BridgeRequest} {order : List TokenInfo} (hpc : s.pc = .idle)
      (hyes : s.bridge.saves r = true) (horder : (s.bridge.serveHTTP r).2.Collects order) :
      StoreStep J s (.request r order) { s with
        bridge := (s.bridge.serveHTTP r).2
        pc := .opening (J.marshalIndent order) }
  | openFails {s : TokenStore} {data : Bytes} (hpc : s.pc = .opening data) :
      StoreStep J s .openFails { s with pc := .answering }
  | openTruncates {s : TokenStore} {data : Bytes} (hpc : s.pc = .opening data) :
      StoreStep J s .openTruncates (s.wrote data 0)
  | write {s : TokenStore} {data : Bytes} {m n : Nat} (hpc : s.pc = .writing data m) (hm : m ≤ n)
      (hn : n ≤ data.length) : StoreStep J s (.write n) (s.wrote data n)
  -- with an error, unless all is written
  | writeEnds {s : TokenStore} {data : Bytes} {n : Nat} (hpc : s.pc = .writing data n) :
      StoreStep J s .writeEnds { s with pc := .answering }
  | answer {s : TokenStore} (hpc : s.pc = .answering) :
      StoreStep J s .answer { s with pc := .idle, answered := s.bridge.registry }
  | crash {s : TokenStore} :
      StoreStep J s .crash (.start J s.bridge.apiKey s.file)

namespace TokenStore

/-- What `loadTokens` would build now. -/
def restored (J : TokenJson) (s : TokenStore) : List Char → Option TokenInfo :=
  (BridgeServer.newBridgeServer J s.bridge.apiKey s.file).registry

/-- The next start finds the registry after the last answered request, or after the one in
progress. -/
def Restorable (J : TokenJson) (s : TokenStore) : Prop :=
  s.restored J = s.answered ∨ s.restored J = s.bridge.registry

/-- The file is whole of one of the two registries; or it is cut off, and one of them is empty. -/
def Intact (s : TokenStore) : Prop :=
  match s.stored with
  | some registry => registry = s.answered ∨ registry = s.bridge.registry
  | none => (∀ token, s.answered token = none) ∨ ∀ token, s.bridge.registry token = none

end TokenStore

/-! What a list of tokens is loaded as. -/

namespace BridgeServer

variable {J : TokenJson} {bs : BridgeServer} {r : BridgeRequest} {tokens : List TokenInfo}
  {token : List Char} {info : TokenInfo} {apiKey : List Char} {file : Option Bytes}

theorem lookup_foldl_insert (m : AList fun _ : List Char => TokenInfo)
    (hnodup : (tokens.map TokenInfo.token).Nodup) :
    (tokens.foldl (fun m t => m.insert t.token t) m).lookup token = some info ↔
      (info ∈ tokens ∧ info.token = token) ∨
        ((∀ t ∈ tokens, t.token ≠ token) ∧ m.lookup token = some info) := by
  induction tokens generalizing m with
  | nil => simp
  | cons t ts ih =>
    obtain ⟨hnot, hnodup⟩ := List.nodup_cons.mp hnodup
    have hts : ∀ i ∈ ts, i.token ≠ t.token := by
      intro i hi heq
      exact hnot (heq ▸ List.mem_map_of_mem hi)
    rw [List.foldl_cons, ih _ hnodup]
    by_cases ht : t.token = token
    · subst ht
      rw [AList.lookup_insert, Option.some.injEq]
      constructor
      · rintro (⟨hi, hit⟩ | ⟨-, rfl⟩)
        · exact (hts _ hi hit).elim
        · exact .inl ⟨List.mem_cons_self, rfl⟩
      · rintro (⟨hi, hit⟩ | ⟨hall, -⟩)
        · rcases List.mem_cons.mp hi with rfl | hi
          · exact .inr ⟨hts, rfl⟩
          · exact (hts _ hi hit).elim
        · exact (hall t List.mem_cons_self rfl).elim
    · rw [AList.lookup_insert_ne (Ne.symm ht)]
      constructor
      · rintro (⟨hi, hit⟩ | ⟨hall, hm⟩)
        · exact .inl ⟨List.mem_cons_of_mem _ hi, hit⟩
        · refine .inr ⟨?_, hm⟩
          intro i hi
          rcases List.mem_cons.mp hi with rfl | hi
          · exact ht
          · exact hall i hi
      · rintro (⟨hi, hit⟩ | ⟨hall, hm⟩)
        · rcases List.mem_cons.mp hi with rfl | hi
          · exact (ht hit).elim
          · exact .inl ⟨hi, hit⟩
        · exact .inr ⟨fun i hi => hall i (List.mem_cons_of_mem _ hi), hm⟩

theorem mem_entries_iff : (⟨token, info⟩ : (_ : List Char) × TokenInfo) ∈ bs.tokens.entries ↔
    bs.registry token = some info :=
  AList.mem_lookup_iff.symm

/-- The collected list names each token once, with what the registry has for it. -/
theorem collects_spec (hk : bs.Keyed) (hc : bs.Collects tokens) :
    (tokens.map TokenInfo.token).Nodup ∧
      ∀ info, info ∈ tokens ↔ bs.registry info.token = some info := by
  have hkeys : (bs.tokens.entries.map Sigma.snd).map TokenInfo.token = bs.tokens.entries.map Sigma.fst := by
    rw [List.map_map]
    apply List.map_congr_left
    rintro ⟨token, info⟩ hmem
    exact hk token info (mem_entries_iff.mp hmem)
  constructor
  · rw [(hc.map TokenInfo.token).nodup_iff, hkeys]
    exact bs.tokens.nodupKeys
  · intro info
    rw [hc.mem_iff, List.mem_map]
    constructor
    · rintro ⟨⟨token, i⟩, hmem, rfl⟩
      have hreg := mem_entries_iff.mp hmem
      rwa [hk token i hreg]
    · intro hreg
      exact ⟨⟨info.token, info⟩, mem_entries_iff.mpr hreg, rfl⟩

/-- What `saveTokens` writes is loaded as the registry that it was written of. -/
theorem registry_saved (hJ : J.Lawful) (hk : bs.Keyed) (hc : bs.Collects tokens) :
    (newBridgeServer J apiKey (some (J.marshalIndent tokens))).registry = bs.registry := by
  obtain ⟨hnodup, hmem⟩ := collects_spec hk hc
  funext token
  apply Option.ext
  intro info
  rw [newBridgeServer, loadTokens, hJ.unmarshal_marshalIndent]
  change (tokens.foldl (fun m t => m.insert t.token t)
    (∅ : AList fun _ : List Char => TokenInfo)).lookup token = some info ↔ _
  rw [lookup_foldl_insert _ hnodup, hmem]
  constructor
  · rintro (⟨hreg, rfl⟩ | ⟨-, hempty⟩)
    · exact hreg
    · cases hempty
  · intro hreg
    obtain rfl := hk token info hreg
    exact .inl ⟨hreg, rfl⟩

theorem registry_cut (hJ : J.Lawful) {data : Bytes} (hp : data <+: J.marshalIndent tokens)
    (hne : data ≠ J.marshalIndent tokens) :
    (newBridgeServer J apiKey (some data)).registry = fun _ => none := by
  rw [newBridgeServer, loadTokens, hJ.unmarshal_cut tokens data hp hne]
  rfl

theorem registry_apiKey (apiKey' : List Char) : (newBridgeServer J apiKey file).registry =
    (newBridgeServer J apiKey' file).registry := by
  unfold newBridgeServer loadTokens
  cases file with
  | none => rfl
  | some data =>
    dsimp only
    cases J.unmarshal data <;> rfl

/-! Each token stays registered under itself. -/

theorem keyed_insert (hk : bs.Keyed) (h : info.token = token) :
    Keyed { bs with tokens := bs.tokens.insert token info } := by
  intro t i hi
  by_cases ht : t = token
  · subst ht
    rw [registry, AList.lookup_insert, Option.some.injEq] at hi
    rw [← hi, h]
  · rw [registry, AList.lookup_insert_ne ht] at hi
    exact hk t i hi

theorem keyed_erase (hk : bs.Keyed) : Keyed { bs with tokens := bs.tokens.erase token } := by
  intro t i hi
  by_cases ht : t = token
  · subst ht
    rw [registry, AList.lookup_erase] at hi
    cases hi
  · rw [registry, AList.lookup_erase_ne ht] at hi
    exact hk t i hi

theorem keyed_setActive (hk : bs.Keyed) (active : Bool) : (bs.setActive token active).Keyed := by
  unfold setActive
  cases h : bs.tokens.lookup token with
  | none => exact hk
  | some info => exact keyed_insert hk (hk token info h)

theorem keyed_withBody {handler : TokenRequest → BridgeResponse × BridgeServer} (hk : bs.Keyed)
    (h : ∀ req, (handler req).2.Keyed) : (bs.withBody r handler).2.Keyed := by
  unfold withBody
  cases r.body with
  | none => exact hk
  | some req => exact h req

theorem keyed_postOnly {handler : BridgeServer → BridgeRequest → BridgeResponse × BridgeServer}
    (hk : bs.Keyed) (h : (handler bs r).2.Keyed) : (bs.postOnly r handler).2.Keyed := by
  unfold postOnly
  split
  · exact h
  · exact hk

theorem keyed_serveHTTP (hk : bs.Keyed) (r : BridgeRequest) : (bs.serveHTTP r).2.Keyed := by
  have hreg : (bs.registerToken r).2.Keyed := keyed_withBody hk fun _ => keyed_insert hk rfl
  have hdel : (bs.deregisterToken r).2.Keyed := keyed_withBody hk fun _ => keyed_erase hk
  have hsus : (bs.suspendToken r).2.Keyed := keyed_withBody hk fun _ => keyed_setActive hk false
  have hact : (bs.activateToken r).2.Keyed := keyed_withBody hk fun _ => keyed_setActive hk true
  unfold serveHTTP
  split
  · exact hk
  · split
    · split
      · exact hreg
      · split
        · exact hk
        · exact hk
    · split
      · exact keyed_postOnly hk hdel
      · split
        · exact keyed_postOnly hk hsus
        · split
          · exact keyed_postOnly hk hact
          · split
            · exact hk
            · split <;> exact hk

theorem keyed_new : (newBridgeServer J apiKey file).Keyed := by
  have hempty : Keyed ⟨∅, apiKey⟩ := by
    intro t i hi
    cases hi
  unfold newBridgeServer loadTokens
  split
  · exact hempty
  · split
    · exact hempty
    · next tokens _ =>
      have hfold : ∀ (ts : List TokenInfo) (bs : BridgeServer), bs.Keyed →
          Keyed { bs with tokens := ts.foldl (fun m t => m.insert t.token t) bs.tokens } := by
        intro ts
        induction ts with
        | nil => exact fun _ hk => hk
        | cons t ts ih =>
          intro bs hk
          exact ih { bs with tokens := bs.tokens.insert t.token t } (keyed_insert hk rfl)
      exact hfold tokens _ hempty

theorem setActive_of_none (h : bs.tokens.lookup token = none) (active : Bool) :
    bs.setActive token active = bs := by
  rw [setActive, h]

/-- A request that saves nothing changes nothing. -/
theorem serveHTTP_of_not_saves (h : bs.saves r = false) : (bs.serveHTTP r).2 = bs := by
  obtain ⟨method, path, apiKey, body⟩ := r
  by_cases hkey : bs.apiKey ≠ [] ∧ apiKey ≠ bs.apiKey
  · simp [serveHTTP, hkey]
  · have hin : bs.apiKey = [] ∨ apiKey = bs.apiKey := by
      by_cases hk : bs.apiKey = []
      · exact .inl hk
      · exact .inr (not_not.mp fun hne => hkey ⟨hk, hne⟩)
    by_cases hm : method = "POST"
    · subst hm
      cases body with
      | none =>
        simp only [serveHTTP, hkey, if_false, registerToken, deregisterToken, suspendToken,
          activateToken, postOnly, withBody, if_true]
        repeat' split
        all_goals rfl
      | some req =>
        simp only [saves, hin, true_and, decide_eq_false_iff_not, not_or, not_and] at h
        obtain ⟨hreg, hdel, hset⟩ := h
        have hnone : path = "/api/tokens/suspend" ∨ path = "/api/tokens/activate" →
            bs.tokens.lookup req.token = none := by
          intro hp
          simpa using hset hp
        simp only [serveHTTP, hkey, if_false, hreg, hdel, suspendToken, activateToken, postOnly,
          withBody, if_true]
        split
        · next hp => exact setActive_of_none (hnone (.inl hp)) false
        · split
          · next hp => exact setActive_of_none (hnone (.inr hp)) true
          · repeat' split
            all_goals rfl
    · simp only [serveHTTP, hkey, if_false, hm, postOnly, methodNotAllowed, listTokens]
      repeat' split
      all_goals rfl

end BridgeServer

end SshPanelVpn.ShadowLink

import Mathlib.Algebra.Order.Ring.Unbundled.Rat
import SshPanelVpn.Library.FirstInOrder
import SshPanelVpn.Panel.Capacity
import SshPanelVpn.Panel.CreateAccount

/-! The server that a new account is placed on, and the protocols of the two. -/
namespace SshPanelVpn.Panel

open FirstInOrder

namespace Db

/-- An account created without a server is on the least loaded of the available servers of the
protocol asked for, if there is one; and its protocol is the one of its server. -/
structure WellPlaced (db : Db) (args : CreateArgs) (a : Account) : Prop where
  least : ∀ p, args.server = none → args.protocolType = some p →
    (∃ s ∈ db.servers, db.isAvailable s = true ∧ s.protocolType = p) →
    ∃ s ∈ db.servers, s.id = a.server ∧ db.isAvailable s = true ∧ s.protocolType = p ∧
      ∀ t ∈ db.servers, db.isAvailable t = true → t.protocolType = p → s.cpuUsage ≤ t.cpuUsage
  same : ∀ s ∈ db.servers, s.id = a.server → a.protocolType = s.protocolType

/-- No available server is less loaded: whichever ones are as little loaded, the query may list this one
first. -/
structure Least (db : Db) (s : Server) : Prop where
  mem : s ∈ db.servers
  available : db.isAvailable s = true
  least : ∀ t ∈ db.servers, db.isAvailable t = true → s.cpuUsage ≤ t.cpuUsage

/-- Of the servers that can come first, those of another protocol have an account of the name. -/
def Leads (db : Db) (username : Str) (p : Protocol) : Prop :=
  ∀ t ∈ db.servers, db.isAvailable t = true → t.protocolType ≠ p →
    (∀ a ∈ db.accounts, a.username = username → a.server ≠ t.id) →
      ∃ s ∈ db.servers, db.isAvailable s = true ∧ s.cpuUsage < t.cpuUsage

/-- The protocol asked for is the one of the server that is given, or, without an available one, the
one that leads. -/
def Suits (db : Db) (args : CreateArgs) : Prop :=
  ∀ p, args.protocolType = some p →
    match args.server with
    | some s => if db.isAvailable s = true then s.protocolType = p else db.Leads args.username p
    | none => db.Leads args.username p

variable {db : Db} {args : CreateArgs} {env : Env} {s t : Server} {p : Protocol} {a : Account}
  {ties : Nat → Nat} {accounts : AccountTable}

theorem loadLe_trans (a b c : Server) (hab : Server.loadLe ties a b = true)
    (hbc : Server.loadLe ties b c = true) : Server.loadLe ties a c = true := by
  simp only [Server.loadLe, Bool.or_eq_true, Bool.and_eq_true, decide_eq_true_eq] at *
  rcases hab with hab | ⟨hab, htab⟩ <;> rcases hbc with hbc | ⟨hbc, htbc⟩
  · exact .inl (hab.trans hbc)
  · exact .inl (hbc ▸ hab)
  · exact .inl (hab ▸ hbc)
  · exact .inr ⟨hab.trans hbc, htab.trans htbc⟩

theorem loadLe_total (a b : Server) : (Server.loadLe ties a b || Server.loadLe ties b a) = true := by
  simp only [Server.loadLe, Bool.or_eq_true, Bool.and_eq_true, decide_eq_true_eq]
  rcases lt_trichotomy a.cpuUsage b.cpuUsage with h | h | h
  · exact .inl (.inl h)
  · rcases Nat.le_total (ties a.id) (ties b.id) with ht | ht
    · exact .inl (.inr ⟨h, ht⟩)
    · exact .inr (.inr ⟨h.symm, ht⟩)
  · exact .inr (.inl h)

theorem le_of_loadLe (h : Server.loadLe ties s t = true) : s.cpuUsage ≤ t.cpuUsage := by
  simp only [Server.loadLe, Bool.or_eq_true, Bool.and_eq_true, decide_eq_true_eq] at h
  rcases h with h | ⟨h, -⟩
  · exact le_of_lt h
  · exact le_of_eq h

/-- What `pick_best_server` finds without an available server given. -/
theorem find_active_iff (hids : (db.servers.map Server.id).Nodup) :
    (db.activeServersByLoad ties).find? db.isAvailable = some s ↔
      First (Server.loadLe ties) db.isAvailable db.servers s := by
  have hnodup : db.servers.Nodup := .of_map _ hids
  have hactive : ∀ s, db.isAvailable s = true → (fun s : Server => decide (s.status = .active)) s = true := by
    intro s h
    exact (Bool.and_eq_true_iff.mp h).1
  rw [← first_filter_iff hactive]
  exact find?_mergeSort_iff loadLe_trans loadLe_total (hnodup.filter _)

theorem least_of_find (hids : (db.servers.map Server.id).Nodup)
    (h : (db.activeServersByLoad ties).find? db.isAvailable = some s) : db.Least s := by
  have hfirst := (find_active_iff hids).mp h
  refine ⟨hfirst.mem, hfirst.takes, fun t ht hav => ?_⟩
  by_cases hne : t = s
  · exact le_of_eq (congrArg Server.cpuUsage hne.symm)
  · exact le_of_loadLe (hfirst.before t ht hav hne).1

/-- Some order of the equal loads has it first. -/
theorem exists_find_of_least (hids : (db.servers.map Server.id).Nodup) (h : db.Least s) :
    ∃ ties, (db.activeServersByLoad ties).find? db.isAvailable = some s := by
  refine ⟨fun id => if id = s.id then 0 else 1, (find_active_iff hids).mpr ⟨h.mem, h.available, ?_⟩⟩
  intro t ht hav hne
  have hid : t.id ≠ s.id := fun hid => hne (List.inj_on_of_nodup_map hids ht h.mem hid)
  have hle := h.least t ht hav
  constructor
  · rcases lt_or_eq_of_le hle with hlt | heq
    · simp [Server.loadLe, hlt]
    · simp [Server.loadLe, heq]
  · intro hts
    have hge := le_of_loadLe hts
    have heq := le_antisymm hge hle
    simp [Server.loadLe, heq, hid] at hts

/-- The server of a new account is the one given, if that is available, or a least loaded one. -/
theorem pick_cases (hids : (db.servers.map Server.id).Nodup)
    (h : db.pickBestServer ties args.server = some s) :
    (args.server = some s ∧ db.isAvailable s = true) ∨
      (∀ given, args.server = some given → db.isAvailable given = false) ∧ db.Least s := by
  cases hserver : args.server with
  | none =>
    rw [hserver] at h
    exact .inr ⟨by simp, least_of_find hids h⟩
  | some given =>
    rw [hserver, pickBestServer] at h
    split at h
    · next hav =>
      cases h
      exact .inl ⟨rfl, hav⟩
    · next hav =>
      refine .inr ⟨fun given' hgiven => ?_, least_of_find hids h⟩
      cases hgiven
      simpa using hav

/-- A server on which the row could be inserted has the protocol that was asked for. -/
theorem protocol_of_suits (hids : (db.servers.map Server.id).Nodup) (hsuits : db.Suits args)
    (h : args.prepared env db = some (s, a, accounts)) (hp : args.protocolType = some p) :
    s.protocolType = p := by
  obtain ⟨-, -, hpick, date, -, hinsert, -⟩ := prepare_eq_some h
  have hasked := hsuits p hp
  have hfree : ∀ b ∈ db.accounts, b.username = args.username → b.server ≠ s.id := by
    intro b hb hname hserver
    have hnew := (AccountTable.isSome_insert.mp (by rw [hinsert]; rfl)).1
    exact hnew (List.mem_map.mpr ⟨b, hb, Prod.ext hname hserver⟩)
  rcases pick_cases hids hpick with ⟨hserver, hav⟩ | ⟨hnone, hleast⟩
  · simpa [hserver, hav] using hasked
  · have hleads : db.Leads args.username p := by
      cases hserver : args.server with
      | none => simpa [hserver] using hasked
      | some given => simpa [hserver, hnone given hserver] using hasked
    by_contra hne
    obtain ⟨t, ht, hav, hlt⟩ := hleads s hleast.mem hleast.available hne hfree
    exact absurd hlt (not_lt_of_ge (hleast.least t ht hav))

theorem wellPlaced_of_suits (hids : (db.servers.map Server.id).Nodup)
    (hgiven : ∀ s ∈ args.server, s ∈ db.servers) (hsuits : db.Suits args)
    (h : args.prepared env db = some (s, a, accounts)) : db.WellPlaced args a := by
  obtain ⟨hpick, hserver, hproto⟩ := CreateArgs.prepared_server h
  have hmem := (pickBestServer_available hpick hgiven).1
  constructor
  · intro p hnone hp _
    rcases pick_cases hids hpick with ⟨hsome, -⟩ | ⟨-, hleast⟩
    · rw [hnone] at hsome
      cases hsome
    · exact ⟨s, hmem, hserver.symm, hleast.available, protocol_of_suits hids hsuits h hp,
        fun t ht hav _ => hleast.least t ht hav⟩
  · intro t ht hid
    obtain rfl : t = s := List.inj_on_of_nodup_map hids ht hmem (hid.trans hserver)
    rw [hproto]
    cases hp : args.protocolType with
    | none => rfl
    | some p => exact (protocol_of_suits hids hsuits h hp).symm

/-- A row that was inserted on one server can be inserted on another one on which the name is free. -/
theorem prepared_on (h : args.prepared env db = some (s, a, accounts)) (hp : args.protocolType = some p)
    (hpick : db.pickBestServer ties args.server = some t)
    (hfree : ∀ a ∈ db.accounts, a.username = args.username → a.server ≠ t.id) :
    ∃ b accounts', args.prepared { env with ties := ties } db = some (t, b, accounts') := by
  obtain ⟨-, -, -, date, hdate, hinsert, -⟩ := prepare_eq_some h
  obtain ⟨-, haccess, hauth, hfits⟩ := AccountTable.isSome_insert.mp (by rw [hinsert]; rfl)
  have hsome : (db.accounts.insert (newAccount args t (passwordOf env args.password) date
      env.tokens)).isSome = true := by
    refine AccountTable.isSome_insert.mpr ⟨?_, haccess, hauth, ?_⟩
    · intro hmem
      obtain ⟨b, hb, heq⟩ := List.mem_map.mp hmem
      obtain ⟨hname, hserver⟩ := Prod.mk.inj heq
      exact hfree b hb hname hserver
    · simpa [Account.Fits, newAccount, hp] using hfits
  obtain ⟨accounts', hnew⟩ := Option.isSome_iff_exists.mp hsome
  have hpassword : passwordOf { env with ties := ties } args.password = passwordOf env args.password := by
    cases args.password with
    | none => rfl
    | some password => cases password <;> rfl
  refine ⟨{ newAccount args t (passwordOf env args.password) date env.tokens with
    id := db.accounts.nextId }, accounts', ?_⟩
  simp only [CreateArgs.prepared, CreateArgs.prepare, hpick, hdate, hpassword, hnew, Option.map_some]

theorem suits_of_wellPlaced (hids : (db.servers.map Server.id).Nodup)
    (hgiven : ∀ s ∈ args.server, s ∈ db.servers) (h : args.prepared env db = some (s, a, accounts))
    (hall : ∀ ties server b t, args.prepared { env with ties := ties } db = some (server, b, t) →
      db.WellPlaced args b) : db.Suits args := by
  -- an account on a server of another protocol is not placed well
  have hsame : ∀ {ties server b t p}, args.protocolType = some p →
      args.prepared { env with ties := ties } db = some (server, b, t) → server.protocolType = p := by
    intro ties server b t p hp hprep
    obtain ⟨hpick, hserver, hproto⟩ := CreateArgs.prepared_server hprep
    have hmem := (pickBestServer_available hpick hgiven).1
    have hb := (hall ties server b t hprep).same server hmem hserver.symm
    rw [hproto, hp] at hb
    exact hb.symm
  intro p hp
  have hleads : (∀ ties, db.pickBestServer ties args.server =
      (db.activeServersByLoad ties).find? db.isAvailable) → db.Leads args.username p := by
    intro hquery t ht hav hne hfree
    by_contra hless
    have hleast : db.Least t := by
      refine ⟨ht, hav, fun u hu hav' => le_of_not_gt fun hlt => hless ⟨u, hu, hav', hlt⟩⟩
    obtain ⟨ties, hfind⟩ := exists_find_of_least hids hleast
    obtain ⟨b, accounts', hprep⟩ := prepared_on h hp ((hquery ties).trans hfind) hfree
    exact hne (hsame hp hprep)
  cases hserver : args.server with
  | none => exact hleads fun ties => by rw [hserver]; rfl
  | some given =>
    by_cases hav : db.isAvailable given = true
    · obtain ⟨hpick, -, -⟩ := CreateArgs.prepared_server h
      rw [hserver, pickBestServer, if_pos hav] at hpick
      cases hpick
      simpa [hav] using hsame hp h
    · simpa [hav] using hleads fun ties => by rw [hserver, pickBestServer, if_neg hav]

end Db

variable {args : CreateArgs} {env : Env} {a : Account} {server : Server} {t : AccountTable} {w : World}

/-- The account that `create_account` comes to is the only one that it can return; and it is placed
well, however the database lists servers of equal load, just when the arguments suit the fleet. -/
theorem createAccount_wellPlaced_iff (hids : (w.db.servers.map Server.id).Nodup)
    (hserver : ∀ s ∈ args.server, s ∈ w.db.servers)
    (h : args.prepared env w.db = some (server, a, t)) :
    (∀ b w', (createAccount args).run (World.handler env) w = (.ok b, w') → b = a) ∧
      ((∀ ties server' b t', args.prepared { env with ties := ties } w.db = some (server', b, t') →
        w.db.WellPlaced args b) ↔ w.db.Suits args) := by
  refine ⟨?_, Db.suits_of_wellPlaced hids hserver h,
    fun hsuits _ _ _ _ hprep => Db.wellPlaced_of_suits hids hserver hsuits hprep⟩
  intro b w' hb
  obtain ⟨server', t', hb, -, -⟩ := CreateArgs.returned hb
  rw [h] at hb
  cases hb
  rfl

/-! A fleet of both protocols. -/

def bridgeServer : Server :=
  ⟨1, "bridge".toList, "10.0.0.2".toList, .shadowlink, .active, 10, 1, 9090, "key".toList⟩

def mixedWorld : World :=
  { sampleWorld with db := { sampleWorld.db with servers := [bridgeServer, sampleServer] } }

/-- What `CreateShadowLinkAccountView` asks for. -/
def shadowlinkArgs (server : Option Server) : CreateArgs :=
  { CreateArgs.plain "alice".toList samplePlan with
    server := server
    protocolType := some .shadowlink }

/-- Two bridges with the same load, and a node with more. -/
def bridgesWorld : World :=
  { sampleWorld with
    db := { sampleWorld.db with
      servers := [{ bridgeServer with cpuUsage := 0 }, { bridgeServer with id := 2, cpuUsage := 0 },
        { sampleServer with cpuUsage := 1 }] } }

theorem bridges_suit : bridgesWorld.db.Suits (shadowlinkArgs none) := by
  rintro p ⟨⟩ t ht - hne -
  refine ⟨{ bridgeServer with cpuUsage := 0 }, by simp [bridgesWorld], by decide, ?_⟩
  simp only [bridgesWorld, List.mem_cons, List.not_mem_nil, or_false] at ht
  rcases ht with rfl | rfl | rfl
  · exact (hne rfl).elim
  · exact (hne rfl).elim
  · decide

theorem bridges_picks : bridgesWorld.db.pickBestServer id none =
    some { bridgeServer with cpuUsage := 0 } := by
  refine (Db.find_active_iff (by decide)).mpr ⟨by decide, by decide, ?_⟩
  intro t ht _ hne
  simp only [bridgesWorld, List.mem_cons, List.not_mem_nil, or_false] at ht
  rcases ht with rfl | rfl | rfl
  · exact (hne rfl).elim
  · exact ⟨by decide, fun h => absurd h (by decide)⟩
  · exact ⟨by decide, fun h => absurd h (by decide)⟩

/-- Whichever of the bridges is listed first, the account is on one. -/
theorem createAccount_wellPlaced_iff_bridges :
    ∃ server a t, (shadowlinkArgs none).prepared (sampleEnv 0) bridgesWorld.db = some (server, a, t) ∧
      bridgesWorld.db.WellPlaced (shadowlinkArgs none) a := by
  have hpick : bridgesWorld.db.pickBestServer (sampleEnv 0).ties (shadowlinkArgs none).server =
      some { bridgeServer with cpuUsage := 0 } := bridges_picks
  have hsome : ((shadowlinkArgs none).prepared (sampleEnv 0) bridgesWorld.db).isSome = true := by
    rw [CreateArgs.prepared, CreateArgs.prepare, hpick]
    decide +kernel
  obtain ⟨⟨server, a, t⟩, h⟩ := Option.isSome_iff_exists.mp hsome
  have hgiven : ∀ s ∈ (shadowlinkArgs none).server, s ∈ bridgesWorld.db.servers := by
    rintro s ⟨⟩
  exact ⟨server, a, t, h,
    ((createAccount_wellPlaced_iff (by decide) hgiven h).2.mpr bridges_suit) id _ _ _ h⟩

theorem mixed_picks : mixedWorld.db.pickBestServer id none = some sampleServer := by
  refine (Db.find_active_iff (by decide)).mpr ⟨by decide, by decide, ?_⟩
  intro y hy _ hne
  simp only [mixedWorld, List.mem_cons, List.not_mem_nil, or_false] at hy
  obtain rfl := hy.resolve_right hne
  exact ⟨by decide, fun h => absurd h (by decide)⟩

/-- The SSH node is the less loaded one, so the ShadowLink account goes there. -/
theorem not_createAccount_wellPlaced : ¬ ∀ (args : CreateArgs) (env : Env) (w w' : World) (a : Account),
    (w.db.servers.map Server.id).Nodup → (∀ s ∈ args.server, s ∈ w.db.servers) →
      (createAccount args).run (World.handler env) w = (.ok a, w') → w.db.WellPlaced args a := by
  intro h
  have hok : ((createAccount (shadowlinkArgs none)).run (World.handler (sampleEnv 0))
      mixedWorld).1.isOk = true := by
    rw [Traffic.run_createAccount mixed_picks]
    decide +kernel
  rcases hr : (createAccount (shadowlinkArgs none)).run (World.handler (sampleEnv 0)) mixedWorld with
    ⟨e | a, w'⟩
  · rw [hr] at hok
    cases hok
  · have hwell := h _ _ _ _ a (by decide) (by rintro s ⟨⟩) hr
    obtain ⟨server, t, hprep, -, -⟩ := CreateArgs.returned hr
    obtain ⟨hpick, hid, hproto⟩ := CreateArgs.prepared_server hprep
    obtain rfl : sampleServer = server := Option.some.inj (mixed_picks.symm.trans hpick)
    have hsame := hwell.same sampleServer (by decide) hid.symm
    rw [hproto] at hsame
    cases hsame

end SshPanelVpn.Panel

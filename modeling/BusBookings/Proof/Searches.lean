import BusBookings.Proof.Alone
import BusBookings.Proof.Cache
import BusBookings.Proof.Turns

/-!
# The cached searches

Searches and creations of routes, one after the other. A creation deletes every cached search before
it commits, and a search stores the page of its query; so an entry is the page of the query that was
last searched under its key. `routesKey` renders a filter as it is given and an absent one as
`None`, hence different queries may share a key: a search whose entry is from its own query
(`OwnEntry`) is answered as if the cache were disconnected (`listRoutes_transparent`).
-/

namespace BusBookings

open Async ReadCommitted

/-- The page of a query. -/
def pageOf (server : Server) (db : Db) (q : RouteQuery) : Page :=
  ⟨(db.routes.rows.countP (q.toRouteFilter.accepts server.fold) : Nat), q.page, q.size,
    (World.routesOf server db q.toRouteFilter ((q.page - 1) * q.size) q.size).map .ofRoute⟩

/-- The calls while the cache is disconnected: `CacheService` returns before its commands. -/
def execDisconnected (server : Server) (i : Nat) :
    (c : Call) → World → Option (Except Exc (Reply c) × World)
  | .get _, w => some (.ok none, w)
  | .setex .., w => some (.ok (), w)
  | .keys _, w => some (.ok [], w)
  | .delete _, w => some (.ok (), w)
  | c, w => exec server .ok i c w

/-- The answer of request `q` and the world it leaves, when it runs alone with the cache
disconnected. -/
def disconnected (server : Server) (sys : System) (q : Request) : Option (Response × World) :=
  (handler server q).run (execDisconnected server sys.tasks.length) sys.shared

def Request.query? : Request → Option RouteQuery
  | .listRoutes q => some q
  | _ => none

/-- The query that was last searched under a key. -/
def lastSearch (sys : System) (key : String) : Option RouteQuery :=
  ((sys.requests.filterMap Request.query?).filter (routesKey · = key)).getLast?

/-- The entry a search would find, if there is one, is from the same query. -/
def OwnEntry (sys : System) (q : RouteQuery) : Prop :=
  (sys.shared.redis.get (routesKey q)).isSome → lastSearch sys (routesKey q) = some q

instance (sys : System) (q : RouteQuery) : Decidable (OwnEntry sys q) :=
  inferInstanceAs (Decidable (_ → _))

/-- Searches and creations of routes, one after the other, without failing calls; the entry a search
finds is from the same query. -/
def InTurn (sys : System) : Label → Prop
  | .spawn (.listRoutes q) => sys.Quiescent ∧ OwnEntry sys q
  | .spawn (.createRoute ..) => sys.Quiescent
  | .spawn _ => False
  | .run o _ => o = .ok
  | .env _ => True

instance (sys : System) : DecidablePred (InTurn sys)
  | .spawn (.listRoutes q) => inferInstanceAs (Decidable (sys.Quiescent ∧ OwnEntry sys q))
  | .spawn (.createRoute ..) => inferInstanceAs (Decidable sys.Quiescent)
  | .spawn (.register ..) | .spawn (.login ..) | .spawn (.listSeats _) | .spawn (.createBooking ..)
  | .spawn (.myBookings _) | .spawn (.cancelBooking ..) => isFalse id
  | .run o _ => inferInstanceAs (Decidable (o = .ok))
  | .env _ => isTrue trivial

/-- What a search knows in a stage, `p` being the page of its query. -/
def Stage.Reading (q : RouteQuery) (p : Page) : Stage → Prop
  | .start | .missed => True
  | .counted total => total = p.total
  | .storing key _ value resp => key = routesKey q ∧ value = p.toJson ∧ resp = .routes p
  | .closing j => j = .read (.routes p)
  | .ended resp => resp = .routes p
  | _ => False

section

variable {server : Server} {a a' : Abs World Request Stage} {i : Nat} {q : RouteQuery} {g g' : Stage}
  {w w' : World} {c : Call} {o : Outcome} {sys sys' : System} {l : Label} {call : Option Call} {p : Page}

theorem pageOf_congr {db db' : Db} (h : db'.routes = db.routes) (q : RouteQuery) :
    pageOf server db' q = pageOf server db q := by
  unfold pageOf World.routesOf
  rw [h]

/-- With the cache disconnected a search reads its page. -/
theorem disconnected_listRoutes (h : Reachable server sys) (hq : sys.Quiescent) (q : RouteQuery) :
    (disconnected server sys (.listRoutes q)).map Prod.fst =
      some (.routes (pageOf server sys.shared.db q)) := by
  obtain ⟨a, hv, hinv⟩ := h.inv
  have hview : sys.shared.view sys.tasks.length = sys.shared.db := by
    show Store.view _ _ = _
    unfold Store.view
    rw [own_of_quiescent hv hinv hq]
    rfl
  rw [← hview]
  rfl

/-! ## One search -/

/-- **One step of a search** whose entry, if it finds one, is its page. -/
theorem Inv.reading_step (hinv : Inv server a) (hi : a.phase i = some (.listRoutes q, g))
    (hg : g.Reading q (pageOf server a.shared.db q))
    (hentry : ∀ v, a.shared.redis.get (routesKey q) = some v → v = (pageOf server a.shared.db q).toJson)
    (hs : Step server (.listRoutes q) i .ok c g a.shared g' w') :
    g'.Reading q (pageOf server a.shared.db q) := by
  have hview := hinv.view hi
  cases hs with
  | read hr =>
    cases hr with
    | again ha => cases ha
    | lost hno hex =>
      obtain ⟨_, _, ha⟩ := hex
      cases ha
    | count hf =>
      rw [hview (by simp), hf]
      rfl
    | page hf ho hl hp =>
      rw [hview (by simp), hf, ho, hl] at hp
      obtain rfl : _ = (pageOf server a.shared.db q).total := hg
      subst hp
      exact ⟨rfl, rfl, rfl⟩
  | write hw =>
    cases hw
    exact hg.elim
  | writeFails hw =>
    cases hw
    exact hg.elim
  | cachedRoutes hq hk =>
    cases hq
    subst hk
    unfold cacheCheck
    split
    · trivial
    · rename_i cached hget
      rw [hentry cached (Option.filter_eq_some_iff.1 hget).1, Page.ofJson_toJson]
      rfl
  | cachedSeats hq => cases hq
  | store => exact congrArg Job.read hg.2.2
  | commit =>
    obtain rfl := hg
    rfl
  | keys | delete | publish | rollback | lost => exact hg.elim

/-! ## A sequence of searches and creations -/

/-- At most one request is in flight. An entry is the page of the query last searched under its key,
a search reads its page, and past the invalidation of a creation there is no entry. -/
structure Searching (server : Server) (sys : System) (a : Abs World Request Stage) : Prop where
  turn : ∀ i j q g q' g', a.phase i = some (q, g) → a.phase j = some (q', g') → g.Open → g'.Open → i = j
  kinds : ∀ i q g, a.phase i = some (q, g) → g.Open →
    (∃ p, q = .listRoutes p) ∨ ∃ u p, q = .createRoute u p
  entries : ∀ q v, a.shared.redis.get (routesKey q) = some v →
    ∃ q', lastSearch sys (routesKey q) = some q' ∧ v = (pageOf server a.shared.db q').toJson
  reading : ∀ i q g, a.phase i = some (.listRoutes q, g) → g.Open →
    lastSearch sys (routesKey q) = some q ∧ g.Reading q (pageOf server a.shared.db q)
  deleting : ∀ i u p j keys, a.phase i = some (.createRoute u p, .deleting j keys) →
    ∀ q, (a.shared.redis.get (routesKey q)).isSome → routesKey q ∈ keys
  gone : ∀ i u p g, a.phase i = some (.createRoute u p, g) → g.invalidated?.isSome →
    ∀ q, a.shared.redis.get (routesKey q) = none

theorem lastSearch_congr (h : sys'.requests = sys.requests) (key : String) :
    lastSearch sys' key = lastSearch sys key := by
  unfold lastSearch
  rw [h]

theorem lastSearch_listRoutes (h : sys'.requests = sys.requests ++ [.listRoutes q]) (key : String) :
    lastSearch sys' key = if routesKey q = key then some q else lastSearch sys key := by
  unfold lastSearch
  rw [h, List.filterMap_append, List.filter_append]
  by_cases hk : routesKey q = key <;> simp [Request.query?, hk]

theorem lastSearch_other {r : Request} (h : sys'.requests = sys.requests ++ [r]) (hr : r.query? = none)
    (key : String) : lastSearch sys' key = lastSearch sys key := by
  unfold lastSearch
  rw [h, List.filterMap_append]
  simp [hr]

/-- The entries are those of the searches since the last creation, and the routes do not change
otherwise. -/
theorem Searching.routes_step (h : Searching server sys a) (hinv : Inv server a)
    (hs : (protocol server).Step envStep a l call a') : a'.shared.db.routes = a.shared.db.routes ∨
      (∃ i u p j, a.phase i = some (.createRoute u p, .closing j)) ∧
        ∀ q, a'.shared.redis.get (routesKey q) = none := by
  cases hs with
  | env he =>
    rename_i e w'
    cases e <;> cases he <;> exact .inl rfl
  | spawn hi => exact .inl rfl
  | run hi hw hst =>
    rename_i o i r g g' c w'
    by_cases hend : ∃ resp, g' = .ended resp
    · obtain ⟨resp, rfl⟩ := hend
      rcases hst.ended with ⟨j, rfl, -, hw'⟩ | ⟨e, e', -, -, rfl⟩
      · subst hw'
        rcases h.kinds i _ _ hi (open_of_waits (q := r) hw) with ⟨q, rfl⟩ | ⟨u, p, rfl⟩
        · obtain ⟨-, rfl⟩ := h.reading i _ _ hi (by simp [Stage.Open])
          have hview : (a.shared.commit i).db = Store.applyAll Db.schema [] a.shared.db :=
            hinv.view hi (by simp)
          exact .inl (congrArg (·.routes) hview)
        · obtain ⟨route, first, rfl, -⟩ := Job.Facts.isRoute (hinv.facts i _ _ hi)
          exact .inr ⟨⟨i, u, p, _, hi⟩, h.gone i u p _ hi rfl⟩
      · exact .inl rfl
    · have hdb : w'.db = a.shared.db := hst.db_eq (hinv.ne_lost hi) (not_exists.1 hend)
      exact .inl (congrArg (·.routes) hdb)

/-- What is stored is stored by the request in flight. -/
theorem Searching.redis_step (h : Searching server sys a) (hinv : Inv server a)
    (hs : (protocol server).Step envStep a l call a') {v : Json}
    (hv : a'.shared.redis.get (routesKey q) = some v) : a.shared.redis.get (routesKey q) = some v ∨
      ∃ i p ttl resp, a.phase i = some (.listRoutes p, .storing (routesKey q) ttl v resp) ∧
        lastSearch sys (routesKey q) = some p ∧ v = (pageOf server a.shared.db p).toJson := by
  rcases hinv.redis_step hs hv with hold | ⟨i, r, ttl, resp, -, -, hi⟩
  · exact .inl hold
  · rcases h.kinds i _ _ hi (by simp [Stage.Open]) with ⟨p, rfl⟩ | ⟨u, p, rfl⟩
    · obtain ⟨hlast, hkey, hv, -⟩ := h.reading i _ _ hi (by simp [Stage.Open])
      exact .inr ⟨i, p, ttl, resp, hi, hkey ▸ hlast, hv⟩
    · have : Request.reads (.createRoute u p) = true := hinv.facts i _ _ hi
      cases this

theorem InTurn.quiescent {r : Request} (hl : InTurn sys (.spawn r)) : sys.Quiescent := by
  cases r with
  | listRoutes q => exact hl.1
  | createRoute u p => exact hl
  | _ => exact hl.elim

/-- A query keeps its last search while no other one arrives. -/
theorem lastSearch_step (hl : InTurn sys l) (hstep : (semantics server).step sys l = some sys')
    (key : String) : lastSearch sys' key = lastSearch sys key ∨
      ∃ p, l = .spawn (.listRoutes p) ∧ routesKey p = key ∧ lastSearch sys' key = some p := by
  have hreqs := step_requests hstep
  cases l with
  | spawn r =>
    cases r with
    | listRoutes p =>
      rw [lastSearch_listRoutes hreqs]
      by_cases hk : routesKey p = key
      · exact .inr ⟨p, rfl, hk, if_pos hk⟩
      · exact .inl (if_neg hk)
    | _ => exact .inl (lastSearch_other hreqs rfl key)
  | run | env => exact .inl (lastSearch_congr (by simpa using hreqs) key)

/-- The routes do not change while a search is in flight. -/
theorem Searching.routes_eq (h : Searching server sys a) (hinv : Inv server a)
    (hs : (protocol server).Step envStep a l call a') (hi : a.phase i = some (.listRoutes q, g))
    (hg : g.Open) :
    a'.shared.db.routes = a.shared.db.routes :=
  (h.routes_step hinv hs).resolve_right fun ⟨⟨k, u, p, j, hk⟩, _⟩ => by
    obtain rfl := h.turn i k _ _ _ _ hi hk hg (by simp [Stage.Open])
    rw [hi] at hk
    cases hk

/-- An entry that a search finds is its page. -/
theorem Searching.reading_step (h : Searching server sys a) (hinv : Inv server a)
    (hi : a.phase i = some (.listRoutes q, g)) (hg : g.Open)
    (hst : Step server (.listRoutes q) i .ok c g a.shared g' w') :
    g'.Reading q (pageOf server a.shared.db q) := by
  obtain ⟨hlast, hread⟩ := h.reading i q g hi hg
  refine hinv.reading_step hi hread (fun v hv => ?_) hst
  obtain ⟨q', hlast', hpage⟩ := h.entries q v hv
  rw [hlast] at hlast'
  rw [hpage, ← Option.some.inj hlast']

/-- The cached searches match the pattern that a creation deletes. -/
theorem mem_keysOf_routesKey {redis : Redis.Keyspace Json} (h : (redis.get (routesKey q)).isSome) :
    routesKey q ∈ redis.keysOf "routes:*" :=
  Redis.Keyspace.mem_keysOf.2 ⟨h, isMatch_routesPattern.2 (toList_routesKey q)⟩

/-- Past its invalidation a creation finds no entry: no search is in flight. -/
theorem Searching.gone_step (h : Searching server sys a) (hinv : Inv server a)
    (hs : (protocol server).Step envStep a l call a') {u : Int} {p : RouteCreate}
    (hi : a.phase i = some (.createRoute u p, g)) (hg : g.invalidated?.isSome) (q : RouteQuery) :
    a'.shared.redis.get (routesKey q) = none := by
  by_contra hne
  obtain ⟨v, hsome⟩ := Option.ne_none_iff_exists'.1 hne
  rcases h.redis_step hinv hs hsome with hold | ⟨k, p', ttl, resp, hk, -⟩
  · rw [h.gone i u p g hi hg q] at hold
    cases hold
  · have hopen : g.Open := fun resp he => by
      subst he
      cases hg
    obtain rfl := h.turn i k _ _ _ _ hi hk hopen (by simp [Stage.Open])
    rw [hi] at hk
    cases hk

theorem Searching.inFlight (h : Searching server sys a) :
    OneInFlight (fun q => (∃ p, q = .listRoutes p) ∨ ∃ u p, q = .createRoute u p) a := ⟨h.turn, h.kinds⟩

theorem InTurn.kinds {r : Request} (hl : InTurn sys (.spawn r)) :
    (∃ p, r = .listRoutes p) ∨ ∃ u p, r = .createRoute u p := by
  cases r with
  | listRoutes p => exact .inl ⟨p, rfl⟩
  | createRoute u p => exact .inr ⟨u, p, rfl⟩
  | _ => exact hl.elim

theorem Searching.inFlight_step (h : Searching server sys a) (hv : View server sys a) (hinv : Inv server a)
    (hl : InTurn sys l) (hs : (protocol server).Step envStep a l call a') :
    OneInFlight (fun q => (∃ p, q = .listRoutes p) ∨ ∃ u p, q = .createRoute u p) a' := by
  refine h.inFlight.step hv hinv (fun r he => ?_) hs
  subst he
  exact ⟨hl.quiescent, hl.kinds⟩

theorem Searching.step (h : Searching server sys a) (hv : View server sys a) (hinv : Inv server a)
    (hl : InTurn sys l) (hstep : (semantics server).step sys l = some sys')
    (hs : (protocol server).Step envStep a l (sys.callOf l) a') : Searching server sys' a' where
  turn := (h.inFlight_step hv hinv hl hs).turn
  kinds := (h.inFlight_step hv hinv hl hs).kinds
  entries q v hsome := by
    have hroutes := (h.routes_step hinv hs).resolve_right fun hnone => by
      rw [hnone.2 q] at hsome
      cases hsome
    rcases h.redis_step hinv hs hsome with hold | ⟨i, p, ttl, resp, hi, hlast, hpage⟩
    · obtain ⟨q', hlast, hpage⟩ := h.entries q v hold
      rcases lastSearch_step hl hstep (routesKey q) with hsame | ⟨p, rfl, hkey, hnew⟩
      · exact ⟨q', hsame.trans hlast, by rw [pageOf_congr hroutes, hpage]⟩
      · have hown := hl.2 (by rw [hkey, ← hv.shared, hold]; rfl)
        rw [hkey, hlast] at hown
        exact ⟨p, hnew, by rw [pageOf_congr hroutes, hpage, Option.some.inj hown]⟩
    · rcases lastSearch_step hl hstep (routesKey q) with hsame | ⟨p', rfl, -, -⟩
      · exact ⟨p, hsame.trans hlast, by rw [pageOf_congr hroutes, hpage]⟩
      · obtain ⟨resp, he⟩ := ended_of_quiescent hv hinv hl.quiescent hi
        cases he
  reading i q g hi hg := by
    rcases hs.phase_eq hi with hold | ⟨rfl, -, rfl⟩ | ⟨o, c, g₀, rfl, -, hi₀, hw, hst⟩
    · obtain ⟨hlast, hread⟩ := h.reading i q g hold hg
      rw [pageOf_congr (h.routes_eq hinv hs hold hg)]
      rcases lastSearch_step hl hstep (routesKey q) with hsame | ⟨p, rfl, -, -⟩
      · exact ⟨hsame.trans hlast, hread⟩
      · obtain ⟨resp, rfl⟩ := ended_of_quiescent hv hinv hl.quiescent hold
        exact absurd rfl (hg resp)
    · rw [lastSearch_listRoutes (step_requests hstep), if_pos rfl]
      exact ⟨rfl, trivial⟩
    · obtain rfl : o = .ok := hl
      have hopen : g₀.Open := open_of_waits (q := .listRoutes q) hw
      rw [pageOf_congr (h.routes_eq hinv hs hi₀ hopen),
        lastSearch_congr (by simpa using step_requests hstep)]
      exact ⟨(h.reading i q g₀ hi₀ hopen).1, h.reading_step hinv hi₀ hopen hst⟩
  deleting i u p j keys hi q hsome := by
    rcases hs.phase_eq hi with hold | ⟨-, -, hstart⟩ | ⟨o, c, g₀, -, -, hi₀, -, hst⟩
    · obtain ⟨v, hsome⟩ := Option.isSome_iff_exists.1 hsome
      rcases h.redis_step hinv hs hsome with hv | ⟨k, p', ttl, resp, hk, -⟩
      · exact h.deleting i u p j keys hold q (by rw [hv]; rfl)
      · obtain rfl := h.turn i k _ _ _ _ hold hk (by simp [Stage.Open]) (by simp [Stage.Open])
        rw [hold] at hk
        cases hk
    · cases hstart
    · obtain ⟨route, first, rfl, -⟩ := Job.Facts.isRoute ((hinv.step hs).facts i _ _ hi)
      obtain ⟨rfl, -, hw'⟩ := Step.deleting hst (hinv.ne_lost hi₀)
      rw [hw'] at hsome
      exact mem_keysOf_routesKey hsome
  gone i u p g hi hg q := by
    rcases hs.phase_eq hi with hold | ⟨-, -, hstart⟩ | ⟨o, c, g₀, -, -, hi₀, -, hst⟩
    · exact h.gone_step hinv hs hold hg q
    · rw [hstart] at hg
      cases hg
    · obtain ⟨j, hj⟩ := Option.isSome_iff_exists.1 hg
      rcases hst.invalidated (hinv.ne_lost hi₀) hj with hj | ⟨rfl, hkeys, hw'⟩ | ⟨keys, rfl, hw'⟩
      · exact h.gone_step hinv hs hi₀ (by rw [hj]; rfl) q
      · obtain ⟨route, first, rfl, -⟩ := Job.Facts.isRoute (hinv.facts i _ _ hi₀)
        rw [hw']
        by_contra hne
        have hmem := mem_keysOf_routesKey (Option.isSome_iff_ne_none.2 hne)
        rw [show a.shared.redis.keysOf "routes:*" = [] from hkeys] at hmem
        cases hmem
      · rw [hw']
        show (a.shared.redis.del keys).get _ = none
        rw [Redis.Keyspace.get_del]
        split
        · rfl
        · rename_i hnot
          by_contra hne
          exact hnot (h.deleting i u p j keys hi₀ q (Option.isSome_iff_ne_none.2 hne))

/-! ## Answers -/

/-- Request `i` arrived in `sys₁`, in a run from `sys₀` to `sys`. -/
structure Arrived (server : Server) (sys₀ sys₁ sys : System) (i : Nat) (r : Request) : Prop where
  before : Run (semantics server) InTurn sys₀ sys₁
  quiescent : sys₁.Quiescent
  index : sys₁.tasks.length = i
  after : Run (semantics server) InTurn (arrive server sys₁ r) sys

/-- A search since `sys₀` is answered with the page of the database it found. -/
def Answering (server : Server) (sys₀ sys : System) (a : Abs World Request Stage) : Prop :=
  ∀ i q g, sys₀.tasks.length ≤ i → a.phase i = some (.listRoutes q, g) →
    ∃ sys₁, Arrived server sys₀ sys₁ sys i (.listRoutes q) ∧
      (g.Open → a.shared.db.routes = sys₁.shared.db.routes) ∧
      ∀ resp, g = .ended resp → resp = .routes (pageOf server sys₁.shared.db q)

theorem Answering.step {sys₀ : System} (h : Answering server sys₀ sys a) (hsearch : Searching server sys a)
    (hinv : Inv server a) (hv : View server sys a) (hv' : View server sys' a')
    (hpre : Run (semantics server) InTurn sys₀ sys) (hl : InTurn sys l)
    (hstep : (semantics server).step sys l = some sys')
    (hs : (protocol server).Step envStep a l (sys.callOf l) a') : Answering server sys₀ sys' a' := by
  intro i q g hn hi
  have hext : ∀ {s}, Run (semantics server) InTurn s sys → Run (semantics server) InTurn s sys' :=
    fun hr => .step hr hl hstep
  rcases hs.phase_eq hi with hold | ⟨rfl, hnone, hstart⟩ | ⟨o, c, g₀, rfl, -, hi₀, hw, hst⟩
  · obtain ⟨sys₁, harr, hroutes, hend⟩ := h i q g hn hold
    exact ⟨sys₁, { harr with after := hext harr.after },
      fun hg => (hsearch.routes_eq hinv hs hold hg).trans (hroutes hg), hend⟩
  · obtain rfl : arrive server sys (.listRoutes q) = sys' := Option.some.inj hstep
    have hindex : sys.tasks.length = i := by
      obtain ⟨t, ht, -⟩ := hv'.waits hi
      have hlt := (List.getElem?_eq_some_iff.1 ht).1
      simp only [arrive, List.length_append, List.length_singleton] at hlt
      rcases Nat.lt_or_ge i sys.tasks.length with hold | hge
      · obtain ⟨g', hg', -⟩ := hv.sim i _ (List.getElem?_eq_getElem hold)
        rw [hnone] at hg'
        cases hg'
      · omega
    refine ⟨sys, ⟨hpre, hl.quiescent, hindex, .refl _⟩, fun _ => ?_, fun resp he => ?_⟩
    · rw [hv'.shared]
      rfl
    · rw [hstart] at he
      cases he
  · obtain rfl : o = .ok := hl
    have hopen : g₀.Open := open_of_waits (q := .listRoutes q) hw
    obtain ⟨sys₁, harr, hroutes, -⟩ := h i q g₀ hn hi₀
    refine ⟨sys₁, { harr with after := hext harr.after },
      fun _ => (hsearch.routes_eq hinv hs hi₀ hopen).trans (hroutes hopen), fun resp he => ?_⟩
    subst he
    rw [← pageOf_congr (hroutes hopen)]
    exact hsearch.reading_step hinv hi₀ hopen hst

/-- In every sequence of searches and creations of routes in which a search finds only entries of
its own query, each search is answered as if the cache were disconnected when it arrives. -/
theorem listRoutes_transparent {sys₀ : System} (h₀ : Reachable server sys₀) (hq : sys₀.Quiescent)
    (hempty : ∀ q, sys₀.shared.redis.get (routesKey q) = none)
    (hrun : Run (semantics server) InTurn sys₀ sys)
    (hn : sys₀.tasks.length ≤ i) (hreq : sys.request i = some (.listRoutes q)) {resp : Response}
    (hans : sys.answer i = some resp) : ∃ sys₁, Arrived server sys₀ sys₁ sys i (.listRoutes q) ∧
      (disconnected server sys₁ (.listRoutes q)).map Prod.fst = some resp := by
  obtain ⟨a₀, hv₀, hinv₀⟩ := h₀.inv
  have hend : ∀ {i r g}, a₀.phase i = some (r, g) → ¬ g.Open := not_open_of_quiescent hv₀ hinv₀ hq
  have hstart : Searching server sys₀ a₀ :=
    { turn := fun i j q g q' g' hi hj hg hg' => absurd hg (hend hi)
      kinds := fun i q g hi hg => absurd hg (hend hi)
      entries := fun q v hv => by
        rw [hv₀.shared, hempty q] at hv
        cases hv
      reading := fun i q g hi hg => absurd hg (hend hi)
      deleting := fun i u p j keys hi => absurd (by simp [Stage.Open]) (hend hi)
      gone := fun i u p g hi hg => by
        obtain ⟨resp, rfl⟩ := ended_of_quiescent hv₀ hinv₀ hq hi
        cases hg }
  have hnone : Answering server sys₀ sys₀ a₀ := fun i q g hn hi => by
    rw [hv₀.fresh i (by simpa using hn)] at hi
    cases hi
  obtain ⟨a, hv, hinv, -, hanswers⟩ := Run.invariant_along
    (I := fun sys a => Inv server a ∧ Searching server sys a ∧ Answering server sys₀ sys a) handler_sim
    (fun _ _ l _ _ hpre hl hstep hv hv' ⟨hinv, hsearch, hanswers⟩ hs => ⟨hinv.step hs,
      hsearch.step hv hinv hl hstep hs, hanswers.step hsearch hinv hv hv' hpre hl hstep hs⟩)
    hrun hv₀ ⟨hinv₀, hstart, hnone⟩
  obtain ⟨t, ht, hreq⟩ := Option.map_eq_some_iff.1 hreq
  obtain ⟨t', ht', hres⟩ := Option.bind_eq_some_iff.1 hans
  obtain rfl : t = t' := Option.some.inj (ht.symm.trans ht')
  obtain ⟨g, hi, hends⟩ := hv.ends ht hres
  rw [hreq] at hi
  obtain rfl := hends.resolve_right (hinv.ne_lost hi)
  obtain ⟨sys₁, harr, -, hresp⟩ := hanswers i q _ hn hi
  obtain ⟨s, hs, hr⟩ := h₀
  have hreach : Reachable server sys₁ := ⟨s, hs, hr.trans (harr.before.mono fun _ _ _ => trivial)⟩
  exact ⟨sys₁, harr, by rw [disconnected_listRoutes hreach harr.quiescent, hresp resp rfl]⟩

end

/-- All routes, and those with `None` in their origin. -/
def anyRoute : RouteQuery := ⟨⟨none, none⟩, 1, 20, by decide, by decide⟩

def noneRoute : RouteQuery := ⟨⟨some "None", none⟩, 1, 20, by decide, by decide⟩

/-- The routes are searched twice; the second search finds the entry of the first. -/
theorem listRoutes_transparent_twice : ∃ sys sys₁ : System,
    sys.answer 2 = some (.routes ⟨1, 1, 20, [⟨1, "Moskva"⟩]⟩) ∧
    Arrived plainServer someStart sys₁ sys 2 (.listRoutes anyRoute) ∧
    (disconnected plainServer sys₁ (.listRoutes anyRoute)).map Prod.fst =
      some (.routes ⟨1, 1, 20, [⟨1, "Moskva"⟩]⟩) := by
  have hruns : ((semantics plainServer).stepsIf InTurn someStart (routeCreated ++
      .spawn (.listRoutes anyRoute) :: calls 1 5 ++ .spawn (.listRoutes anyRoute) :: calls 2 2)).any
      (fun sys =>
        sys.request 2 = some (.listRoutes anyRoute) ∧
          sys.answer 2 = some (.routes ⟨1, 1, 20, [⟨1, "Moskva"⟩]⟩)) = true := by decide +kernel
  obtain ⟨sys, hsys, hP⟩ := (Option.any_eq_true _ _).1 hruns
  obtain ⟨hreq, hans⟩ := of_decide_eq_true hP
  obtain ⟨sys₁, harr, hsame⟩ := listRoutes_transparent ⟨someStart, start_someStart, .refl _⟩ (by decide)
    (fun _ => rfl) (Run.of_stepsIf hsys) (Nat.zero_le 2) hreq hans
  exact ⟨sys, sys₁, hans, harr, hsame⟩

/-- After a search for all routes, one for the origin `None` is answered from its entry: both have
the key `routes:None:None:1:20`. -/
theorem listRoutes_collides : ∃ sys, runSome (routeCreated ++ .spawn (.listRoutes anyRoute) :: calls 1 5) =
      some sys ∧ sys.Quiescent ∧
    (alone plainServer sys (.listRoutes noneRoute)).map Prod.fst =
      some (.routes ⟨1, 1, 20, [⟨1, "Moskva"⟩]⟩) ∧
    (disconnected plainServer sys (.listRoutes noneRoute)).map Prod.fst = some (.routes ⟨0, 1, 20, []⟩) :=
  exists_runSome _ _ (by decide +kernel)

end BusBookings

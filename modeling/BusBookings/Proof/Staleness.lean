import BusBookings.App.Clock
import BusBookings.Proof.Answers

/-!
# How old an answer is

A listing or a search may be answered from the cache, with what another request read before. In time
(`App/Clock.lean`) this has a bound, in every run: what is answered was stored not longer ago than the time
to live of its entry, by a request that had just read it (`answers_age`). So the listings settle, whatever
the requests and their failures have left in the cache: when the listings in flight are over and the data
stays as it is, every request that comes after the time to live is answered with the data
(`listSeats_settles`, `listRoutes_settles`).
-/

namespace BusBookings

open Async ReadCommitted

/-! ## What the cache keeps -/

/-- The seats of a route, or the page of a query. -/
inductive Content where
  | seats (r : Int) (l : List SeatOut)
  | routes (p : RouteQuery) (pg : Page)

namespace Content

def request : Content → Request
  | .seats r _ => .listSeats r
  | .routes p _ => .listRoutes p

def key : Content → String
  | .seats r _ => seatsKey r
  | .routes p _ => routesKey p

/-- In seconds. -/
def ttl : Content → Nat
  | .seats .. => 15
  | .routes .. => 30

def value : Content → Json
  | .seats _ l => seatsToJson l
  | .routes _ pg => pg.toJson

def response : Content → Response
  | .seats _ l => .seats l
  | .routes _ pg => .routes pg

end Content

def Request.cacheKey? : Request → Option String
  | .listSeats r => some (seatsKey r)
  | .listRoutes p => some (routesKey p)
  | _ => none

section

variable (server : Server) (sys₀ : TimedSystem) (ls : List TimedLabel)

/-- Request `j` has counted the routes of its query. -/
def Counts (j : Nat) (p : RouteQuery) (total : Int) : Prop := (timed server).Once sys₀ (fun _ sys =>
  InFlight (untimed sys) j (.listRoutes p) ∧
    total = sys.shared.world.db.routes.rows.countP (p.toRouteFilter.accepts server.fold)) ls

/-- Request `j` has read it in the database. -/
def Content.Loaded (j : Nat) : Content → Prop
  | .seats r l => (timed server).Once sys₀ (fun _ sys =>
      InFlight (untimed sys) j (.listSeats r) ∧ l = seatOuts sys.shared.world.db r) ls
  | .routes p pg => pg.page = p.page ∧ pg.size = p.size ∧ (timed server).Once sys₀ (fun ls₁ sys =>
      Counts server sys₀ ls₁ j p pg.total ∧ InFlight (untimed sys) j (.listRoutes p) ∧
        pg.items = (World.routesOf server sys.shared.world.db p.toRouteFilter
          ((p.page - 1) * p.size) p.size).map .ofRoute) ls

/-- It is stored under `key` until `d`: a request in flight had read it. -/
def Kept (key : String) (v : Json) (d : Nat) : Prop :=
  ∃ x : Content, x.key = key ∧ x.value = v ∧ (timed server).Once sys₀ (fun ls₁ sys =>
    (∃ j, InFlight (untimed sys) j x.request ∧ x.Loaded server sys₀ ls₁ j) ∧ d = now sys + 1000 * x.ttl) ls

/-- Request `i` has read the content of its response itself, or has found it in the cache, where a request
stored it that had read it, not longer ago than its time to live. -/
def Sourced (i : Nat) (q : Request) (resp : Response) : Prop :=
  ∃ x : Content, x.response = resp ∧ q.cacheKey? = some x.key ∧
    ((q = x.request ∧ x.Loaded server sys₀ ls i) ∨ (timed server).Once sys₀ (fun ls₁ sys₁ =>
      InFlight (untimed sys₁) i q ∧ (timed server).Once sys₀ (fun ls₂ sys₂ =>
        (∃ j, InFlight (untimed sys₂) j x.request ∧ x.Loaded server sys₀ ls₂ j) ∧
          now sys₁ ≤ now sys₂ + 1000 * x.ttl) ls₁) ls)

end

/-- What a request is about to answer, or has answered. -/
def Stage.response? : Stage → Option Response
  | .storing _ _ _ resp | .ended resp => some resp
  | .invalidating j | .deleting j _ | .invalidated j | .notifying j _ | .closing j => some j.response
  | _ => none

section

variable {server : Server} {sys₀ sys : TimedSystem} {ls : List TimedLabel} {x : Content} {i j : Nat}
  {q : Request} {g g' : Stage} {w w' : World} {o : Outcome} {c : Call} {key : String} {ttl : Nat} {v : Json}
  {resp : Response}

theorem Content.Loaded.append (h : x.Loaded server sys₀ ls j) (ls' : List TimedLabel) :
    x.Loaded server sys₀ (ls ++ ls') j := by
  cases x with
  | seats r l => exact Semantics.Once.append h ls'
  | routes p pg => exact ⟨h.1, h.2.1, h.2.2.append ls'⟩

theorem Kept.append {d : Nat} (h : Kept server sys₀ ls key v d) (ls' : List TimedLabel) :
    Kept server sys₀ (ls ++ ls') key v d := by
  obtain ⟨x, hk, hv, h⟩ := h
  exact ⟨x, hk, hv, h.append ls'⟩

theorem Sourced.append (h : Sourced server sys₀ ls i q resp) (ls' : List TimedLabel) :
    Sourced server sys₀ (ls ++ ls') i q resp := by
  obtain ⟨x, hresp, hkey, h⟩ := h
  exact ⟨x, hresp, hkey, h.imp (fun h => ⟨h.1, h.2.append ls'⟩) fun h => h.append ls'⟩

/-! ## What one call does -/

/-- What `x` says is in the database; the routes of a page have been counted. -/
def Content.ReadIn (server : Server) (db : Db) (g : Stage) : Content → Prop
  | .seats r l => l = seatOuts db r
  | .routes p pg => g = .counted pg.total ∧ pg.page = p.page ∧ pg.size = p.size ∧
      pg.items = (World.routesOf server db p.toRouteFilter ((p.page - 1) * p.size) p.size).map .ofRoute

theorem Reads.content {db : Db} (h : Reads server db q c g (.storing key ttl v resp)) :
    g.writes = [] ∧ ∃ x : Content, key = x.key ∧ ttl = x.ttl ∧ v = x.value ∧ resp = x.response ∧
      q = x.request ∧ x.ReadIn server db g := by
  generalize hg' : Stage.storing key ttl v resp = g' at h
  cases h with
  | again ha hp => cases ha <;> cases hg'
  | route => exact absurd hg'.symm (routeCheck_ind (by simp) (by simp) _)
  | seat => exact absurd hg'.symm (seatCheck_ind (by simp) (by simp) _)
  | booking => exact absurd hg'.symm (cancelCheck_ind (by simp) (by simp) _)
  | admin => exact absurd hg'.symm (adminCheck_ind (by simp) (by simp) _)
  | email => exact absurd hg'.symm (registerCheck_ind (by simp) (by simp) _)
  | login => exact absurd hg'.symm (loginCheck_ind (by simp) (by simp) _)
  | page hf ho hl hp =>
    cases hg'
    subst hf ho hl hp
    exact ⟨rfl, .routes _ _, rfl, rfl, rfl, rfl, rfl, rfl, rfl, rfl, rfl⟩
  | seats hl =>
    cases hg'
    subst hl
    exact ⟨rfl, .seats _ _, rfl, rfl, rfl, rfl, rfl, rfl⟩
  | _ => cases hg'

theorem Reads.counted {db : Db} {total : Int} (h : Reads server db q c g (.counted total)) :
    g.writes = [] ∧ ∃ p, q = .listRoutes p ∧
      total = db.routes.rows.countP (p.toRouteFilter.accepts server.fold) := by
  generalize hg' : Stage.counted total = g' at h
  cases h with
  | again ha hp => cases ha <;> cases hg'
  | route => exact absurd hg'.symm (routeCheck_ind (by simp) (by simp) _)
  | seat => exact absurd hg'.symm (seatCheck_ind (by simp) (by simp) _)
  | booking => exact absurd hg'.symm (cancelCheck_ind (by simp) (by simp) _)
  | admin => exact absurd hg'.symm (adminCheck_ind (by simp) (by simp) _)
  | email => exact absurd hg'.symm (registerCheck_ind (by simp) (by simp) _)
  | login => exact absurd hg'.symm (loginCheck_ind (by simp) (by simp) _)
  | count hf =>
    cases hg'
    subst hf
    exact ⟨rfl, _, rfl, rfl⟩
  | _ => cases hg'

/-- The stages of a request that has read what it stores. -/
def Stage.fetching : Stage → Bool
  | .counted _ | .storing .. => true
  | _ => false

theorem fetching_afterDelete (j : Job) : (Stage.afterDelete j).fetching = false := by cases j <;> rfl

theorem fetching_afterPublish (j : Job) : (Stage.afterPublish j).fetching = false := by
  cases j with
  | cancel b free => cases free <;> rfl
  | _ => rfl

/-- They are reached by reads. -/
theorem Step.reads (h : Step server q i o c g w g' w') (hl : g ≠ .lost) (hg' : g'.fetching = true) :
    Reads server (w.view i) q c g g' := by
  cases h with
  | read hr => exact hr
  | write hw hch => cases hw <;> cases hg'
  | cachedRoutes | cachedSeats =>
    exact absurd hg' (cacheCheck_ind (motive := (·.fetching ≠ true)) (by simp [Stage.fetching])
      (by simp [Stage.fetching]) (by simp [Stage.fetching]) _)
  | keys =>
    unfold Stage.afterKeys at hg'
    split at hg'
    · rw [fetching_afterDelete] at hg'
      cases hg'
    · cases hg'
  | delete =>
    rw [fetching_afterDelete] at hg'
    cases hg'
  | publish =>
    rw [fetching_afterPublish] at hg'
    cases hg'
  | lost => exact absurd rfl hl
  | _ => cases hg'

theorem waits_setex (h : Step server q i .ok (.setex key ttl v) g w g' w') (hl : g ≠ .lost) :
    ∃ resp, g = .storing key ttl v resp := by
  generalize hc : Call.setex key ttl v = c at h
  cases h with
  | read hr =>
    cases hr with
    | again ha hp => cases ha <;> cases hc
    | lost ha he =>
      obtain ⟨p, g', he⟩ := he
      cases he <;> cases hc
    | _ => cases hc
  | write hw hch => cases hw <;> cases hc
  | writeFails hw hch => cases hw <;> cases hc
  | store =>
    cases hc
    exact ⟨_, rfl⟩
  | lost => exact absurd rfl hl
  | _ => cases hc

theorem response_afterDelete (j : Job) : (Stage.afterDelete j).response? = some j.response := by cases j <;> rfl

theorem response_afterPublish {j : Job} {x : Content} (h : (Stage.afterPublish j).response? = some x.response) :
    some j.response = some x.response := by
  cases j with
  | cancel b free =>
    cases free with
    | true => cases h
    | false => exact h
  | _ => exact h

theorem errorResponse_ne_content (e : Exc) (x : Content) : errorResponse e ≠ x.response := by
  cases e <;> cases x <;> exact nofun

/-- What a reader makes of its entry, which is that of its key. -/
theorem response_cacheCheck {α : Type} {ofJson? : Json → Option α} {resp : α → Response}
    (hread : ∀ y : Content, y.key = key → ∀ a, ofJson? y.value = some a → resp a = y.response)
    (hx : (cacheCheck ofJson? resp (w.redis.get key)).response? = some x.response) :
    ∃ v, w.redis.get key = some v ∧ ∀ y : Content, y.key = key → y.value = v → y.response = x.response := by
  unfold cacheCheck at hx
  split at hx
  · cases hx
  · rename_i v hv
    refine ⟨v, (Option.filter_eq_some_iff.1 hv).1, ?_⟩
    split at hx
    · rename_i a ha
      rintro y hkey rfl
      exact (hread y hkey a ha).symm.trans (Option.some.inj hx)
    · cases hx

/-- **Where a response comes from**: the request has it already, it has just read it, or it is the entry of
its key. -/
theorem Step.response (h : Step server q i o c g w g' w') (hl : g ≠ .lost)
    (hx : g'.response? = some x.response) : g.response? = some x.response ∨
      (∃ key ttl v, g' = .storing key ttl v x.response) ∨ ∃ key v, q.cacheKey? = some key ∧
        w.redis.get key = some v ∧ ∀ y : Content, y.key = key → y.value = v → y.response = x.response := by
  cases h with
  | fail | writeFails => cases hx
  | read hr =>
    cases hr with
    | again ha hp => cases ha <;> cases x <;> cases hx
    | lost => cases hx
    | route => exact absurd hx (routeCheck_ind (by simp [Stage.response?]) (by simp [Stage.response?]) _)
    | seat => exact absurd hx (seatCheck_ind (by simp [Stage.response?]) (by simp [Stage.response?]) _)
    | booking => exact absurd hx (cancelCheck_ind (by simp [Stage.response?]) (by simp [Stage.response?]) _)
    | admin => exact absurd hx (adminCheck_ind (by simp [Stage.response?]) (by simp [Stage.response?]) _)
    | email => exact absurd hx (registerCheck_ind (by simp [Stage.response?]) (by simp [Stage.response?]) _)
    | login =>
      refine absurd hx (loginCheck_ind (by simp [Stage.response?]) (fun token he => ?_) _)
      cases x <;> cases he
    | page | seats => exact .inr (.inl ⟨_, _, _, congrArg (Stage.storing _ _ _) (Option.some.inj hx)⟩)
    | history => cases x <;> cases hx
    | creator | owner => exact .inl hx
    | _ => cases hx
  | write hw hch => cases hw <;> cases x <;> cases hx
  | cachedRoutes hq hk =>
    subst hq hk
    obtain ⟨v, hv, h⟩ := response_cacheCheck (fun y hkey a ha => by
      cases y with
      | seats r l => exact absurd hkey (seatsKey_ne_routesKey _ _)
      | routes p pg =>
        rw [show (Content.routes p pg).value = pg.toJson from rfl, Page.ofJson_toJson] at ha
        cases ha
        rfl) hx
    exact .inr (.inr ⟨_, v, rfl, hv, h⟩)
  | cachedSeats hq hk =>
    subst hq hk
    obtain ⟨v, hv, h⟩ := response_cacheCheck (fun y hkey a ha => by
      cases y with
      | routes p pg => exact absurd hkey.symm (seatsKey_ne_routesKey _ _)
      | seats r l =>
        rw [show (Content.seats r l).value = seatsToJson l from rfl, seatsOfJson_seatsToJson] at ha
        cases ha
        rfl) hx
    exact .inr (.inr ⟨_, v, rfl, hv, h⟩)
  | store | commit => exact .inl hx
  | keys =>
    unfold Stage.afterKeys at hx
    split at hx
    · rw [response_afterDelete] at hx
      exact .inl hx
    · exact .inl hx
  | delete =>
    rw [response_afterDelete] at hx
    exact .inl hx
  | publish => exact .inl (response_afterPublish hx)
  | rollback => exact absurd (Option.some.inj hx) (errorResponse_ne_content _ _)
  | lost => exact absurd rfl hl

/-! ## Entries and their deadlines -/

/-- The entries after a call. -/
def setEntries (ks : Redis.Keyspace Json) : Outcome → Call → Redis.Keyspace Json
  | .ok, .setex key _ v => ks.set key v
  | .ok, .delete keys => ks.del keys
  | _, _ => ks

theorem exec_redis {r : Except Exc (Reply c)} (h : exec server o i c w = some (r, w')) :
    w'.redis = setEntries w.redis o c := by
  have hchange (w₀ : World) {w' : World} {ch : Change} {r : Except Exc Unit} (h : w₀.change i ch = some (r, w')) :
      w'.redis = w₀.redis := by
    cases r with
    | ok u =>
      obtain ⟨hb, -, rfl⟩ := change_ok h
      rfl
    | error e =>
      obtain ⟨-, -, rfl⟩ := change_error h
      rfl
  have hinsert (w₀ : World) {w' : World} {ch : Change} {id : Int} {r : Except Exc Int}
      (h : w₀.insert i ch id = some (r, w')) : w'.redis = w₀.redis := by
    obtain ⟨⟨r', w''⟩, hch, heq⟩ := Option.map_eq_some_iff.1 h
    cases heq
    exact hchange w₀ hch
  cases o with
  | fail => cases c <;> (cases h; rfl)
  | ok =>
    cases c with
    | insertUser row => exact hinsert (w.bump (.insertUser row)) h
    | insertRoute row => exact hinsert (w.bump (.insertRoute row)) h
    | insertBooking row => exact hinsert (w.bump (.insertBooking row)) h
    | insertSeats routeId numbers => exact hchange (w.bump (.insertSeats routeId numbers)) h
    | updateSeat | updateBooking => exact hchange w h
    | _ => cases h; rfl

/-- What is known of the entries and their deadlines is known after a call, if it is of what is stored. -/
theorem timedExec_dated {φ : String → Json → Nat → Prop} {s s' : Timed} {r : Except Exc (Reply c)}
    (h : timedExec server o i c s = some (r, s')) (hd : Redis.Dated φ s.world.redis s.timers)
    (hφ : ∀ key ttl v, o = .ok → c = .setex key ttl v → φ key v (s.timers.now + 1000 * ttl)) :
    Redis.Dated φ s'.world.redis s'.timers := by
  obtain ⟨hexec, htimers⟩ := timedExec_some h
  rw [exec_redis hexec, htimers]
  cases o with
  | fail => exact hd
  | ok =>
    cases c with
    | setex key ttl v => exact hd.setex (hφ key ttl v rfl rfl)
    | delete keys => exact hd.del keys
    | _ => exact hd

theorem timedEnv_dated {φ : String → Json → Nat → Prop} {s s' : Timed} {e : TimedEvent}
    (h : timedEnv e s = some s') (hd : Redis.Dated φ s.world.redis s.timers) :
    Redis.Dated φ s'.world.redis s'.timers := by
  cases e with
  | tick ms =>
    cases h
    exact hd.tick ms
  | env e =>
    obtain ⟨w, hw, rfl⟩ := Option.map_eq_some_iff.1 h
    cases e with
    | expire key =>
      cases hw
      exact hd.lose [key]
    | setActive | setRole =>
      cases hw
      exact hd

/-! ## In the small installation -/

/-- The small installation, at time 0. -/
def someTimed : TimedSystem := ⟨⟨someStart.shared, ⟨0, ∅⟩⟩, []⟩

/-- A step as it is taken in time. -/
def inTime : Label → TimedLabel
  | .spawn q => .spawn q
  | .run o i => .run o i
  | .env e => .env (.env e)

/-- The checks of a run in three parts. -/
theorem exists_runTimed (ls₁ ls₂ ls₃ : List TimedLabel) (P : TimedSystem → TimedSystem → TimedSystem → Prop)
    [∀ sys₁ sys₂ sys, Decidable (P sys₁ sys₂ sys)]
    (h : (((timed plainServer).steps someTimed ls₁).any fun sys₁ =>
      ((timed plainServer).steps sys₁ ls₂).any fun sys₂ =>
        ((timed plainServer).steps sys₂ ls₃).any fun sys => P sys₁ sys₂ sys) = true) :
    ∃ sys₁ sys₂ sys, (timed plainServer).steps someTimed ls₁ = some sys₁ ∧
      (timed plainServer).steps sys₁ ls₂ = some sys₂ ∧ (timed plainServer).steps sys₂ ls₃ = some sys ∧
        P sys₁ sys₂ sys := by
  obtain ⟨sys₁, h₁, h⟩ := (Option.any_eq_true _ _).1 h
  obtain ⟨sys₂, h₂, h⟩ := (Option.any_eq_true _ _).1 h
  obtain ⟨sys, h₃, h⟩ := (Option.any_eq_true _ _).1 h
  exact ⟨sys₁, sys₂, sys, h₁, h₂, h₃, by simpa using h⟩

theorem not_inFlight_of_quiescent {sys : System} (h : sys.Quiescent) (j : Nat) (q : Request) :
    ¬ InFlight sys j q := fun ⟨hreq, hans⟩ => by
  obtain ⟨t, ht, -⟩ := Option.map_eq_some_iff.1 hreq
  have hwait := h t (List.mem_of_getElem? ht)
  cases hco : t.co with
  | await c k =>
    rw [hco] at hwait
    cases hwait
  | done r => simp [Async.System.answer, ht, hco] at hans

/-- A listing stores a free seat before its booking is committed. -/
def seatsStale : List TimedLabel := (routeCreated ++ .spawn (.createBooking 2 1 1) :: calls 1 10 ++
  .spawn (.listSeats 1) :: calls 2 4 ++ calls 1 3).map inTime

/-- A search stores that there is no route before the first one is committed. -/
def routesStale : List TimedLabel := (.spawn (.createRoute 1 somePayload) :: calls 0 5 ++
  .spawn (.listRoutes anyRoute) :: calls 1 5 ++ calls 0 1).map inTime

def elapse (ms : Nat) : List TimedLabel := [.env (.tick ms)]

theorem start_someTimed : Start (untimed someTimed) := start_someStart

/-! ## Along a run -/

/-- What the requests and the cache hold has been read, and when it was stored. -/
structure Aged (server : Server) (sys₀ : TimedSystem) (ls : List TimedLabel) (s : Timed)
    (a : Abs World Request Stage) : Prop where
  entries : Redis.Dated (Kept server sys₀ ls) s.world.redis s.timers
  counts : ∀ i q total, a.phase i = some (q, .counted total) →
    ∃ p, q = .listRoutes p ∧ Counts server sys₀ ls i p total
  loads : ∀ i q key ttl v resp, a.phase i = some (q, .storing key ttl v resp) → ∃ x : Content,
    key = x.key ∧ ttl = x.ttl ∧ v = x.value ∧ resp = x.response ∧ q = x.request ∧ x.Loaded server sys₀ ls i
  answers : ∀ i q g (x : Content), a.phase i = some (q, g) → g.response? = some x.response →
    Sourced server sys₀ ls i q x.response

variable {s s' : Timed} {a a' : Abs World Request Stage} {call : Option Call} {l : Label} {l' : TimedLabel}

theorem cacheKey_request (x : Content) : x.request.cacheKey? = some x.key := by cases x <;> rfl

/-- What has been read in the database is read of it now. -/
theorem Content.ReadIn.loaded (h : x.ReadIn server sys.shared.world.db g)
    (hsteps : (timed server).steps sys₀ ls = some sys) (hfly : InFlight (untimed sys) i x.request)
    (hcounts : ∀ total, g = .counted total → ∃ p, x.request = .listRoutes p ∧ Counts server sys₀ ls i p total) :
    x.Loaded server sys₀ ls i := by
  cases x with
  | seats r l => exact .now hsteps ⟨hfly, h⟩
  | routes p pg =>
    obtain ⟨hg, hpage, hsize, hitems⟩ := h
    obtain ⟨p', hp, hcount⟩ := hcounts _ hg
    cases hp
    exact ⟨hpage, hsize, .now hsteps ⟨hcount, hfly, hitems⟩⟩

theorem Kept.now (hload : x.Loaded server sys₀ ls i) (hfly : InFlight (untimed sys) i x.request)
    (hsteps : (timed server).steps sys₀ ls = some sys) :
    Kept server sys₀ ls x.key x.value (sys.shared.timers.now + 1000 * x.ttl) :=
  ⟨x, rfl, rfl, .now hsteps ⟨⟨i, hfly, hload⟩, rfl⟩⟩

/-- **One step**, whatever it does to the entries. -/
theorem Aged.step (h : Aged server sys₀ ls sys.shared a) (hinv : Inv server a)
    (hv : View server (untimed sys) a) (hsteps : (timed server).steps sys₀ ls = some sys)
    (hs : (protocol server).Step envStep a l call a')
    (hentries : Redis.Dated (Kept server sys₀ (ls ++ [l'])) s'.world.redis s'.timers) :
    Aged server sys₀ (ls ++ [l']) s' a' := by
  have hfly {i : Nat} {q : Request} {g : Stage} {c : Call} (hi : a.phase i = some (q, g)) (hw : Waits q g c) :
      InFlight (untimed sys) i q :=
    ⟨hv.request hi, (inFlight_of_phase hv hinv hi fun resp he => not_waits_ended (he ▸ hw)).2⟩
  have hdb : sys.shared.world.db = a.shared.db := by rw [hv.shared]; rfl
  have hloads : ∀ i q key ttl v resp, a'.phase i = some (q, .storing key ttl v resp) → ∃ x : Content,
      key = x.key ∧ ttl = x.ttl ∧ v = x.value ∧ resp = x.response ∧ q = x.request ∧
        x.Loaded server sys₀ ls i := by
    intro i q key ttl v resp hi
    rcases hs.phase_eq hi with hold | ⟨-, -, hstart⟩ | ⟨o, c, g, -, -, hi₀, hw, hst⟩
    · exact h.loads i q key ttl v resp hold
    · cases hstart
    · have hr := Step.reads hst (hinv.ne_lost hi₀) rfl
      obtain ⟨hwrites, x, rfl, rfl, rfl, rfl, rfl, hread⟩ := hr.content
      rw [hinv.view hi₀ hr.not_failing, hwrites, ← hdb] at hread
      exact ⟨x, rfl, rfl, rfl, rfl, rfl,
        hread.loaded hsteps (hfly hi₀ hw) fun total hg => h.counts i _ total (hg ▸ hi₀)⟩
  refine ⟨hentries, fun i q total hi => ?_, fun i q key ttl v resp hi => ?_, fun i q g' x hi hx => ?_⟩
  · rcases hs.phase_eq hi with hold | ⟨-, -, hstart⟩ | ⟨o, c, g, -, -, hi₀, hw, hst⟩
    · obtain ⟨p, hq, hcount⟩ := h.counts i q total hold
      exact ⟨p, hq, hcount.append _⟩
    · cases hstart
    · have hr := Step.reads hst (hinv.ne_lost hi₀) rfl
      obtain ⟨hwrites, p, rfl, htotal⟩ := hr.counted
      rw [hinv.view hi₀ hr.not_failing, hwrites, ← hdb] at htotal
      exact ⟨p, rfl, (Semantics.Once.now hsteps ⟨hfly hi₀ hw, htotal⟩).append _⟩
  · obtain ⟨x, hk, ht, hv, hr, hq, hload⟩ := hloads i q key ttl v resp hi
    exact ⟨x, hk, ht, hv, hr, hq, hload.append _⟩
  · rcases hs.phase_eq hi with hold | ⟨-, -, rfl⟩ | ⟨o, c, g, -, -, hi₀, hw, hst⟩
    · exact (h.answers i q g' x hold hx).append _
    · cases hx
    · rcases Step.response hst (hinv.ne_lost hi₀) hx with hold | ⟨key, ttl, v, rfl⟩ | ⟨key, v, hkey, hget, hread⟩
      · exact (h.answers i q g x hi₀ hold).append _
      · obtain ⟨y, -, -, -, hr, rfl, hload⟩ := hloads i q key ttl v _ hi
        exact ⟨y, hr.symm, cacheKey_request y, .inl ⟨rfl, hload.append _⟩⟩
      · rw [hv.shared] at hget
        obtain ⟨d, -, hnow, y, rfl, rfl, hkept⟩ := h.entries key v hget
        refine Sourced.append ⟨y, hread y rfl rfl, hkey, .inr (.now hsteps ⟨hfly hi₀ hw, hkept.imp ?_⟩)⟩ _
        rintro ls₂ sys₂ - ⟨hstores, rfl⟩
        exact ⟨hstores, hnow⟩

theorem Inv.envs (h : Inv server a) (hs : Relation.ReflTransGen (semantics server).Env a.shared w) :
    Inv server ⟨w, a.phase⟩ := by
  induction hs with
  | refl => exact h
  | tail _ he ih =>
    obtain ⟨e, he⟩ := he
    exact ih.step (.env he)

/-- A system of the timed service is one of the service, so that its invariants hold in time. -/
theorem reachable_untimed (h₀ : Start (untimed sys₀)) (h : (timed server).steps sys₀ ls = some sys) :
    Reachable server (untimed sys) := ⟨_, h₀, (timed_projects server).run (Run.of_steps h)⟩

/-- **Every run in time.** -/
theorem aged (h₀ : Start (untimed sys₀)) (h : (timed server).steps sys₀ ls = some sys) :
    ∃ a, View server (untimed sys) a ∧ Inv server a ∧ Aged server sys₀ ls sys.shared a := by
  obtain ⟨users, nextUser, hu, -, hstart⟩ := h₀
  have hworld : sys₀.shared.world = ⟨.init ⟨users, .empty, .empty, .empty⟩, nextUser, 1, 1, 1, ∅, []⟩ :=
    congrArg Async.System.shared hstart
  have hview : View server (untimed sys₀)
      ⟨⟨.init ⟨users, .empty, .empty, .empty⟩, nextUser, 1, 1, 1, ∅, []⟩, fun _ => none⟩ := by
    rw [hstart]
    exact Refines.initial _
  refine (timed_projects server).invariant (I := fun ls s a => Inv server a ∧ Aged server sys₀ ls s a) handler_sim
    (fun ls sys a q a' hsteps hv ⟨hinv, hI⟩ hs => ⟨hinv.step hs, ?_⟩)
    (fun ls sys a o i c r s' a' hsteps hv ⟨hinv, hI⟩ hexec hshared hs => ⟨hinv.step hs, ?_⟩)
    (fun ls sys a e s' hsteps hv ⟨hinv, hI⟩ henv => ⟨?_, ?_⟩) h hview ⟨inv_start hu, ?_⟩
  · exact hI.step hinv hv hsteps hs (hI.entries.mono fun _ _ _ h => h.append _)
  · refine hI.step hinv hv hsteps hs (timedExec_dated hexec (hI.entries.mono fun _ _ _ h => h.append _) ?_)
    rintro key ttl v rfl rfl
    cases hs with
    | run hi hw hst =>
      obtain ⟨resp, rfl⟩ := waits_setex hst (hinv.ne_lost hi)
      obtain ⟨x, rfl, rfl, rfl, rfl, rfl, hload⟩ := hI.loads _ _ _ _ _ _ hi
      have hfly : InFlight (untimed sys) i x.request := ⟨hv.request hi, (inFlight_of_phase hv hinv hi (by simp)).2⟩
      exact (Kept.now hload hfly hsteps).append _
  · have hsteps := (timed_projects server).env henv
    rw [← show a.shared = sys.shared.world from hv.shared] at hsteps
    exact hinv.envs hsteps
  · exact ⟨timedEnv_dated henv (hI.entries.mono fun _ _ _ h => h.append _),
      fun i q total hi => (hI.counts i q total hi).imp fun p hp => ⟨hp.1, hp.2.append _⟩,
      fun i q key ttl v resp hi => by
        obtain ⟨x, hk, ht, hv, hr, hq, hload⟩ := hI.loads i q key ttl v resp hi
        exact ⟨x, hk, ht, hv, hr, hq, hload.append _⟩,
      fun i q g x hi hx => (hI.answers i q g x hi hx).append _⟩
  · refine ⟨?_, fun _ _ _ hi => ?_, fun _ _ _ _ _ _ hi => ?_, fun _ _ _ _ hi => ?_⟩
    · rw [hworld]
      exact Redis.Dated.empty
    all_goals cases hi

theorem sourced_of_answer (h₀ : Start (untimed sys₀)) (h : (timed server).steps sys₀ ls = some sys)
    (hreq : sys.request i = some q) (hans : sys.answer i = some x.response) :
    Sourced server sys₀ ls i q x.response := by
  obtain ⟨a, hv, hinv, haged⟩ := aged h₀ h
  exact haged.answers i q _ x (ended_of_answer hv hinv hreq hans) rfl

variable {sys₁ sys₂ : TimedSystem} {ls₁ ls₂ ls₃ : List TimedLabel} {r : Int} {p : RouteQuery}

/-- Time goes on. -/
theorem now_le {sys sys' : TimedSystem} (h : (timed server).steps sys ls = some sys') : now sys ≤ now sys' := by
  induction Trace.of_steps h with
  | nil => exact Nat.le_refl _
  | snoc htr hadm hs ih =>
    rename_i ls l sys₁ sys₂
    refine Nat.le_trans (ih htr.steps) ?_
    cases l with
    | spawn q =>
      cases hs
      exact Nat.le_refl _
    | run o i =>
      obtain ⟨q, c, k, r, s, -, hexec, rfl⟩ := step_run hs
      simp only [now, (timedExec_some hexec).2]
      unfold setTimers
      split <;> exact Nat.le_refl _
    | env e =>
      obtain ⟨s, he, rfl⟩ := Option.map_eq_some_iff.1 hs
      cases e with
      | tick ms =>
        cases he
        exact Nat.le_add_right _ _
      | env e =>
        obtain ⟨w, -, rfl⟩ := Option.map_eq_some_iff.1 he
        exact Nat.le_refl _

/-- What a request reads, it reads after it has come. -/
theorem Content.Loaded.since (h : x.Loaded server sys₀ (ls₁ ++ ls₂) j)
    (h₁ : (timed server).steps sys₀ ls₁ = some sys₁) (hnew : sys₁.request j = none) :
    x.Loaded server sys₁ ls₂ j := by
  have hbefore {P : List TimedLabel → TimedSystem → Prop} {q : Request} (h : (timed server).Once sys₀ P ls₁)
      (hP : ∀ ls sys, P ls sys → InFlight (untimed sys) j q) : False := by
    have hreq := h.request h₁ fun ls sys hmoment => (hP ls sys hmoment).1
    rw [hnew] at hreq
    cases hreq
  cases x with
  | seats r l => exact (Semantics.Once.split h h₁).resolve_left fun h => hbefore h fun _ _ => And.left
  | routes p pg =>
    obtain ⟨hpage, hsize, h⟩ := h
    refine ⟨hpage, hsize, ((h.split h₁).resolve_left fun h => hbefore h fun _ _ h => h.2.1).imp ?_⟩
    rintro ls sys hsteps ⟨hcount, hread⟩
    exact ⟨(Semantics.Once.split hcount h₁).resolve_left fun h => hbefore h fun _ _ => And.left, hread⟩

/-- **What is answered after the time to live** was read since the requests in flight were over. -/
theorem Sourced.since (h : Sourced server sys₀ (ls₁ ++ ls₂ ++ ls₃) i q resp)
    (h₁ : (timed server).steps sys₀ ls₁ = some sys₁) (h₂ : (timed server).steps sys₁ ls₂ = some sys₂)
    (hquiet : ∀ j q', q'.cacheKey? = q.cacheKey? → ¬ InFlight (untimed sys₁) j q')
    (hlate : ∀ x : Content, q.cacheKey? = some x.key → now sys₁ + 1000 * x.ttl < now sys₂)
    (hnew : sys₂.request i = none) : ∃ (x : Content) (j : Nat), x.response = resp ∧ q.cacheKey? = some x.key ∧
      x.Loaded server sys₁ (ls₂ ++ ls₃) j := by
  obtain ⟨x, hresp, hkey, ⟨rfl, hload⟩ | hcached⟩ := h
  · rw [List.append_assoc] at hload
    refine ⟨x, i, hresp, hkey, hload.since h₁ ?_⟩
    cases hreq : sys₁.request i with
    | none => rfl
    | some q =>
      rw [Semantics.steps_request h₂ hreq] at hnew
      cases hnew
  · have h₁₂ : (timed server).steps sys₀ (ls₁ ++ ls₂) = some sys₂ := by
      rw [Semantics.steps_append, h₁]
      exact h₂
    rcases hcached.split h₁₂ with hbefore | ⟨l₃, s₃, hpre₃, h₃, -, hstored⟩
    · have hreq := hbefore.request h₁₂ fun _ _ hmoment => hmoment.1.1
      rw [hnew] at hreq
      cases hreq
    · rw [List.append_assoc] at hstored
      rcases hstored.split h₁ with ⟨l, s, hpre, hs, -, hage⟩ | ⟨l, s, hpre, hs, ⟨j, hfly, hload⟩, -⟩
      · obtain ⟨l', hs'⟩ := Semantics.steps_of_prefix hpre hs h₁
        have hold := now_le hs'
        have hlater := now_le h₃
        have := hlate x hkey
        omega
      · have hpre' : l <+: ls₂ ++ ls₃ := hpre.trans ((List.prefix_append_right_inj ls₂).2 hpre₃)
        obtain ⟨l', hl'⟩ := hpre'
        refine ⟨x, j, hresp, hkey, hl' ▸ (hload.since h₁ ?_).append l'⟩
        cases hreq : sys₁.request j with
        | none => rfl
        | some q' =>
          obtain rfl : q' = x.request :=
            Option.some.inj ((Semantics.steps_request hs hreq).symm.trans hfly.1)
          refine absurd ⟨hreq, ?_⟩ (hquiet j _ ((cacheKey_request x).trans hkey.symm))
          cases hans : (untimed sys₁).answer j with
          | none => rfl
          | some a => exact absurd (hfly.2.symm.trans (Semantics.steps_answer hs hans)) nofun

/-- **Listings settle.** Once the listings of a route in flight are over and its seats stay as they are, a
listing that comes more than 15 seconds later answers these seats. -/
theorem listSeats_settles (h₀ : Start (untimed sys₀)) (h₁ : (timed server).steps sys₀ ls₁ = some sys₁)
    (h₂ : (timed server).steps sys₁ ls₂ = some sys₂) (h₃ : (timed server).steps sys₂ ls₃ = some sys)
    (hquiet : ∀ j, ¬ InFlight (untimed sys₁) j (.listSeats r))
    (hsame : ∀ ls' sys', ls' <+: ls₂ ++ ls₃ → (timed server).steps sys₁ ls' = some sys' →
      seatOuts sys'.shared.world.db r = seatOuts sys₁.shared.world.db r)
    (hlate : now sys₁ + 15000 < now sys₂) (hnew : sys₂.request i = none)
    (hreq : sys.request i = some (.listSeats r)) {l : List SeatOut} (hans : sys.answer i = some (.seats l)) :
    l = seatOuts sys₁.shared.world.db r := by
  have hsteps : (timed server).steps sys₀ (ls₁ ++ ls₂ ++ ls₃) = some sys := by
    rw [Semantics.steps_append, Semantics.steps_append, h₁, Option.bind_some, h₂]
    exact h₃
  have hserved := sourced_of_answer (x := .seats r l) h₀ hsteps hreq hans
  have hkey {x : Content} (hx : (Request.listSeats r).cacheKey? = some x.key) : ∃ l, x = .seats r l := by
    cases x with
    | seats r' l => exact ⟨l, by rw [seatsKey_injective (Option.some.inj hx)]⟩
    | routes p pg => exact absurd (Option.some.inj hx) (seatsKey_ne_routesKey _ _)
  have hover (j : Nat) (q' : Request) (hq' : q'.cacheKey? = (Request.listSeats r).cacheKey?) :
      ¬ InFlight (untimed sys₁) j q' := by
    cases q' with
    | listSeats r' =>
      obtain rfl : r' = r := seatsKey_injective (Option.some.inj hq')
      exact hquiet j
    | listRoutes p => exact absurd (Option.some.inj hq').symm (seatsKey_ne_routesKey _ _)
    | _ => cases hq'
  have httl (x : Content) (hx : (Request.listSeats r).cacheKey? = some x.key) :
      now sys₁ + 1000 * x.ttl < now sys₂ := by
    obtain ⟨l', rfl⟩ := hkey hx
    exact hlate
  obtain ⟨x, j, hresp, hx, hload⟩ := hserved.since h₁ h₂ hover httl hnew
  obtain ⟨l', rfl⟩ := hkey hx
  cases hresp
  obtain ⟨ls', sys', hpre, hs', -, hread⟩ := hload
  exact hread.trans (hsame ls' sys' hpre hs')

/-- After 15 seconds the listing shows that the seat is booked. -/
theorem listSeats_settles_stale : ∃ (sys₁ sys₂ sys : TimedSystem) (l : List SeatOut),
    (timed plainServer).steps someTimed seatsStale = some sys₁ ∧
    (timed plainServer).steps sys₁ (elapse 15001) = some sys₂ ∧
    (timed plainServer).steps sys₂ ((.spawn (.listSeats 1) :: calls 3 4).map inTime) = some sys ∧
    sys.answer 3 = some (.seats l) ∧ l = seatOuts sys₁.shared.world.db 1 := by
  obtain ⟨sys₁, sys₂, sys, h₁, h₂, h₃, hq, hlate, hnew, hreq, hans, hsame⟩ := exists_runTimed seatsStale
    (elapse 15001) ((.spawn (.listSeats 1) :: calls 3 4).map inTime) (fun sys₁ sys₂ sys =>
      (untimed sys₁).Quiescent ∧ now sys₁ + 15000 < now sys₂ ∧ sys₂.request 3 = none ∧
      sys.request 3 = some (.listSeats 1) ∧ sys.answer 3 = some (.seats [⟨1, 1, true⟩, ⟨2, 2, false⟩]) ∧
      ∀ ls' ∈ (elapse 15001 ++ (.spawn (.listSeats 1) :: calls 3 4).map inTime).inits,
        ((timed plainServer).steps sys₁ ls').all (fun sys' =>
          seatOuts sys'.shared.world.db 1 = seatOuts sys₁.shared.world.db 1) = true) (by decide +kernel)
  refine ⟨sys₁, sys₂, sys, _, h₁, h₂, h₃, hans, listSeats_settles start_someTimed h₁ h₂ h₃
    (fun j => not_inFlight_of_quiescent hq j _) (fun ls' sys' hpre hs' => ?_) hlate hnew hreq hans⟩
  simpa using (Option.all_eq_true _ _).1 (hsame ls' ((List.mem_inits _ _).2 hpre)) sys' hs'

/-- **Searches settle**, after 30 seconds: the page that is answered is one of the routes as they are, of a
query with the same key. -/
theorem listRoutes_settles (h₀ : Start (untimed sys₀)) (h₁ : (timed server).steps sys₀ ls₁ = some sys₁)
    (h₂ : (timed server).steps sys₁ ls₂ = some sys₂) (h₃ : (timed server).steps sys₂ ls₃ = some sys)
    (hquiet : ∀ j p', routesKey p' = routesKey p → ¬ InFlight (untimed sys₁) j (.listRoutes p'))
    (hsame : ∀ ls' sys', ls' <+: ls₂ ++ ls₃ → (timed server).steps sys₁ ls' = some sys' →
      sys'.shared.world.db.routes = sys₁.shared.world.db.routes)
    (hlate : now sys₁ + 30000 < now sys₂) (hnew : sys₂.request i = none)
    (hreq : sys.request i = some (.listRoutes p)) {pg : Page} (hans : sys.answer i = some (.routes pg)) :
    ∃ p', routesKey p' = routesKey p ∧ pg = pageOf server sys₁.shared.world.db p' := by
  have hsteps : (timed server).steps sys₀ (ls₁ ++ ls₂ ++ ls₃) = some sys := by
    rw [Semantics.steps_append, Semantics.steps_append, h₁, Option.bind_some, h₂]
    exact h₃
  have hserved := sourced_of_answer (x := .routes p pg) h₀ hsteps hreq hans
  have hkey {x : Content} (hx : (Request.listRoutes p).cacheKey? = some x.key) :
      ∃ p' pg, x = .routes p' pg ∧ routesKey p' = routesKey p := by
    cases x with
    | seats r l => exact absurd (Option.some.inj hx).symm (seatsKey_ne_routesKey _ _)
    | routes p' pg => exact ⟨p', pg, rfl, (Option.some.inj hx).symm⟩
  have hover (j : Nat) (q' : Request) (hq' : q'.cacheKey? = (Request.listRoutes p).cacheKey?) :
      ¬ InFlight (untimed sys₁) j q' := by
    cases q' with
    | listSeats r => exact absurd (Option.some.inj hq') (seatsKey_ne_routesKey _ _)
    | listRoutes p' => exact hquiet j p' (Option.some.inj hq')
    | _ => cases hq'
  have httl (x : Content) (hx : (Request.listRoutes p).cacheKey? = some x.key) :
      now sys₁ + 1000 * x.ttl < now sys₂ := by
    obtain ⟨p', pg', rfl, -⟩ := hkey hx
    exact hlate
  obtain ⟨x, j, hresp, hx, hload⟩ := hserved.since h₁ h₂ hover httl hnew
  obtain ⟨p', pg', rfl, hp'⟩ := hkey hx
  cases hresp
  obtain ⟨hpage, hsize, ls', sys', hpre, hs', ⟨ls'', sys'', hpre', hs'', -, htotal⟩, -, hitems⟩ := hload
  have hrows := hsame ls' sys' hpre hs'
  have hcounted := hsame ls'' sys'' (hpre'.trans hpre) hs''
  obtain ⟨total, page, size, items⟩ := pg
  rw [World.routesOf, hrows] at hitems
  rw [hcounted] at htotal
  simp only at hpage hsize hitems htotal
  exact ⟨p', hp', by rw [htotal, hpage, hsize, hitems]; rfl⟩

/-- After 30 seconds the search shows the route. -/
theorem listRoutes_settles_stale : ∃ (sys₁ sys₂ sys : TimedSystem) (pg : Page),
    (timed plainServer).steps someTimed routesStale = some sys₁ ∧
    (timed plainServer).steps sys₁ (elapse 30001) = some sys₂ ∧
    (timed plainServer).steps sys₂ ((.spawn (.listRoutes anyRoute) :: calls 2 5).map inTime) = some sys ∧
    sys.answer 2 = some (.routes pg) ∧ ∃ p', routesKey p' = routesKey anyRoute ∧
      pg = pageOf plainServer sys₁.shared.world.db p' := by
  obtain ⟨sys₁, sys₂, sys, h₁, h₂, h₃, hq, hlate, hnew, hreq, hans, hsame⟩ := exists_runTimed routesStale
    (elapse 30001) ((.spawn (.listRoutes anyRoute) :: calls 2 5).map inTime) (fun sys₁ sys₂ sys =>
      (untimed sys₁).Quiescent ∧ now sys₁ + 30000 < now sys₂ ∧ sys₂.request 2 = none ∧
      sys.request 2 = some (.listRoutes anyRoute) ∧
      sys.answer 2 = some (.routes ⟨1, 1, 20, [⟨1, "Moskva"⟩]⟩) ∧
      ∀ ls' ∈ (elapse 30001 ++ (.spawn (.listRoutes anyRoute) :: calls 2 5).map inTime).inits,
        ((timed plainServer).steps sys₁ ls').all (fun sys' =>
          sys'.shared.world.db.routes.rows = sys₁.shared.world.db.routes.rows) = true) (by decide +kernel)
  refine ⟨sys₁, sys₂, sys, _, h₁, h₂, h₃, hans, listRoutes_settles start_someTimed h₁ h₂ h₃
    (fun j p' _ => not_inFlight_of_quiescent hq j _) (fun ls' sys' hpre hs' => Table.ext ?_) hlate hnew hreq hans⟩
  simpa using (Option.all_eq_true _ _).1 (hsame ls' ((List.mem_inits _ _).2 hpre)) sys' hs'

end

end BusBookings

import BusBookings.Proof.Coherence
import BusBookings.Proof.Searches

/-!
# The cached seats, one request after the other

Creations of routes, bookings, cancellations and listings in turn, of which any may be aborted at
any call. An entry is the list of the committed seats of its route, or the empty list of a time when
there was no such route, which is falsy and hence ignored (`Listing`). So a listing that is not
aborted answers the committed seats (`listSeats_current`).
-/

namespace BusBookings

open Async ReadCommitted

def Request.seating : Request → Bool
  | .createRoute .. | .createBooking .. | .cancelBooking .. | .listSeats _ => true
  | _ => false

/-- The requests come one after the other; any call may fail and any entry expire. -/
def OneByOne (sys : System) : Label → Prop
  | .spawn q => sys.Quiescent ∧ q.seating = true
  | _ => True

instance (sys : System) : DecidablePred (OneByOne sys)
  | .spawn q => inferInstanceAs (Decidable (sys.Quiescent ∧ q.seating = true))
  | .run .. | .env _ => isTrue trivial

/-- A call of request `i` fails in the steps `ls`. -/
def Aborted (ls : List Label) (i : Nat) : Prop := .run .fail i ∈ ls

/-- What a listing knows in a stage, `l` being the seats of its route. -/
def Stage.Listing (l : List SeatOut) : Stage → Prop
  | .start | .missed => True
  | .storing _ _ v resp => v = seatsToJson l ∧ resp = .seats l
  | .closing j => j = .read (.seats l)
  | .ended resp => resp = .seats l
  | _ => False

section

variable {server : Server} {a a' : Abs World Request Stage} {i : Nat} {q : Request} {g g' : Stage}
  {w' : World} {c : Call} {o : Outcome} {sys₀ sys sys' : System} {ls : List Label} {l : Label}
  {call : Option Call} {r : Int}

/-- With the cache disconnected a listing reads the committed seats. -/
theorem disconnected_listSeats (h : Reachable server sys) (hq : sys.Quiescent) (r : Int) :
    (disconnected server sys (.listSeats r)).map Prod.fst = some (.seats (seatOuts sys.shared.db r)) := by
  obtain ⟨a, hv, hinv⟩ := h.inv
  have hview : sys.shared.view sys.tasks.length = sys.shared.db := by
    show Store.view _ _ = _
    unfold Store.view
    rw [own_of_quiescent hv hinv hq]
    rfl
  rw [← hview]
  rfl

/-! ## One listing -/

/-- An entry is the list of the committed seats, or the empty list. -/
def CurrentOrEmpty (w : World) (r : Int) (v : Json) : Prop :=
  v = seatsToJson (seatOuts w.db r) ∨ v = seatsToJson []

/-- **One step of a listing**: an empty entry is no entry. -/
theorem Inv.listing_step (hinv : Inv server a) (hi : a.phase i = some (.listSeats r, g))
    (hg : g.Listing (seatOuts a.shared.db r))
    (hentry : ∀ v, a.shared.redis.get (seatsKey r) = some v → CurrentOrEmpty a.shared r v)
    (hs : Step server (.listSeats r) i o c g a.shared g' w') :
    g'.Listing (seatOuts a.shared.db r) ∨ o = .fail := by
  have hview := hinv.view hi
  cases hs with
  | fail => exact .inr rfl
  | read hr =>
    cases hr with
    | again ha => cases ha
    | lost hno hex =>
      obtain ⟨_, _, ha⟩ := hex
      cases ha
    | seats hl =>
      rw [hview (by simp)] at hl
      exact .inl ⟨congrArg seatsToJson hl, congrArg Response.seats hl⟩
  | write hw =>
    cases hw
    exact hg.elim
  | writeFails hw =>
    cases hw
    exact hg.elim
  | cachedRoutes hq => cases hq
  | cachedSeats hq hk =>
    cases hq
    subst hk
    refine .inl ?_
    unfold cacheCheck
    split
    · trivial
    · rename_i cached hget
      obtain ⟨hsome, htruthy⟩ := Option.filter_eq_some_iff.1 hget
      rcases hentry cached hsome with rfl | rfl
      · rw [seatsOfJson_seatsToJson]
        rfl
      · cases htruthy
  | store => exact .inl (congrArg Job.read hg.2)
  | commit =>
    obtain rfl := hg
    exact .inl rfl
  | keys | delete | publish | rollback | lost => exact hg.elim

/-! ## A new route -/

/-- A route that is not committed has no seats. -/
theorem seatOuts_of_vacant {db : Db} (hc : db.Consistent) (hr : ¬ db.Occupied (.route r)) :
    seatOuts db r = [] := by
  have hnone : db.seats.rows.filter (·.routeId = r) = [] := by
    apply List.filter_eq_nil_iff.2
    intro s hs hsr
    obtain ⟨route, hroute, hid⟩ := hc.seatRoute s hs
    exact hr ⟨route, hroute, hid.trans (by simpa using hsr)⟩
  unfold seatOuts World.seatsOf
  rw [hnone]
  rfl

/-- The commit of a new route changes the seats of no other. -/
theorem Inv.seatOuts_route (hinv : Inv server a) {u : Int} {p : RouteCreate} {j : Job}
    (hi : a.phase i = some (.createRoute u p, .closing j)) (r : Int) :
    seatOuts (a.shared.commit i).db r = seatOuts a.shared.db r ∨ seatOuts a.shared.db r = [] := by
  have hfacts : j.Facts server a.shared.db (.createRoute u p) := hinv.facts i _ _ hi
  obtain ⟨route, first, rfl, -⟩ := hfacts.isRoute
  have hview : (a.shared.commit i).db = _ := hinv.view hi (by simp)
  by_cases hr : r = route.id
  · refine .inr (seatOuts_of_vacant hinv.consistent ?_)
    rw [hr]
    exact hinv.vacant hi (by simp) (.insertRoute route) (by simp [Stage.writes, Job.writes]) rfl
      (by simp [Db.locks])
  · refine .inl ?_
    have hrows : (a.shared.commit i).db.seats.rows = a.shared.db.seats.rows ++
        World.newSeats route.id first (RouteRepository.seatNumbers route.totalSeats) := by
      rw [hview]
      refine @Db.applyAll_insertSeats (Db.apply (.insertRoute route) a.shared.db) _
        (World.newSeats_nodup _ _ _) fun s hs => ?_
      exact hinv.vacant hi (by simp) (.insertSeats _) (by simp [Stage.writes, Job.writes]) rfl
        (Db.mem_locks_insertSeats.2 ⟨s, hs, .inl rfl⟩)
    have hnone : (World.newSeats route.id first (RouteRepository.seatNumbers route.totalSeats)).filter
        (·.routeId = r) = [] := by
      refine List.filter_eq_nil_iff.2 fun s hs hsr => hr ?_
      rw [← (World.mem_newSeats hs).1]
      exact (of_decide_eq_true hsr).symm
    unfold seatOuts World.seatsOf
    rw [hrows, List.filter_append, hnone, List.append_nil]

/-! ## A sequence of requests -/

/-- At most one request is in flight. An entry is the list of the committed seats or empty, past an
invalidation there is none, and a listing reads the committed seats or has been aborted. -/
structure Listing (ls : List Label) (a : Abs World Request Stage) : Prop where
  inFlight : OneInFlight (fun q => q.seating = true) a
  keyring : Keyring a
  entries : ∀ r v, a.shared.redis.get (seatsKey r) = some v → CurrentOrEmpty a.shared r v
  listing : ∀ i r g, a.phase i = some (.listSeats r, g) → g.Open →
    g.Listing (seatOuts a.shared.db r) ∨ ∃ e, g = .failing e
  aborted : ∀ i r e, a.phase i = some (.listSeats r, .failing e) →
    e = .infrastructure ∧ Aborted ls i
  deleting : ∀ i q j keys, a.phase i = some (q, .deleting j keys) → ∀ r ∈ j.seatsOf, seatsKey r ∈ keys
  gone : ∀ i q g, a.phase i = some (q, g) → ∀ r ∈ g.uncommitted, a.shared.redis.get (seatsKey r) = none

theorem open_of_uncommitted (hr : r ∈ g.uncommitted) : g.Open := by
  intro resp he
  subst he
  cases hr

/-- The seats do not change while a listing is in flight. -/
theorem Listing.seatOuts_eq (h : Listing ls a) (hinv : Inv server a)
    (hs : (protocol server).Step envStep a l call a') (hi : a.phase i = some (.listSeats r, g))
    (hg : g.Open) (r' : Int) : seatOuts a'.shared.db r' = seatOuts a.shared.db r' := by
  rcases hinv.seatOuts_step hs r' with hsame | ⟨k, q, j, -, -, hk, -, hr⟩
  · exact hsame
  · obtain rfl := h.inFlight.turn i k _ _ _ _ hi hk hg (by simp [Stage.Open])
    rw [hi] at hk
    cases hk
    rcases hr with hr | ⟨u, p, he⟩
    · have hfacts : j.Facts server a.shared.db (.listSeats r) := hinv.facts i _ _ hi
      have := hfacts.changes hr
      cases this
    · cases he

/-- What is stored is stored by the listing in flight. -/
theorem Listing.redis_step (h : Listing ls a) (hinv : Inv server a)
    (hs : (protocol server).Step envStep a l call a') {v : Json}
    (hv : a'.shared.redis.get (seatsKey r) = some v) : a.shared.redis.get (seatsKey r) = some v ∨
      ∃ i ttl resp, a.phase i = some (.listSeats r, .storing (seatsKey r) ttl v resp) ∧
        v = seatsToJson (seatOuts a.shared.db r) := by
  rcases hinv.redis_step hs hv with hold | ⟨i, q, ttl, resp, -, -, hi⟩
  · exact .inl hold
  · rcases h.keyring.storing i q _ _ _ _ hi with ⟨r', rfl, hkey⟩ | ⟨p, -, hkey⟩
    · obtain rfl := seatsKey_injective hkey
      rcases h.listing i r _ hi (by simp [Stage.Open]) with ⟨hv, -⟩ | ⟨e, he⟩
      · exact .inr ⟨i, ttl, resp, hi, hv⟩
      · cases he
    · exact absurd hkey (seatsKey_ne_routesKey r p)

/-- An entry that is gone is not stored before the commit: no listing is in flight. -/
theorem Listing.gone_step (h : Listing ls a) (hinv : Inv server a)
    (hs : (protocol server).Step envStep a l call a') (hi : a.phase i = some (q, g))
    (hr : r ∈ g.uncommitted) :
    a'.shared.redis.get (seatsKey r) = none := by
  by_contra hne
  obtain ⟨v, hsome⟩ := Option.ne_none_iff_exists'.1 hne
  rcases h.redis_step hinv hs hsome with hold | ⟨k, ttl, resp, hk, -⟩
  · rw [h.gone i q g hi r hr] at hold
    cases hold
  · obtain rfl := h.inFlight.turn i k _ _ _ _ hi hk (open_of_uncommitted hr) (by simp [Stage.Open])
    rw [hi] at hk
    cases hk
    cases hr

theorem Listing.step (h : Listing ls a) (hv : View server sys a) (hinv : Inv server a) (hl : OneByOne sys l)
    (hs : (protocol server).Step envStep a l call a') : Listing (ls ++ [l]) a' where
  inFlight := h.inFlight.step hv hinv (fun q he => by subst he; exact hl) hs
  keyring := h.keyring.step hinv hs
  entries r v hsome := by
    rcases h.redis_step hinv hs hsome with hold | ⟨i, ttl, resp, hi, hv⟩
    · have hentry := h.entries r v hold
      rcases hinv.seatOuts_step hs r with hsame | ⟨i, q, j, -, -, hi, hcommit, hr | ⟨u, p, rfl⟩⟩
      · unfold CurrentOrEmpty
        rw [hsame]
        exact hentry
      · rw [h.gone i q _ hi r hr] at hold
        cases hold
      · unfold CurrentOrEmpty
        rw [hcommit]
        rcases hinv.seatOuts_route hi r with hsame | hnone
        · rw [hsame]
          exact hentry
        · refine .inr ?_
          rcases hentry with hcurrent | hempty
          · rw [hcurrent, hnone]
          · exact hempty
    · refine .inl ?_
      rw [h.seatOuts_eq hinv hs hi (by simp [Stage.Open])]
      exact hv
  listing i r g hi hg := by
    rcases hs.phase_eq hi with hold | ⟨-, -, rfl⟩ | ⟨o, c, g₀, rfl, -, hi₀, hw, hst⟩
    · rw [h.seatOuts_eq hinv hs hold hg]
      exact h.listing i r g hold hg
    · exact .inl trivial
    · have hopen : g₀.Open := open_of_waits (q := .listSeats r) hw
      rw [h.seatOuts_eq hinv hs hi₀ hopen]
      rcases h.listing i r g₀ hi₀ hopen with hread | ⟨e, rfl⟩
      · rcases hinv.listing_step hi₀ hread (h.entries r) hst with hread' | rfl
        · exact .inl hread'
        · rcases hst.of_fail (hinv.ne_lost hi₀) with he | ⟨-, resp, rfl⟩
          · exact .inr ⟨_, he⟩
          · exact absurd rfl (hg resp)
      · obtain ⟨e', -, rfl⟩ := hst.of_failing hw
        exact absurd rfl (hg _)
  aborted i r e hi := by
    rcases hs.phase_eq hi with hold | ⟨-, -, hstart⟩ | ⟨o, c, g₀, rfl, -, hi₀, hw, hst⟩
    · obtain ⟨he, habort⟩ := h.aborted i r e hold
      exact ⟨he, List.mem_append_left _ habort⟩
    · cases hstart
    · rcases h.listing i r g₀ hi₀ (open_of_waits (q := .listSeats r) hw) with hread | ⟨e', rfl⟩
      · rcases hinv.listing_step hi₀ hread (h.entries r) hst with hread' | rfl
        · exact hread'.elim
        · rcases hst.of_fail (hinv.ne_lost hi₀) with he | ⟨-, resp, he⟩
          · cases he
            exact ⟨rfl, List.mem_append_right _ (List.mem_singleton_self _)⟩
          · cases he
      · obtain ⟨e'', -, he⟩ := hst.of_failing hw
        cases he
  deleting i q j keys hi r hr := by
    rcases hs.phase_eq hi with hold | ⟨-, -, hstart⟩ | ⟨o, c, g₀, -, -, hi₀, -, hst⟩
    · exact h.deleting i q j keys hold r hr
    · cases hstart
    · exact h.keyring.mem_deleting hinv hi₀ hst hr
  gone i q g hi r hr := by
    rcases hs.phase_eq hi with hold | ⟨-, -, hstart⟩ | ⟨o, c, g₀, -, -, hi₀, -, hst⟩
    · exact h.gone_step hinv hs hold hr
    · rw [hstart] at hr
      cases hr
    · rcases hst.gone (hinv.ne_lost hi₀) hr
        (fun j keys he hj => h.deleting i q j keys (he ▸ hi₀) r hj) with hr | hnone
      · exact h.gone_step hinv hs hi₀ hr
      · exact hnone

/-- Between requests, with an empty cache. -/
theorem Listing.start (hr : Reachable server sys) (hq : sys.Quiescent)
    (hempty : ∀ r, sys.shared.redis.get (seatsKey r) = none) :
    ∃ a, View server sys a ∧ Inv server a ∧ Listing [] a := by
  obtain ⟨a, hv, hinv, hkeys⟩ := hr.keyring
  have hend : ∀ i q g, a.phase i = some (q, g) → ¬ g.Open := fun i q g => not_open_of_quiescent hv hinv hq
  refine ⟨a, hv, hinv, .start hv hinv hq, hkeys, fun r v hsome => ?_, fun i r g hi hg => ?_,
    fun i r e hi => ?_, fun i q j keys hi => ?_, fun i q g hi r hr => ?_⟩
  · rw [hv.shared, hempty r] at hsome
    cases hsome
  · exact absurd hg (hend i _ _ hi)
  · exact absurd (by simp [Stage.Open]) (hend i _ _ hi)
  · exact absurd (by simp [Stage.Open]) (hend i _ _ hi)
  · exact absurd (open_of_uncommitted hr) (hend i _ _ hi)

/-- In every sequence of creations of routes, bookings, cancellations and listings, whatever calls
fail and whatever entries expire: the listing that is answered in a step answers the seats that are
then committed, as it does with the cache disconnected, or 500 after a call of its own failed. -/
theorem listSeats_current (h₀ : Reachable server sys₀) (hq : sys₀.Quiescent)
    (hempty : ∀ r, sys₀.shared.redis.get (seatsKey r) = none)
    (hrun : Trace (semantics server) OneByOne sys₀ ls sys)
    (hl : OneByOne sys l) (hstep : (semantics server).step sys l = some sys')
    (hreq : sys.request i = some (.listSeats r)) (hnone : sys.answer i = none) {resp : Response}
    (hans : sys'.answer i = some resp) :
    resp = .seats (seatOuts sys'.shared.db r) ∧
      (disconnected server sys' (.listSeats r)).map Prod.fst = some resp ∨
    resp = errorResponse .infrastructure ∧ Aborted (ls ++ [l]) i := by
  obtain ⟨a₀, hv₀, hinv₀, hlist₀⟩ := Listing.start h₀ hq hempty
  obtain ⟨a, hv, hinv, hlist⟩ := Trace.invariant (I := fun ls a => Inv server a ∧ Listing ls a) handler_sim
    (fun _ _ _ _ _ _ _ hl _ hv _ ⟨hinv, hlist⟩ hs => ⟨hinv.step hs, hlist.step hv hinv hl hs⟩)
    hrun hv₀ ⟨hinv₀, hlist₀⟩
  obtain ⟨a', hs, hv'⟩ := hv.step handler_sim hstep
  have hinv' := hinv.step hs
  obtain ⟨q, hi'⟩ := (answer_iff hv' hinv').1 hans
  rcases hs.phase_eq hi' with hold | ⟨-, -, hstart⟩ | ⟨o, c, g, rfl, -, hi, hw, hst⟩
  · rw [(answer_iff hv hinv).2 ⟨q, hold⟩] at hnone
    cases hnone
  · cases hstart
  · obtain rfl : q = .listSeats r := Option.some.inj ((hv.request hi).symm.trans hreq)
    have hopen : g.Open := open_of_waits (q := .listSeats r) hw
    rcases hlist.listing i r g hi hopen with hread | ⟨e, rfl⟩
    · rcases hinv.listing_step hi hread (hlist.entries r) hst with hread' | rfl
      · have hreach : Reachable server sys' := by
          obtain ⟨s, hs₀, hr₀⟩ := h₀
          exact ⟨s, hs₀, .step (hr₀.trans (hrun.run.mono fun _ _ _ => trivial)) trivial hstep⟩
        have hquiet : sys'.Quiescent := hlist.inFlight.quiescent hv' hs hi hopen hi'
        have hresp : resp = .seats (seatOuts sys'.shared.db r) := by
          rw [← hv'.shared, hlist.seatOuts_eq hinv hs hi hopen]
          exact hread'
        exact .inl ⟨hresp, by rw [disconnected_listSeats hreach hquiet, hresp]⟩
      · rcases hst.of_fail (hinv.ne_lost hi) with he | ⟨⟨e, rfl⟩, -⟩
        · cases he
        · exact hread.elim
    · obtain ⟨rfl, habort⟩ := hlist.aborted i r e hi
      obtain ⟨e', he, hend⟩ := hst.of_failing hw
      rw [or_self] at he
      subst he
      cases hend
      exact .inr ⟨rfl, List.mem_append_left _ habort⟩

end

/-- The seats of route 1 are listed, the route is created, and its seats are listed again: the empty
entry is ignored. -/
theorem listSeats_current_created : ∃ sys sys' : System,
    (semantics plainServer).step sys (.run .ok 2) = some sys' ∧
    sys'.answer 2 = some (.seats [⟨1, 1, false⟩, ⟨2, 2, false⟩]) ∧
    (disconnected plainServer sys' (.listSeats 1)).map Prod.fst =
      some (.seats [⟨1, 1, false⟩, ⟨2, 2, false⟩]) := by
  have hruns : ((semantics plainServer).stepsIf OneByOne someStart (.spawn (.listSeats 1) :: calls 0 4 ++
      .spawn (.createRoute 1 somePayload) :: calls 1 6 ++ .spawn (.listSeats 1) :: calls 2 3)).any
      (fun sys =>
        sys.request 2 = some (.listSeats 1) ∧ sys.answer 2 = none ∧
          ((semantics plainServer).step sys (.run .ok 2)).any fun sys' =>
            sys'.answer 2 = some (.seats [⟨1, 1, false⟩, ⟨2, 2, false⟩])) = true := by decide +kernel
  obtain ⟨sys, hsys, hP⟩ := (Option.any_eq_true _ _).1 hruns
  obtain ⟨hreq, hnone, hlast⟩ := of_decide_eq_true hP
  obtain ⟨sys', hstep, hans⟩ := (Option.any_eq_true _ _).1 hlast
  replace hans := of_decide_eq_true hans
  refine ⟨sys, sys', hstep, hans, ?_⟩
  rcases listSeats_current (l := .run .ok 2) ⟨someStart, start_someStart, .refl _⟩ (by decide)
    (fun _ => rfl) (Trace.of_stepsIf hsys) trivial hstep hreq hnone hans with ⟨-, hsame⟩ | ⟨he, -⟩
  · exact hsame
  · cases he

end BusBookings

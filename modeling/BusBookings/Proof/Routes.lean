import BusBookings.App.Zones
import BusBookings.Proof.Runs

/-!
# The committed routes

A route is inserted with its seats, from a payload whose dates and price have been validated, and in
one transaction: so every committed route has them all. `Sown` is the invariant of the payloads; that of
the seats is `Db.Consistent.seating`. The dates are validated as they are written and stored in UTC, so
they stay in order exactly where the time zone keeps it (`routes_complete_iff`).
-/

namespace BusBookings

open Async ReadCommitted

/-- Every route is that of the payload of a request. -/
def Sown (server : Server) (a : Abs World Request Stage) : Prop := ∀ r ∈ a.shared.db.routes.rows,
  ∃ i u p g, a.phase i = some (.createRoute u p, g) ∧ Drafted server p r

/-- In UTC the departure date begins before the arrival date. -/
def KeepsOrder (server : Server) (p : RouteCreate) : Prop := ∀ dep arr,
  strptime p.departureAt = some dep → strptime p.arrivalAt = some arr →
    (server.toUtc dep).rank < (server.toUtc arr).rank

section

variable {server : Server} {a a' : Abs World Request Stage} {i : Nat} {q : Request} {g g' : Stage}
  {w w' : World} {c : Call} {o : Outcome} {sys : System} {l : Label} {call : Option Call} {db : Db}

/-- A commit adds the route of its job only. -/
theorem Inv.routes_commit (hinv : Inv server a) {j : Job} (hi : a.phase i = some (q, .closing j))
    {r : Route} (hr : r ∈ (a.shared.commit i).db.routes.rows) :
    r ∈ a.shared.db.routes.rows ∨ ∃ first, j = .route r first := by
  have hview : (a.shared.commit i).db = Store.applyAll Db.schema (Stage.closing j).writes a.shared.db :=
    hinv.view hi (by simp)
  rw [hview] at hr
  rcases Db.mem_routes_applyAll hr with hold | hnew
  · exact .inl hold
  · refine .inr ?_
    cases j with
    | cancel b free => cases free <;> simp [Stage.writes, Job.writes] at hnew
    | route r' first =>
      simp only [Stage.writes, Job.writes, List.mem_cons, Change.insertRoute.injEq,
        List.not_mem_nil, or_false, reduceCtorEq] at hnew
      exact ⟨first, by rw [hnew]⟩
    | _ => simp [Stage.writes, Job.writes] at hnew

theorem Sown.step (h : Sown server a) (hinv : Inv server a)
    (hs : (protocol server).Step envStep a l call a') : Sown server a' := by
  have hkept {r : Route} (hr : r ∈ a.shared.db.routes.rows) :
      ∃ i u p g, a'.phase i = some (.createRoute u p, g) ∧ Drafted server p r := by
    obtain ⟨i, u, p, g, hi, hdraft⟩ := h r hr
    obtain ⟨g', hi'⟩ := hs.phase_request hi
    exact ⟨i, u, p, g', hi', hdraft⟩
  have hs' := hs
  cases hs with
  | env he =>
    rename_i e w'
    cases e <;> cases he <;> exact fun r hr => hkept hr
  | spawn hi => exact fun r hr => hkept hr
  | run hi hw hst =>
    rename_i o i q g g' c w'
    by_cases hend : ∃ resp, g' = .ended resp
    · obtain ⟨resp, rfl⟩ := hend
      rcases hst.ended with ⟨j, rfl, -, rfl⟩ | ⟨e, e', -, -, rfl⟩
      · intro r hr
        rcases hinv.routes_commit hi hr with hold | ⟨first, rfl⟩
        · exact hkept hold
        · obtain ⟨u, p, rfl, hdraft⟩ := hinv.facts i _ _ hi
          obtain ⟨g', hi'⟩ := hs'.phase_request hi
          exact ⟨i, u, p, g', hi', hdraft⟩
      · exact fun r hr => hkept hr
    · intro r hr
      replace hr : r ∈ w'.db.routes.rows := hr
      rw [hst.db_eq (hinv.ne_lost hi) (not_exists.1 hend)] at hr
      exact hkept hr

theorem Reachable.sown (h : Reachable server sys) : ∀ r ∈ sys.shared.db.routes.rows,
    ∃ i u p, sys.request i = some (.createRoute u p) ∧ Drafted server p r := by
  obtain ⟨a, hv, -, hsown⟩ := h.keeps (I := Sown server)
    (fun users nextUser _ r hr => by cases hr) fun a l call a' hinv hsown hs => hsown.step hinv hs
  intro r hr
  obtain ⟨i, u, p, g, hi, hdraft⟩ := hsown r (hv.shared ▸ hr)
  exact ⟨i, u, p, hv.request hi, hdraft⟩

/-- `list_by_route` sorts what is sorted already. -/
theorem seatNumber_seatsOf {routeId n : Int}
    (h : (db.seats.rows.filter (·.routeId = routeId)).map (·.seatNumber) = RouteRepository.seatNumbers n) :
    (World.seatsOf db routeId).map (·.seatNumber) = RouteRepository.seatNumbers n := by
  have hsorted : ((db.seats.rows.filter (·.routeId = routeId)).map (·.seatNumber)).Pairwise (· ≤ ·) := by
    rw [h]
    simp only [RouteRepository.seatNumbers, List.pure_def, List.bind_eq_flatMap, ← List.map_eq_flatMap,
      List.pairwise_map]
    exact List.pairwise_lt_range.imp fun h => by omega
  unfold World.seatsOf
  rw [List.Pairwise.insertionSort_eq (List.pairwise_map.1 hsorted)]
  exact h

/-- The dates of a payload are in order. -/
theorem RouteCreate.rank_lt (p : RouteCreate) {dep arr : DateTime}
    (hdep : strptime p.departureAt = some dep)
    (harr : strptime p.arrivalAt = some arr) : dep.rank < arr.rank := by
  have h := p.dates
  unfold datesOrdered at h
  rw [hdep, harr] at h
  simpa using h

/-- **Every committed route**, whatever requests overlap and fail, has the price of its payload, which is
positive, and its seats are listed as 1, …, `total_seats`; it departs before it arrives iff the time zone
keeps the order of the payload's dates. -/
theorem routes_complete_iff (h : Reachable server sys) : ∀ r ∈ sys.shared.db.routes.rows, ∃ i u p,
    sys.request i = some (.createRoute u p) ∧ Drafted server p r ∧ 0 < r.price ∧
      (World.seatsOf sys.shared.db r.id).map (·.seatNumber) =
        RouteRepository.seatNumbers r.totalSeats ∧
      (r.departureAt.rank < r.arrivalAt.rank ↔ KeepsOrder server p) := by
  intro r hr
  obtain ⟨i, u, p, hreq, hdraft⟩ := h.sown r hr
  refine ⟨i, u, p, hreq, hdraft, ?_, seatNumber_seatsOf (h.consistent.seating r hr), ?_⟩
  all_goals obtain ⟨dep, arr, hdep, harr, hrow⟩ := hdraft
  · rw [hrow]
    exact p.price_pos
  · rw [hrow]
    constructor
    · intro hlt dep' arr' hdep' harr'
      cases hdep.symm.trans hdep'
      cases harr.symm.trans harr'
      exact hlt
    · exact fun hkeeps => hkeeps dep arr hdep harr

end

/-- A route is created, and another creation fails between its route and its seats. -/
theorem routes_complete_iff_aborted :
    ∃ sys, runSome (routeCreated ++ .spawn (.createRoute 1 somePayload) :: calls 1 3 ++
      [.run .fail 1, .run .ok 1]) = some sys ∧ sys.shared.db.routes.rows = [someRoute] ∧
    (World.seatsOf sys.shared.db 1).map (·.seatNumber) = RouteRepository.seatNumbers 2 ∧
    someRoute.departureAt.rank < someRoute.arrivalAt.rank := by
  obtain ⟨sys, hsys, hrows⟩ := exists_runSome
    (routeCreated ++ .spawn (.createRoute 1 somePayload) :: calls 1 3 ++
    [.run .fail 1, .run .ok 1]) (fun sys => sys.shared.db.routes.rows = [someRoute]) (by decide +kernel)
  obtain ⟨i, u, p, -, -, -, hseats, hdates⟩ := routes_complete_iff (reachable_runSome hsys) someRoute
    (by rw [hrows]; exact List.mem_singleton.2 rfl)
  exact ⟨sys, hsys, hrows, hseats, hdates.2 fun dep arr hdep harr => by
    simpa only [plainServer, id] using p.rank_lt hdep harr⟩

/-! ## A zone that skips a day -/

/-- The small installation in a time zone. -/
def zonedServer (zone : Zone) : Server := { plainServer with toUtc := zone.toUtc }

/-- Apia, ten hours behind UTC up to the end of 29 December 2011 and fourteen ahead of it from then on:
there is no 30 December. Its midnight is read with the offset from the 31st on. -/
def apia : Zone where
  utcoffset t := if t.rank < { year := 2011, month := 12, day := 30 : DateTime }.rank then -36000 else 50400
  utcoffset_bound t := by split <;> decide

/-- A route from 29 to 30 December. -/
def skippedPayload : RouteCreate :=
  { somePayload with departureAt := "29-12-2011", arrivalAt := "30-12-2011", dates := by decide }

/-- Its arrival is its departure. -/
theorem routes_complete_apia : ∃ sys r,
    (semantics (zonedServer apia)).steps someStart (.spawn (.createRoute 1 skippedPayload) :: calls 0 6) =
      some sys ∧
    sys.answer 0 = some (.route ⟨1, "Moskva"⟩) ∧ sys.shared.db.routes.rows = [r] ∧
    r.departureAt = { year := 2011, month := 12, day := 29, hour := 10 } ∧
    r.arrivalAt = r.departureAt ∧ ¬ KeepsOrder (zonedServer apia) skippedPayload := by
  have hrun : ((semantics (zonedServer apia)).steps someStart
      (.spawn (.createRoute 1 skippedPayload) :: calls 0 6)).any (fun sys =>
        sys.answer 0 = some (.route ⟨1, "Moskva"⟩) ∧ sys.shared.db.routes.rows =
          [{ someRoute with
              departureAt := { year := 2011, month := 12, day := 29, hour := 10 }
              arrivalAt := { year := 2011, month := 12, day := 29, hour := 10 } }]) = true := by
    decide +kernel
  obtain ⟨sys, hsys, h⟩ := (Option.any_eq_true _ _).1 hrun
  obtain ⟨hans, hrows⟩ := of_decide_eq_true h
  refine ⟨sys, _, hsys, hans, hrows, rfl, rfl, fun hkeeps => ?_⟩
  have := hkeeps _ _ (show strptime skippedPayload.departureAt =
    some { year := 2011, month := 12, day := 29 } by decide)
    (show strptime skippedPayload.arrivalAt = some { year := 2011, month := 12, day := 30 } by decide)
  exact absurd this (by decide)

end BusBookings

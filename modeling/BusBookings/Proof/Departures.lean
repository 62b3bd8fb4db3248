import BusBookings.Proof.Routes
import BusBookings.Proof.Events

/-!
# The date in a confirmation

A route keeps the instant that its payload's date begins at in the local time zone, and a confirmation
shows that instant in UTC. `Departures` follows both along a run; the date shown is that of the payload
iff the zone is not ahead of UTC when that day begins (`showsDate_iff`, `confirmation_shows_iff`).
-/

namespace BusBookings

open Async ReadCommitted

/-- The route text of a payload shows the date of `t`, with some time of day. -/
def ShowsDate (p : RouteCreate) (t : DateTime) (text : String) : Prop :=
  ∃ time : String,
    text = s!"{p.origin} → {p.destination} ({pad2 t.day}.{pad2 t.month}.{t.year} {time})"

/-! ## The text -/

/-- What `strptime` reads is the beginning of a day. -/
theorem strptime_spec {text : String} {t : DateTime} (h : strptime text = some t) :
    t.day ≤ 31 ∧ t.secondOfDay = 0 := by
  unfold strptime at h
  split at h
  · obtain ⟨day, -, h⟩ := Option.bind_eq_some_iff.1 h
    obtain ⟨month, -, h⟩ := Option.bind_eq_some_iff.1 h
    obtain ⟨year, -, h⟩ := Option.bind_eq_some_iff.1 h
    split at h
    · rename_i hday
      cases h
      exact ⟨hday.2.trans (DateTime.daysInMonth_bounds _ _).2, rfl⟩
    · cases h
  · cases h

theorem length_pad2 {n : Nat} (h : n < 32) : (pad2 n).toList.length = 2 := by
  revert n
  decide

theorem pad2_inj {m n : Nat} (hm : m < 32) (hn : n < 32) (h : pad2 m = pad2 n) : m = n := by
  have key : ∀ m < 32, ∀ n < 32, pad2 m = pad2 n → m = n := by decide +kernel
  exact key m hm n hn h

theorem DateTime.day_prevDay {t : DateTime} (h : t.day < 32) :
    t.prevDay.day < 32 ∧ t.prevDay.day ≠ t.day := by
  unfold prevDay
  split
  · exact ⟨by simp only; omega, by simp only; omega⟩
  · split
    · have := daysInMonth_bounds t.year (t.month - 1)
      exact ⟨by simp only; omega, by simp only; omega⟩
    · exact ⟨by simp only; omega, by simp only; omega⟩

/-- The text of a route at `t` shows the date of `t'` only if it is the same day of its month. -/
theorem ShowsDate.day_eq {p : RouteCreate} {r : Route} {t : DateTime} (h : ShowsDate p t (routeInfo r))
    (horigin : r.origin = p.origin) (hdest : r.destination = p.destination) (hday : t.day < 32)
    (hday' : r.departureAt.day < 32) : r.departureAt.day = t.day := by
  obtain ⟨time, h⟩ := h
  have hlist := congrArg String.toList h
  simp only [routeInfo, strftime, horigin, hdest, toString, String.toList_append, List.append_assoc,
    List.append_cancel_left_eq] at hlist
  have hpad := List.append_inj_left hlist (by rw [length_pad2 hday, length_pad2 hday'])
  exact pad2_inj hday' hday (String.toList_inj.1 hpad)

theorem showsDate_routeInfo {p : RouteCreate} {r : Route} {t : DateTime} {n : Nat}
    (horigin : r.origin = p.origin) (hdest : r.destination = p.destination)
    (hdep : r.departureAt = t.atSecond n) : ShowsDate p t (routeInfo r) := by
  refine ⟨s!"{pad2 r.departureAt.hour}:{pad2 r.departureAt.minute}", ?_⟩
  simp [routeInfo, strftime, horigin, hdest, hdep, DateTime.atSecond, toString, String.append_assoc]

/-- **The text of a route** that leaves at the local time `t` shows the date of `t` iff the zone is not
ahead of UTC then. -/
theorem showsDate_iff (zone : Zone) {p : RouteCreate} {r : Route} {t : DateTime} {text : String}
    (ht : strptime text = some t) (horigin : r.origin = p.origin)
    (hdest : r.destination = p.destination) (hdep : r.departureAt = zone.toUtc t) :
    ShowsDate p t (routeInfo r) ↔ zone.utcoffset t ≤ 0 := by
  obtain ⟨hday, hmidnight⟩ := strptime_spec ht
  obtain ⟨hlow, hhigh⟩ := zone.utcoffset_bound t
  have hlt : t.day < 32 := by omega
  constructor
  · intro hshows
    by_contra hahead
    -- ahead of UTC the day before has not ended there
    have hprev : r.departureAt = t.prevDay.atSecond (86400 - zone.utcoffset t).toNat := by
      rw [hdep, Zone.toUtc, DateTime.shift]
      simp only [hmidnight]
      rw [if_pos (by omega)]
      congr 2
      omega
    obtain ⟨hlt', hne⟩ := DateTime.day_prevDay hlt
    have hday' : r.departureAt.day = t.prevDay.day := by rw [hprev]; rfl
    exact hne (hday' ▸ hshows.day_eq horigin hdest hlt (by rw [hday']; exact hlt'))
  · intro hbehind
    have hsame : r.departureAt = t.atSecond (-zone.utcoffset t).toNat := by
      rw [hdep, Zone.toUtc, DateTime.shift]
      simp only [hmidnight]
      rw [if_neg (by omega), if_pos (by omega)]
      congr 2
      omega
    exact showsDate_routeInfo horigin hdest hsame

/-! ## Runs -/

/-- A confirmation shows the route that its request books. -/
def ShowsRoute (a : Abs World Request Stage) (pub : Publication) : Prop :=
  ∀ b email text, pub.event = .confirmed b email text →
    ∃ u r s g, a.phase pub.sender = some (.createBooking u r s, g) ∧
      ∃ route ∈ a.shared.db.routes.rows, route.id = r ∧ text = routeInfo route

/-- Created routes are committed as drafted, and every confirmation shows its route. -/
structure Departures (server : Server) (a : Abs World Request Stage) : Prop where
  created : ∀ i u p out, a.phase i = some (.createRoute u p, .ended (.route out)) →
    ∃ r ∈ a.shared.db.routes.rows, r.id = out.id ∧ Drafted server p r
  shown : ∀ pub ∈ a.shared.published, ShowsRoute a pub

section

variable {server : Server} {sys : System} {a a' : Abs World Request Stage} {i : Nat} {q : Request}
  {g g' : Stage} {w w' : World} {o : Outcome} {c : Call} {l : Label} {call : Option Call}

/-- The commit of a new route leaves it. -/
theorem Inv.commit_route (hinv : Inv server a) {r : Route} {first : Int}
    (hi : a.phase i = some (q, .closing (.route r first))) : r ∈ (a.shared.commit i).db.routes.rows := by
  have hview : (a.shared.commit i).db = Store.applyAll Db.schema
      (Stage.closing (.route r first)).writes a.shared.db := hinv.view hi (by simp)
  have hid : ¬ a.shared.db.Occupied (.route r.id) := hinv.vacant hi (by simp) (.insertRoute r)
    (by simp [Stage.writes, Job.writes]) rfl (by simp [Db.locks])
  rw [hview]
  show r ∈ (Db.apply (.insertRoute r) a.shared.db).routes.rows
  rw [Db.applyAll_insertRoute hid]
  exact List.mem_append_right _ (List.mem_singleton_self r)

/-- What a step adds to the publications. -/
theorem Step.published (h : Step server q i o c g w g' w') (hl : g ≠ .lost) :
    w'.published = w.published ∨ ∃ j email event, g = .notifying j email ∧
      j.event? email = some event ∧ w'.published = w.published ++ [⟨i, event, j.queue, exchange⟩] := by
  cases h with
  | write hw hch => exact .inl (change_published hch)
  | writeFails hw hch => exact .inl (change_published hch)
  | publish he hq => exact .inr ⟨_, _, _, rfl, he, by rw [hq]⟩
  | lost => exact absurd rfl hl
  | _ => exact .inl rfl

theorem ShowsRoute.step {pub : Publication} (h : ShowsRoute a pub) (hinv : Inv server a)
    (hs : (protocol server).Step envStep a l call a') : ShowsRoute a' pub := by
  intro b email text htext
  obtain ⟨u, r, s, g, hi, route, hroute, hshow⟩ := h b email text htext
  obtain ⟨g', hi'⟩ := hs.phase_request hi
  exact ⟨u, r, s, g', hi', route, (hinv.evolves hs).routes route hroute, hshow⟩

/-- The publication of a request that notifies shows its route. -/
theorem Inv.showsRoute (hinv : Inv server a) {j : Job} {email : String} {event : Event}
    (hi : a.phase i = some (q, .notifying j email)) (he : j.event? email = some event)
    (hs : (protocol server).Step envStep a l call a') :
    ShowsRoute a' ⟨i, event, j.queue, exchange⟩ := by
  intro b email' text htext
  cases j with
  | create b' onRoute =>
    cases he
    cases htext
    obtain ⟨u, r, s, rfl, hres⟩ := hinv.facts i _ _ hi
    obtain ⟨g', hi'⟩ := hs.phase_request hi
    exact ⟨u, r, s, g', hi', onRoute, (hinv.evolves hs).routes _ hres.route, hres.routeId, rfl⟩
  | cancel b' free => cases he; cases htext
  | _ => cases he

theorem Departures.step (h : Departures server a) (hinv : Inv server a)
    (hs : (protocol server).Step envStep a l call a') : Departures server a' := by
  have hev := hinv.evolves hs
  refine ⟨fun i u p out hi => ?_, fun pub hpub => ?_⟩
  · rcases hs.phase_eq hi with hi | ⟨-, -, he⟩ | ⟨o, c, g₀, -, -, hi₀, -, hst⟩
    · obtain ⟨r, hr, hid, hdraft⟩ := h.created i u p out hi
      exact ⟨r, hev.routes r hr, hid, hdraft⟩
    · cases he
    · rcases hst.ended with ⟨j, rfl, hresp, hw⟩ | ⟨e, e', -, hresp, -⟩
      · obtain ⟨r, first, rfl, hdraft⟩ :=
          (hinv.facts i _ _ hi₀ : j.Facts server a.shared.db _).isRoute
        cases hresp
        exact ⟨r, hw ▸ hinv.commit_route hi₀, rfl, hdraft⟩
      · unfold errorResponse at hresp
        split at hresp <;> cases hresp
  · by_cases hold : pub ∈ a.shared.published
    · exact (h.shown pub hold).step hinv hs
    have hs' := hs
    cases hs with
    | env he => exact absurd (envStep_published he ▸ hpub) hold
    | spawn hi => exact absurd hpub hold
    | run hi hw hst =>
      rcases hst.published (hinv.ne_lost hi) with heq | ⟨j, email, event, rfl, he, heq⟩
      · exact absurd (heq ▸ hpub) hold
      · rw [heq, List.mem_append, List.mem_singleton] at hpub
        obtain rfl := hpub.resolve_left hold
        exact hinv.showsRoute hi he hs'

theorem Reachable.departures (h : Reachable server sys) :
    ∃ a, View server sys a ∧ Inv server a ∧ Departures server a := by
  refine h.keeps (fun users nextUser _ => ?_) fun a l call a' hinv hdep hs => hdep.step hinv hs
  exact ⟨fun i u p out hi => (by cases hi), fun pub hpub => by cases hpub⟩

/-- **The confirmation of a booking** shows the date of the payload that created its route iff the local
time zone is not ahead of UTC when that day begins. -/
theorem confirmation_shows_iff {zone : Zone} (hzone : server.toUtc = zone.toUtc)
    (h : Reachable server sys) {i : Nat} {u v s b : Int} {p : RouteCreate} {out : RouteOut}
    {pub : Publication} {email text : String} {t : DateTime}
    (hcreate : sys.request i = some (.createRoute u p)) (hroute : sys.answer i = some (.route out))
    (hpub : pub ∈ sys.shared.published)
    (hbook : sys.request pub.sender = some (.createBooking v out.id s))
    (hevent : pub.event = .confirmed b email text) (hdate : strptime p.departureAt = some t) :
    ShowsDate p t text ↔ zone.utcoffset t ≤ 0 := by
  obtain ⟨a, hv, hinv, hdep⟩ := h.departures
  obtain ⟨r, hr, hrid, dep, arr, hdep', -, hrow⟩ :=
    hdep.created i u p out (ended_of_answer hv hinv hcreate hroute)
  obtain ⟨v', r', s', g, hg, route, hmem, hid, rfl⟩ :=
    hdep.shown pub (by rw [hv.shared]; exact hpub) b email text hevent
  cases (hv.request hg).symm.trans hbook
  obtain rfl : route = r := Table.eq_of_key hmem hr (hid.trans hrid.symm)
  rw [hdate] at hdep'
  cases hdep'
  exact showsDate_iff zone hdate (by rw [hrow]) (by rw [hrow]) (by rw [hrow, hzone])

end

/-! ## Lima and Moscow -/

/-- A zone that is always `offset` seconds ahead of UTC. -/
def fixedZone (offset : Int) (h : -86400 < offset ∧ offset < 86400) : Zone :=
  ⟨fun _ => offset, fun _ => h⟩

def lima : Zone := fixedZone (-18000) (by decide)

def moscow : Zone := fixedZone 10800 (by decide)

theorem toUtc_zonedServer (zone : Zone) : (zonedServer zone).toUtc = zone.toUtc := by rw [zonedServer]

/-- Route 1 leaves at midnight of 1 June 2030, and Ann has booked a seat. -/
structure ZonedBooking (zone : Zone) (text : String) (sys : System) : Prop where
  reachable : Reachable (zonedServer zone) sys
  creates : sys.request 0 = some (.createRoute 1 somePayload)
  created : sys.answer 0 = some (.route ⟨1, "Moskva"⟩)
  books : sys.request 1 = some (.createBooking 2 1 1)
  published : sys.shared.published = [confirmation 1 1 "ann@bus.com" text]

/-- What is checked of the run. -/
theorem exists_zonedBooking (zone : Zone) (text : String)
    (h : ((semantics (zonedServer zone)).steps someStart seatBooked).any (fun sys =>
      sys.request 0 = some (.createRoute 1 somePayload) ∧
        sys.answer 0 = some (.route ⟨1, "Moskva"⟩) ∧
        sys.request 1 = some (.createBooking 2 1 1) ∧
        sys.shared.published = [confirmation 1 1 "ann@bus.com" text]) = true) :
    ∃ sys, ZonedBooking zone text sys := by
  obtain ⟨sys, hsys, h⟩ := (Option.any_eq_true _ _).1 h
  obtain ⟨hcreates, hcreated, hbooks, hpub⟩ := of_decide_eq_true h
  exact ⟨sys, ⟨someStart, start_someStart, Run.of_steps hsys⟩, hcreates, hcreated, hbooks, hpub⟩

def firstOfJune : DateTime := { year := 2030, month := 6, day := 1 }

/-- In Lima the confirmation shows the date. -/
theorem confirmation_shows_lima : ∃ sys,
    ZonedBooking lima "Moskva → Kazan (01.06.2030 05:00)" sys ∧
      ShowsDate somePayload firstOfJune "Moskva → Kazan (01.06.2030 05:00)" := by
  obtain ⟨sys, h⟩ := exists_zonedBooking lima "Moskva → Kazan (01.06.2030 05:00)" (by decide +kernel)
  have hpub : confirmation 1 1 "ann@bus.com" "Moskva → Kazan (01.06.2030 05:00)" ∈
      sys.shared.published := by simp [h.published]
  have hdate : strptime somePayload.departureAt = some firstOfJune := by decide
  have hiff := confirmation_shows_iff (toUtc_zonedServer lima) h.reachable h.creates h.created hpub
    h.books rfl hdate
  exact ⟨sys, h, hiff.2 (by decide)⟩

/-- In Moscow it shows the day before. -/
theorem confirmation_shows_moscow : ∃ sys,
    ZonedBooking moscow "Moskva → Kazan (31.05.2030 21:00)" sys ∧
      strptime somePayload.departureAt = some firstOfJune ∧
      ¬ ShowsDate somePayload firstOfJune "Moskva → Kazan (31.05.2030 21:00)" := by
  obtain ⟨sys, h⟩ := exists_zonedBooking moscow "Moskva → Kazan (31.05.2030 21:00)" (by decide +kernel)
  let r : Route := { someRoute with departureAt := moscow.toUtc firstOfJune }
  have hdate : strptime somePayload.departureAt = some firstOfJune := by decide
  refine ⟨sys, h, hdate, fun hshows => ?_⟩
  have hinfo : routeInfo r = "Moskva → Kazan (31.05.2030 21:00)" := by decide +kernel
  exact absurd ((showsDate_iff moscow (r := r) hdate rfl rfl rfl).1 (hinfo ▸ hshows)) (by decide)

end BusBookings

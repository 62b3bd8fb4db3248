import BusBookings.Proof.Deactivation
import BusBookings.Proof.Reasons
import BusBookings.Proof.Searches

/-!
# What an answer says

A request answers what it has read, from the database or from the cache, and what it read was committed at
that moment. So in every run, whatever is interleaved and whatever fails, an answer was true once: `Vouched`
says of what database, and the stages of a request and the entries of the cache carry it along a run
(`Snapshots`).

* `reads_were_true`: the seats, the bookings and the tokens that are answered.
* `listRoutes_promise`: the pages of routes.
* `errors_justified`: an error has its reason, or a call of the request has failed.
-/

namespace BusBookings

open Async ReadCommitted

/-- Request `i` is `q`, and has not been answered. -/
def InFlight (sys : System) (i : Nat) (q : Request) : Prop := sys.request i = some q ∧ sys.answer i = none

section

variable (server : Server) (sys₀ : System) (ls : List Label)

/-- The seats of a route were `l` while a listing of them was in flight. -/
def Listed (r : Int) (l : List SeatOut) : Prop := (semantics server).Once sys₀ (fun _ sys =>
  (∃ j, InFlight sys j (.listSeats r)) ∧ l = seatOuts sys.shared.db r) ls

/-- The routes of a query were `total`. -/
def Counted (p : RouteQuery) (total : Int) : Prop := (semantics server).Once sys₀ (fun _ sys =>
  total = sys.shared.db.routes.rows.countP (p.toRouteFilter.accepts server.fold)) ls

/-- The page of a query was `pg`, its routes having been counted before. -/
structure Searched (p : RouteQuery) (pg : Page) : Prop where
  page : pg.page = p.page
  size : pg.size = p.size
  items : (semantics server).Once sys₀ (fun ls₁ sys => Counted server sys₀ ls₁ p pg.total ∧
    pg.items = (World.routesOf server sys.shared.db p.toRouteFilter ((p.page - 1) * p.size) p.size).map .ofRoute) ls

/-- Request `i` has a reason to fail with `e`: a call of it has failed, or the database gave one. -/
def Excused (i : Nat) (q : Request) (e : Exc) : Prop :=
  (e = .infrastructure ∧ .run .fail i ∈ ls) ∨
    (semantics server).Once sys₀ (fun _ sys => InFlight sys i q ∧ Reason server sys.shared.db q e) ls

/-- What makes the answer of request `i` true. -/
def Vouched (i : Nat) (q : Request) : Response → Prop
  | .seats l => ∃ r, q = .listSeats r ∧ Listed server sys₀ ls r l
  | .routes pg => ∃ p p', q = .listRoutes p ∧ routesKey p' = routesKey p ∧ Searched server sys₀ ls p' pg
  | .bookings l => ∃ u, q = .myBookings u ∧ (semantics server).Once sys₀ (fun _ sys => InFlight sys i q ∧
      l = server.newestFirst (sys.shared.db.bookings.rows.filter (·.userId = u))) ls
  | .token sub => ∃ username password, q = .login username password ∧
      (semantics server).Once sys₀ (fun _ sys => InFlight sys i q ∧ ∃ user ∈ sys.shared.db.users.rows,
        user.email = username ∧ server.checkpw password user.hashedPassword = true ∧
          user.isActive = true ∧ sub = toString user.id) ls
  | .error statusCode body => ∃ e, .error statusCode body = errorResponse e ∧ Excused server sys₀ ls i q e
  | _ => True

/-- An entry of the cache, as it was read once. -/
inductive Entry : String → Json → Prop
  | seats {r : Int} {l : List SeatOut} : Listed server sys₀ ls r l → Entry (seatsKey r) (seatsToJson l)
  | routes {p : RouteQuery} {pg : Page} : Searched server sys₀ ls p pg → Entry (routesKey p) pg.toJson

def Stage.Vouched (i : Nat) (q : Request) : Stage → Prop
  | .counted total => ∃ p, q = .listRoutes p ∧ Counted server sys₀ ls p total
  | .storing key _ v resp => Entry server sys₀ ls key v ∧ BusBookings.Vouched server sys₀ ls i q resp
  | .invalidating j | .deleting j _ | .invalidated j | .notifying j _ | .closing j =>
    BusBookings.Vouched server sys₀ ls i q j.response
  | .failing e => Excused server sys₀ ls i q e
  | .ended resp => BusBookings.Vouched server sys₀ ls i q resp
  | _ => True

/-- What the requests and the cache hold was true. -/
structure Snapshots (a : Abs World Request Stage) : Prop where
  entries : ∀ key v, a.shared.redis.get key = some v → Entry server sys₀ ls key v
  stages : ∀ i q g, a.phase i = some (q, g) → g.Vouched server sys₀ ls i q

end

section

variable {server : Server} {sys₀ sys sys' : System} {ls : List Label} {a a' : Abs World Request Stage}
  {i : Nat} {q : Request} {g g' : Stage} {w w' : World} {o : Outcome} {c : Call} {e : Exc}
  {l : Label} {call : Option Call}

/-! ## What was true once stays so -/

theorem Searched.append {p : RouteQuery} {pg : Page} (h : Searched server sys₀ ls p pg) (ls' : List Label) :
    Searched server sys₀ (ls ++ ls') p pg := ⟨h.page, h.size, h.items.append ls'⟩

theorem Excused.append (h : Excused server sys₀ ls i q e) (ls' : List Label) :
    Excused server sys₀ (ls ++ ls') i q e :=
  h.imp (fun ⟨he, hfail⟩ => ⟨he, List.mem_append_left _ hfail⟩) fun h => h.append ls'

theorem Vouched.append {resp : Response} (h : Vouched server sys₀ ls i q resp) (ls' : List Label) :
    Vouched server sys₀ (ls ++ ls') i q resp := by
  cases resp with
  | seats l =>
    obtain ⟨r, hq, h⟩ := h
    exact ⟨r, hq, h.append ls'⟩
  | routes pg =>
    obtain ⟨p, p', hq, hk, h⟩ := h
    exact ⟨p, p', hq, hk, h.append ls'⟩
  | bookings l =>
    obtain ⟨u, hq, h⟩ := h
    exact ⟨u, hq, h.append ls'⟩
  | token sub =>
    obtain ⟨username, password, hq, h⟩ := h
    exact ⟨username, password, hq, h.append ls'⟩
  | error statusCode body =>
    obtain ⟨e, he, h⟩ := h
    exact ⟨e, he, h.append ls'⟩
  | _ => trivial

theorem Entry.append {key : String} {v : Json} (h : Entry server sys₀ ls key v) (ls' : List Label) :
    Entry server sys₀ (ls ++ ls') key v := by
  cases h with
  | seats h => exact .seats (h.append ls')
  | routes h => exact .routes (h.append ls')

theorem Stage.Vouched.append (h : g.Vouched server sys₀ ls i q) (ls' : List Label) :
    g.Vouched server sys₀ (ls ++ ls') i q := by
  cases g with
  | counted total =>
    obtain ⟨p, hq, h⟩ := h
    exact ⟨p, hq, h.append ls'⟩
  | storing key ttl v resp => exact ⟨h.1.append ls', BusBookings.Vouched.append h.2 ls'⟩
  | invalidating j | deleting j keys | invalidated j | notifying j email | closing j | ended resp =>
    exact BusBookings.Vouched.append h ls'
  | failing e => exact Excused.append h ls'
  | _ => trivial

/-- The entry that a listing finds. -/
theorem Snapshots.seats (h : Snapshots server sys₀ ls a) {r : Int} {v : Json}
    (hv : a.shared.redis.get (seatsKey r) = some v) :
    ∃ l, v = seatsToJson l ∧ Listed server sys₀ ls r l := by
  generalize hk : seatsKey r = key at hv
  cases h.entries key v hv with
  | seats hl => exact ⟨_, rfl, seatsKey_injective hk ▸ hl⟩
  | routes => exact absurd hk (seatsKey_ne_routesKey _ _)

/-- The entry that a search finds may be that of another query. -/
theorem Snapshots.routes (h : Snapshots server sys₀ ls a) {p : RouteQuery} {v : Json}
    (hv : a.shared.redis.get (routesKey p) = some v) :
    ∃ p' pg, v = pg.toJson ∧ routesKey p' = routesKey p ∧ Searched server sys₀ ls p' pg := by
  generalize hk : routesKey p = key at hv
  cases h.entries key v hv with
  | seats => exact absurd hk.symm (seatsKey_ne_routesKey _ _)
  | routes hpg => exact ⟨_, _, rfl, rfl, hpg⟩

/-! ## One step -/

theorem vouched_afterDelete {j : Job} (h : Vouched server sys₀ ls i q j.response) :
    (Stage.afterDelete j).Vouched server sys₀ ls i q := by
  cases j <;> exact h

theorem vouched_afterPublish {j : Job} (h : Vouched server sys₀ ls i q j.response) :
    (Stage.afterPublish j).Vouched server sys₀ ls i q := by
  cases j with
  | cancel b free => cases free <;> trivial
  | _ => exact h

theorem vouched_errorResponse (h : Excused server sys₀ ls i q e) :
    Vouched server sys₀ ls i q (errorResponse e) := by
  cases e <;> exact ⟨_, rfl, h⟩

/-- What an entry is read back as. -/
theorem vouched_cacheCheck {α : Type} {ofJson? : Json → Option α} {resp : α → Response} {entry : Option Json}
    (h : ∀ v, entry = some v → ∃ x, ofJson? v = some x ∧ Vouched server sys₀ ls i q (resp x)) :
    (cacheCheck ofJson? resp entry).Vouched server sys₀ ls i q := by
  unfold cacheCheck
  split
  · trivial
  · rename_i cached hget
    obtain ⟨x, hx, hvouch⟩ := h cached (Option.filter_eq_some_iff.1 hget).1
    rw [hx]
    exact hvouch

/-- What a request has read is committed. -/
theorem Reads.vouched (hr : Reads server (a.shared.view i) q c g g') (hinv : Inv server a)
    (hv : View server sys a) (hsteps : (semantics server).steps sys₀ ls = some sys)
    (hi : a.phase i = some (q, g)) (hfly : InFlight sys i q) (h : g.Vouched server sys₀ ls i q)
    (hfail : ∀ e, g' = .failing e → Excused server sys₀ ls i q e) (hl : g' ≠ .lost) :
    g'.Vouched server sys₀ ls i q := by
  have hview := hinv.view hi hr.not_failing
  cases hr with
  | again ha hp => cases ha <;> trivial
  | lost => exact absurd rfl hl
  | route =>
    revert hfail
    exact routeCheck_ind (fun e hfail => hfail e rfl) (fun _ _ => trivial) _
  | seat =>
    revert hfail
    exact seatCheck_ind (fun e hfail => hfail e rfl) (fun _ => trivial) _
  | booking =>
    revert hfail
    exact cancelCheck_ind (fun e hfail => hfail e rfl) (fun _ _ => trivial) _
  | admin =>
    revert hfail
    exact adminCheck_ind (fun e hfail => hfail e rfl) (fun _ => trivial) _
  | email =>
    revert hfail
    exact registerCheck_ind (fun e hfail => hfail e rfl) (fun _ => trivial) _
  | creator | owner => exact h
  | count hf =>
    subst hf
    rw [hview]
    exact ⟨_, rfl, .now hsteps (by rw [← hv.shared]; rfl)⟩
  | page hf ho hlim hp =>
    subst hf ho hlim hp
    obtain ⟨_, hq, hcount⟩ := h
    cases hq
    rename_i p total
    rw [hview]
    have hsearch : Searched server sys₀ ls p ⟨total, p.page, p.size, (World.routesOf server a.shared.db
        p.toRouteFilter ((p.page - 1) * p.size) p.size).map .ofRoute⟩ :=
      ⟨rfl, rfl, .now hsteps ⟨hcount, by rw [← hv.shared]⟩⟩
    exact ⟨.routes hsearch, _, _, rfl, rfl, hsearch⟩
  | seats hlist =>
    subst hlist
    rw [hview]
    have hlisted : Listed server sys₀ ls _ _ := .now hsteps ⟨⟨i, hfly⟩, by rw [← hv.shared]⟩
    exact ⟨.seats hlisted, _, rfl, hlisted⟩
  | history =>
    rw [hview]
    exact ⟨_, rfl, .now hsteps ⟨hfly, by rw [← hv.shared]; rfl⟩⟩
  | login =>
    unfold loginCheck at hfail ⊢
    split
    · rename_i hfind
      exact hfail _ (by rw [hfind])
    · rename_i user hfind
      rw [hfind] at hfail
      rw [hview] at hfind
      split
      · exact hfail _ (if_pos ‹_›)
      · rename_i hright
        split
        · rename_i hinactive
          exact hfail _ ((if_neg hright).trans (if_pos hinactive))
        · rename_i hactive
          exact ⟨_, _, rfl, .now hsteps ⟨hfly, user, by
            rw [← hv.shared]
            exact List.mem_of_find?_eq_some hfind, by simpa using List.find?_some hfind,
            by simpa using hright, by simpa using hactive, rfl⟩⟩

/-- **One step of a request**, from what was true to what then was. -/
theorem Snapshots.vouched (h : Snapshots server sys₀ ls a) (hinv : Inv server a) (hv : View server sys a)
    (hemails : (a.shared.db.users.rows.map (·.email)).Nodup)
    (hsteps : (semantics server).steps sys₀ ls = some sys)
    (hi : a.phase i = some (q, g)) (hw : Waits q g c) (hs : Step server q i o c g a.shared g' w') :
    g'.Vouched server sys₀ (ls ++ [.run o i]) i q := by
  have hg := h.stages i q g hi
  have hfly : InFlight sys i q :=
    ⟨hv.request hi, (inFlight_of_phase hv hinv hi fun resp he => not_waits_ended (he ▸ hw)).2⟩
  have hexcuse {e : Exc} (hreason : Reason server a.shared.db q e) : Excused server sys₀ ls i q e :=
    .inr (.now hsteps ⟨hfly, hv.shared ▸ hreason⟩)
  cases hs with
  | fail => exact .inl ⟨rfl, by simp⟩
  | read hr =>
    have hfacts := hinv.read hi hr
    refine (hr.vouched hinv hv hsteps hi hfly hg (fun e he => ?_) fun hlost => ?_).append _
    · subst he
      exact hexcuse (hinv.reason_read hemails hi hr)
    · rw [hlost] at hfacts
      exact hfacts
  | write hwr => cases hwr <;> trivial
  | writeFails hwr hch => exact Excused.append (hexcuse (hinv.reason_write hi hwr hch)) _
  | cachedRoutes hq hk =>
    subst hk
    refine (vouched_cacheCheck fun v hv' => ?_).append _
    obtain ⟨p', pg, rfl, hk, hpg⟩ := h.routes hv'
    exact ⟨pg, Page.ofJson_toJson pg, _, p', hq, hk, hpg⟩
  | cachedSeats hq hk =>
    subst hk
    refine (vouched_cacheCheck fun v hv' => ?_).append _
    obtain ⟨l, rfl, hl⟩ := h.seats hv'
    exact ⟨l, seatsOfJson_seatsToJson l, _, hq, hl⟩
  | store => exact BusBookings.Vouched.append hg.2 _
  | keys =>
    have hresp := BusBookings.Vouched.append hg [.run .ok i]
    unfold Stage.afterKeys
    split
    · exact vouched_afterDelete hresp
    · exact hresp
  | delete => exact vouched_afterDelete (BusBookings.Vouched.append hg _)
  | publish => exact vouched_afterPublish (BusBookings.Vouched.append hg _)
  | commit => exact BusBookings.Vouched.append hg _
  | rollback =>
    cases o with
    | ok => exact vouched_errorResponse (Excused.append hg _)
    | fail => exact vouched_errorResponse (.inl ⟨rfl, by simp⟩)
  | lost => exact absurd rfl (hinv.ne_lost hi)

theorem Snapshots.step (h : Snapshots server sys₀ ls a) (hinv : Inv server a) (hv : View server sys a)
    (hemails : (a.shared.db.users.rows.map (·.email)).Nodup)
    (hsteps : (semantics server).steps sys₀ ls = some sys)
    (hs : (protocol server).Step envStep a l call a') : Snapshots server sys₀ (ls ++ [l]) a' := by
  refine ⟨fun key v hget => ?_, fun i q g hi => ?_⟩
  · rcases hinv.redis_step hs hget with hold | ⟨i, q, ttl, resp, -, -, hi⟩
    · exact (h.entries key v hold).append _
    · exact (h.stages i q _ hi).1.append _
  · rcases hs.phase_eq hi with hold | ⟨-, -, rfl⟩ | ⟨o, c, g₀, rfl, -, hi₀, hw, hst⟩
    · exact (h.stages i q g hold).append _
    · trivial
    · exact h.vouched hinv hv hemails hsteps hi₀ hw hst

/-- What the requests of a run hold was true. -/
theorem snapshots (h₀ : Start sys₀) (h : (semantics server).steps sys₀ ls = some sys) :
    ∃ a, View server sys a ∧ Inv server a ∧ Snapshots server sys₀ ls a := by
  have hrun := Trace.of_steps h
  obtain ⟨users, nextUser, hu, hemails, rfl⟩ := id h₀
  refine Trace.invariant (I := fun ls a => Inv server a ∧ Snapshots server _ ls a) handler_sim
    (fun ls sys₁ a l sys₂ a' htr _ _ hv _ ⟨hinv, hI⟩ hs => ?_) hrun (Refines.initial _)
    ⟨inv_start hu, fun key v hget => (by cases hget), fun i q g hi => by cases hi⟩
  have hreach : Reachable server sys₁ := ⟨_, h₀, htr.run⟩
  obtain ⟨a₁, hv₁, -, hacc⟩ := hreach.accounts
  exact ⟨hinv.step hs, hI.step hinv hv (hv.shared ▸ hv₁.shared ▸ hacc.emails) htr.steps hs⟩

/-- What makes an answer true. -/
theorem vouched_of_answer (h₀ : Start sys₀) (h : (semantics server).steps sys₀ ls = some sys)
    {resp : Response} (hreq : sys.request i = some q) (hans : sys.answer i = some resp) :
    Vouched server sys₀ ls i q resp := by
  obtain ⟨a, hv, hinv, hsnap⟩ := snapshots h₀ h
  exact hsnap.stages i q _ (ended_of_answer hv hinv hreq hans)

/-! ## The answers -/

/-- **What is read was true**: the seats of a route, a user's bookings and the user of a token are those of
the committed database at a moment when the request, or for the seats a listing of the same route, was in
flight. -/
theorem reads_were_true (h₀ : Start sys₀) (h : (semantics server).steps sys₀ ls = some sys)
    {resp : Response} (hreq : sys.request i = some q) (hans : sys.answer i = some resp) :
    (∀ r l, q = .listSeats r → resp = .seats l → (semantics server).Once sys₀ (fun _ sys =>
      (∃ j, InFlight sys j (.listSeats r)) ∧ l = seatOuts sys.shared.db r) ls) ∧
    (∀ u l, q = .myBookings u → resp = .bookings l → (semantics server).Once sys₀ (fun _ sys =>
      InFlight sys i q ∧ l = server.newestFirst (sys.shared.db.bookings.rows.filter (·.userId = u))) ls) ∧
    ∀ username password sub, q = .login username password → resp = .token sub →
      (semantics server).Once sys₀ (fun _ sys => InFlight sys i q ∧ ∃ user ∈ sys.shared.db.users.rows,
        user.email = username ∧ server.checkpw password user.hashedPassword = true ∧
          user.isActive = true ∧ sub = toString user.id) ls := by
  have hvouch := vouched_of_answer h₀ h hreq hans
  refine ⟨?_, ?_, ?_⟩
  · rintro r l rfl rfl
    obtain ⟨r', hq, hlisted⟩ := hvouch
    cases hq
    exact hlisted
  · rintro u l rfl rfl
    obtain ⟨u', hq, honce⟩ := hvouch
    cases hq
    exact honce
  · rintro username password sub rfl rfl
    obtain ⟨username', password', hq, honce⟩ := hvouch
    cases hq
    exact honce

/-- The seats of route 1 are listed. -/
theorem reads_were_true_listed : ∃ ls sys l, ls = routeCreated ++ .spawn (.listSeats 1) :: calls 1 4 ∧
    runSome ls = some sys ∧ sys.answer 1 = some (.seats l) ∧
      (semantics plainServer).Once someStart (fun _ sys =>
        (∃ j, InFlight sys j (.listSeats 1)) ∧ l = seatOuts sys.shared.db 1) ls := by
  obtain ⟨sys, hsys, hreq, hans⟩ := exists_runSome (routeCreated ++ .spawn (.listSeats 1) :: calls 1 4)
    (fun sys => sys.request 1 = some (.listSeats 1) ∧
      sys.answer 1 = some (.seats [⟨1, 1, false⟩, ⟨2, 2, false⟩])) (by decide +kernel)
  exact ⟨_, sys, _, rfl, hsys, hans,
    (reads_were_true start_someStart hsys hreq hans).1 1 _ rfl rfl⟩

/-- **An error has its reason**: a call of the request has failed, or its reason was given in the committed
database while it was in flight. -/
theorem errors_justified (h₀ : Start sys₀) (h : (semantics server).steps sys₀ ls = some sys)
    {statusCode : Nat} {body : ErrorResponse} (hreq : sys.request i = some q)
    (hans : sys.answer i = some (.error statusCode body)) :
    ∃ e, .error statusCode body = errorResponse e ∧ ((e = .infrastructure ∧ .run .fail i ∈ ls) ∨
      (semantics server).Once sys₀ (fun _ sys => InFlight sys i q ∧ Reason server sys.shared.db q e) ls) :=
  vouched_of_answer h₀ h hreq hans

/-- Bob is told that Ann's seat is booked. -/
theorem errors_justified_booked : ∃ ls sys body, ls = seatBooked ++ .spawn (.createBooking 3 1 1) :: calls 2 3 ∧
    runSome ls = some sys ∧ sys.answer 2 = some (.error 409 body) ∧
      ∃ e, .error 409 body = errorResponse e ∧ ((e = .infrastructure ∧ .run .fail 2 ∈ ls) ∨
        (semantics plainServer).Once someStart (fun _ sys => InFlight sys 2 (.createBooking 3 1 1) ∧
          Reason plainServer sys.shared.db (.createBooking 3 1 1) e) ls) := by
  obtain ⟨sys, hsys, hreq, hans⟩ := exists_runSome (seatBooked ++ .spawn (.createBooking 3 1 1) :: calls 2 3)
    (fun sys => sys.request 2 = some (.createBooking 3 1 1) ∧
      sys.answer 2 = some (.error 409 { error := "Conflict", detail := "Seat is already booked" }))
    (by decide +kernel)
  exact ⟨_, sys, _, rfl, hsys, hans, errors_justified start_someStart hsys hreq hans⟩

/-! ## Pages -/

/-- A text is split at its first colon in one way. -/
theorem eq_of_colon {s s' t t' : List Char} (h : ':' ∉ s) (h' : ':' ∉ s')
    (he : s ++ ':' :: t = s' ++ ':' :: t') : s = s' ∧ t = t' := by
  rcases List.append_eq_append_iff.1 he with ⟨d, rfl, hd⟩ | ⟨d, rfl, hd⟩
  · cases d with
    | nil => simpa using hd
    | cons c d =>
      cases hd
      exact absurd (by simp) h'
  · cases d with
    | nil => simpa using hd.symm
    | cons c d =>
      cases hd
      exact absurd (by simp) h

/-- Queries that share a key ask for the same page and size. -/
theorem routesKey_page {p p' : RouteQuery} (h : routesKey p' = routesKey p) :
    p'.page = p.page ∧ p'.size = p.size := by
  have hkey (p : RouteQuery) : (routesKey p).toList.reverse = (toString p.size).toList.reverse ++ ':' ::
      ((toString p.page).toList.reverse ++ ':' ::
        ("routes:" ++ pyStr p.origin ++ ":" ++ pyStr p.destination).toList.reverse) := by
    rw [show routesKey p = "routes:" ++ pyStr p.origin ++ ":" ++ pyStr p.destination ++ ":" ++
      toString p.page ++ ":" ++ toString p.size from rfl]
    simp
  have hcolon (n : Int) : ':' ∉ (toString n).toList.reverse := by simpa using colon_notMem n
  have hinj {m n : Int} (h : (toString m).toList.reverse = (toString n).toList.reverse) : m = n :=
    Int.repr_injective (String.toList_injective (List.reverse_injective h))
  have hlist := congrArg (fun s : String => s.toList.reverse) h
  simp only [hkey] at hlist
  obtain ⟨hsize, hrest⟩ := eq_of_colon (hcolon _) (hcolon _) hlist
  obtain ⟨hpage, -⟩ := eq_of_colon (hcolon _) (hcolon _) hrest
  exact ⟨hinj hpage, hinj hsize⟩

/-- No route disappears. -/
theorem countP_routes_le {db db' : Db} (hev : db.Evolves db') (f : Route → Bool) :
    db.routes.rows.countP f ≤ db'.routes.rows.countP f :=
  (db.routes.nodup.of_map.subperm hev.routes).countP_le f

theorem Reachable.evolves (h : Reachable server sys) (hs : (semantics server).steps sys ls = some sys') :
    sys.shared.db.Evolves sys'.shared.db := by
  obtain ⟨a, hv, hinv⟩ := h.inv
  have hrun := (Trace.of_steps hs).run
  obtain ⟨a', hv', -, hev⟩ := Run.invariant (I := fun a' => Inv server a' ∧ a.shared.db.Evolves a'.shared.db)
    handler_sim (fun _ _ _ _ _ _ ⟨hinv, hev⟩ hs => ⟨hinv.step hs, hev.trans (hinv.evolves hs)⟩) hrun hv
    ⟨hinv, .refl _⟩
  rwa [hv.shared, hv'.shared] at hev

/-- A page that is not full is the last one. -/
theorem length_routesOf (db : Db) (p : RouteQuery) :
    let n := (World.routesOf server db p.toRouteFilter ((p.page - 1) * p.size) p.size).length
    (n : Int) ≤ p.size ∧ ((n : Int) < p.size →
      (db.routes.rows.countP (p.toRouteFilter.accepts server.fold) : Int) ≤ (p.page - 1) * p.size + n) := by
  have hoffset : 0 ≤ (p.page - 1) * p.size := by
    have := p.page_bound
    have := p.size_bound
    exact Int.mul_nonneg (by omega) (by omega)
  have hsize := p.size_bound
  have hlen := (server.order_perm p.toRouteFilter ((p.page - 1) * p.size) p.size
    (db.routes.rows.filter (p.toRouteFilter.accepts server.fold))).length_eq
  simp only [World.routesOf, List.length_take, List.length_drop, hlen, List.countP_eq_length_filter]
  generalize (p.page - 1) * p.size = offset at *
  omega

/-- **What a page promises**: it is the page of the size that was asked for, and when it is not full, the
routes that were counted are on it and the pages before it. -/
theorem listRoutes_promise (h₀ : Start sys₀) (h : (semantics server).steps sys₀ ls = some sys)
    {p : RouteQuery} {pg : Page} (hreq : sys.request i = some (.listRoutes p))
    (hans : sys.answer i = some (.routes pg)) :
    pg.page = p.page ∧ pg.size = p.size ∧ (pg.items.length : Int) ≤ p.size ∧
      ((pg.items.length : Int) < p.size → pg.total ≤ (p.page - 1) * p.size + pg.items.length) ∧
      ∃ p', routesKey p' = routesKey p ∧ Searched server sys₀ ls p' pg := by
  obtain ⟨q, p', hq, hkey, hsearch⟩ := vouched_of_answer h₀ h hreq hans
  cases hq
  obtain ⟨hpage, hsize⟩ := routesKey_page hkey
  obtain ⟨ls₂, sys₂, hpre₂, hs₂, ⟨ls₁, sys₁, hpre₁, hs₁, htotal⟩, hitems⟩ := hsearch.items
  have hreach : Reachable server sys₁ := ⟨sys₀, h₀, (Trace.of_steps hs₁).run⟩
  obtain ⟨ls', hs'⟩ := Semantics.steps_of_prefix hpre₁ hs₁ hs₂
  have hgrows := countP_routes_le (hreach.evolves hs') (p'.toRouteFilter.accepts server.fold)
  obtain ⟨hle, hlast⟩ := @length_routesOf server sys₂.shared.db p'
  have hlen : pg.items.length = (World.routesOf server sys₂.shared.db p'.toRouteFilter
      ((p'.page - 1) * p'.size) p'.size).length := by rw [hitems, List.length_map]
  rw [← hlen, hpage, hsize] at hlast
  rw [← hlen, hsize] at hle
  exact ⟨hsearch.page.trans hpage, hsearch.size.trans hsize, hle, fun hshort => by
    have := hlast hshort
    omega, p', hkey, hsearch⟩

/-- The one route is on the first page. -/
theorem listRoutes_promise_first :
    ∃ sys pg, runSome (routeCreated ++ .spawn (.listRoutes anyRoute) :: calls 1 5) = some sys ∧
      sys.answer 1 = some (.routes pg) ∧ pg.total ≤ 1 := by
  obtain ⟨sys, hsys, hreq, hans⟩ := exists_runSome
    (routeCreated ++ .spawn (.listRoutes anyRoute) :: calls 1 5)
    (fun sys => sys.request 1 = some (.listRoutes anyRoute) ∧
      sys.answer 1 = some (.routes ⟨1, 1, 20, [⟨1, "Moskva"⟩]⟩)) (by decide +kernel)
  exact ⟨sys, _, hsys, hans,
    (listRoutes_promise start_someStart hsys hreq hans).2.2.2.1 (by decide)⟩

end

end BusBookings

import BusBookings.Proof.Cache

/-!
# The cached seats

`list_seats` reads the cache, then the database, and stores what it has read; a booking or
cancellation deletes the entry and commits later. `Ordered` is the order that keeps the entries
right: no store between the deletion and the commit, no commit between the read and the store. In
the runs of such steps every entry is the list of the committed seats, in every state, and a list
that is answered was the list of the committed seats at a moment between the request and its answer
(`seats_coherent`).
-/

namespace BusBookings

open Async ReadCommitted

/-- Every cached list of seats is that of the committed database. -/
def World.Coherent (w : World) : Prop :=
  ∀ r v, w.redis.get (seatsKey r) = some v → v = seatsToJson (seatOuts w.db r)

/-! ## The order of the steps -/

/-- The route whose seats a request changes. -/
def Request.changes (db : Db) : Request → Option Int
  | .createBooking _ r _ => some r
  | .cancelBooking _ id => (db.bookings.find? id).map (·.routeId)
  | _ => none

/-- The route whose seats a request lists. -/
def Request.lists : Request → Option Int
  | .listSeats r => some r
  | _ => none

def Request.createsRoute : Request → Bool
  | .createRoute .. => true
  | _ => false

/-- The calls of a booking or cancellation that follow its cache invalidation. -/
def Call.afterDelete : Call → Bool
  | .selectUser _ | .publish .. | .updateSeat _ false | .commit => true
  | _ => false

def Call.stores : Call → Bool
  | .setex .. => true
  | _ => false

def Call.commits : Call → Bool
  | .commit => true
  | _ => false

/-- A booking or cancellation of route `r` has deleted the cached seats and is not committed. -/
def Uncommitted (sys : System) (r : Int) : Prop :=
  ∃ t ∈ sys.tasks, t.req.changes sys.shared.db = some r ∧ t.co.awaiting.any Call.afterDelete = true

/-- A listing of the seats of route `r` has read them and not stored them. -/
def Storing (sys : System) (r : Int) : Prop :=
  ∃ t ∈ sys.tasks, t.req.lists = some r ∧ t.co.awaiting.any Call.stores = true

instance (sys : System) (r : Int) : Decidable (Uncommitted sys r) :=
  inferInstanceAs (Decidable (∃ t ∈ sys.tasks, _ ∧ _))

instance (sys : System) (r : Int) : Decidable (Storing sys r) :=
  inferInstanceAs (Decidable (∃ t ∈ sys.tasks, _ ∧ _))

/-- No route is created; the seats of a route are not stored between the invalidation and the commit
of a booking or cancellation, nor is one committed between the reading and the storing. -/
def Ordered (sys : System) : Label → Prop
  | .spawn q => q.createsRoute = false
  | .run .ok i => ∀ t ∈ sys.tasks[i]?,
      (t.co.awaiting.any Call.stores = true → ∀ r ∈ t.req.lists, ¬ Uncommitted sys r) ∧
      (t.co.awaiting.any Call.commits = true → ∀ r ∈ t.req.changes sys.shared.db, ¬ Storing sys r)
  | _ => True

instance (sys : System) : DecidablePred (Ordered sys)
  | .spawn q => inferInstanceAs (Decidable (q.createsRoute = false))
  | .run .ok i => inferInstanceAs (Decidable (∀ t ∈ sys.tasks[i]?, _ ∧ _))
  | .run .fail _ | .env _ => isTrue trivial

/-! ## Stages -/

/-- The route whose seats a job changes. -/
def Job.seatsOf : Job → Option Int
  | .create b _ | .cancel b _ => some b.routeId
  | _ => none

/-- The route whose seats a request has changed, past its invalidation and before its commit. -/
def Stage.uncommitted : Stage → Option Int
  | .invalidated j | .notifying j _ | .closing j => j.seatsOf
  | .flushing b => some b.routeId
  | _ => none

def Response.seats? : Response → Option (List SeatOut)
  | .seats l => some l
  | _ => none

/-- The seats a request is about to answer, or has answered. -/
def Stage.seats? : Stage → Option (List SeatOut)
  | .storing _ _ _ resp | .ended resp => resp.seats?
  | .invalidating j | .deleting j _ | .invalidated j | .notifying j _ | .closing j => j.response.seats?
  | _ => none

section

variable {server : Server} {a a' : Abs World Request Stage} {i : Nat} {q : Request} {g g' : Stage}
  {w w' : World} {c : Call} {o : Outcome} {sys : System} {l : Label} {call : Option Call} {db : Db}
  {r : Int}

theorem seatOuts_congr {db' : Db} (h : db'.seats = db.seats) (r : Int) :
    seatOuts db' r = seatOuts db r := by
  unfold seatOuts World.seatsOf
  rw [h]

/-- The flag of another route's seat. -/
theorem seatOuts_updateSeat {id : Int} {flag : Bool} (h : ∀ s ∈ db.seats.rows, s.id = id → s.routeId ≠ r) :
    seatOuts (db.updateSeat id flag) r = seatOuts db r := by
  have hrows : (db.updateSeat id flag).seats.rows.filter (·.routeId = r) =
      db.seats.rows.filter (·.routeId = r) := by
    show (db.seats.rows.map fun s => if s.id = id then Db.setBooked flag s else s).filter _ = _
    rw [List.filter_map]
    have hcomp : ((fun s : Seat => decide (s.routeId = r)) ∘
        fun s => if s.id = id then Db.setBooked flag s else s) =
        fun s : Seat => decide (s.routeId = r) := by
      funext s
      simp only [Function.comp_apply]
      split <;> rfl
    rw [hcomp]
    refine (List.map_congr_left fun s hs => ?_).trans (List.map_id _)
    obtain ⟨hs, hr⟩ := List.mem_filter.1 hs
    exact if_neg fun hid => h s hs hid (by simpa using hr)
  unfold seatOuts World.seatsOf
  rw [hrows]

/-- **A commit changes the seats of its job's route only.** -/
theorem Inv.seatOuts_commit (hinv : Inv server a) {j : Job} (hi : a.phase i = some (q, .closing j))
    (hroute : ∀ u p, q ≠ .createRoute u p) (hr : r ∉ j.seatsOf) :
    seatOuts (a.shared.commit i).db r = seatOuts a.shared.db r := by
  have hview : (a.shared.commit i).db = Store.applyAll Db.schema (Stage.closing j).writes a.shared.db :=
    hinv.view hi (by simp)
  have hfacts := hinv.facts i _ _ hi
  rw [hview]
  cases j with
  | create b route =>
    obtain ⟨u, r', s, rfl, hres⟩ := hfacts
    obtain ⟨seat, hseat, hid, hsr⟩ := hres.seat
    show seatOuts (a.shared.db.updateSeat b.seatId true) r = _
    refine seatOuts_updateSeat fun x hx hxid hxr => hr ?_
    obtain rfl : x = seat := Table.eq_of_key hx hseat (by rw [hxid, hid, hres.booking])
    show some b.routeId = some r
    rw [← hxr, hsr, hres.booking]
  | cancel b free =>
    obtain ⟨u, rfl, hheld, -⟩ := hfacts
    obtain ⟨seat, hseat, hid, hsr⟩ := hheld.seat hinv.consistent
    cases free with
    | false => exact seatOuts_congr rfl r
    | true =>
      show seatOuts (a.shared.db.updateSeat b.seatId false) r = _
      refine seatOuts_updateSeat fun x hx hxid hxr => hr ?_
      obtain rfl : x = seat := Table.eq_of_key hx hseat (hxid.trans hid.symm)
      show some b.routeId = some r
      rw [← hxr, hsr]
  | route r' first =>
    obtain ⟨u, p, rfl, -⟩ := hfacts
    exact absurd rfl (hroute u p)
  | register u => exact seatOuts_congr rfl r
  | read resp => exact seatOuts_congr rfl r

/-- The seats of a route change with a commit: of a request for this route, or of a new route. -/
theorem Inv.seatOuts_step (hinv : Inv server a) (hs : (protocol server).Step envStep a l call a')
    (r : Int) :
    seatOuts a'.shared.db r = seatOuts a.shared.db r ∨ ∃ i q j, l = .run .ok i ∧ call = some .commit ∧
      a.phase i = some (q, .closing j) ∧ a'.shared = a.shared.commit i ∧
      (r ∈ j.seatsOf ∨ ∃ u p, q = .createRoute u p) := by
  cases hs with
  | env he =>
    rename_i e w'
    refine .inl ?_
    cases e <;> cases he <;> exact seatOuts_congr rfl r
  | spawn hi => exact .inl rfl
  | run hi hw hst =>
    rename_i o i q g g' c w'
    by_cases hend : ∃ resp, g' = .ended resp
    · obtain ⟨resp, rfl⟩ := hend
      rcases hst.ended with ⟨j, rfl, -, hw'⟩ | ⟨e, e', -, -, rfl⟩
      · obtain rfl : o = .ok := by cases hst; all_goals rfl
        obtain rfl : c = .commit := by cases q <;> exact hw
        by_cases hr : r ∈ j.seatsOf ∨ ∃ u p, q = .createRoute u p
        · exact .inr ⟨i, q, j, rfl, rfl, hi, hw', hr⟩
        · subst hw'
          exact .inl (hinv.seatOuts_commit hi (fun u p hq => hr (.inr ⟨u, p, hq⟩)) fun hr' => hr (.inl hr'))
      · exact .inl rfl
    · have hdb : w'.db = a.shared.db := hst.db_eq (hinv.ne_lost hi) (not_exists.1 hend)
      exact .inl (congrArg (seatOuts · r) hdb)

/-! ## Invalidation -/

theorem mem_uncommitted : r ∈ g.uncommitted ↔ ∃ j ∈ g.invalidated?, r ∈ j.seatsOf := by
  cases g with
  | invalidated j | notifying j | closing j =>
    constructor
    · intro hr
      refine ⟨j, ?_, hr⟩
      cases j <;> first | rfl | cases hr
    · intro ⟨j', hj, hr⟩
      obtain rfl := Stage.eq_of_mem_invalidated hj
      exact hr
  | flushing b =>
    constructor
    · exact fun hr => ⟨_, rfl, hr⟩
    · intro ⟨j, hj, hr⟩
      cases hj
      exact hr
  | _ => simp [Stage.uncommitted, Stage.invalidated?]

theorem Job.pattern_eq {j : Job} (h : r ∈ j.seatsOf) : j.pattern = seatsPattern r := by
  cases j <;> cases h <;> rfl

/-- The entry of the job's route is among those to delete. -/
theorem Keyring.mem_deleting (h : Keyring a) (hinv : Inv server a) (hi : a.phase i = some (q, g)) {j : Job}
    {keys : List String} (hst : Step server q i o c g a.shared (.deleting j keys) w') (hr : r ∈ j.seatsOf) :
    seatsKey r ∈ keys := by
  obtain ⟨rfl, hne, -⟩ := Step.deleting hst (hinv.ne_lost hi)
  obtain ⟨key, hkey⟩ := List.exists_mem_of_ne_nil _ hne
  obtain ⟨hsome, hmatch⟩ := Redis.Keyspace.mem_keysOf.1 hkey
  obtain ⟨v, hsome⟩ := Option.isSome_iff_exists.1 hsome
  rw [Job.pattern_eq hr] at hmatch
  rcases h.entries key v hsome with ⟨r', rfl⟩ | ⟨p, rfl⟩
  · obtain rfl := (isMatch_seatsKey r r').1 hmatch
    exact hkey
  · exact absurd hmatch (not_isMatch_routesKey r p)

/-- A request gets past its invalidation with the entry gone. -/
theorem Step.gone (hst : Step server q i o c g w g' w') (hl : g ≠ .lost) (hr : r ∈ g'.uncommitted)
    (hdel : ∀ j keys, g = .deleting j keys → r ∈ j.seatsOf → seatsKey r ∈ keys) :
    r ∈ g.uncommitted ∨ w'.redis.get (seatsKey r) = none := by
  obtain ⟨j, hj', hj⟩ := mem_uncommitted.1 hr
  rcases hst.invalidated hl hj' with hj' | ⟨-, hkeys, hw'⟩ | ⟨keys, rfl, hw'⟩
  · exact .inl (mem_uncommitted.2 ⟨j, hj', hj⟩)
  · refine .inr ?_
    rw [hw']
    by_contra hne
    have hmem : seatsKey r ∈ w.redis.keysOf j.pattern := by
      rw [Job.pattern_eq hj]
      exact Redis.Keyspace.mem_keysOf.2
        ⟨Option.isSome_iff_ne_none.2 hne, (isMatch_seatsKey r r).2 rfl⟩
    rw [hkeys] at hmem
    cases hmem
  · refine .inr ?_
    rw [hw']
    show (w.redis.del keys).get _ = none
    rw [Redis.Keyspace.get_del, if_pos (hdel j keys rfl hj)]

/-! ## Fresh entries -/

/-- The entries and what the readers store are the committed seats; past the invalidation of a
booking or cancellation the entry is gone. -/
structure Fresh (a : Abs World Request Stage) : Prop where
  keyring : Keyring a
  coherent : a.shared.Coherent
  storing : ∀ i r key ttl v resp, a.phase i = some (.listSeats r, .storing key ttl v resp) →
    v = seatsToJson (seatOuts a.shared.db r)
  deleting : ∀ i q j keys, a.phase i = some (q, .deleting j keys) → ∀ r ∈ j.seatsOf, seatsKey r ∈ keys
  gone : ∀ i q g, a.phase i = some (q, g) → ∀ r ∈ g.uncommitted, a.shared.redis.get (seatsKey r) = none
  noRoute : ∀ i u p g, a.phase i = some (.createRoute u p, g) → ∃ resp, g = .ended resp

theorem Job.Facts.changes {j : Job} (h : j.Facts server db q) (hr : r ∈ j.seatsOf) :
    q.changes db = some r := by
  cases j with
  | create b route =>
    obtain ⟨u, r', s, rfl, hres⟩ := h
    cases hr
    rw [hres.booking]
    rfl
  | cancel b free =>
    obtain ⟨u, rfl, hheld, -⟩ := h
    cases hr
    rcases hheld.find? with hb | hb <;> simp [Request.changes, hb, Db.setStatus]
  | _ => cases hr

theorem Stage.Facts.changes (h : g.Facts server db q) (hr : r ∈ g.uncommitted) : q.changes db = some r := by
  cases g with
  | invalidated j | notifying j email | closing j =>
    exact (show j.Facts server db q from h).changes hr
  | flushing b => exact (show (Job.cancel b true).Facts server db q from h).changes hr
  | _ => cases hr

theorem Waits.afterDelete (h : Waits q g c) (hr : r ∈ g.uncommitted) : c.afterDelete = true := by
  cases g with
  | invalidated j =>
    cases q with
    | createBooking | cancelBooking => rw [show c = _ from h]; rfl
    | _ => exact h.elim
  | notifying j email =>
    obtain ⟨event, -, rfl⟩ : ∃ event, j.event? email = some event ∧
        c = .publish event j.queue exchange := by
      cases q <;> exact h
    rfl
  | closing j =>
    obtain rfl : c = .commit := by cases q <;> exact h
    rfl
  | flushing b =>
    obtain rfl : c = .updateSeat b.seatId false := by cases q <;> exact h
    rfl
  | _ => cases hr

/-- A request in a stage that is not a last one is suspended at a call of the stage. -/
theorem awaiting_of_phase (hv : View server sys a) (hinv : Inv server a) (hi : a.phase i = some (q, g))
    (hg : ∀ resp, g ≠ .ended resp) :
    ∃ t ∈ sys.tasks, t.req = q ∧ ∃ c, t.co.awaiting = some c ∧ Waits q g c := by
  obtain ⟨t, ht, rfl, hwaits, hends⟩ := hv.waits hi
  refine ⟨t, List.mem_of_getElem? ht, rfl, ?_⟩
  cases hco : t.co with
  | await c k => exact ⟨c, rfl, hwaits c (by rw [hco]; rfl)⟩
  | done resp =>
    rcases hends resp (by rw [hco]; rfl) with he | he
    · exact absurd he (hg resp)
    · exact absurd he (hinv.ne_lost hi)

/-- Who is past its invalidation is seen waiting for a call that follows it. -/
theorem uncommitted_of_phase (hv : View server sys a) (hinv : Inv server a) (hi : a.phase i = some (q, g))
    (hr : r ∈ g.uncommitted) : Uncommitted sys r := by
  obtain ⟨t, ht, rfl, c, hc, hw⟩ := awaiting_of_phase hv hinv hi fun resp he => by subst he; cases hr
  refine ⟨t, ht, ?_, ?_⟩
  · rw [← hv.shared]
    exact (hinv.facts i _ _ hi).changes hr
  · rw [hc]
    exact hw.afterDelete hr

theorem storing_of_phase (hv : View server sys a) (hinv : Inv server a) {key : String} {ttl : Nat}
    {v : Json}
    {resp : Response} (hi : a.phase i = some (.listSeats r, .storing key ttl v resp)) : Storing sys r := by
  obtain ⟨t, ht, hreq, c, hc, hw⟩ := awaiting_of_phase hv hinv hi fun resp he => by cases he
  obtain rfl : c = .setex key ttl v := hw
  exact ⟨t, ht, by rw [hreq]; rfl, by rw [hc]; rfl⟩

/-! ## Steps -/

theorem Ordered.not_uncommitted (hl : Ordered sys (.run .ok i)) (hv : View server sys a)
    (hi : a.phase i = some (.listSeats r, g)) {key : String} {ttl : Nat} {v : Json}
    (hc : sys.awaiting i = some (.setex key ttl v)) : ¬ Uncommitted sys r := by
  obtain ⟨t, ht, hco⟩ := Option.bind_eq_some_iff.1 hc
  obtain ⟨t', ht', hreq, -⟩ := hv.waits hi
  obtain rfl : t' = t := Option.some.inj (ht'.symm.trans ht)
  exact (hl _ ht).1 (by rw [hco]; rfl) r (by rw [hreq]; rfl)

theorem Ordered.not_storing (hl : Ordered sys (.run .ok i)) (hv : View server sys a)
    (hi : a.phase i = some (q, g)) (hc : sys.awaiting i = some .commit) (hr : r ∈ q.changes a.shared.db) :
    ¬ Storing sys r := by
  obtain ⟨t, ht, hco⟩ := Option.bind_eq_some_iff.1 hc
  obtain ⟨t', ht', hreq, -⟩ := hv.waits hi
  obtain rfl : t' = t := Option.some.inj (ht'.symm.trans ht)
  exact (hl _ ht).2 (by rw [hco]; rfl) r (by rw [hreq, ← hv.shared]; exact hr)

/-- The seats of a route change with a commit of a request for this route only. -/
theorem Fresh.seatOuts_step (h : Fresh a) (hinv : Inv server a)
    (hs : (protocol server).Step envStep a l call a') (r : Int) :
    seatOuts a'.shared.db r = seatOuts a.shared.db r ∨ ∃ i q j, l = .run .ok i ∧ call = some .commit ∧
      a.phase i = some (q, .closing j) ∧ r ∈ j.seatsOf := by
  rcases hinv.seatOuts_step hs r with hsame | ⟨i, q, j, rfl, hc, hi, -, hr | ⟨u, p, rfl⟩⟩
  · exact .inl hsame
  · exact .inr ⟨i, q, j, rfl, hc, hi, hr⟩
  · obtain ⟨resp, he⟩ := h.noRoute i u p _ hi
    cases he

/-- An entry that is gone is not stored again before the commit. -/
theorem Fresh.gone_step (h : Fresh a) (hv : View server sys a) (hinv : Inv server a) (hl : Ordered sys l)
    (hs : (protocol server).Step envStep a l (sys.callOf l) a') (hi : a.phase i = some (q, g))
    (hr : r ∈ g.uncommitted) : a'.shared.redis.get (seatsKey r) = none := by
  by_contra hne
  obtain ⟨v, hsome⟩ := Option.ne_none_iff_exists'.1 hne
  rcases hinv.redis_step hs hsome with hold | ⟨k, q', ttl, resp, rfl, hc, hk⟩
  · rw [h.gone i q g hi r hr] at hold
    cases hold
  · rcases h.keyring.storing k q' _ _ _ _ hk with ⟨r', rfl, hkey⟩ | ⟨p, -, hkey⟩
    · obtain rfl := seatsKey_injective hkey
      exact hl.not_uncommitted hv hk hc (uncommitted_of_phase hv hinv hi hr)
    · exact seatsKey_ne_routesKey r p hkey

theorem Fresh.step (h : Fresh a) (hv : View server sys a) (hinv : Inv server a) (hl : Ordered sys l)
    (hs : (protocol server).Step envStep a l (sys.callOf l) a') : Fresh a' where
  keyring := h.keyring.step hinv hs
  coherent r v hsome := by
    have hchanged := h.seatOuts_step hinv hs r
    rcases hinv.redis_step hs hsome with hold | ⟨k, q', ttl, resp, rfl, hc, hk⟩
    · rcases hchanged with hsame | ⟨k, q', j, -, -, hk, hr⟩
      · rw [hsame]
        exact h.coherent r v hold
      · rw [h.gone k q' _ hk r hr] at hold
        cases hold
    · rcases h.keyring.storing k q' _ _ _ _ hk with ⟨r', rfl, hkey⟩ | ⟨p, -, hkey⟩
      · obtain rfl := seatsKey_injective hkey
        rcases hchanged with hsame | ⟨k', q', j, -, hcommit, -⟩
        · rw [hsame]
          exact h.storing k r _ _ _ _ hk
        · rw [hc] at hcommit
          cases hcommit
      · exact absurd hkey (seatsKey_ne_routesKey r p)
  storing i r key ttl v resp hi := by
    rcases hs.phase_eq hi with hold | ⟨-, -, hstart⟩ | ⟨o, c, g, -, -, hi, -, hst⟩
    · rcases h.seatOuts_step hinv hs r with hsame | ⟨k, q', j, rfl, hc, hk, hr⟩
      · rw [hsame]
        exact h.storing i r key ttl v resp hold
      · exact absurd (storing_of_phase hv hinv hold)
          (hl.not_storing hv hk hc (Stage.Facts.changes (hinv.facts k _ _ hk) hr))
    · cases hstart
    · obtain ⟨hw', ⟨r', hq, hmissed, -, hv', -⟩ | ⟨p, hq, -⟩⟩ := Step.storing hst (hinv.ne_lost hi)
      · cases hq
        rw [hv', hw', hinv.view hi (by simp [hmissed]), hmissed]
        rfl
      · cases hq
  deleting i q j keys hi r hr := by
    rcases hs.phase_eq hi with hold | ⟨-, -, hstart⟩ | ⟨o, c, g, -, -, hi, -, hst⟩
    · exact h.deleting i q j keys hold r hr
    · cases hstart
    · exact h.keyring.mem_deleting hinv hi hst hr
  gone i q g hi r hr := by
    rcases hs.phase_eq hi with hold | ⟨-, -, hstart⟩ | ⟨o, c, g₀, -, -, hi, -, hst⟩
    · exact h.gone_step hv hinv hl hs hold hr
    · rw [hstart] at hr
      cases hr
    · rcases hst.gone (hinv.ne_lost hi) hr
        (fun j keys he hj => h.deleting i q j keys (he ▸ hi) r hj) with hr | hnone
      · exact h.gone_step hv hinv hl hs hi hr
      · exact hnone
  noRoute i u p g hi := by
    rcases hs.phase_eq hi with hold | ⟨rfl, -⟩ | ⟨o, c, g₀, -, -, hi, hw, -⟩
    · exact h.noRoute i u p g hold
    · cases hl
    · obtain ⟨resp, rfl⟩ := h.noRoute i u p g₀ hi
      exact False.elim hw

/-! ## Answers -/

theorem seats_afterDelete (j : Job) : (Stage.afterDelete j).seats? = j.response.seats? := by
  cases j <;> rfl

theorem seats_afterPublish (j : Job) : (Stage.afterPublish j).seats? = j.response.seats? := by
  cases j with
  | cancel b free => cases free <;> rfl
  | _ => rfl

theorem seats_errorResponse (e : Exc) : (errorResponse e).seats? = none := by
  cases e <;> rfl

/-- `l` were the seats of route `r` at a moment between `sys₁` and `sys`. -/
def Seen (server : Server) (sys₁ sys : System) (r : Int) (l : List SeatOut) : Prop :=
  ∃ sys₂, Run (semantics server) Ordered sys₁ sys₂ ∧ Run (semantics server) Ordered sys₂ sys ∧
    l = seatOuts sys₂.shared.db r

/-- A reader shows what its entry holds, or what it has read. -/
theorem Fresh.seats_step (h : Fresh a) (hinv : Inv server a) (hi : a.phase i = some (.listSeats r, g))
    (hs : Step server (.listSeats r) i o c g a.shared g' w') {l : List SeatOut} (hl : l ∈ g'.seats?) :
    l ∈ g.seats? ∨ l = seatOuts a.shared.db r := by
  cases hs with
  | fail => cases hl
  | read hr =>
    have hview := hinv.view hi
    cases hr with
    | again ha => cases ha
    | lost => cases hl
    | seats hl' =>
      cases hl
      rw [hl', hview (by simp)]
      exact .inr rfl
  | write hw hch => cases hw; exact .inl hl
  | writeFails => cases hl
  | cachedRoutes hq => cases hq
  | cachedSeats hq hk =>
    cases hq
    subst hk
    unfold cacheCheck at hl
    split at hl
    · cases hl
    · rename_i cached hget
      rw [h.coherent r cached (Option.filter_eq_some_iff.1 hget).1, seatsOfJson_seatsToJson] at hl
      cases hl
      exact .inr rfl
  | store => exact .inl hl
  | keys =>
    unfold Stage.afterKeys at hl
    split at hl
    · rw [seats_afterDelete] at hl
      exact .inl hl
    · exact .inl hl
  | delete =>
    rw [seats_afterDelete] at hl
    exact .inl hl
  | publish =>
    rw [seats_afterPublish] at hl
    exact .inl hl
  | commit => exact .inl hl
  | rollback =>
    rw [show (Stage.ended (errorResponse _)).seats? = none from seats_errorResponse _] at hl
    cases hl
  | lost => cases hl

/-- The requests from `n` on show seats that were seen since `sys₁`. -/
def Showing (server : Server) (sys₁ : System) (sys : System) (a : Abs World Request Stage) : Prop :=
  ∀ i r g l, sys₁.tasks.length ≤ i → a.phase i = some (.listSeats r, g) → l ∈ g.seats? →
    Seen server sys₁ sys r l

theorem Showing.step {sys₁ sys' : System} (h : Showing server sys₁ sys a) (hf : Fresh a)
    (hv : View server sys a) (hinv : Inv server a) (hpre : Run (semantics server) Ordered sys₁ sys)
    (hpost : Run (semantics server) Ordered sys sys')
    (hs : (protocol server).Step envStep a l (sys.callOf l) a') : Showing server sys₁ sys' a' := by
  intro i r g seats hn hi hseats
  have hseen : Seen server sys₁ sys r seats → Seen server sys₁ sys' r seats :=
    fun ⟨sys₂, h₁, h₂, hs⟩ => ⟨sys₂, h₁, h₂.trans hpost, hs⟩
  rcases hs.phase_eq hi with hold | ⟨-, -, hstart⟩ | ⟨o, c, g₀, -, -, hi, -, hst⟩
  · exact hseen (h i r g seats hn hold hseats)
  · rw [hstart] at hseats
    cases hseats
  · rcases hf.seats_step hinv hi hst hseats with hshown | hread
    · exact hseen (h i r g₀ seats hn hi hshown)
    · exact hseen ⟨sys, hpre, .refl _, by rw [hread, hv.shared]⟩

/-- Between requests the entries that are right are fresh. -/
theorem Fresh.start (hr : Reachable server sys) (hq : sys.Quiescent) (hc : sys.shared.Coherent) :
    ∃ a, View server sys a ∧ Inv server a ∧ Fresh a := by
  obtain ⟨a, hv, hinv, hkeys⟩ := hr.keyring
  have hend : ∀ i q g, a.phase i = some (q, g) → ∃ resp, g = .ended resp :=
    fun i q g hi => ended_of_quiescent hv hinv hq hi
  refine ⟨a, hv, hinv, hkeys, ?_, fun i r key ttl v resp hi => ?_, fun i q j keys hi => ?_,
    fun i q g hi r hr => ?_, fun i u p g hi => hend i _ _ hi⟩
  · rw [hv.shared]
    exact hc
  · obtain ⟨resp', he⟩ := hend i _ _ hi
    cases he
  · obtain ⟨resp', he⟩ := hend i _ _ hi
    cases he
  · obtain ⟨resp', rfl⟩ := hend i _ _ hi
    cases hr

/-- In every run of steps in this order from a state whose entries are right, every entry is the
list of the committed seats, and a listing that starts at `sys₁` or later answers the committed
seats of a moment since. -/
theorem seats_coherent {sys₀ sys₁ : System} (h₀ : Reachable server sys₀) (hq : sys₀.Quiescent)
    (hc : sys₀.shared.Coherent) (h₁ : Run (semantics server) Ordered sys₀ sys₁)
    (h₂ : Run (semantics server) Ordered sys₁ sys) : sys.shared.Coherent ∧
    ∀ i r l, sys₁.tasks.length ≤ i → sys.request i = some (.listSeats r) → sys.answer i = some (.seats l) →
      ∃ sys₂, Run (semantics server) Ordered sys₁ sys₂ ∧ Run (semantics server) Ordered sys₂ sys ∧
        l = seatOuts sys₂.shared.db r := by
  obtain ⟨a₀, hv₀, hinv₀, hf₀⟩ := Fresh.start h₀ hq hc
  obtain ⟨a₁, hv₁, hinv₁, hf₁⟩ := Run.invariant (I := fun a => Inv server a ∧ Fresh a) handler_sim
    (fun _ _ _ _ hv hl ⟨hinv, hf⟩ hs => ⟨hinv.step hs, hf.step hv hinv hl hs⟩) h₁ hv₀ ⟨hinv₀, hf₀⟩
  obtain ⟨a, hv, hinv, hf, hshow⟩ :=
    Run.invariant_along (I := fun sys a => Inv server a ∧ Fresh a ∧ Showing server sys₁ sys a) handler_sim
      (fun _ _ _ _ _ hpre hl hstep hv _ ⟨hinv, hf, hshow⟩ hs => ⟨hinv.step hs, hf.step hv hinv hl hs,
        hshow.step hf hv hinv hpre (.step (.refl _) hl hstep) hs⟩) h₂ hv₁
      ⟨hinv₁, hf₁, fun i r g l hn hi => by
        obtain ⟨t, ht, -⟩ := hv₁.waits hi
        have := (List.getElem?_eq_some_iff.1 ht).1
        omega⟩
  refine ⟨hv.shared ▸ hf.coherent, fun i r l hn hreq hans => ?_⟩
  obtain ⟨t, ht, hreq⟩ := Option.map_eq_some_iff.1 hreq
  obtain ⟨t', ht', hres⟩ := Option.bind_eq_some_iff.1 hans
  obtain rfl : t = t' := Option.some.inj (ht.symm.trans ht')
  obtain ⟨g, hi, hend⟩ := hv.ends ht hres
  rw [hreq] at hi
  obtain rfl := hend.resolve_right (hinv.ne_lost hi)
  exact hshow i r _ l hn hi rfl

/-- No entry is cached. -/
theorem World.Coherent.of_empty (h : w.redis.keys = []) : w.Coherent := by
  intro r v hv
  have hmem : seatsKey r ∈ w.redis.keys := AList.mem_keys.1 (AList.lookup_isSome.1 (by
    rw [show w.redis.lookup (seatsKey r) = some v from hv]
    rfl))
  rw [h] at hmem
  cases hmem

/-- An entry that is right reads back as the committed seats. -/
theorem World.Coherent.read (h : w.Coherent) {l : List SeatOut}
    (hl : (w.redis.get (seatsKey r)).bind seatsOfJson? = some l) : l = seatOuts w.db r := by
  obtain ⟨v, hv, hl⟩ := Option.bind_eq_some_iff.1 hl
  rw [h r v hv, seatsOfJson_seatsToJson] at hl
  exact (Option.some.inj hl).symm

end

/-- The seats are listed, seat 1 is booked, and the seats are listed again. -/
theorem seats_coherent_inTurn : ∃ sys₁ sys : System, sys.shared.Coherent ∧
    sys₁.answer 3 = none ∧ sys.answer 3 = some (.seats [⟨1, 1, true⟩, ⟨2, 2, false⟩]) ∧
    Seen plainServer sys₁ sys 1 [⟨1, 1, true⟩, ⟨2, 2, false⟩] := by
  obtain ⟨sys₀, h₀, hq, hempty, hruns⟩ := exists_runSome routeCreated (fun sys₀ => sys₀.Quiescent ∧
    sys₀.shared.redis.keys = [] ∧
    ((semantics plainServer).stepsIf Ordered sys₀ (.spawn (.listSeats 1) :: calls 1 4 ++
        .spawn (.createBooking 2 1 1) :: calls 2 14)).any (fun sys₁ =>
      ((semantics plainServer).stepsIf Ordered sys₁ (.spawn (.listSeats 1) :: calls 3 4)).any fun sys =>
        sys₁.tasks.length ≤ 3 ∧ sys₁.answer 3 = none ∧ sys.request 3 = some (.listSeats 1) ∧
          sys.answer 3 = some (.seats [⟨1, 1, true⟩, ⟨2, 2, false⟩])) = true) (by decide +kernel)
  obtain ⟨sys₁, h₁, hruns⟩ := (Option.any_eq_true _ _).1 hruns
  obtain ⟨sys, h₂, hP⟩ := (Option.any_eq_true _ _).1 hruns
  obtain ⟨hn, hnone, hreq, hans⟩ := of_decide_eq_true hP
  obtain ⟨hc, hseen⟩ := seats_coherent (reachable_runSome h₀) hq (.of_empty hempty) (Run.of_stepsIf h₁)
    (Run.of_stepsIf h₂)
  exact ⟨sys₁, sys, hc, hnone, hans, hseen 3 1 _ hn hreq hans⟩

/-- A listing between the cache invalidation and the commit of a booking stores the seat as free;
afterwards, with no request in flight, it is still cached and answered. -/
theorem listSeats_stale : ∃ sys, runSome (routeCreated ++ .spawn (.createBooking 2 1 1) :: calls 1 10 ++
      .spawn (.listSeats 1) :: calls 2 4 ++ calls 1 3 ++ .spawn (.listSeats 1) :: calls 3 2) = some sys ∧
    sys.Quiescent ∧ (sys.answer 1).map Response.statusCode = some 201 ∧ ¬ sys.shared.Coherent ∧
    seatOuts sys.shared.db 1 = [⟨1, 1, true⟩, ⟨2, 2, false⟩] ∧
    sys.answer 3 = some (.seats [⟨1, 1, false⟩, ⟨2, 2, false⟩]) := by
  obtain ⟨sys, hsys, hq, hcode, hseats, hcached, hans⟩ := exists_runSome (routeCreated ++
      .spawn (.createBooking 2 1 1) :: calls 1 10 ++ .spawn (.listSeats 1) :: calls 2 4 ++ calls 1 3 ++
      .spawn (.listSeats 1) :: calls 3 2) (fun sys => sys.Quiescent ∧
    (sys.answer 1).map Response.statusCode = some 201 ∧
    seatOuts sys.shared.db 1 = [⟨1, 1, true⟩, ⟨2, 2, false⟩] ∧
    (sys.shared.redis.get (seatsKey 1)).bind seatsOfJson? = some [⟨1, 1, false⟩, ⟨2, 2, false⟩] ∧
    sys.answer 3 = some (.seats [⟨1, 1, false⟩, ⟨2, 2, false⟩])) (by decide +kernel)
  refine ⟨sys, hsys, hq, hcode, fun hc => ?_, hseats, hans⟩
  have hread := hc.read hcached
  rw [hseats] at hread
  cases hread

end BusBookings

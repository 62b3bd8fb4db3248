import BusBookings.Proof.Events
import BusBookings.Proof.Rebooking

/-!
# Requests that compete for one unique key

Bookings of one free seat, or registrations of one e-mail: each checks first and inserts later. As
long as no request inserts a key that another one has committed meanwhile (`Contest.Fair`), the
check stops every loser with 409, and one request wins (`Contest.one_winner`): first nothing is
committed and nobody has failed (`Undecided`), then one request has committed, and the others have
not inserted and cannot any more (`Decided`).
-/

namespace BusBookings

open Async ReadCommitted

/-- What the requests compete for. -/
inductive Contest where
  | seat (route : Route) (seat : Seat)
  | email (email : String)

/-- The unique key of a new row. -/
def Call.claims : Call → Option LockKey
  | .insertBooking row => some (.bookingSeat row.seatId)
  | .insertUser row => some (.email row.email)
  | _ => none

/-- A stage before the `INSERT`. -/
def Stage.early : Stage → Bool
  | .start | .routeRead _ | .seatRead _ | .adminRead | .emailFree => true
  | _ => false

namespace Contest

def key : Contest → LockKey
  | .seat _ s => .bookingSeat s.id
  | .email e => .email e

def refusal : Contest → Exc
  | .seat .. => .http 409 "Seat is already booked"
  | .email _ => .http 409 "Email already registered"

/-- Request `q` competes, and is valid otherwise. -/
def Enters (server : Server) (db : Db) : Contest → Request → Prop
  | .seat route s, q => ∃ user, Bookable db user route s ∧ q = .createBooking user.id route.id s.id
  | .email e, q => ∃ p salt, q = .register p salt ∧ p.email = e ∧ ∀ id, Db.fits (.insertUser
      ⟨id, p.email, server.hashpw salt p.password, p.username, p.firstName, p.lastName, true, .user⟩) = true

/-- The job of the winner. -/
def Wins : Contest → Job → Prop
  | .seat route s, j => ∃ b, j = .create b route ∧ b.routeId = route.id ∧ b.seatId = s.id
  | .email e, j => ∃ u, j = .register u ∧ u.email = e

/-- The key is taken, and a check sees it. -/
def Won (db : Db) : Contest → Prop
  | .seat _ s => db.Confirmed s.id
  | .email e => db.Occupied (.email e)

/-- The stages of a loser. -/
def Losing (c : Contest) : Stage → Prop
  | .failing e => e = c.refusal
  | .ended resp => resp = errorResponse c.refusal
  | g => g.early = true

section

variable {server : Server} {c : Contest} {a : Abs World Request Stage} {i : Nat} {q : Request}
  {g g' : Stage} {w' : World} {db₀ db : Db} {call : Call}

theorem Won.occupied (h : c.Won db) : db.Occupied c.key := by
  cases c with
  | seat route s =>
    obtain ⟨b, hb, hs, -⟩ := h
    exact ⟨b, hb, hs⟩
  | email e => exact h

theorem losing_of_early (h : g.early = true) : c.Losing g := by
  cases g <;> first | exact h | cases h

theorem Losing.writes (h : c.Losing g) (hne : ∀ e, g ≠ .failing e) : g.writes = [] := by
  cases g with
  | failing e => exact absurd rfl (hne e)
  | closing j => cases h
  | _ => first | rfl | cases h

/-- The row of a competitor has the key. -/
theorem Enters.locks_create (h : c.Enters server db₀ q) {b : Booking} {rt : Route}
    (hj : (Job.create b rt).Facts server db q) : c.key ∈ Db.locks (.insertBooking b) := by
  obtain ⟨u, r, s, rfl, hres⟩ := hj
  cases c with
  | seat route st =>
    obtain ⟨user, -, hq⟩ := h
    cases hq
    rw [hres.booking]
    simp [Db.locks, key]
  | email e => obtain ⟨p, salt, hq, -⟩ := h; cases hq

theorem Enters.locks_register (h : c.Enters server db₀ q) {u : User}
    (hj : (Job.register u).Facts server db q) : c.key ∈ Db.locks (.insertUser u) := by
  obtain ⟨p, salt, rfl, hu⟩ := hj
  cases c with
  | seat route st => obtain ⟨user, -, hq⟩ := h; cases hq
  | email e =>
    obtain ⟨p', salt', hq, rfl, -⟩ := h
    cases hq
    simp [Db.locks, key, hu]

theorem Enters.not_cancel (h : c.Enters server db₀ q) (u id : Int) : q ≠ .cancelBooking u id := by
  cases c with
  | seat route st => obtain ⟨user, -, rfl⟩ := h; simp
  | email e => obtain ⟨p, salt, rfl, -⟩ := h; simp

theorem Enters.not_createRoute (h : c.Enters server db₀ q) (u : Int) (p : RouteCreate) :
    q ≠ .createRoute u p := by
  cases c with
  | seat route st => obtain ⟨user, -, rfl⟩ := h; simp
  | email e => obtain ⟨p', salt, rfl, -⟩ := h; simp

theorem Enters.not_reads (h : c.Enters server db₀ q) : q.reads = false := by
  cases c with
  | seat route st => obtain ⟨user, -, rfl⟩ := h; rfl
  | email e => obtain ⟨p, salt, rfl, -⟩ := h; rfl

/-- The job of a competitor. -/
theorem Enters.wins (h : c.Enters server db₀ q) {j : Job} (hj : j.Facts server db q)
    (hev : db₀.Evolves db) : c.Wins j := by
  cases c with
  | seat route st =>
    obtain ⟨user, hbook, rfl⟩ := h
    obtain ⟨b, rt, rfl, hres⟩ := hj.isCreate
    obtain rfl : rt = route := Table.eq_of_key hres.route (hev.routes _ hbook.routeRow) hres.routeId
    exact ⟨b, rfl, by rw [hres.booking], by rw [hres.booking]⟩
  | email e =>
    obtain ⟨p, salt, rfl, rfl, -⟩ := h
    exact hj.isRegister

/-- A competitor that has neither failed nor ended has not inserted yet, or holds the key. -/
theorem Enters.early_or_holds (h : c.Enters server db₀ q) (hf : g.Facts server db q)
    (hfail : ∀ e, g ≠ .failing e) (hend : ∀ resp, g ≠ .ended resp) :
    g.early = true ∨ ∃ ch ∈ g.writes, c.key ∈ Db.locks ch := by
  have hjob {j : Job} (hj : j.Facts server db q) : ∃ ch ∈ j.writes, c.key ∈ Db.locks ch := by
    cases j with
    | create b rt => exact ⟨_, by simp [Job.writes], h.locks_create hj⟩
    | register u => exact ⟨_, by simp [Job.writes], h.locks_register hj⟩
    | cancel b free => obtain ⟨u, hq, -⟩ := hj; exact absurd hq (h.not_cancel _ _)
    | route r first => obtain ⟨u, p, hq, -⟩ := hj; exact absurd hq (h.not_createRoute _ _)
    | read resp => cases h.not_reads.symm.trans hj
  cases g with
  | start | routeRead | seatRead | adminRead | emailFree => exact .inl rfl
  | inserted rt b | marked rt b | confirmed rt b =>
    exact .inr ⟨_, by simp [Stage.writes], h.locks_create hf⟩
  | userInserted u => exact .inr ⟨_, by simp [Stage.writes],
    h.locks_register (show (Job.register u).Facts server db q from hf)⟩
  | invalidating j | deleting j keys | invalidated j | notifying j email => exact .inr (hjob hf)
  | closing j =>
    have hj : j.Facts server db q := hf
    cases j with
    | cancel b free => obtain ⟨u, hq, -⟩ := hj; exact absurd hq (h.not_cancel _ _)
    | _ => exact .inr (hjob hj)
  | bookingRead b | cancelled b | refreshed b | flushing b =>
    obtain ⟨u, hq, -⟩ := hf
    exact absurd hq (h.not_cancel _ _)
  | routeInserted r | routeRefreshed r =>
    obtain ⟨u, p, hq, -⟩ := hf
    exact absurd hq (h.not_createRoute _ _)
  | missed | counted | storing => cases h.not_reads.symm.trans hf
  | failing e => exact absurd rfl (hfail e)
  | ended resp => exact absurd rfl (hend resp)
  | lost => exact hf.elim

/-! ## Steps -/

theorem afterDelete_not_failing (j : Job) (e : Exc) : Stage.afterDelete j ≠ .failing e := by
  unfold Stage.afterDelete
  split <;> simp

theorem afterKeys_not_failing (j : Job) (keys : List String) (e : Exc) :
    Stage.afterKeys j keys ≠ .failing e := by
  unfold Stage.afterKeys
  split
  · exact afterDelete_not_failing j e
  · simp

theorem afterPublish_not_failing (j : Job) (e : Exc) : Stage.afterPublish j ≠ .failing e := by
  unfold Stage.afterPublish
  split <;> simp

/-- **As long as nobody has committed, nobody fails.** -/
theorem Enters.not_failing (h : c.Enters server a.shared.db q) (hopen : ¬ a.shared.db.Occupied c.key)
    (hinv : Inv server a) (hi : a.phase i = some (q, g)) (hg : ∀ e, g ≠ .failing e)
    (hst : Step server q i .ok call g a.shared g' w') (e : Exc) : g' ≠ .failing e := by
  cases hst with
  | read hr =>
    have hview := hinv.view hi hg
    cases c with
    | seat route st =>
      obtain ⟨user, hbook, rfl⟩ := h
      cases hr with
      | again ha hp => cases ha <;> simp
      | lost => simp
      | route => rw [hview]; simp [Stage.writes, hbook.routeCheck]
      | seat => rw [hview]; simp [Stage.writes, hbook.seatCheck]
      | creator => simp
    | email email =>
      obtain ⟨p, salt, rfl, rfl, -⟩ := h
      cases hr with
      | again ha hp => cases ha; simp
      | lost => simp
      | email he =>
        have hnone : a.shared.db.users.rows.find? (·.email = p.email) = none := by
          rw [List.find?_eq_none]
          exact fun u hu hue => hopen ⟨u, hu, by simpa using hue⟩
        rw [hview]
        simp [Stage.writes, he, hnone, registerCheck]
  | write hwr hch => cases hwr <;> simp
  | writeFails hwr hch =>
    obtain ⟨hins, hv⟩ := hinv.insert_of_error hi hwr hch
    cases c with
    | seat route st =>
      obtain ⟨user, hbook, rfl⟩ := h
      cases hwr with
      | insertBooking hrow hb =>
        rename_i rt row b
        obtain ⟨u, r, s, hq, hroute, hid, -⟩ := hinv.facts i _ _ hi
        cases hq
        obtain rfl := Table.eq_of_key hroute hbook.routeRow hid
        have hany : a.shared.db.bookings.rows.any (·.seatId = st.id) = false := by
          rw [List.any_eq_false]
          exact fun x hx hs => hopen ⟨x, hx, by simpa using hs⟩
        have hnone := hbook.violation (b := b) (by rw [hb]) (hinv.keyed.routesFit _ hroute)
        rw [hany] at hnone
        cases hv.symm.trans hnone
      | mark | confirm | free => cases hins
    | email email =>
      obtain ⟨p, salt, rfl, rfl, hfits⟩ := h
      cases hwr with
      | insertUser hrow hu =>
        rename_i row u
        have hconf : a.shared.db.conflicts (.insertUser u) = false := by
          refine List.any_eq_false.2 fun x hx he => hopen ⟨x, hx, ?_⟩
          subst hu
          simpa using he
        cases hv.symm.trans (Db.violation_eq_none.2 ⟨hu ▸ hfits _, hconf, rfl⟩)
      | free => cases hins
  | cachedRoutes hq | cachedSeats hq =>
    subst hq
    cases h.not_reads
  | keys hp => exact afterKeys_not_failing _ _ e
  | delete => exact afterDelete_not_failing _ e
  | publish he hq => exact afterPublish_not_failing _ e
  | rollback => exact absurd rfl (hg _)
  | store | commit | lost => simp

/-- The row a loser inserts would have the key. -/
theorem Enters.claims (h : c.Enters server db₀ q) {ch : Change} (hw : Writes server a.shared q call ch g g')
    (hearly : g.early = true) : call.claims = some c.key := by
  cases c with
  | seat route st =>
    obtain ⟨user, -, rfl⟩ := h
    cases hw with
    | insertBooking hrow hb => rw [hrow]; rfl
    | mark | confirm | free => cases hearly
  | email e =>
    obtain ⟨p, salt, rfl, rfl, -⟩ := h
    cases hw with
    | insertUser hrow hu => rw [hrow]; rfl
    | free => cases hearly

theorem Losing.early (h : c.Losing g) (hg : ∀ e, g ≠ .failing e) (hend : ∀ resp, g ≠ .ended resp) :
    g.early = true := by
  cases g with
  | failing e => exact absurd rfl (hg e)
  | ended resp => exact absurd rfl (hend resp)
  | _ => exact h

/-- **Once the key is committed, the check stops a competitor with 409.** -/
theorem Losing.read (h : c.Losing g) (henters : c.Enters server db₀ q) (hev : db₀.Evolves a.shared.db)
    (hwon : c.Won a.shared.db) (hinv : Inv server a) (hi : a.phase i = some (q, g))
    (hr : Reads server (a.shared.view i) q call g g') : c.Losing g' := by
  have hview : a.shared.view i = a.shared.db := by
    rw [hinv.view hi hr.not_failing, h.writes hr.not_failing]
    rfl
  rw [hview] at hr
  cases c with
  | seat route st =>
    obtain ⟨user, hbook, rfl⟩ := henters
    cases hr with
    | again ha hp => cases ha <;> cases h
    | lost hno hex => obtain ⟨p, g', ha⟩ := hex; cases ha <;> cases h
    | route =>
      rw [Table.find?_mem (hev.routes _ hbook.routeRow)]
      simp [routeCheck, hbook.active, Losing, Stage.early]
    | seat =>
      obtain ⟨flag, hs⟩ := hev.seats _ hbook.seatRow
      have hbooked : (Db.setBooked flag st).isBooked = true := (hinv.consistent.flag _ hs).2 hwon
      have hfind : a.shared.db.seats.find? st.id = some (Db.setBooked flag st) := Table.find?_mem hs
      rw [hfind]
      simp only [seatCheck, hbooked]
      rw [if_neg (by simpa [Db.setBooked] using hbook.onRoute)]
      rfl
    | creator => cases h
  | email email =>
    obtain ⟨p, salt, rfl, rfl, -⟩ := henters
    cases hr with
    | again ha hp => cases ha; cases h
    | lost hno hex => obtain ⟨p, g', ha⟩ := hex; cases ha; cases h
    | email he =>
      obtain ⟨u, hu, hue⟩ := hwon
      have hsome : (a.shared.db.users.rows.find? (·.email = p.email)).isSome = true :=
        List.find?_isSome.2 ⟨u, hu, by simpa using hue⟩
      obtain ⟨u', hu'⟩ := Option.isSome_iff_exists.1 hsome
      rw [he, hu']
      rfl

theorem Losing.step (h : c.Losing g) (henters : c.Enters server db₀ q) (hev : db₀.Evolves a.shared.db)
    (hwon : c.Won a.shared.db) (hinv : Inv server a) (hi : a.phase i = some (q, g)) (hw : Waits q g call)
    (hclaims : ∀ k ∈ call.claims, ¬ a.shared.db.Occupied k)
    (hst : Step server q i .ok call g a.shared g' w') : c.Losing g' := by
  have hend : ∀ resp, g ≠ .ended resp := fun resp he => not_waits_ended (he ▸ hw)
  have hfree {ch : Change} {g' : Stage} (hwr : Writes server a.shared q call ch g g') : False :=
    hclaims _ (henters.claims hwr (h.early hwr.not_failing hend)) hwon.occupied
  cases hst with
  | read hr => exact h.read henters hev hwon hinv hi hr
  | write hwr hch | writeFails hwr hch => exact (hfree hwr).elim
  | cachedRoutes hq | cachedSeats hq => subst hq; cases henters.not_reads
  | rollback => rw [show _ = c.refusal from h]; rfl
  | _ => cases h

end

/-! ## Runs -/

/-- A step of competitors only, in which no call fails, users stay as they are, and nothing is
inserted under a key that is committed already. -/
def Race (server : Server) (db₀ : Db) (c : Contest) (sys : System) : Label → Prop
  | .spawn q => c.Enters server db₀ q
  | .run o i => o = .ok ∧ ∀ k ∈ (sys.awaiting i).bind Call.claims, ¬ sys.shared.db.Occupied k
  | .env e => ∃ key, e = .expire key

/-- The requests before `n` have ended, the others compete. -/
structure Entered (server : Server) (c : Contest) (db₀ : Db) (n : Nat) (a : Abs World Request Stage) :
    Prop where
  inv : Inv server a
  silent : Silent a
  announced : Announced n a
  evolves : db₀.Evolves a.shared.db
  old : ∀ i < n, ∃ q resp, a.phase i = some (q, .ended resp)
  enters : ∀ i q g, n ≤ i → a.phase i = some (q, g) → c.Enters server db₀ q

/-- Nothing is committed, and no competitor has failed or ended. -/
structure Undecided (db₀ : Db) (n : Nat) (a : Abs World Request Stage) : Prop where
  db : a.shared.db = db₀
  running : ∀ i q g, n ≤ i → a.phase i = some (q, g) → (∀ e, g ≠ .failing e) ∧ ∀ resp, g ≠ .ended resp

/-- Request `w` has committed its job `j`, and no other competitor can insert any more. -/
structure Decided (c : Contest) (db₀ : Db) (n : Nat) (w : Nat) (j : Job) (a : Abs World Request Stage) :
    Prop where
  index : n ≤ w
  winner : ∃ q, a.phase w = some (q, .ended j.response)
  wins : c.Wins j
  db : a.shared.db = Store.applyAll Db.schema j.writes db₀
  won : c.Won a.shared.db
  losers : ∀ i q g, n ≤ i → i ≠ w → a.phase i = some (q, g) → c.Losing g

section

variable {server : Server} {c : Contest} {a a' : Abs World Request Stage} {db₀ : Db} {n : Nat}
  {sys : System} {l : Label}

theorem Entered.le_of_waits (h : Entered server c db₀ n a) {i : Nat} {q : Request} {g : Stage} {call : Call}
    (hi : a.phase i = some (q, g)) (hw : Waits q g call) : n ≤ i := by
  by_contra hlt
  obtain ⟨q', resp, hold⟩ := h.old i (by omega)
  rw [hi] at hold
  cases hold
  exact not_waits_ended hw

theorem Entered.step (h : Entered server c db₀ n a) (hl : c.Race server db₀ sys l)
    (hs : (protocol server).Step envStep a l (sys.callOf l) a') : Entered server c db₀ n a' where
  inv := h.inv.step hs
  silent := h.silent.step h.inv hs
  announced := h.announced.step h.inv h.silent hs fun i hi => by
    subst hi
    cases hl.1
  evolves := h.evolves.trans (h.inv.evolves hs)
  old i hi := by
    obtain ⟨q, resp, hold⟩ := h.old i hi
    exact ⟨q, resp, hs.phase_keep hold fun _ => not_waits_ended⟩
  enters i q g hn hi := by
    rcases hs.phase_eq hi with hold | ⟨rfl, -, -⟩ | ⟨o, call, g₀, -, -, hi₀, -, -⟩
    · exact h.enters i q g hn hold
    · exact hl
    · exact h.enters i q g₀ hn hi₀

/-- **The first commit decides.** -/
theorem Undecided.commit (hu : Undecided db₀ n a) (h : Entered server c db₀ n a)
    {i : Nat} {q : Request} {j : Job} (hn : n ≤ i) (hi : a.phase i = some (q, .closing j)) :
    Decided c db₀ n i j ⟨a.shared.commit i, Function.update a.phase i (some (q, .ended j.response))⟩ := by
  have hfacts : j.Facts server a.shared.db q := h.inv.facts i _ _ hi
  have henters := h.enters i _ _ hn hi
  have hwins : c.Wins j := henters.wins hfacts h.evolves
  have hwrites : (Stage.closing j).writes = j.writes := by
    cases c with
    | seat route st => obtain ⟨b, rfl, -⟩ := hwins; rfl
    | email e => obtain ⟨u, rfl, -⟩ := hwins; rfl
  have hview : (a.shared.commit i).db = Store.applyAll Db.schema j.writes a.shared.db :=
    (h.inv.view hi (by simp)).trans (by rw [hwrites])
  refine ⟨hn, ⟨q, by simp⟩, hwins, by rw [← hu.db]; exact hview, ?_, fun k q' g hk hki hkg => ?_⟩
  · show c.Won (a.shared.commit i).db
    rw [hview]
    cases c with
    | seat route st =>
      obtain ⟨b, rfl, -, hs⟩ := hwins
      have hid : ¬ a.shared.db.Occupied (.booking b.id) :=
        h.inv.vacant hi (by simp) (.insertBooking b) (by simp [Stage.writes, Job.writes]) rfl
          (by simp [Db.locks])
      refine ⟨Db.setStatus .confirmed b, ?_, hs, rfl⟩
      rw [Job.writes, (Db.applyAll_create hid).2.2.2]
      simp
    | email e =>
      obtain ⟨u, rfl, hu⟩ := hwins
      have hid : ¬ a.shared.db.Occupied (.user u.id) :=
        h.inv.vacant hi (by simp) (.insertUser u) (by simp [Stage.writes, Job.writes]) rfl
          (by simp [Db.locks])
      refine ⟨u, ?_, hu⟩
      show u ∈ (Db.apply (.insertUser u) a.shared.db).users.rows
      rw [Db.applyAll_insertUser hid]
      simp
  · replace hkg : a.phase k = some (q', g) := by simpa [Function.update_of_ne hki] using hkg
    obtain ⟨hfail, hend⟩ := hu.running k q' g hk hkg
    rcases (h.enters k _ _ hk hkg).early_or_holds (h.inv.facts k _ _ hkg) hfail hend with
      hearly | ⟨ch, hch, hlock⟩
    · exact losing_of_early hearly
    · -- two requests do not hold the key at once
      exfalso
      rcases henters.early_or_holds (h.inv.facts i _ _ hi) (by simp) (by simp) with
        hearly | ⟨ch', hch', hlock'⟩
      · cases hearly
      · rw [← h.inv.own k _ _ hkg hfail] at hch
        rw [← h.inv.own i _ _ hi (by simp)] at hch'
        exact Store.disjoint_locks hki hch hch' hlock hlock'

theorem Undecided.step (hu : Undecided db₀ n a) (hopen : ¬ db₀.Occupied c.key)
    (h : Entered server c db₀ n a)
    (hl : c.Race server db₀ sys l) (hs : (protocol server).Step envStep a l (sys.callOf l) a') :
    Undecided db₀ n a' ∨ ∃ w j, Decided c db₀ n w j a' := by
  generalize sys.callOf l = call at hs
  cases hs with
  | env he =>
    obtain ⟨key, rfl⟩ := hl
    cases he
    exact .inl ⟨hu.db, hu.running⟩
  | spawn hm =>
    rename_i m q
    refine .inl ⟨hu.db, fun i q' g hn hi => ?_⟩
    by_cases him : i = m
    · subst him
      simp only [Function.update_self, Option.some.injEq, Prod.mk.injEq] at hi
      obtain ⟨-, rfl⟩ := hi
      simp [protocol]
    · exact hu.running i q' g hn (by simpa [Function.update_of_ne him] using hi)
  | run hm hw hst =>
    rename_i o m q g g' call w'
    have hn : n ≤ m := h.le_of_waits hm hw
    obtain rfl : o = .ok := hl.1
    obtain ⟨hfail, hend⟩ := hu.running m q g hn hm
    by_cases hended : ∃ resp, g' = .ended resp
    · obtain ⟨resp, rfl⟩ := hended
      rcases hst.ended with ⟨j, rfl, rfl, rfl⟩ | ⟨e, e', rfl, -⟩
      · exact .inr ⟨m, j, hu.commit h hn hm⟩
      · exact absurd rfl (hfail e)
    · rw [not_exists] at hended
      refine .inl ⟨(hst.db_eq (h.inv.ne_lost hm) hended).trans hu.db, fun i q' g₁ hni hi => ?_⟩
      by_cases him : i = m
      · subst him
        simp only [Function.update_self, Option.some.injEq, Prod.mk.injEq] at hi
        obtain ⟨rfl, rfl⟩ := hi
        refine ⟨Enters.not_failing (hu.db ▸ h.enters i q g hn hm) (hu.db ▸ hopen) h.inv hm hfail
          hst, hended⟩
      · exact hu.running i q' g₁ hni (by simpa [Function.update_of_ne him] using hi)

theorem Decided.step {w : Nat} {j : Job} (hd : Decided c db₀ n w j a) (h : Entered server c db₀ n a)
    (hv : View server sys a) (hl : c.Race server db₀ sys l)
    (hs : (protocol server).Step envStep a l (sys.callOf l) a') : Decided c db₀ n w j a' := by
  obtain ⟨qw, hwin⟩ := hd.winner
  have hwinner := hs.phase_keep hwin fun _ => not_waits_ended
  generalize hcall : sys.callOf l = call at hs
  cases hs with
  | env he =>
    obtain ⟨key, rfl⟩ := hl
    cases he
    exact ⟨hd.index, ⟨qw, hwinner⟩, hd.wins, hd.db, hd.won, hd.losers⟩
  | spawn hm =>
    rename_i m q
    refine ⟨hd.index, ⟨qw, hwinner⟩, hd.wins, hd.db, hd.won, fun i q' g hn hiw hi => ?_⟩
    by_cases him : i = m
    · subst him
      simp only [Function.update_self, Option.some.injEq, Prod.mk.injEq] at hi
      obtain ⟨-, rfl⟩ := hi
      rfl
    · exact hd.losers i q' g hn hiw (by simpa [Function.update_of_ne him] using hi)
  | run hm hw hst =>
    rename_i o m q g g' call w'
    have hn : n ≤ m := h.le_of_waits hm hw
    obtain ⟨rfl, hclaims⟩ := hl
    have hwm : m ≠ w := by
      rintro rfl
      rw [hwin] at hm
      cases hm
      exact not_waits_ended hw
    have hlose : c.Losing g := hd.losers m q g hn hwm hm
    have hlose' : c.Losing g' := hlose.step (h.enters m q g hn hm) h.evolves hd.won h.inv hm hw
      (fun k hk => by
      rw [hv.shared]
      exact hclaims k (by rw [show sys.awaiting m = some call from hcall]; exact hk)) hst
    have hdb : w'.db = a.shared.db := by
      by_cases hended : ∃ resp, g' = .ended resp
      · obtain ⟨resp, rfl⟩ := hended
        rcases hst.ended with ⟨j, rfl, -⟩ | ⟨e, e', -, -, rfl⟩
        · cases hlose
        · rfl
      · exact hst.db_eq (h.inv.ne_lost hm) (not_exists.1 hended)
    refine ⟨hd.index, ⟨qw, hwinner⟩, hd.wins, hdb.trans hd.db, by rw [hdb]; exact hd.won,
      fun i q' g₁ hni hiw hi => ?_⟩
    by_cases him : i = m
    · subst him
      simp only [Function.update_self, Option.some.injEq, Prod.mk.injEq] at hi
      obtain ⟨rfl, rfl⟩ := hi
      exact hlose'
    · exact hd.losers i q' g₁ hni hiw (by simpa [Function.update_of_ne him] using hi)

/-- The requests that have arrived before the contest, none of them in flight. -/
theorem Reachable.entered (h : Reachable server sys) (hq : sys.Quiescent) : ∃ a, View server sys a ∧
    a.shared = sys.shared ∧ Entered server c sys.shared.db sys.tasks.length a := by
  obtain ⟨a, ha, hinv, hsil⟩ := h.silent
  have hnew (i : Nat) (hi : sys.tasks.length ≤ i) : a.phase i = none := ha.fresh i (by simpa using hi)
  refine ⟨a, ha, ha.shared, hinv, hsil, fun i q g hn hi => ?_, ?_, fun i hi => ?_, fun i q g hn hi => ?_⟩
  · rw [hnew i hn] at hi
    cases hi
  · rw [ha.shared]
    exact .refl _
  · obtain ⟨g, hg, -⟩ := ha.sim i sys.tasks[i] (List.getElem?_eq_getElem hi)
    obtain ⟨resp, rfl⟩ := ended_of_quiescent ha hinv hq hg
    exact ⟨_, resp, hg⟩
  · rw [hnew i hn] at hi
    cases hi

/-- **One winner.** When at least one request competes for a free key, and none inserts a key that
is committed already, then once all have ended exactly one of them, `w`, has succeeded: the database
is the one before with the changes of `w`. Every other one is answered with the 409 of its check and
has published nothing. -/
theorem one_winner {sys₀ : System} (h₀ : Reachable server sys₀) (hq₀ : sys₀.Quiescent)
    (hopen : ¬ sys₀.shared.db.Occupied c.key)
    (hrun : Run (semantics server) (c.Race server sys₀.shared.db) sys₀ sys) (hq : sys.Quiescent)
    (hn : sys₀.tasks.length < sys.tasks.length) :
    ∃ w j, sys₀.tasks.length ≤ w ∧ c.Wins j ∧ sys.answer w = some j.response ∧
      sys.shared.db = Store.applyAll Db.schema j.writes sys₀.shared.db ∧
      ∀ i, sys₀.tasks.length ≤ i → i < sys.tasks.length → i ≠ w →
        sys.answer i = some (errorResponse c.refusal) ∧ sys.shared.sentBy i = [] := by
  obtain ⟨a₀, ha₀, hshared, hent₀⟩ := Reachable.entered (c := c) h₀ hq₀
  have hun : Undecided sys₀.shared.db sys₀.tasks.length a₀ := ⟨by rw [hshared], fun i q g hn hi => by
    rw [ha₀.fresh i (by simpa using hn)] at hi
    cases hi⟩
  obtain ⟨a, ha, hent, hstate⟩ := Run.invariant (I := fun a =>
      Entered server c sys₀.shared.db sys₀.tasks.length a ∧
        (Undecided sys₀.shared.db sys₀.tasks.length a ∨
          ∃ w j, Decided c sys₀.shared.db sys₀.tasks.length w j a)) handler_sim
    (fun _ _ _ _ hv hl h hs => ⟨h.1.step hl hs, by
      rcases h.2 with hu | ⟨w, j, hd⟩
      · exact hu.step hopen h.1 hl hs
      · exact .inr ⟨w, j, hd.step h.1 hv hl hs⟩⟩) hrun ha₀ ⟨hent₀, .inl hun⟩
  have hended {i : Nat} (hi : i < sys.tasks.length) :
      ∃ q resp, a.phase i = some (q, .ended resp) := by
    obtain ⟨g, hg, -⟩ := ha.sim i sys.tasks[i] (List.getElem?_eq_getElem hi)
    obtain ⟨resp, rfl⟩ := ended_of_quiescent ha hent.inv hq hg
    exact ⟨_, resp, hg⟩
  rcases hstate with hu | ⟨w, j, hd⟩
  · -- somebody has ended, so it is decided
    obtain ⟨q, resp, hi⟩ := hended hn
    exact absurd rfl ((hu.running _ _ _ (Nat.le_refl _) hi).2 resp)
  · refine ⟨w, j, hd.index, hd.wins, (answer_iff ha hent.inv).2 hd.winner, ha.shared ▸ hd.db,
      fun i hni hi hiw => ?_⟩
    obtain ⟨q, resp, hp⟩ := hended hi
    obtain rfl : resp = errorResponse c.refusal := hd.losers i _ _ hni hiw hp
    refine ⟨(answer_iff ha hent.inv).2 ⟨q, hp⟩, ?_⟩
    have hsent := hent.announced i _ _ hni hp
    rw [ha.shared] at hsent
    cases c <;> exact hsent

end

end Contest

/-- Ann and Bob compete for seat 1. -/
def annAndBob (sys : System) : Label → Bool
  | .spawn q => q ∈ [.createBooking 2 1 1, .createBooking 3 1 1]
  | .run o i => o = .ok ∧ ∀ k ∈ (sys.awaiting i).bind Call.claims, ¬ sys.shared.db.Occupied k
  | .env _ => false

/-- Bob reads the route before Ann's booking is committed and the seat after it. -/
theorem one_winner_first : ∃ sys₀ sys : System, runSome routeCreated = some sys₀ ∧
    ∃ w j, sys₀.tasks.length ≤ w ∧ Contest.Wins (.seat someRoute someSeat) j ∧
      sys.answer w = some j.response ∧
      sys.shared.db = Store.applyAll Db.schema j.writes sys₀.shared.db ∧
      ∀ i, sys₀.tasks.length ≤ i → i < sys.tasks.length → i ≠ w →
        sys.answer i = some (errorResponse (.http 409 "Seat is already booked")) ∧
          sys.shared.sentBy i = [] := by
  obtain ⟨sys₀, h₀, hq₀, hann, hbob, hopen, hruns⟩ := exists_runSome routeCreated (fun sys₀ =>
    sys₀.Quiescent ∧ Bookable sys₀.shared.db someUser someRoute someSeat ∧
      Bookable sys₀.shared.db otherUser someRoute someSeat ∧
      ¬ sys₀.shared.db.Occupied (.bookingSeat someSeat.id) ∧
      ((semantics plainServer).stepsIf (annAndBob · ·) sys₀ ([.spawn (.createBooking 2 1 1),
          .spawn (.createBooking 3 1 1)] ++ calls 2 1 ++ calls 1 13 ++ calls 2 2)).any (fun sys =>
        sys.Quiescent ∧ sys₀.tasks.length < sys.tasks.length) = true) (by decide +kernel)
  obtain ⟨sys, hsys, hP⟩ := (Option.any_eq_true _ _).1 hruns
  obtain ⟨hq, hn⟩ := of_decide_eq_true hP
  refine ⟨sys₀, sys, h₀, Contest.one_winner (c := .seat someRoute someSeat) (reachable_runSome h₀) hq₀ hopen
    ((Run.of_stepsIf hsys).mono fun s l hl => ?_) hq hn⟩
  cases l with
  | spawn q =>
    rcases List.mem_cons.1 (of_decide_eq_true hl) with rfl | hq
    · exact ⟨someUser, hann, rfl⟩
    · exact ⟨otherUser, hbob, List.mem_singleton.1 hq⟩
  | run o i =>
    simp only [annAndBob, decide_eq_true_eq] at hl
    exact hl
  | env e => cases hl

/-- Ann and Bob book seat 1; Bob reads it before Ann's booking is committed, and his insertion
breaks the constraint: he is answered 500. -/
theorem createBooking_loser_fails : ∃ sys₀ sys, runSome routeCreated = some sys₀ ∧ sys₀.Quiescent ∧
    Bookable sys₀.shared.db someUser someRoute someSeat ∧
    Bookable sys₀.shared.db otherUser someRoute someSeat ∧
    ¬ sys₀.shared.db.Occupied (.bookingSeat someSeat.id) ∧
    (semantics plainServer).steps sys₀ ([.spawn (.createBooking 2 1 1), .spawn (.createBooking 3 1 1)] ++
      calls 1 2 ++ calls 2 2 ++ calls 1 11 ++ calls 2 2) = some sys ∧ sys.Quiescent ∧
    (sys.answer 1).map Response.statusCode = some 201 ∧
    sys.answer 2 = some (errorResponse .integrity) ∧
    (errorResponse .integrity).statusCode = 500 := by
  obtain ⟨sys₀, h₀, hq₀, hann, hbob, hopen, hruns⟩ := exists_runSome routeCreated (fun sys₀ =>
    sys₀.Quiescent ∧ Bookable sys₀.shared.db someUser someRoute someSeat ∧
      Bookable sys₀.shared.db otherUser someRoute someSeat ∧
      ¬ sys₀.shared.db.Occupied (.bookingSeat someSeat.id) ∧
      ((semantics plainServer).steps sys₀ ([.spawn (.createBooking 2 1 1),
          .spawn (.createBooking 3 1 1)] ++ calls 1 2 ++ calls 2 2 ++ calls 1 11 ++ calls 2 2)).any
          (fun sys =>
        sys.Quiescent ∧ (sys.answer 1).map Response.statusCode = some 201 ∧
          sys.answer 2 = some (errorResponse .integrity)) = true) (by decide +kernel)
  obtain ⟨sys, hsys, hP⟩ := (Option.any_eq_true _ _).1 hruns
  obtain ⟨hq, hans₁, hans₂⟩ := of_decide_eq_true hP
  exact ⟨sys₀, sys, h₀, hq₀, hann, hbob, hopen, hsys, hq, hans₁, hans₂, rfl⟩

end BusBookings

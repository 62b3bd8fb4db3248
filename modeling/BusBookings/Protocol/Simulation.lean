import BusBookings.Protocol.Stages

/-!
# The handlers follow the protocol

`Follows` is `Sim` for code that works in a session: an exception leaves the request `failing`. Its
rules follow the program text (`pure`, `throw`, `bind`, one rule for each kind of call), and one
lemma for each function of the source checks it once.

* `handler_sim`: every request is simulated by the protocol from `Stage.start`.
-/

namespace BusBookings

open Async

/-! ## The effect of a call -/

section

variable {server : Server} {i : Nat} {w w' : World}

theorem exec_fail {c : Call} (hc : c ≠ .rollback) :
    exec server .fail i c w = some (.error .infrastructure, w) := by
  cases c <;> first | rfl | exact absurd rfl hc

theorem change_ok {ch : Change} {u : Unit} (h : w.change i ch = some (.ok u, w')) :
    ∃ hb, (w.view i).violation ch = none ∧ w' = { w with pg := w.pg.write i ch hb } := by
  unfold World.change at h
  split at h
  · rename_i hb
    split at h
    · cases h
    · rename_i hv
      cases h
      exact ⟨hb, hv, rfl⟩
  · cases h

theorem change_error {ch : Change} {e : Exc} (h : w.change i ch = some (.error e, w')) :
    w.pg.blocked i ch = false ∧ (w.view i).violation ch = some e ∧ w' = w := by
  unfold World.change at h
  split at h
  · rename_i hb
    split at h
    · rename_i hv
      cases h
      exact ⟨hb, hv, rfl⟩
    · cases h
  · cases h

theorem change_unit (w : World) (i : Nat) (ch : Change) :
    w.change i ch = (w.change i ch).map fun p => (p.1.map fun _ => (), p.2) := by
  cases h : w.change i ch with
  | none => rfl
  | some p =>
    obtain ⟨res, w'⟩ := p
    cases res <;> rfl

end

/-! ## Rules -/

section

variable {server : Server} {q : Request} {i : Nat}

/-- From `lost` every coroutine is simulated. -/
theorem sim_lost {α : Type} {co : Coro Call (fun c => Except Exc (Reply c)) α} {K : α → Stage → Prop}
    (hK : ∀ a, K a .lost) : Sim (protocol server) (exec server) q i co .lost K := by
  induction co with
  | done a => exact hK a
  | await c k ih => exact ⟨by cases q <;> trivial, fun o w r w' _ => ⟨.lost, .lost, ih r⟩⟩

/-- The code, started in stage `g`, follows the protocol: `K` holds when it returns. -/
def Follows (server : Server) (q : Request) (i : Nat) {α : Type} (x : SessionM α) (σ : Session)
    (g : Stage) (K : α → Session → Stage → Prop) : Prop :=
  SimE (protocol server) (exec server) q i (x.run σ) g (fun p g' => K p.1 p.2 g' ∨ g' = .lost)
    fun e g' => g' = .failing e ∨ g' = .lost

namespace Follows

variable {α β : Type} {σ : Session} {g : Stage} {K : α → Session → Stage → Prop}
  {L : β → Session → Stage → Prop}

theorem pure {a : α} (h : K a σ g) : Follows server q i (pure a) σ g K := .inl h

theorem throw {e : Exc} (h : g = .failing e) :
    Follows server q i (throw e : SessionM α) σ g K := .inl h

theorem lost {x : SessionM α} : Follows server q i x σ .lost K :=
  sim_lost fun r => by cases r <;> exact .inr rfl

theorem mono {x : SessionM α} {K' : α → Session → Stage → Prop} (h : Follows server q i x σ g K)
    (hK : ∀ a σ g, K a σ g → K' a σ g) : Follows server q i x σ g K' :=
  SimE.mono h (fun _ _ hk => hk.imp_left (hK _ _ _)) fun _ _ hx => hx

theorem bind {x : SessionM α} {f : α → SessionM β}
    (h : Follows server q i x σ g fun a σ' g' => Follows server q i (f a) σ' g' L) :
    Follows server q i (x >>= f) σ g L :=
  SimE.bind (SimE.mono h (fun p g' hp => by
    rcases hp with hp | rfl
    · exact hp
    · exact lost) fun _ _ hx => hx)

theorem map {x : SessionM α} {f : α → β}
    (h : Follows server q i x σ g fun a σ' g' => L (f a) σ' g') :
    Follows server q i (f <$> x) σ g L :=
  bind (f := fun a => Pure.pure (f a)) (mono h fun _ _ _ => pure)

theorem modify {f : Session → Session} {K : PUnit → Session → Stage → Prop} (h : K ⟨⟩ (f σ) g) :
    Follows server q i (modify f) σ g K := .inl h

theorem get {K : Session → Session → Stage → Prop} (h : K σ σ g) :
    Follows server q i get σ g K := .inl h

theorem set {σ' : Session} {K : PUnit → Session → Stage → Prop} (h : K ⟨⟩ σ' g) :
    Follows server q i (set σ') σ g K := .inl h

theorem await {c : Call} {K : Reply c → Session → Stage → Prop} (hw : Waits q g c)
    (hc : c ≠ .rollback) (hg : g ≠ .lost)
    (hok : ∀ w r w', exec server .ok i c w = some (.ok r, w') →
      ∃ g', Step server q i .ok c g w g' w' ∧ (K r σ g' ∨ g' = .lost))
    (herr : ∀ w e w', exec server .ok i c w = some (.error e, w') →
      Step server q i .ok c g w (.failing e) w') :
    Follows server q i (BusBookings.await c) σ g K := by
  refine SimE.bind (SimE.call hw ?_ ?_)
  · intro o w r w' h
    cases o with
    | ok =>
      obtain ⟨g', hs, hk⟩ := hok w r w' h
      exact ⟨g', hs, hk⟩
    | fail => rw [exec_fail hc] at h; cases h
  · intro o w e w' h
    cases o with
    | ok => exact ⟨_, herr w e w' h, .inl rfl⟩
    | fail =>
      rw [exec_fail hc] at h
      cases h
      exact ⟨_, .fail hc hg, .inl rfl⟩

/-- A query. -/
theorem read {c : Call} {K : Reply c → Session → Stage → Prop} {f : Db → Reply c}
    (hf : ∀ w, exec server .ok i c w = some (.ok (f (w.view i)), w)) (hw : Waits q g c)
    (hc : c ≠ .rollback) (hg : g ≠ .lost)
    (h : ∀ v, ∃ g', Reads server v q c g g' ∧ (K (f v) σ g' ∨ g' = .lost)) :
    Follows server q i (BusBookings.await c) σ g K := by
  refine await hw hc hg (fun w r w' he => ?_) fun w e w' he => ?_
  · rw [hf] at he
    cases he
    obtain ⟨g', hr, hk⟩ := h (w.view i)
    exact ⟨g', .read hr, hk⟩
  · rw [hf] at he; cases he

/-- A query for a row that the request has to find as it left it. -/
theorem again {c : Call} {K : Reply c → Session → Stage → Prop} {f : Db → Reply c}
    (hf : ∀ w, exec server .ok i c w = some (.ok (f (w.view i)), w)) (hw : Waits q g c)
    (hc : c ≠ .rollback) (hg : g ≠ .lost) (hex : ∀ v, ∃ p g', Again v q c g p g')
    (h : ∀ v p g', Again v q c g p g' → p → K (f v) σ g') :
    Follows server q i (BusBookings.await c) σ g K := by
  refine read hf hw hc hg fun v => ?_
  by_cases hp : ∃ p g', Again v q c g p g' ∧ p
  · obtain ⟨p, g', ha, hp⟩ := hp
    exact ⟨g', .again ha hp, .inl (h v p g' ha hp)⟩
  · exact ⟨.lost, .lost (fun p g' ha hn => hp ⟨p, g', ha, hn⟩) (hex v), .inr rfl⟩

/-- A statement that changes rows. -/
theorem write {c : Call} {K : Reply c → Session → Stage → Prop} {r : World → Reply c}
    {ch : World → Change} {g' : World → Stage}
    (hf : ∀ w, exec server .ok i c w =
      ((w.bump c).change i (ch w)).map fun p => (p.1.map fun _ => r w, p.2))
    (hw : Waits q g c) (hc : c ≠ .rollback) (hg : g ≠ .lost)
    (hs : ∀ w, Writes server w q c (ch w) g (g' w)) (h : ∀ w, K (r w) σ (g' w)) :
    Follows server q i (BusBookings.await c) σ g K := by
  refine await hw hc hg (fun w a w' he => ?_) fun w e w' he => ?_
  · rw [hf] at he
    obtain ⟨⟨res, w₁⟩, hch, heq⟩ := Option.map_eq_some_iff.1 he
    cases res with
    | ok u =>
      cases heq
      exact ⟨g' w, .write (hs w) hch, .inl (h w)⟩
    | error e => cases heq
  · rw [hf] at he
    obtain ⟨⟨res, w₁⟩, hch, heq⟩ := Option.map_eq_some_iff.1 he
    cases res with
    | ok u => cases heq
    | error e' =>
      cases heq
      exact .writeFails (hs w) hch

theorem modifyGet {f : Session → α × Session} (h : K (f σ).1 (f σ).2 g) :
    Follows server q i (modifyGet f) σ g K := .inl h

theorem raiseIf {cond : Bool} {statusCode : Nat} {detail : String}
    {K : Unit → Session → Stage → Prop}
    (ht : cond = true → g = .failing (.http statusCode detail)) (hf : cond = false → K () σ g) :
    Follows server q i (BusBookings.raiseIf cond statusCode detail) σ g K := by
  cases cond with
  | true => exact throw (ht rfl)
  | false => exact pure (hf rfl)

/-! ### The session -/

theorem forM_nil {ρ : Type} {f : ρ → SessionM PUnit} {K : PUnit → Session → Stage → Prop}
    (h : K ⟨⟩ σ g) : Follows server q i ([].forM f) σ g K := pure h

theorem forM_one {ρ : Type} {a : ρ} {f : ρ → SessionM PUnit} {K : PUnit → Session → Stage → Prop}
    (h : Follows server q i (f a) σ g K) : Follows server q i ([a].forM f) σ g K :=
  bind (mono h fun _ _ _ hk => pure hk)

theorem flush {ss : List Seat} {bs : List Booking} {K : Unit → Session → Stage → Prop}
    (hs : σ.seats.dirty = ss) (hb : σ.bookings.dirty = bs)
    (h : Follows server q i (ss.forM fun s => BusBookings.await (.updateSeat s.id s.isBooked)) σ g
      fun _ σ₁ g₁ => Follows server q i
        (bs.forM fun b => BusBookings.await (.updateBooking b.id b.status)) σ₁ g₁
        fun _ _ g₂ => K () ⟨σ.seats.clean, σ.bookings.clean⟩ g₂) :
    Follows server q i Session.flush σ g K := by
  subst hs hb
  exact bind (get (bind (mono h fun _ _ _ h₁ => bind (mono h₁ fun _ _ _ h₂ => set h₂))))

theorem flush_clean {K : Unit → Session → Stage → Prop} (hs : σ.seats.dirty = [])
    (hb : σ.bookings.dirty = []) (h : K () ⟨σ.seats.clean, σ.bookings.clean⟩ g) :
    Follows server q i Session.flush σ g K :=
  flush hs hb (forM_nil (forM_nil h))

theorem selectSeat {seatId : Int} {K : Option Seat → Session → Stage → Prop}
    (h : Follows server q i (BusBookings.await (.selectSeat seatId)) σ g fun row σ' g' =>
      match row with
      | none => K none σ' g'
      | some row => K (some (σ'.seats.load Seat.id row).1)
          { σ' with seats := (σ'.seats.load Seat.id row).2 } g') :
    Follows server q i (Session.selectSeat seatId) σ g K := by
  refine bind (mono h fun row σ' g' hk => ?_)
  cases row with
  | none => exact pure hk
  | some row => exact modifyGet hk

theorem selectBooking {bookingId : Int} {K : Option Booking → Session → Stage → Prop}
    (h : Follows server q i (BusBookings.await (.selectBooking bookingId)) σ g fun row σ' g' =>
      match row with
      | none => K none σ' g'
      | some row => K (some (σ'.bookings.load Booking.id row).1)
          { σ' with bookings := (σ'.bookings.load Booking.id row).2 } g') :
    Follows server q i (Session.selectBooking bookingId) σ g K := by
  refine bind (mono h fun row σ' g' hk => ?_)
  cases row with
  | none => exact pure hk
  | some row => exact modifyGet hk

theorem refreshBooking {bookingId : Int} {K : Booking → Session → Stage → Prop}
    (h : Follows server q i (BusBookings.await (.selectBooking bookingId)) σ g fun row σ' g' =>
      match row with
      | none => g' = .failing .invalidRequest
      | some row => K row { σ' with bookings := σ'.bookings.refresh Booking.id row } g') :
    Follows server q i (Session.refreshBooking bookingId) σ g K := by
  refine bind (mono h fun row σ' g' hk => ?_)
  cases row with
  | none => exact throw hk
  | some row => exact bind (modify (pure hk))

/-! ### The cache -/

theorem deletePattern {pattern : String} {j : Job} {K : Unit → Session → Stage → Prop}
    (hp : pattern = j.pattern) (h : K () σ (.afterDelete j)) :
    Follows server q i (CacheService.deletePattern pattern) σ (.invalidating j) K := by
  subst hp
  refine bind (await ?_ (by simp) (by simp) (fun w r w' he => ?_) fun w e w' he => by cases he)
  · cases q <;> rfl
  · cases he
    refine ⟨_, .keys rfl, .inl ?_⟩
    unfold Stage.afterKeys
    cases hk : (w.redis.keysOf j.pattern).isEmpty with
    | true => exact pure h
    | false =>
      refine await ?_ (by simp) (by simp) (fun w r w' he => ?_) fun w e w' he => by cases he
      · cases q <;> rfl
      · cases he
        exact ⟨_, .delete, .inl h⟩

end Follows

end

/-! ## Creating a booking -/

section

variable {server : Server} {i : Nat}

/-- A session that holds these objects, unchanged since they were loaded. -/
def holding (seats : List Seat) (bookings : List Booking) : Session :=
  ⟨seats.map fun s => ⟨s, s⟩, bookings.map fun b => ⟨b, b⟩⟩

/-- A session with one changed seat. -/
def marking (seat : Seat) (flag : Bool) (bookings : List Booking) : Session :=
  ⟨[⟨seat, Db.setBooked flag seat⟩], bookings.map fun b => ⟨b, b⟩⟩

/-- A session with one changed booking. -/
def updating (seats : IdentityMap Seat) (b : Booking) (status : BookingStatus) : Session :=
  ⟨seats, [⟨b, Db.setStatus status b⟩]⟩

theorem dirty_marking (seat : Seat) {flag : Bool} (bookings : List Booking)
    (h : seat.isBooked ≠ flag) :
    (marking seat flag bookings).seats.dirty = [Db.setBooked flag seat] := by
  have hne : seat ≠ Db.setBooked flag seat := fun he => h (congrArg Seat.isBooked he)
  simp [marking, IdentityMap.dirty, hne]

theorem dirty_updating (seats : IdentityMap Seat) {b : Booking} {status : BookingStatus}
    (h : b.status ≠ status) : (updating seats b status).bookings.dirty = [Db.setStatus status b] := by
  have hne : b ≠ Db.setStatus status b := fun he => h (congrArg Booking.status he)
  simp [updating, IdentityMap.dirty, hne]

@[simp] theorem dirty_holding (seats : List Seat) (bookings : List Booking) :
    (holding seats bookings).seats.dirty = [] := by
  simp [holding, IdentityMap.dirty]

@[simp] theorem dirty_bookings_holding (seats : List Seat) (bookings : List Booking) :
    (holding seats bookings).bookings.dirty = [] := by
  simp [holding, IdentityMap.dirty]

section

variable {u r s : Int} {route : Route} {seat : Seat} {b : Booking}

theorem bookingCreate_follows (seat : Seat) {K : Booking → Session → Stage → Prop}
    (h : ∀ b, b.seatId = s → b.routeId = r → b.status = .pending →
      K b (holding [seat] [b]) (.inserted route b)) :
    Follows server (.createBooking u r s) i (BookingRepository.create u r s route.price)
      (holding [seat] []) (.seatRead route) K := by
  unfold BookingRepository.create
  refine .bind (.flush_clean (by simp) (by simp) (.bind ?_))
  refine .write (fun _ => rfl) rfl (by simp) (by simp) (fun _ => .insertBooking rfl rfl) fun w => ?_
  refine .refreshBooking (.again (f := fun v => v.bookings.find? w.nextBooking) (fun _ => rfl)
    (.inl rfl) (by simp) (by simp) (fun v => ⟨_, _, .ownBooking rfl⟩) fun v p g' ha hp => ?_)
  cases ha
  simp only [hp]
  exact h _ rfl rfl rfl

theorem markBooked_follows {K : Unit → Session → Stage → Prop} (hs : seat.id = s)
    (h : K () (marking seat true [b]) (.inserted route b)) :
    Follows server (.createBooking u r s) i (SeatRepository.markBooked s) (holding [seat] [b])
      (.inserted route b) K := by
  unfold SeatRepository.markBooked SeatRepository.mark SeatRepository.getById
  refine .bind (.selectSeat (.again (f := fun v => v.seats.find? s) (fun _ => rfl)
    (.inr (.inl rfl)) (by simp) (by simp) (fun v => ⟨_, _, .ownSeat⟩) fun v p g' ha hp => ?_))
  cases ha
  obtain ⟨row, hrow⟩ := Option.isSome_iff_exists.1 hp
  have hid : row.id = s := (Table.find?_eq_some.1 hrow).2
  simp only [hrow, holding, IdentityMap.load, List.map_cons, List.map_nil, List.find?_cons, hs, hid,
    decide_true]
  refine .modify ?_
  simpa [IdentityMap.modify, hs, marking] using h

theorem confirm_follows {K : Option Booking → Session → Stage → Prop} (hs : seat.id = s)
    (hf : seat.isBooked = false) (hb : b.status = .pending)
    (h : K (some (Db.setStatus .confirmed b))
      (holding [Db.setBooked true seat] [Db.setStatus .confirmed b])
      (.invalidating (.create b route))) :
    Follows server (.createBooking u r s) i (BookingRepository.updateStatus b.id .confirmed)
      (marking seat true [b]) (.inserted route b) K := by
  unfold BookingRepository.updateStatus BookingRepository.getById
  refine .bind (.selectBooking (.again (f := fun v => v.bookings.find? b.id) (fun _ => rfl)
    (.inl rfl) (by simp) (by simp) (fun v => ⟨_, _, .ownBooking rfl⟩) fun v p g' ha hp => ?_))
  cases ha
  simp only [hp, marking, IdentityMap.load, List.map_cons, List.map_nil, List.find?_cons,
    decide_true]
  refine .bind (.modify ?_)
  simp only [IdentityMap.modify, List.map_cons, List.map_nil, if_true]
  refine .bind (.flush (dirty_marking seat [] (by simp [hf]))
    (dirty_updating [] (by simp [hb])) (.forM_one ?_))
  subst hs
  refine .write (r := fun _ => ()) (fun w => change_unit w i _) (.inr (.inr rfl)) (by simp)
    (by simp) (fun _ => .mark) fun _ => .forM_one ?_
  refine .write (r := fun _ => ()) (fun w => change_unit w i _) rfl (by simp) (by simp)
    (fun _ => .confirm rfl) fun _ => ?_
  refine .bind (.refreshBooking (.again (f := fun v => v.bookings.find? b.id) (fun _ => rfl) rfl
    (by simp) (by simp) (fun v => ⟨_, _, .created rfl⟩) fun v p g' ha hp => ?_))
  cases ha
  simp only [hp]
  exact .pure (by simpa [holding, IdentityMap.clean, IdentityMap.refresh] using h)

/-- What an endpoint leaves behind when it returns `resp`: only its commit, or the seat of a
cancelled booking to flush and its commit. -/
def Returns (resp : Response) (σ : Session) (g : Stage) : Prop :=
  ∃ j : Job, j.response = resp ∧ σ.bookings.dirty = [] ∧
    ((σ.seats.dirty = [] ∧ g = .closing j) ∨ ∃ b seat, j = .cancel b true ∧ g = .flushing b ∧
      σ.seats.dirty = [seat] ∧ seat.id = b.seatId ∧ seat.isBooked = false)

theorem createBooking_follows :
    Follows server (.createBooking u r s) i (BookingService.createBooking u r s) {} .start
      fun b => Returns (.created b) := by
  unfold BookingService.createBooking RouteRepository.getById SeatRepository.getById
    UserRepository.getById
  refine .bind (.read (f := fun v => v.routes.find? r) (fun _ => rfl) rfl (by simp) (by simp)
    fun v => ⟨_, .route, .inl ?_⟩)
  cases v.routes.find? r with
  | none => exact .throw rfl
  | some route =>
    simp only [routeCheck]
    refine .bind (.raiseIf (fun h => by simp_all) fun h => ?_)
    simp only [Bool.not_eq_false'] at h
    simp only [h, if_true]
    refine .bind (.selectSeat (.read (f := fun v => v.seats.find? s) (fun _ => rfl) rfl (by simp)
      (by simp) fun v => ⟨_, .seat, .inl ?_⟩))
    cases hv : v.seats.find? s with
    | none => exact .throw rfl
    | some seat =>
      have hs : seat.id = s := (Table.find?_eq_some.1 hv).2
      simp only [IdentityMap.load, List.find?_nil, seatCheck]
      refine .bind (.raiseIf (fun h => if_pos (of_decide_eq_true h)) fun h => ?_)
      simp only [of_decide_eq_false h, if_false]
      refine .bind (.raiseIf (fun hf => by simp [hf]) fun hf => ?_)
      simp only [hf, Bool.false_eq_true, if_false]
      refine .bind (bookingCreate_follows seat fun b hbs hbr hb => ?_)
      refine .bind (markBooked_follows hs (.bind (confirm_follows hs hf hb ?_)))
      refine .bind (.deletePattern (by rw [← hbr]; rfl) (.bind ?_))
      refine .read (f := fun v => v.users.find? u) (fun _ => rfl) rfl (by simp)
        (by simp [Stage.afterDelete]) fun v => ⟨_, .creator, .inl (.bind ?_)⟩
      refine .await ⟨_, rfl, rfl⟩ (by simp) (by simp) (fun w x w' he => ?_) fun w e w' he => by
        cases he
      cases he
      exact ⟨_, .publish rfl rfl, .inl (.pure ⟨.create b route, rfl, by simp, .inl ⟨by simp, rfl⟩⟩)⟩

end

/-! ## Cancelling a booking -/

section

variable {u id : Int} {b : Booking}

theorem cancel_follows {K : Option Booking → Session → Stage → Prop} (hid : b.id = id)
    (hb : b.status ≠ .cancelled)
    (h : K (some (Db.setStatus .cancelled b)) (holding [] [Db.setStatus .cancelled b])
      (.refreshed b)) :
    Follows server (.cancelBooking u id) i (BookingRepository.updateStatus id .cancelled)
      (holding [] [b]) (.bookingRead b) K := by
  unfold BookingRepository.updateStatus BookingRepository.getById
  refine .bind (.selectBooking (.again (f := fun v => v.bookings.find? id) (fun _ => rfl)
    (.inl rfl) (by simp) (by simp) (fun v => ⟨_, _, .booking⟩) fun v p g' ha hp => ?_))
  cases ha
  obtain ⟨row, hrow⟩ := Option.isSome_iff_exists.1 hp
  have hr : row.id = id := (Table.find?_eq_some.1 hrow).2
  simp only [hrow, holding, IdentityMap.load, List.map_cons, List.map_nil, List.find?_cons, hid, hr,
    decide_true]
  refine .bind (.modify ?_)
  simp only [IdentityMap.modify, List.map_cons, List.map_nil, hid, if_true]
  refine .bind (.flush rfl (dirty_updating [] hb) (.forM_nil (.forM_one ?_)))
  subst hid
  refine .write (r := fun _ => ()) (fun w => change_unit w i _) (.inr rfl) (by simp) (by simp)
    (fun _ => .cancel rfl) fun _ => ?_
  refine .bind (.refreshBooking (.again (f := fun v => v.bookings.find? b.id) (fun _ => rfl) rfl
    (by simp) (by simp) (fun v => ⟨_, _, .refreshed⟩) fun v p g' ha hp => ?_))
  cases ha
  simp only [hp]
  exact .pure (by simpa [holding, IdentityMap.clean, IdentityMap.refresh] using h)

theorem markFree_follows {K : Unit → Session → Stage → Prop}
    (h : ∀ seat, seat.id = b.seatId → K () (marking seat false [Db.setStatus .cancelled b])
      (.invalidating (.cancel b seat.isBooked))) :
    Follows server (.cancelBooking u id) i (SeatRepository.markFree b.seatId)
      (holding [] [Db.setStatus .cancelled b]) (.refreshed b) K := by
  unfold SeatRepository.markFree SeatRepository.mark SeatRepository.getById
  refine .bind (.selectSeat (.again (f := fun v => v.seats.find? b.seatId) (fun _ => rfl) rfl
    (by simp) (by simp) (fun v => ⟨_, _, @Again.bookedSeat v u id _ b true rfl⟩) fun v p g' ha hp => ?_))
  cases ha
  obtain ⟨seat, hseat, rfl⟩ := Option.map_eq_some_iff.1 hp
  have hs : seat.id = b.seatId := (Table.find?_eq_some.1 hseat).2
  simp only [hseat, holding, IdentityMap.load, List.map_nil, List.find?_nil, Option.isSome_some,
    if_true]
  refine .modify ?_
  simpa [IdentityMap.modify, hs, marking] using h seat hs

theorem cancelBooking_follows :
    Follows server (.cancelBooking u id) i (BookingService.cancelBooking id u) {} .start
      fun b => Returns (.cancelled b) := by
  unfold BookingService.cancelBooking BookingRepository.getById UserRepository.getById
  refine .bind (.selectBooking (.read (f := fun v => v.bookings.find? id) (fun _ => rfl) rfl
    (by simp) (by simp) fun v => ⟨_, .booking, .inl ?_⟩))
  cases hv : v.bookings.find? id with
  | none => exact .throw rfl
  | some b =>
    have hid : b.id = id := (Table.find?_eq_some.1 hv).2
    simp only [IdentityMap.load, List.find?_nil, cancelCheck]
    refine .bind (.raiseIf (fun h => if_pos (of_decide_eq_true h)) fun h => ?_)
    simp only [of_decide_eq_false h, if_false]
    refine .bind (.raiseIf (fun h => if_pos (of_decide_eq_true h)) fun h => ?_)
    simp only [of_decide_eq_false h, if_false]
    refine .bind (cancel_follows hid (of_decide_eq_false h) ?_)
    refine .bind (markFree_follows (b := b) fun seat hs => .bind (.deletePattern rfl (.bind ?_)))
    refine .read (f := fun v => v.users.find? u) (fun _ => rfl) rfl (by simp)
      (by simp [Stage.afterDelete]) fun v => ⟨_, .owner, .inl (.bind ?_)⟩
    subst hid
    refine .await ⟨_, rfl, rfl⟩ (by simp) (by simp) (fun w x w' he => ?_) fun w e w' he => by
      cases he
    cases he
    refine ⟨_, .publish rfl rfl, .inl (.pure ⟨.cancel b seat.isBooked, rfl, ?_, ?_⟩)⟩
    · simp [marking, IdentityMap.dirty]
    · cases hf : seat.isBooked with
      | true =>
        exact .inr ⟨b, Db.setBooked false seat, rfl, rfl, dirty_marking _ _ (by simp [hf]), hs, rfl⟩
      | false =>
        refine .inl ⟨?_, rfl⟩
        have : Db.setBooked false seat = seat := by cases seat; cases hf; rfl
        simp [marking, IdentityMap.dirty, this]

end

/-! ## The other endpoints -/

theorem RouteCreate.parses (p : RouteCreate) :
    ∃ dep arr, strptime p.departureAt = some dep ∧ strptime p.arrivalAt = some arr ∧
      dep.rank < arr.rank := by
  have h := p.dates
  unfold datesOrdered at h
  split at h
  · rename_i dep arr hd ha
    exact ⟨dep, arr, hd, ha, by simpa using h⟩
  · cases h

theorem RouteCreate.seatNumbers_ne (p : RouteCreate) :
    (RouteRepository.seatNumbers p.totalSeats).isEmpty = false := by
  have h := p.totalSeats_bound.1
  cases hn : p.totalSeats.toNat with
  | zero => omega
  | succ n => simp [RouteRepository.seatNumbers, hn, List.range_succ]

theorem createRoute_follows {u : Int} {p : RouteCreate} :
    Follows server (.createRoute u p) i (createRoute u p) {} .start Returns := by
  unfold createRoute getCurrentAdminUser UserRepository.getById
  refine .bind (.bind (.read (f := fun v => v.users.find? u) (fun _ => rfl) rfl (by simp) (by simp)
    fun v => ⟨_, .admin, .inl ?_⟩))
  cases v.users.find? u with
  | none => exact .throw rfl
  | some user =>
    simp only [adminCheck]
    refine .bind (.raiseIf (fun h => by simp [h]) fun h => ?_)
    simp only [h, Bool.false_eq_true, if_false]
    refine .raiseIf (fun h => if_pos (of_decide_eq_true h)) fun h => ?_
    simp only [of_decide_eq_false h, if_false]
    obtain ⟨dep, arr, hd, ha, -⟩ := p.parses
    simp only [hd, ha]
    unfold RouteRepository.create
    refine .bind (.bind (.write (fun _ => rfl) ⟨_, rfl⟩ (by simp) (by simp)
      (fun _ => .insertRoute hd ha rfl rfl) fun w => .bind ?_))
    refine .again (f := fun v => v.routes.find? w.nextRoute) (fun _ => rfl) rfl (by simp) (by simp)
      (fun v => ⟨_, _, .newRoute rfl⟩) fun v p' g' hag hp => ?_
    cases hag
    simp only [hp, p.seatNumbers_ne, Bool.not_false, if_true]
    refine .bind (.write (r := fun _ => ()) (fun w => change_unit _ i _) rfl (by simp) (by simp)
      (fun w => .insertSeats rfl rfl rfl) fun w => ?_)
    refine .pure (.bind (.deletePattern rfl (.pure ⟨_, rfl, rfl, .inl ⟨rfl, rfl⟩⟩)))

theorem orCached_follows {q : Request} {key : String} {α : Type} {ofJson? : Json → Option α}
    {resp : α → Response} {rest : SessionM Response} (hw : Waits q .start (.get key))
    (hs : ∀ w, Step server q i .ok (.get key) .start w
      (cacheCheck ofJson? resp (w.redis.get key)) w)
    (hrest : Follows server q i rest {} .missed Returns) :
    Follows server q i (orCached key ofJson? resp rest) {} .start Returns := by
  unfold orCached CacheService.get
  refine .bind (.await hw (by simp) (by simp) (fun w r w' he => ?_) fun w e w' he => by cases he)
  cases he
  refine ⟨_, hs w, .inl ?_⟩
  unfold cacheCheck
  cases (w.redis.get key).filter Json.truthy with
  | none => exact hrest
  | some cached =>
    dsimp only
    cases ofJson? cached with
    | none => exact .throw rfl
    | some a => exact .pure ⟨.read (resp a), rfl, rfl, .inl ⟨rfl, rfl⟩⟩

/-- Storing the answer in the cache and answering it. -/
theorem store_follows {q : Request} {key : String} {ttl : Nat} {value : Json} {resp : Response}
    (hw : Waits q (.storing key ttl value resp) (.setex key ttl value)) :
    Follows server q i (do CacheService.set key value ttl; return resp) {}
      (.storing key ttl value resp) Returns := by
  unfold CacheService.set
  refine .bind (.await hw (by simp) (by simp) (fun w r w' he => ?_) fun w e w' he => by cases he)
  cases he
  exact ⟨_, .store, .inl (.pure ⟨.read resp, rfl, rfl, .inl ⟨rfl, rfl⟩⟩)⟩

theorem listRoutes_follows {q : RouteQuery} :
    Follows server (.listRoutes q) i (listRoutes q) {} .start Returns := by
  refine orCached_follows rfl (fun w => .cachedRoutes rfl rfl) ?_
  unfold RouteRepository.listActive
  refine .bind (.bind (.read (f := fun v => ((v.routes.rows.countP (q.accepts server.fold) : Nat) : Int))
    (fun _ => rfl) rfl (by simp) (by simp) fun v => ⟨_, .count rfl, .inl (.bind ?_)⟩))
  refine .read (f := fun v => World.routesOf server v q.toRouteFilter ((q.page - 1) * q.size) q.size)
    (fun _ => rfl) rfl (by simp) (by simp) fun v => ⟨_, .page rfl rfl rfl rfl, .inl (.pure ?_)⟩
  exact store_follows rfl

theorem listSeats_follows {r : Int} :
    Follows server (.listSeats r) i (listSeats r) {} .start Returns := by
  refine orCached_follows rfl (fun w => .cachedSeats rfl rfl) ?_
  unfold SeatRepository.listByRoute
  refine .bind (.read (f := fun v => World.seatsOf v r) (fun _ => rfl) rfl (by simp) (by simp)
    fun v => ⟨_, .seats rfl, .inl ?_⟩)
  exact store_follows rfl

theorem register_follows {p : UserRegister} {salt : String} :
    Follows server (.register p salt) i (register server p salt) {} .start Returns := by
  unfold register UserRepository.getByEmail UserRepository.create
  refine .bind (.read (f := fun v => v.users.rows.find? (·.email = p.email)) (fun _ => rfl) rfl
    (by simp) (by simp) fun v => ⟨_, .email rfl, .inl ?_⟩)
  cases v.users.rows.find? (·.email = p.email) with
  | some u => exact .bind (.throw rfl)
  | none =>
    refine .bind (.pure (.bind (.bind ?_)))
    refine .write (fun _ => rfl) ⟨_, rfl⟩ (by simp) (by simp [registerCheck])
      (fun _ => .insertUser rfl rfl) fun w => .bind ?_
    refine .again (f := fun v => v.users.find? w.nextUser) (fun _ => rfl) rfl (by simp) (by simp)
      (fun v => ⟨_, _, .newUser rfl⟩) fun v p' g' hag hp => ?_
    cases hag
    simp only [hp]
    exact .pure (.pure ⟨_, rfl, rfl, .inl ⟨rfl, rfl⟩⟩)

theorem login_follows {username password : String} :
    Follows server (.login username password) i (login server username password) {} .start
      Returns := by
  unfold login UserRepository.getByEmail
  refine .bind (.read (f := fun v => v.users.rows.find? (·.email = username)) (fun _ => rfl) rfl
    (by simp) (by simp) fun v => ⟨_, .login, .inl ?_⟩)
  cases v.users.rows.find? (·.email = username) with
  | none => exact .throw rfl
  | some user =>
    simp only [loginCheck]
    refine .bind (.raiseIf (fun h => by simp [h]) fun h => ?_)
    simp only [h, Bool.false_eq_true, if_false]
    refine .bind (.raiseIf (fun h => by simp [h]) fun h => ?_)
    simp only [h, Bool.false_eq_true, if_false]
    exact .pure ⟨_, rfl, rfl, .inl ⟨rfl, rfl⟩⟩

theorem myBookings_follows {u : Int} :
    Follows server (.myBookings u) i (.bookings <$> BookingRepository.listByUser u) {} .start
      Returns := by
  unfold BookingRepository.listByUser
  refine .map (.read (f := fun v =>
    server.newestFirst (v.bookings.rows.filter (·.userId = u))) (fun _ => rfl) rfl (by simp)
    (by simp) fun v => ⟨_, .history, .inl ⟨_, rfl, rfl, .inl ⟨rfl, rfl⟩⟩⟩)

theorem endpoint_follows (q : Request) :
    Follows server q i (endpoint server q) {} .start Returns := by
  cases q with
  | register p salt => exact register_follows
  | login username password => exact login_follows
  | createRoute u p => exact createRoute_follows
  | listRoutes q => exact listRoutes_follows
  | listSeats r => exact listSeats_follows
  | createBooking u r s => exact .map createBooking_follows
  | myBookings u => exact myBookings_follows
  | cancelBooking u b => exact .map cancelBooking_follows

/-! ## Commit, rollback and the answer -/

theorem waits_closing (q : Request) (j : Job) : Waits q (.closing j) .commit := by
  cases q <;> rfl

theorem commit_follows {q : Request} {resp : Response} {σ : Session} {g : Stage}
    (h : Returns resp σ g) :
    Follows server q i Session.commit σ g fun _ _ g' => g' = .ended resp := by
  have hcommit (j : Job) (σ : Session) : Follows server q i (await .commit) σ (.closing j)
      fun _ _ g' => g' = .ended j.response := by
    refine .await (waits_closing q j) (by simp) (by simp) (fun w r w' he => ?_) fun w e w' he => by
      cases he
    cases he
    exact ⟨_, .commit, .inl rfl⟩
  obtain ⟨j, rfl, hb, ⟨hs, rfl⟩ | ⟨b, seat, rfl, rfl, hs, hid, hf⟩⟩ := h
  · exact .bind (.flush_clean hs hb (hcommit j _))
  · refine .bind (.flush hs hb (.forM_one ?_))
    rw [hid, hf]
    refine .write (r := fun _ => ()) (fun w => change_unit w i _) ?_ (by simp) (by simp)
      (fun _ => .free rfl) fun _ => .forM_nil (hcommit _ _)
    cases q <;> rfl

theorem getDb_sim (q : Request) :
    SimE (protocol server) (exec server) q i (getDb (endpoint server q)) .start
      (fun resp g => Ends g resp) fun e g => Ends g (errorResponse e) := by
  have hbody : Follows server q i (do let a ← endpoint server q; Session.commit; return a) {}
      .start fun resp _ g => g = .ended resp :=
    .bind (.mono (endpoint_follows q) fun resp σ g h =>
      .bind (.mono (commit_follows h) fun _ _ _ hg => .pure hg))
  refine SimE.tryCatch (SimE.map (SimE.mono hbody (fun p g hp => hp) fun e g he => ?_))
  rcases he with rfl | rfl
  · refine SimE.bind (SimE.call (by cases q <;> rfl) (fun o w a w' h => ?_) fun o w e' w' h => ?_)
    · cases o with
      | ok => cases h; exact ⟨_, .rollback, SimE.throw (.inl rfl)⟩
      | fail => cases h
    · cases o with
      | ok => cases h
      | fail => cases h; exact ⟨_, .rollback, .inl rfl⟩
  · exact sim_lost fun r => by cases r <;> exact .inr rfl

/-- **Every request is simulated by the protocol.** -/
theorem handler_sim (i : Nat) (q : Request) :
    Sim (protocol server) (exec server) q i (handler server q) .start
      fun resp g => Ends g resp :=
  Sim.bind (Sim.mono (getDb_sim q) fun r g hr => by
    cases r with
    | ok resp => exact hr
    | error e => exact hr)

end

end BusBookings

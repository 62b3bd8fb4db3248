import BusBookings.Base.Budget
import BusBookings.App.Api

/-!
# How many calls a request takes

`Takes` is `Costs` for code that works in a session. One lemma for each function of the source bounds its
calls; what a flush writes is bounded by what the session has loaded.

* `handler_within`: request `q` takes at most `maxCalls q` calls.
-/

namespace BusBookings

open Async

/-- The calls of a request: those of its endpoint, its commit and, should that fail, its rollback. -/
def maxCalls : Request → Nat
  | .register .. => 5
  | .login .. => 3
  | .createRoute .. => 8
  | .listRoutes _ => 6
  | .listSeats _ => 5
  | .createBooking .. => 15
  | .myBookings _ => 3
  | .cancelBooking .. => 12

/-- Run from the session `σ`, the code takes at most `m` calls; `K` holds when it returns. -/
def Takes (server : Server) (i : Nat) {α : Type} (x : SessionM α) (σ : Session) (m : Nat)
    (K : α → Session → Prop) : Prop :=
  Costs (exec server) i (x.run σ) m fun p => K p.1 p.2

/-! ## Rules -/

section

variable {server : Server} {i : Nat}

namespace Takes

variable {α β : Type} {σ σ' : Session} {m u v : Nat} {K : α → Session → Prop} {L : β → Session → Prop}

theorem pure {a : α} (h : K a σ) : Takes server i (pure a) σ 0 K := Costs.pure h

theorem throw {e : Exc} : Takes server i (throw e : SessionM α) σ m K :=
  Costs.mono Costs.throw (Nat.zero_le m) fun _ => id

theorem mono {x : SessionM α} {K' : α → Session → Prop} (h : Takes server i x σ u K) (hm : u ≤ v)
    (hK : ∀ a σ, K a σ → K' a σ) : Takes server i x σ v K' :=
  Costs.mono h hm fun _ => hK _ _

theorem bind {x : SessionM α} {f : α → SessionM β} (h : Takes server i x σ u K)
    (hf : ∀ a σ', K a σ' → Takes server i (f a) σ' v L) : Takes server i (x >>= f) σ (u + v) L :=
  Costs.bind h fun p => hf p.1 p.2

theorem map {x : SessionM α} {f : α → β} (h : Takes server i x σ m fun a σ' => L (f a) σ') :
    Takes server i (f <$> x) σ m L :=
  bind (f := fun a => Pure.pure (f a)) h fun _ _ => pure

theorem await {c : Call} {K : Reply c → Session → Prop}
    (h : ∀ l w r w', exec server l i c w = some (.ok r, w') → K r σ) :
    Takes server i (BusBookings.await c) σ 1 K :=
  Costs.bind (u := 1) (v := 0) (K := (K · σ)) (Costs.call h) fun _ hr => pure (σ := σ) (K := K) hr

/-- A call whose reply does not matter. -/
theorem await_any {c : Call} : Takes server i (BusBookings.await c) σ 1 fun _ σ' => σ' = σ :=
  await fun _ _ _ _ _ => rfl

theorem raiseIf {cond : Bool} {statusCode : Nat} {detail : String} :
    Takes server i (BusBookings.raiseIf cond statusCode detail) σ 0 fun _ σ' => σ' = σ := by
  cases cond with
  | true => exact throw
  | false => exact pure rfl

end Takes

/-! ## The session -/

section

variable {σ : Session}

theorem takes_forM {ρ : Type} {f : ρ → SessionM PUnit}
    (h : ∀ a, Takes server i (f a) σ 1 fun _ σ' => σ' = σ) (l : List ρ) :
    Takes server i (l.forM f) σ l.length fun _ σ' => σ' = σ := by
  induction l with
  | nil => exact .pure rfl
  | cons a l ih =>
    refine .mono (.bind (h a) fun _ σ' hσ => ?_) (by rw [List.length_cons, Nat.add_comm]) fun _ _ => id
    subst hσ
    exact ih

theorem dirty_clean {ρ : Type} [DecidableEq ρ] (m : IdentityMap ρ) :
    IdentityMap.dirty (IdentityMap.clean m) = [] := by
  simp [IdentityMap.dirty, IdentityMap.clean, List.filter_eq_nil_iff]

/-- A flush writes the changed objects, and none is changed after it. -/
theorem flush_takes {m : Nat} (h : σ.seats.dirty.length + σ.bookings.dirty.length ≤ m) :
    Takes server i Session.flush σ m fun _ σ' =>
      σ' = { seats := σ.seats.clean, bookings := σ.bookings.clean } := by
  have hget : Takes server i get σ 0 fun s σ' => s = σ ∧ σ' = σ := Costs.pure ⟨rfl, rfl⟩
  refine .mono (.bind hget fun s σ' hs => ?_) (u := 0 + (σ.seats.dirty.length +
    (σ.bookings.dirty.length + 0))) (by omega) fun _ _ => id
  obtain ⟨rfl, rfl⟩ := hs
  refine .bind (takes_forM (fun _ => .await_any) _) fun _ σ₁ h₁ => ?_
  subst h₁
  refine .bind (takes_forM (fun _ => .await_any) _) fun _ σ₂ h₂ => ?_
  exact Costs.pure rfl

/-- A row that is read by its id has this id. -/
theorem seat_takes {seatId : Int} : Takes server i (await (.selectSeat seatId)) σ 1
    fun (row : Option Seat) σ' => σ' = σ ∧ ∀ seat, row = some seat → seat.id = seatId :=
  .await fun o w r w' he => ⟨rfl, fun seat hr => by
    cases o with
    | fail => cases he
    | ok =>
      cases he
      exact (Table.find?_eq_some.1 hr).2⟩

theorem booking_takes {bookingId : Int} : Takes server i (await (.selectBooking bookingId)) σ 1
    fun (row : Option Booking) σ' => σ' = σ ∧ ∀ b, row = some b → b.id = bookingId :=
  .await fun o w r w' he => ⟨rfl, fun b hr => by
    cases o with
    | fail => cases he
    | ok =>
      cases he
      exact (Table.find?_eq_some.1 hr).2⟩

/-- The first seat that the session loads. -/
theorem selectSeat_new {seatId : Int} (h : σ.seats = []) :
    Takes server i (Session.selectSeat seatId) σ 1 fun o σ' => (o = none ∧ σ' = σ) ∨
      ∃ seat, o = some seat ∧ seat.id = seatId ∧ σ' = { σ with seats := [⟨seat, seat⟩] } := by
  refine .bind (v := 0) seat_takes fun row σ' hrow => ?_
  obtain ⟨rfl, hrow⟩ := hrow
  cases row with
  | none => exact .pure (.inl ⟨rfl, rfl⟩)
  | some seat =>
    exact Costs.pure (.inr ⟨seat, by simp [h, IdentityMap.load], hrow seat rfl,
      by simp [h, IdentityMap.load]⟩)

/-- A seat that the session has loaded before. -/
theorem selectSeat_again {seatId : Int} {o : Tracked Seat} (h : σ.seats = [o]) (ho : o.cur.id = seatId) :
    Takes server i (Session.selectSeat seatId) σ 1 fun _ σ' => σ' = σ := by
  refine .bind (v := 0) seat_takes fun row σ' hrow => ?_
  obtain ⟨rfl, hrow⟩ := hrow
  cases row with
  | none => exact .pure rfl
  | some seat =>
    obtain ⟨seats, bookings⟩ := σ'
    subst h
    exact Costs.pure (by simp [IdentityMap.load, ho, hrow seat rfl])

/-- The first booking that the session loads. -/
theorem selectBooking_new {bookingId : Int} (h : σ.bookings = []) :
    Takes server i (Session.selectBooking bookingId) σ 1 fun o σ' => (o = none ∧ σ' = σ) ∨
      ∃ b, o = some b ∧ b.id = bookingId ∧ σ' = { σ with bookings := [⟨b, b⟩] } := by
  refine .bind (v := 0) booking_takes fun row σ' hrow => ?_
  obtain ⟨rfl, hrow⟩ := hrow
  cases row with
  | none => exact .pure (.inl ⟨rfl, rfl⟩)
  | some b =>
    exact Costs.pure (.inr ⟨b, by simp [h, IdentityMap.load], hrow b rfl,
      by simp [h, IdentityMap.load]⟩)

/-- A booking that the session has loaded before. -/
theorem selectBooking_again {bookingId : Int} {o : Tracked Booking} (h : σ.bookings = [o])
    (ho : o.cur.id = bookingId) :
    Takes server i (Session.selectBooking bookingId) σ 1 fun _ σ' => σ' = σ := by
  refine .bind (v := 0) booking_takes fun row σ' hrow => ?_
  obtain ⟨rfl, hrow⟩ := hrow
  cases row with
  | none => exact .pure rfl
  | some b =>
    obtain ⟨seats, bookings⟩ := σ'
    subst h
    exact Costs.pure (by simp [IdentityMap.load, ho, hrow b rfl])

/-- A refreshed booking is unchanged. -/
theorem refreshBooking_takes {bookingId : Int} :
    Takes server i (Session.refreshBooking bookingId) σ 1 fun b σ' => b.id = bookingId ∧
      σ' = { σ with bookings := σ.bookings.refresh Booking.id b } := by
  refine .bind (v := 0) booking_takes fun row σ' hrow => ?_
  obtain ⟨rfl, hrow⟩ := hrow
  cases row with
  | none => exact .throw
  | some b => exact Costs.pure ⟨hrow b rfl, rfl⟩

theorem deletePattern_takes {pattern : String} :
    Takes server i (CacheService.deletePattern pattern) σ 2 fun _ σ' => σ' = σ := by
  refine .bind (u := 1) (v := 1) .await_any fun keys σ' hσ => ?_
  subst hσ
  cases List.isEmpty keys with
  | true => exact .mono (.pure rfl) (by omega) fun _ _ => id
  | false => exact .await_any

theorem length_dirty_le {ρ : Type} [DecidableEq ρ] (m : IdentityMap ρ) :
    (IdentityMap.dirty m).length ≤ m.length := by
  simpa [IdentityMap.dirty] using List.length_filter_le _ m

theorem modifySeat_takes {seatId : Int} {f : Seat → Seat} :
    Takes server i (Session.modifySeat seatId f) σ 0 fun _ σ' =>
      σ'.bookings = σ.bookings ∧ σ'.seats.length = σ.seats.length :=
  Costs.pure ⟨rfl, by simp [IdentityMap.modify]⟩

theorem modifyBooking_takes {bookingId : Int} {f : Booking → Booking} :
    Takes server i (Session.modifyBooking bookingId f) σ 0 fun _ σ' =>
      σ'.seats = σ.seats ∧ σ'.bookings.length = σ.bookings.length :=
  Costs.pure ⟨rfl, by simp [IdentityMap.modify]⟩

/-! ## The repositories -/

/-- Changing the status of a booking that the session has loaded. -/
theorem updateStatus_takes {bookingId : Int} {status : BookingStatus} {o : Tracked Booking}
    (h : σ.bookings = [o]) (ho : o.cur.id = bookingId) :
    Takes server i (BookingRepository.updateStatus bookingId status) σ (σ.seats.length + 3)
      fun b σ' => b.isSome → σ'.seats = σ.seats.clean ∧ σ'.bookings.dirty = [] := by
  unfold BookingRepository.updateStatus BookingRepository.getById
  refine .mono (.bind (selectBooking_again h ho) fun b σ₁ h₁ => ?_) (u := 1 + (σ.seats.length + 1 + 1))
    (by omega) fun _ _ => id
  subst h₁
  split
  · exact .mono (.pure (by simp)) (Nat.zero_le _) fun _ _ => id
  · refine .mono (.bind modifyBooking_takes fun _ σ₂ h₂ => ?_)
      (u := 0 + (σ₁.seats.length + 1 + 1)) (by omega) fun _ _ => id
    obtain ⟨hs, hb⟩ := h₂
    have hseats := length_dirty_le σ₂.seats
    have hbookings := length_dirty_le σ₂.bookings
    simp only [h, List.length_singleton] at hb
    refine .bind (flush_takes (by rw [← hs]; omega)) fun _ σ₃ h₃ => ?_
    subst h₃
    refine .map (.mono refreshBooking_takes (Nat.le_refl _) fun b σ₄ h₄ _ => ?_)
    obtain ⟨-, rfl⟩ := h₄
    exact ⟨by rw [hs], by simp [IdentityMap.refresh, IdentityMap.dirty, IdentityMap.clean]⟩

theorem bookingCreate_takes {u r s : Int} {price : Cents} (hs : σ.seats.dirty = [])
    (hb : σ.bookings = []) :
    Takes server i (BookingRepository.create u r s price) σ 2 fun b σ' =>
      σ'.seats = σ.seats.clean ∧ σ'.bookings = [⟨b, b⟩] := by
  unfold BookingRepository.create
  have hclean : σ.seats.dirty.length + σ.bookings.dirty.length ≤ 0 := by
    rw [hs, hb]
    exact Nat.le_refl 0
  refine .bind (v := 2) (flush_takes hclean) fun _ σ₁ h₁ => ?_
  subst h₁
  refine .bind (v := 1) .await_any fun id σ₂ h₂ => ?_
  subst h₂
  refine .mono refreshBooking_takes (Nat.le_refl _) fun b σ₃ h₃ => ?_
  obtain ⟨-, rfl⟩ := h₃
  exact ⟨rfl, by simp [hb, IdentityMap.refresh, IdentityMap.clean]⟩

theorem markBooked_takes {seatId : Int} {o : Tracked Seat} (h : σ.seats = [o]) (ho : o.cur.id = seatId) :
    Takes server i (SeatRepository.markBooked seatId) σ 1 fun _ σ' =>
      σ'.bookings = σ.bookings ∧ σ'.seats.length = 1 := by
  unfold SeatRepository.markBooked SeatRepository.mark SeatRepository.getById
  refine .bind (v := 0) (selectSeat_again h ho) fun seat σ₁ h₁ => ?_
  subst h₁
  split
  · exact .mono modifySeat_takes (Nat.le_refl _) fun _ σ₂ ⟨hb, hs⟩ => ⟨hb, by rw [hs, h]; rfl⟩
  · exact Costs.pure ⟨rfl, by rw [h]; rfl⟩

theorem markFree_takes {seatId : Int} (h : σ.seats = []) :
    Takes server i (SeatRepository.markFree seatId) σ 1 fun _ σ' =>
      σ'.bookings = σ.bookings ∧ σ'.seats.length ≤ 1 := by
  unfold SeatRepository.markFree SeatRepository.mark SeatRepository.getById
  refine .bind (v := 0) (selectSeat_new h) fun seat σ₁ h₁ => ?_
  have hσ₁ : σ₁.bookings = σ.bookings ∧ σ₁.seats.length ≤ 1 := by
    rcases h₁ with ⟨-, rfl⟩ | ⟨seat', -, -, rfl⟩
    · simp [h]
    · simp
  split
  · exact .mono modifySeat_takes (Nat.le_refl _) fun _ σ₂ ⟨hb, hs⟩ => ⟨hb.trans hσ₁.1, hs.trans_le hσ₁.2⟩
  · exact Costs.pure hσ₁

/-! ## The endpoints -/

/-- The objects that the commit has to write. -/
def Session.dirty (σ : Session) : Nat := σ.seats.dirty.length + σ.bookings.dirty.length

theorem createBooking_takes {u r s : Int} : Takes server i (BookingService.createBooking u r s) {} 13
    fun _ σ' => σ'.dirty = 0 := by
  unfold BookingService.createBooking RouteRepository.getById UserRepository.getById
  refine .bind (v := 12) .await_any fun route σ₁ h₁ => ?_
  subst h₁
  split
  · rename_i route
    refine .bind (v := 12) .raiseIf fun _ σ₂ h₂ => ?_
    subst h₂
    refine .bind (v := 11) (selectSeat_new rfl) fun seat σ₃ h₃ => ?_
    rcases h₃ with ⟨rfl, -⟩ | ⟨seat, rfl, hseat, rfl⟩
    · exact .throw
    · refine .bind (v := 11) .raiseIf fun _ σ₄ h₄ => ?_
      subst h₄
      refine .bind (v := 11) .raiseIf fun _ σ₅ h₅ => ?_
      subst h₅
      refine .bind (v := 9) (bookingCreate_takes (by simp [IdentityMap.dirty]) rfl)
        fun b σ₆ ⟨hs, hb⟩ => ?_
      refine .bind (v := 8) (markBooked_takes hs hseat) fun _ σ₇ ⟨hb', hs'⟩ => ?_
      refine .bind (v := 4) (.mono (updateStatus_takes (hb'.trans hb) rfl) (v := 4) (by omega)
        fun _ _ => id) fun b' σ₈ h₈ => ?_
      cases b' with
      | none => exact .throw
      | some b' =>
        obtain ⟨hs'', hb''⟩ := h₈ rfl
        refine .bind (v := 2) deletePattern_takes fun _ σ₉ h₉ => ?_
        subst h₉
        refine .bind (v := 1) .await_any fun user σ₁₀ h₁₀ => ?_
        subst h₁₀
        refine .bind (v := 0) .await_any fun _ σ₁₁ h₁₁ => ?_
        subst h₁₁
        exact Costs.pure (by simp [Session.dirty, hs'', hb'', dirty_clean])
  · exact .throw

theorem cancelBooking_takes {u id : Int} : Takes server i (BookingService.cancelBooking id u) {} 9
    fun _ σ' => σ'.dirty ≤ 1 := by
  unfold BookingService.cancelBooking BookingRepository.getById UserRepository.getById
  refine .bind (v := 8) (selectBooking_new rfl) fun b σ₁ h₁ => ?_
  rcases h₁ with ⟨rfl, -⟩ | ⟨b, rfl, hid, rfl⟩
  · exact .throw
  · refine .bind (v := 8) .raiseIf fun _ σ₂ h₂ => ?_
    subst h₂
    refine .bind (v := 8) .raiseIf fun _ σ₃ h₃ => ?_
    subst h₃
    refine .bind (v := 5) (updateStatus_takes rfl hid) fun b' σ₄ h₄ => ?_
    cases b' with
    | none => exact .throw
    | some b' =>
      obtain ⟨hs, hb⟩ := h₄ rfl
      refine .bind (v := 4) (markFree_takes hs) fun _ σ₅ ⟨hb', hs'⟩ => ?_
      refine .bind (v := 2) deletePattern_takes fun _ σ₆ h₆ => ?_
      subst h₆
      refine .bind (v := 1) .await_any fun user σ₇ h₇ => ?_
      subst h₇
      refine .bind (v := 0) .await_any fun _ σ₈ h₈ => ?_
      subst h₈
      have hle := length_dirty_le σ₈.seats
      exact Costs.pure (by simp only [Session.dirty, hb', hb, List.length_nil]; omega)

theorem createRoute_takes {u : Int} {p : RouteCreate} :
    Takes server i (createRoute u p) {} 6 fun _ σ' => σ'.dirty = 0 := by
  have hadmin : Takes server i (getCurrentAdminUser u) {} 1 fun _ σ' => σ' = {} := by
    unfold getCurrentAdminUser UserRepository.getById
    refine .bind (v := 0) .await_any fun user σ₁ h₁ => ?_
    subst h₁
    split
    · refine .bind (v := 0) .raiseIf fun _ σ₂ h₂ => ?_
      subst h₂
      exact .raiseIf
    · exact .throw
  have hcreate (row : NewRoute) :
      Takes server i (RouteRepository.create row) {} 3 fun _ σ' => σ' = {} := by
    unfold RouteRepository.create
    refine .bind (v := 2) .await_any fun routeId σ₁ h₁ => ?_
    subst h₁
    refine .bind (v := 1) .await_any fun route σ₂ h₂ => ?_
    subst h₂
    split
    · exact .throw
    · split
      · exact .bind (v := 0) .await_any fun _ _ hσ => .pure hσ
      · exact .mono (.pure (K := fun _ σ' => σ' = {}) rfl) (Nat.zero_le 1) fun _ _ => id
  unfold createRoute
  refine .bind (v := 5) hadmin fun _ σ₁ h₁ => ?_
  subst h₁
  split
  · split
    · refine .bind (v := 2) (hcreate _) fun route σ₂ h₂ => ?_
      subst h₂
      exact .bind (v := 0) deletePattern_takes fun _ _ hσ => .pure (by rw [hσ]; rfl)
    · exact .throw
  · exact .throw

theorem orCached_takes {α : Type} {key : String} {ofJson? : Json → Option α} {resp : α → Response}
    {rest : SessionM Response} {m : Nat} (h : Takes server i rest {} m fun _ σ' => σ'.dirty = 0) :
    Takes server i (orCached key ofJson? resp rest) {} (m + 1) fun _ σ' => σ'.dirty = 0 := by
  unfold orCached CacheService.get
  refine .mono (.bind (v := m) .await_any fun entry σ₁ h₁ => ?_) (by omega) fun _ _ => id
  subst h₁
  split
  · split
    · exact .mono (.pure rfl) (Nat.zero_le m) fun _ _ => id
    · exact .throw
  · exact h

theorem listRoutes_takes {q : RouteQuery} : Takes server i (listRoutes q) {} 4 fun _ σ' => σ'.dirty = 0 := by
  unfold listRoutes RouteRepository.listActive CacheService.set
  refine orCached_takes (.bind (u := 2) (v := 1) (K := fun _ σ' => σ' = {}) ?_ fun p σ₁ h₁ => ?_)
  · refine .bind (v := 1) .await_any fun total σ₁ h₁ => ?_
    subst h₁
    exact .bind (v := 0) .await_any fun _ _ hσ => .pure hσ
  · subst h₁
    exact .bind (v := 0) .await_any fun _ _ hσ => .pure (by rw [hσ]; rfl)

theorem listSeats_takes {r : Int} : Takes server i (listSeats r) {} 3 fun _ σ' => σ'.dirty = 0 := by
  unfold listSeats SeatRepository.listByRoute CacheService.set
  refine orCached_takes (.bind (v := 1) .await_any fun seats σ₁ h₁ => ?_)
  subst h₁
  exact .bind (v := 0) .await_any fun _ _ hσ => .pure (by rw [hσ]; rfl)

theorem register_takes {p : UserRegister} {salt : String} :
    Takes server i (register server p salt) {} 3 fun _ σ' => σ'.dirty = 0 := by
  unfold register UserRepository.getByEmail UserRepository.create
  refine .bind (v := 2) .await_any fun found σ₁ h₁ => ?_
  subst h₁
  refine .bind (v := 2) .raiseIf fun _ σ₂ h₂ => ?_
  subst h₂
  refine .bind (u := 2) (v := 0) (K := fun _ σ' => σ' = {}) ?_ fun _ _ hσ => .pure (by rw [hσ]; rfl)
  refine .bind (v := 1) .await_any fun id σ₃ h₃ => ?_
  subst h₃
  refine .bind (v := 0) .await_any fun user σ₄ h₄ => ?_
  subst h₄
  cases user with
  | none => exact .throw
  | some user => exact .pure rfl

theorem login_takes {username password : String} :
    Takes server i (login server username password) {} 1 fun _ σ' => σ'.dirty = 0 := by
  unfold login UserRepository.getByEmail
  refine .bind (v := 0) .await_any fun user σ₁ h₁ => ?_
  subst h₁
  split
  · refine .bind (v := 0) .raiseIf fun _ σ₂ h₂ => ?_
    subst h₂
    exact .bind (v := 0) .raiseIf fun _ _ hσ => .pure (by rw [hσ]; rfl)
  · exact .throw

theorem endpoint_takes (q : Request) : ∃ m d, Takes server i (endpoint server q) {} m
    (fun _ σ' => σ'.dirty ≤ d) ∧ m + d + 2 = maxCalls q := by
  have hread {x : SessionM Response} {m : Nat} (h : Takes server i x {} m fun _ σ' => σ'.dirty = 0) :
      Takes server i x {} m fun _ σ' => σ'.dirty ≤ 0 :=
    .mono h (Nat.le_refl _) fun _ _ => Nat.le_of_eq
  cases q with
  | register p salt => exact ⟨_, _, hread register_takes, rfl⟩
  | login username password => exact ⟨_, _, hread login_takes, rfl⟩
  | createRoute u p => exact ⟨_, _, hread createRoute_takes, rfl⟩
  | listRoutes q => exact ⟨_, _, hread listRoutes_takes, rfl⟩
  | listSeats r => exact ⟨_, _, hread listSeats_takes, rfl⟩
  | createBooking u r s => exact ⟨_, _, hread (.map createBooking_takes), rfl⟩
  | myBookings u =>
    have h : Takes server i (BookingRepository.listByUser u) {} 1 fun _ σ' => σ' = {} := .await_any
    exact ⟨1, 0, .map (.mono h (Nat.le_refl _) fun _ _ hσ => by rw [hσ]; exact Nat.le_refl _), rfl⟩
  | cancelBooking u id => exact ⟨_, _, .map cancelBooking_takes, rfl⟩

/-- **Request `q` takes at most `maxCalls q` calls**, whatever they reply. -/
theorem handler_within (q : Request) (i : Nat) :
    Within (semantics server) i (handler server q) (maxCalls q) := by
  obtain ⟨m, d, h, hm⟩ := @endpoint_takes server i q
  have hbody : Takes server i (do let a ← endpoint server q; Session.commit; return a) {} (m + (d + 1))
      fun _ _ => True := by
    refine .bind h fun resp σ₁ h₁ => ?_
    refine .bind (v := 0) (u := d + 1) (K := fun _ _ => True) ?_ fun _ _ _ => .pure trivial
    exact .bind (flush_takes h₁) fun _ σ₂ _ => .mono .await_any (Nat.le_refl _) fun _ _ _ => trivial
  have hdb : Costs (exec server) i (getDb (endpoint server q)) (m + (d + 1) + 1) fun _ => True :=
    .tryCatch (.bind (v := 0) hbody fun _ _ => .pure trivial) fun e =>
      .bind (u := 1) (v := 0) (.call (K := fun _ => True) fun _ _ _ _ _ => trivial) fun _ _ => .throw
  have hall := hdb 0
  rw [show 0 + (m + (d + 1) + 1) = maxCalls q by omega] at hall
  exact Sim.bind (Sim.mono hall fun r n _ => by cases r <;> trivial)

end

end

end BusBookings

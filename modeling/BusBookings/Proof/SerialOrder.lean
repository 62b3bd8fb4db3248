import BusBookings.Base.Reservations
import BusBookings.Proof.Accounts

/-!
# The service as a reservation office

A committed database stands for an office (`Db.office`): seats are offered with their route, taken by a
booking and given back by its cancellation, and users are enrolled by e-mail. A commit is one operation of
the office and the other steps are none (`Inv.office_commit`). So the successful answers of a run, in the
order in which they are given, are a run of the office that ends in the committed database
(`serial_order`), and they determine which seats are booked (`answers_determine`).
-/

namespace BusBookings

open Async ReadCommitted
open Reservations (Office Op Slot Steps)

abbrev OfficeOp := Op Int Int Int String

/-- The office that a database stands for. -/
def Db.office (db : Db) : Office Int Int Int String where
  slot s := match db.bookings.rows.find? (·.seatId = s) with
    | some b => if b.status = .cancelled then .released b.userId b.id else .taken b.userId b.id
    | none => if db.Occupied (.seat s) then .free else .absent
  members := {e | ∃ u ∈ db.users.rows, u.email = e}

/-- What the commit of a job does to the office. -/
def Job.op? : Job → Option OfficeOp
  | .create b _ => some (.take b.userId b.seatId b.id)
  | .cancel b _ => some (.release b.userId b.seatId b.id)
  | .route r first =>
    some (.offer ((World.newSeats r.id first (RouteRepository.seatNumbers r.totalSeats)).map (·.id)))
  | .register u => some (.enroll u.email)
  | .read _ => none

/-! ## The seats -/

section

variable {db db' : Db}

/-- The row of a booking decides about its seat. -/
def Booking.slot (b : Booking) : Slot Int Int :=
  if b.status = .cancelled then .released b.userId b.id else .taken b.userId b.id

theorem Db.slot_of_booking (hc : db.Consistent) {b : Booking} (hb : b ∈ db.bookings.rows) :
    db.office.slot b.seatId = b.slot := by
  have hfind : db.bookings.rows.find? (·.seatId = b.seatId) = some b := by
    cases hf : db.bookings.rows.find? (·.seatId = b.seatId) with
    | none => simpa using List.find?_eq_none.1 hf b hb
    | some b' =>
      have hs : b'.seatId = b.seatId := by simpa using List.find?_some hf
      rw [hc.oneBooking b' (List.mem_of_find?_eq_some hf) b hb hs]
  show (match db.bookings.rows.find? (·.seatId = b.seatId) with | some b => _ | none => _) = _
  rw [hfind]
  rfl

theorem Db.slot_of_not_occupied {s : Int} (h : ¬ db.Occupied (.bookingSeat s)) :
    db.office.slot s = if db.Occupied (.seat s) then .free else .absent := by
  have hfind : db.bookings.rows.find? (·.seatId = s) = none :=
    List.find?_eq_none.2 fun b hb => by simpa using fun hs => h ⟨b, hb, hs⟩
  show (match db.bookings.rows.find? (·.seatId = s) with | some b => _ | none => _) = _
  rw [hfind]

/-- The booking a ticket stands for. -/
theorem Db.exists_of_ticket {s u id : Int} (h : (db.office.slot s).ticket? = some (u, id)) :
    ∃ b ∈ db.bookings.rows, b.seatId = s ∧ b.userId = u ∧ b.id = id := by
  simp only [Db.office] at h
  cases hf : db.bookings.rows.find? (·.seatId = s) with
  | none =>
    rw [hf] at h
    dsimp only at h
    split at h <;> cases h
  | some b =>
    rw [hf] at h
    dsimp only at h
    have hs : b.seatId = s := by simpa using List.find?_some hf
    refine ⟨b, List.mem_of_find?_eq_some hf, hs, ?_⟩
    split at h <;> simpa [Slot.ticket?] using h

/-- The office depends on the seats' ids, the bookings and the e-mails. -/
theorem Db.office_congr (hb : db'.bookings = db.bookings)
    (hs : ∀ s, db'.Occupied (.seat s) ↔ db.Occupied (.seat s))
    (hu : ∀ e, db'.Occupied (.email e) ↔ db.Occupied (.email e)) : db'.office = db.office := by
  refine Office.ext (funext fun s => ?_) (Set.ext hu)
  simp only [Db.office, hb, hs]

theorem Db.occupied_updateSeat {id s : Int} {flag : Bool} :
    (db.updateSeat id flag).Occupied (.seat s) ↔ db.Occupied (.seat s) := by
  constructor
  · intro h
    exact (@Occupied.of_apply db (.updateSeat id flag) _ h).resolve_right (by simp [Change.inserts])
  · intro ⟨seat, hseat, hid⟩
    obtain ⟨flag', hf⟩ := (evolves_updateSeat db id flag).seats seat hseat
    exact ⟨_, hf, hid⟩

/-- Confirming, cancelling and booking change one slot. -/
theorem Db.slot_map {f : Booking → Booking} (hf : ∀ b, (f b).seatId = b.seatId) (s : Int) :
    (db.bookings.rows.map f).find? (·.seatId = s) = (db.bookings.rows.find? (·.seatId = s)).map f := by
  rw [List.find?_map]
  simp only [Function.comp_def, hf]

end

/-! ## A commit -/

section

variable {server : Server} {sys : System} {a a' : Abs World Request Stage} {i : Nat} {q : Request}
  {g : Stage}

theorem Inv.office_create (hinv : Inv server a) {b : Booking} {route : Route}
    (hi : a.phase i = some (q, .closing (.create b route))) :
    Reservations.Step a.shared.db.office (.take b.userId b.seatId b.id) (a.shared.commit i).db.office := by
  obtain ⟨husers, -, hseats, hrows⟩ := hinv.commit_create hi
  obtain ⟨u, r, s, -, hres⟩ := hinv.facts i _ _ hi
  have hvacant (k : LockKey) (hk : k ∈ Db.locks (.insertBooking b)) : ¬ a.shared.db.Occupied k :=
    hinv.vacant hi (by simp) (.insertBooking b) (by simp [Stage.writes, Job.writes]) rfl hk
  have hid := hvacant (.booking b.id) (by simp [Db.locks])
  have hfree := hvacant (.bookingSeat b.seatId) (by simp [Db.locks])
  have hseat : a.shared.db.Occupied (.seat b.seatId) := by
    obtain ⟨seat, hseat, hsid, -⟩ := hres.seat
    exact ⟨seat, hseat, by rw [hsid, hres.booking]⟩
  have hslot : a.shared.db.office.slot b.seatId = .free := by
    rw [Db.slot_of_not_occupied hfree, if_pos hseat]
  have hoffice : (a.shared.commit i).db.office = { a.shared.db.office with
      slot := Function.update a.shared.db.office.slot b.seatId (.taken b.userId b.id) } := by
    refine Office.ext (funext fun s => ?_) (by simp only [Db.office, husers])
    show (a.shared.commit i).db.office.slot s =
      Function.update a.shared.db.office.slot b.seatId _ s
    have hocc : (a.shared.commit i).db.Occupied (.seat s) ↔ a.shared.db.Occupied (.seat s) := by
      simp only [Db.Occupied, hseats]
      exact Db.occupied_updateSeat
    by_cases hs : s = b.seatId
    · subst hs
      have hnone : a.shared.db.bookings.rows.find? (·.seatId = b.seatId) = none :=
        List.find?_eq_none.2 fun x hx => by simpa using fun he => hfree ⟨x, hx, he⟩
      simp [Db.office, hrows, hnone, Db.setStatus]
    · rw [Function.update_of_ne hs]
      have hne : b.seatId ≠ s := fun he => hs he.symm
      simp [Db.office, hrows, List.find?_append, hocc, Db.setStatus, hne]
  rw [hoffice]
  refine .take hslot fun s' u' => ?_
  suffices h : (a.shared.db.office.slot s').ticket? ≠ some (u', b.id) by
    constructor <;> intro he <;> exact h (by rw [he]; rfl)
  intro ht
  obtain ⟨x, hx, -, -, hxid⟩ := Db.exists_of_ticket ht
  exact hid ⟨x, hx, hxid⟩

theorem Inv.office_cancel (hinv : Inv server a) {b : Booking} {free : Bool}
    (hi : a.phase i = some (q, .closing (.cancel b free))) :
    Reservations.Step a.shared.db.office (.release b.userId b.seatId b.id) (a.shared.commit i).db.office := by
  obtain ⟨husers, -, hseats, hbookings⟩ := hinv.commit_cancel hi
  obtain ⟨u, -, hheld, -⟩ := hinv.facts i _ _ hi
  have hocc (s : Int) : (a.shared.commit i).db.Occupied (.seat s) ↔ a.shared.db.Occupied (.seat s) := by
    simp only [Db.Occupied, hseats]
    cases free with
    | true => exact Db.occupied_updateSeat
    | false => exact Iff.rfl
  -- the row as it is: cancelled or not
  obtain ⟨x, hx, hxid, hxs, hxu⟩ : ∃ x ∈ a.shared.db.bookings.rows,
      x.id = b.id ∧ x.seatId = b.seatId ∧ x.userId = b.userId := by
    rcases hheld.row with hr | hr <;> exact ⟨_, hr, rfl, rfl, rfl⟩
  have hslot : a.shared.db.office.slot b.seatId = x.slot := hxs ▸ Db.slot_of_booking hinv.consistent hx
  have hoffice : (a.shared.commit i).db.office = { a.shared.db.office with
      slot := Function.update a.shared.db.office.slot b.seatId (.released b.userId b.id) } := by
    refine Office.ext (funext fun s => ?_) (by simp only [Db.office, husers])
    show (a.shared.commit i).db.office.slot s =
      Function.update a.shared.db.office.slot b.seatId _ s
    have hfind := @Db.slot_map a.shared.db
      (fun x => if x.id = b.id then Db.setStatus .cancelled x else x) (by intro x; split <;> rfl) s
    have hrows : (a.shared.commit i).db.bookings.rows.find? (·.seatId = s) =
        (a.shared.db.bookings.rows.find? (·.seatId = s)).map
          fun x => if x.id = b.id then Db.setStatus .cancelled x else x := by
      rw [hbookings]
      exact hfind
    cases hf : a.shared.db.bookings.rows.find? (·.seatId = s) with
    | none =>
      have hs : s ≠ b.seatId := fun hs => by
        simpa [hs, hxs] using List.find?_eq_none.1 hf x hx
      rw [Function.update_of_ne hs]
      simp [Db.office, hrows, hf, hocc]
    | some y =>
      have hys : y.seatId = s := by simpa using List.find?_some hf
      have hy := List.mem_of_find?_eq_some hf
      by_cases hs : s = b.seatId
      · have hxy : y = x := hinv.consistent.oneBooking y hy x hx (by rw [hys, hs, hxs])
        subst hs
        simp [Db.office, hrows, hf, hxy, hxid, hxu, Db.setStatus]
      · have hyid : y.id ≠ b.id := fun he =>
          hs (by rw [← hys, ← hxs, Table.eq_of_key hy hx (he.trans hxid.symm)])
        rw [Function.update_of_ne hs]
        simp [Db.office, hrows, hf, hyid]
  by_cases hst : x.status = .cancelled
  · have hrel : a.shared.db.office.slot b.seatId = .released b.userId b.id := by
      rw [hslot, Booking.slot, if_pos hst, hxu, hxid]
    have hsame : (a.shared.commit i).db.office = a.shared.db.office := by
      rw [hoffice, ← hrel, Function.update_eq_self]
    rw [hsame]
    exact .again hrel
  · rw [hoffice]
    exact .release (by rw [hslot, Booking.slot, if_neg hst, hxu, hxid])

theorem Inv.office_route (hinv : Inv server a) {r : Route} {first : Int}
    (hi : a.phase i = some (q, .closing (.route r first))) :
    Reservations.Step a.shared.db.office
      (.offer ((World.newSeats r.id first (RouteRepository.seatNumbers r.totalSeats)).map (·.id)))
      (a.shared.commit i).db.office := by
  generalize hss : World.newSeats r.id first (RouteRepository.seatNumbers r.totalSeats) = ss
  have hview : (a.shared.commit i).db = Store.applyAll Db.schema
      (Stage.closing (.route r first)).writes a.shared.db := hinv.view hi (by simp)
  have hnew : ∀ s ∈ ss, ¬ a.shared.db.Occupied (.seat s.id) := fun s hs =>
    hinv.vacant hi (by simp) (.insertSeats ss) (by simp [Stage.writes, Job.writes, hss]) rfl
      (Db.mem_locks_insertSeats.2 ⟨s, hs, .inl rfl⟩)
  have hseats : (a.shared.commit i).db.seats.rows = a.shared.db.seats.rows ++ ss := by
    rw [hview]
    simp only [Stage.writes, Job.writes, Store.applyAll_cons, Store.applyAll_nil, hss]
    exact @Db.applyAll_insertSeats (Db.apply (.insertRoute r) a.shared.db) _
      (hss ▸ World.newSeats_nodup _ _ _) hnew
  have hfree : ∀ id ∈ ss.map (·.id), ¬ a.shared.db.Occupied (.bookingSeat id) := by
    rintro id hid ⟨b, hb, hbs⟩
    obtain ⟨s, hs, rfl⟩ := List.mem_map.1 hid
    obtain ⟨seat, hseat, hsid, -⟩ := hinv.consistent.bookingSeat b hb
    exact hnew s hs ⟨seat, hseat, hsid.trans hbs⟩
  have hoffice : (a.shared.commit i).db.office = { a.shared.db.office with
      slot := fun s => if s ∈ ss.map (·.id) then .free else a.shared.db.office.slot s } := by
    have hbookings : (a.shared.commit i).db.bookings = a.shared.db.bookings := by
      rw [hview]
      rfl
    have husers : (a.shared.commit i).db.users = a.shared.db.users := by
      rw [hview]
      rfl
    have hocc (s : Int) : (a.shared.commit i).db.Occupied (.seat s) ↔
        a.shared.db.Occupied (.seat s) ∨ s ∈ ss.map (·.id) := by
      simp only [Db.Occupied, hseats, List.mem_append, or_and_right, exists_or, List.mem_map]
    refine Office.ext (funext fun s => ?_) (by simp only [Db.office, husers])
    show (a.shared.commit i).db.office.slot s = if s ∈ ss.map (·.id) then .free else a.shared.db.office.slot s
    split
    · rename_i hs
      have hvac : ¬ (a.shared.commit i).db.Occupied (.bookingSeat s) := by
        simpa only [Db.Occupied, hbookings] using hfree s hs
      rw [Db.slot_of_not_occupied hvac, if_pos ((hocc s).2 (.inr hs))]
    · rename_i hs
      simp only [Db.office, hbookings, hocc s, hs, or_false]
  rw [hoffice]
  refine .offer fun id hid => ?_
  rw [Db.slot_of_not_occupied (hfree id hid), if_neg]
  obtain ⟨s, hs, rfl⟩ := List.mem_map.1 hid
  exact hnew s hs

theorem Inv.office_register (hinv : Inv server a) {u : User}
    (hi : a.phase i = some (q, .closing (.register u))) :
    Reservations.Step a.shared.db.office (.enroll u.email) (a.shared.commit i).db.office := by
  obtain ⟨hrows, hnew⟩ := hinv.commit_register hi
  have hview : (a.shared.commit i).db = Store.applyAll Db.schema
      (Stage.closing (.register u)).writes a.shared.db := hinv.view hi (by simp)
  have hoffice : (a.shared.commit i).db.office =
      { a.shared.db.office with members := insert u.email a.shared.db.office.members } := by
    refine Office.ext (by rw [hview]; rfl) (Set.ext fun e => ?_)
    simp only [Db.office, hrows, List.mem_append, List.mem_singleton, or_and_right, exists_or,
      exists_eq_left, Set.mem_ofPred_eq, Set.mem_insert_iff]
    rw [or_comm, eq_comm]
  rw [hoffice]
  refine .enroll ?_
  rintro ⟨u', hu', he⟩
  exact hnew u' hu' he

/-- **A commit is one operation of the office**, or none. -/
theorem Inv.office_commit (hinv : Inv server a) {j : Job} (hi : a.phase i = some (q, .closing j)) :
    match j.op? with
    | some op => Reservations.Step a.shared.db.office op (a.shared.commit i).db.office
    | none => (a.shared.commit i).db.office = a.shared.db.office := by
  cases j with
  | create b route => exact hinv.office_create hi
  | cancel b free => exact hinv.office_cancel hi
  | route r first => exact hinv.office_route hi
  | register u => exact hinv.office_register hi
  | read resp =>
    have hview : (a.shared.commit i).db = a.shared.db := hinv.view hi (by simp)
    show (a.shared.commit i).db.office = _
    rw [hview]

/-- The surroundings do nothing to the office. -/
theorem envStep_office {w w' : World} {e : EnvEvent} (he : envStep e w = some w') :
    w'.db.office = w.db.office := by
  have hupdate (id : Int) (f : User → User) (hid : ∀ u, (f u).id = u.id)
      (hemail : ∀ u, (f u).email = u.email) : (w.updateUser id f hid).db.office = w.db.office := by
    refine Db.office_congr rfl (fun _ => Iff.rfl) fun email => ?_
    constructor
    · rintro ⟨u, hu, rfl⟩
      obtain ⟨u', hu', rfl⟩ := (Table.mem_update hid).1 hu
      exact ⟨u', hu', by split <;> simp [hemail]⟩
    · rintro ⟨u, hu, rfl⟩
      exact ⟨_, (Table.mem_update hid).2 ⟨u, hu, rfl⟩, by split <;> simp [hemail]⟩
  cases e with
  | expire key => cases he; rfl
  | setActive userId isActive => cases he; exact hupdate _ _ _ fun _ => rfl
  | setRole userId role => cases he; exact hupdate _ _ _ fun _ => rfl

end

/-! ## The answers of a run -/

/-- The answer that a step gives, with its request. -/
def newAnswer (sys' : System) : Label → List (Request × Response)
  | .run _ i => (sys'.tasks[i]?.bind fun t => t.co.result.map (t.req, ·)).toList
  | _ => []

/-- The answers of a run, in the order in which they are given. -/
def responses (server : Server) : System → List Label → List (Request × Response)
  | _, [] => []
  | sys, l :: ls => match (semantics server).step sys l with
    | some sys' => newAnswer sys' l ++ responses server sys' ls
    | none => []

/-- A request that has changed something. -/
def effective : Request × Response → Bool
  | (.createBooking .., .created _) | (.cancelBooking .., .cancelled _) | (.createRoute .., .route _)
  | (.register .., .user _) => true
  | _ => false

/-- The operation of the office that an answer stands for. -/
inductive Performs : Request × Response → OfficeOp → Prop
  | take {u r s : Int} {b : Booking} :
      Performs (.createBooking u r s, .created b) (.take u s b.id)
  | release {u id : Int} {b : Booking} :
      Performs (.cancelBooking u id, .cancelled b) (.release u b.seatId id)
  | offer {u : Int} {p : RouteCreate} {r : RouteOut} {ss : List Int} : (ss.length : Int) = p.totalSeats →
      Performs (.createRoute u p, .route r) (.offer ss)
  | enroll {p : UserRegister} {salt : String} {u : UserOut} :
      Performs (.register p salt, .user u) (.enroll p.email)

section

variable {server : Server} {db : Db} {sys₀ sys sys' : System} {a a' : Abs World Request Stage} {i : Nat}
  {q : Request} {g : Stage} {ls : List Label} {l : Label} {call : Option Call}

theorem responses_snoc (h : (semantics server).steps sys₀ ls = some sys)
    (hs : (semantics server).step sys l = some sys') :
    responses server sys₀ (ls ++ [l]) = responses server sys₀ ls ++ newAnswer sys' l := by
  induction ls generalizing sys₀ with
  | nil =>
    obtain rfl : sys₀ = sys := by simpa [Semantics.steps] using h
    simp [responses, hs]
  | cons l' ls ih =>
    obtain ⟨sys₁, h₁, h₂⟩ := Option.bind_eq_some_iff.1 h
    simp [responses, h₁, ih h₂]

theorem effective_error (e : Exc) : effective (q, errorResponse e) = false := by
  cases e <;> cases q <;> rfl

theorem effective_reads {resp : Response} (h : q.reads = true) : effective (q, resp) = false := by
  cases q <;> first | rfl | cases h

/-- The answer of a job stands for what its commit does. -/
theorem Job.Facts.performs {j : Job} (h : j.Facts server db q) : match j.op? with
    | some op => effective (q, j.response) = true ∧ Performs (q, j.response) op
    | none => effective (q, j.response) = false := by
  cases j with
  | create b route =>
    obtain ⟨u, r, s, rfl, hres⟩ := h
    have hu : b.userId = u := by rw [hres.booking]
    have hs : b.seatId = s := by rw [hres.booking]
    exact ⟨rfl, hu ▸ hs ▸ .take (b := Db.setStatus .confirmed b)⟩
  | cancel b free =>
    obtain ⟨u, rfl, hheld, -⟩ := h
    exact ⟨rfl, hheld.user ▸ .release (b := Db.setStatus .cancelled b)⟩
  | route r first =>
    obtain ⟨u, p, rfl, dep, arr, -, -, hr⟩ := h
    refine ⟨rfl, .offer ?_⟩
    have hids := congrArg List.length
      (World.newSeats_ids r.id first (RouteRepository.seatNumbers r.totalSeats))
    have hlen : (RouteRepository.seatNumbers r.totalSeats).length = p.totalSeats.toNat := by
      rw [hr]
      simp [RouteRepository.seatNumbers]
    rw [hids, List.length_map, List.length_range, hlen]
    exact Int.toNat_of_nonneg (Int.le_of_lt p.totalSeats_bound.1)
  | register u =>
    obtain ⟨p, salt, rfl, hu⟩ := h
    exact ⟨rfl, hu ▸ .enroll⟩
  | read resp => exact effective_reads h

/-- Only the answered request is new among the answers. -/
theorem newAnswer_run (hv' : View server sys' a') (hinv' : Inv server a') {o : Outcome}
    (hi : a'.phase i = some (q, g)) : newAnswer sys' (.run o i : Label) =
      (match g with | .ended resp => [(q, resp)] | _ => []) := by
  obtain ⟨t, ht, rfl, hwaits, hends⟩ := hv'.waits hi
  simp only [newAnswer, ht, Option.bind_some]
  cases hco : t.co with
  | done r =>
    obtain rfl := (hends r (by rw [hco]; rfl)).resolve_right (hinv'.ne_lost hi)
    rfl
  | await c k =>
    have hw := hwaits c (by rw [hco]; rfl)
    cases g with
    | ended resp => exact absurd hw not_waits_ended
    | _ => rfl

/-- The effective answers so far, in order, are a run of the office that ends in the database. -/
def Serial (server : Server) (sys₀ : System) (ls : List Label) (a : Abs World Request Stage) : Prop :=
  ∃ ops, List.Forall₂ Performs ((responses server sys₀ ls).filter effective) ops ∧
    Steps sys₀.shared.db.office ops a.shared.db.office

theorem Serial.step (h : Serial server sys₀ ls a) (hinv : Inv server a) (hv' : View server sys' a')
    (hsteps : (semantics server).steps sys₀ ls = some sys)
    (hstep : (semantics server).step sys l = some sys')
    (hs : (protocol server).Step envStep a l call a') : Serial server sys₀ (ls ++ [l]) a' := by
  obtain ⟨ops, hops, hoffice⟩ := h
  have hinv' := hinv.step hs
  rw [Serial, responses_snoc hsteps hstep]
  have hquiet (hnew : (newAnswer sys' l).filter effective = [])
      (hsame : a'.shared.db.office = a.shared.db.office) : ∃ ops, List.Forall₂ Performs
        ((responses server sys₀ ls ++ newAnswer sys' l).filter effective) ops ∧
        Steps sys₀.shared.db.office ops a'.shared.db.office :=
    ⟨ops, by rwa [List.filter_append, hnew, List.append_nil], hsame ▸ hoffice⟩
  cases hs with
  | spawn hi => exact hquiet rfl rfl
  | env he => exact hquiet rfl (envStep_office he)
  | run hi hw hst =>
    rename_i o i q g g' c w'
    have hanswer := newAnswer_run (o := o) hv' hinv' (i := i) (q := q) (g := g') (by simp)
    by_cases hend : ∃ resp, g' = .ended resp
    · obtain ⟨resp, rfl⟩ := hend
      rcases hst.ended with ⟨j, rfl, rfl, rfl⟩ | ⟨e, e', rfl, rfl, rfl⟩
      · have hcommit := hinv.office_commit hi
        have hperforms := (hinv.facts i _ _ hi).performs (j := j)
        cases hop : j.op? with
        | none =>
          rw [hop] at hcommit hperforms
          exact hquiet (by rw [hanswer]; simp [hperforms]) hcommit
        | some op =>
          rw [hop] at hcommit hperforms
          refine ⟨ops ++ [op], ?_, hoffice.snoc hcommit⟩
          rw [hanswer, List.filter_append, List.filter_cons_of_pos hperforms.1]
          exact List.rel_append hops (.cons hperforms.2 .nil)
      · exact hquiet (by rw [hanswer]; simp [effective_error]) rfl
    · refine hquiet ?_ ?_
      · rw [hanswer]
        cases g' with
        | ended resp => exact absurd ⟨resp, rfl⟩ hend
        | _ => rfl
      · show w'.db.office = _
        rw [hst.db_eq (hinv.ne_lost hi) (not_exists.1 hend)]

theorem serial (h₀ : Start sys₀) (h : (semantics server).steps sys₀ ls = some sys) :
    ∃ a, View server sys a ∧ Serial server sys₀ ls a := by
  obtain ⟨users, nextUser, hu, -, rfl⟩ := h₀
  obtain ⟨a, hv, -, hserial⟩ := (Trace.of_steps h).invariant (I := fun ls a => Inv server a ∧ Serial server _ ls a)
    handler_sim (fun ls sys₁ a l sys₂ a' htr _ hstep _ hv' ⟨hinv, hserial⟩ hs =>
      ⟨hinv.step hs, hserial.step hinv hv' htr.steps hstep hs⟩)
    (Refines.initial _) ⟨inv_start hu, [], .nil, .nil⟩
  exact ⟨a, hv, hserial⟩

/-- **The order of the answers is a serial order**: one after the other, the operations that the successful
answers stand for lead from the first database to the last. -/
theorem serial_order (h₀ : Start sys₀) (h : (semantics server).steps sys₀ ls = some sys) :
    ∃ ops, List.Forall₂ Performs ((responses server sys₀ ls).filter effective) ops ∧
      Steps sys₀.shared.db.office ops sys.shared.db.office := by
  obtain ⟨a, hv, hserial⟩ := serial h₀ h
  rw [← hv.shared]
  exact hserial

/-! ## What the answers determine -/

theorem Db.slot_eq_taken (hc : db.Consistent) {s u id : Int} : db.office.slot s = .taken u id ↔
    ∃ b ∈ db.bookings.rows, b.id = id ∧ b.userId = u ∧ b.seatId = s ∧ b.status = .confirmed := by
  constructor
  · intro h
    have hticket : (db.office.slot s).ticket? = some (u, id) := by
      rw [h]
      rfl
    obtain ⟨b, hb, rfl, rfl, rfl⟩ := Db.exists_of_ticket hticket
    refine ⟨b, hb, rfl, rfl, rfl, ?_⟩
    rw [Db.slot_of_booking hc hb, Booking.slot] at h
    cases hst : b.status with
    | pending => exact absurd hst (hc.settled b hb)
    | confirmed => rfl
    | cancelled => simp [hst] at h
  · rintro ⟨b, hb, rfl, rfl, rfl, hst⟩
    rw [Db.slot_of_booking hc hb, Booking.slot, hst]
    rfl

theorem Db.slot_eq_released (hc : db.Consistent) {s u id : Int} : db.office.slot s = .released u id ↔
    ∃ b ∈ db.bookings.rows, b.id = id ∧ b.userId = u ∧ b.seatId = s ∧ b.status = .cancelled := by
  constructor
  · intro h
    have hticket : (db.office.slot s).ticket? = some (u, id) := by
      rw [h]
      rfl
    obtain ⟨b, hb, rfl, rfl, rfl⟩ := Db.exists_of_ticket hticket
    refine ⟨b, hb, rfl, rfl, rfl, ?_⟩
    rw [Db.slot_of_booking hc hb, Booking.slot] at h
    by_contra hst
    simp [hst] at h
  · rintro ⟨b, hb, rfl, rfl, rfl, hst⟩
    rw [Db.slot_of_booking hc hb, Booking.slot, if_pos hst]

/-- An answer that sells the seat `s`. -/
def sells (s : Int) : Request × Response → Bool
  | (.createBooking _ _ s', .created _) => s' = s
  | _ => false

/-- The e-mail that an answer registers. -/
def registers? : Request × Response → Option String
  | (.register p _, .user _) => some p.email
  | _ => none

section

variable {α β γ : Type} {R : α → β → Prop} {l₁ : List α} {l₂ : List β}

theorem mem_right_of_forall₂ (h : List.Forall₂ R l₁ l₂) {y : β} (hy : y ∈ l₂) : ∃ x ∈ l₁, R x y := by
  induction h with
  | nil => cases hy
  | cons hR _ ih =>
    rcases List.mem_cons.1 hy with rfl | hy
    · exact ⟨_, List.mem_cons_self, hR⟩
    · obtain ⟨x, hx, hR'⟩ := ih hy
      exact ⟨x, List.mem_cons_of_mem _ hx, hR'⟩

theorem mem_left_of_forall₂ (h : List.Forall₂ R l₁ l₂) {x : α} (hx : x ∈ l₁) : ∃ y ∈ l₂, R x y :=
  mem_right_of_forall₂ (R := fun y x => R x y) h.flip hx

theorem filterMap_of_forall₂ (h : List.Forall₂ R l₁ l₂) {f : α → Option γ} {f' : β → Option γ}
    (hf : ∀ x y, R x y → f x = f' y) : l₁.filterMap f = l₂.filterMap f' := by
  induction h with
  | nil => rfl
  | cons hR _ ih => simp only [List.filterMap_cons, hf _ _ hR, ih]

end

section

variable {log : List (Request × Response)} {ops : List OfficeOp}

theorem take_mem (h : List.Forall₂ Performs (log.filter effective) ops) {u s id : Int} :
    .take u s id ∈ ops ↔ ∃ r b, (.createBooking u r s, .created b) ∈ log ∧ b.id = id := by
  constructor
  · intro hop
    obtain ⟨p, hp, hperf⟩ := mem_right_of_forall₂ h hop
    cases hperf
    exact ⟨_, _, List.mem_of_mem_filter hp, rfl⟩
  · rintro ⟨r, b, hp, rfl⟩
    obtain ⟨op, hop, hperf⟩ := mem_left_of_forall₂ h (List.mem_filter.2 ⟨hp, rfl⟩)
    cases hperf
    exact hop

theorem release_mem (h : List.Forall₂ Performs (log.filter effective) ops) {u s id : Int} :
    .release u s id ∈ ops ↔ ∃ b, (.cancelBooking u id, .cancelled b) ∈ log ∧ b.seatId = s := by
  constructor
  · intro hop
    obtain ⟨p, hp, hperf⟩ := mem_right_of_forall₂ h hop
    cases hperf
    exact ⟨_, List.mem_of_mem_filter hp, rfl⟩
  · rintro ⟨b, hp, rfl⟩
    obtain ⟨op, hop, hperf⟩ := mem_left_of_forall₂ h (List.mem_filter.2 ⟨hp, rfl⟩)
    cases hperf
    exact hop

theorem countP_sells (h : List.Forall₂ Performs (log.filter effective) ops) (s : Int) :
    log.countP (sells s) = ops.countP (Op.takes s) := by
  have hsells : (fun p => sells s p && effective p) = sells s := by
    funext ⟨q, resp⟩
    cases q <;> cases resp <;> simp [sells, effective]
  rw [← hsells, ← List.countP_filter, List.countP_eq_length_filter, List.countP_eq_length_filter]
  refine (List.rel_filter (fun p op hperf => ?_) h).length_eq
  cases hperf <;> simp [sells, Op.takes]

theorem filterMap_registers (h : List.Forall₂ Performs (log.filter effective) ops) :
    log.filterMap registers? = ops.filterMap Op.enrolls? := by
  rw [← filterMap_of_forall₂ h (f := registers?) fun p op hperf => by cases hperf <;> rfl,
    List.filterMap_filter]
  refine List.filterMap_congr fun ⟨q, resp⟩ _ => ?_
  cases q <;> cases resp <;> rfl

end

/-- **The answers determine the database**: a seat is sold at most once and an e-mail registered at most
once; the confirmed bookings are those of the answers that made them and that no answer cancelled, and the
others are those of the answers that cancelled them. -/
theorem answers_determine (h₀ : Start sys₀) (h : (semantics server).steps sys₀ ls = some sys) :
    let log := responses server sys₀ ls
    (∀ s, log.countP (sells s) ≤ 1) ∧ (log.filterMap registers?).Nodup ∧
    (∀ s u id, (∃ b ∈ sys.shared.db.bookings.rows, b.id = id ∧ b.userId = u ∧ b.seatId = s ∧
        b.status = .confirmed) ↔
      (∃ r b, (.createBooking u r s, .created b) ∈ log ∧ b.id = id) ∧
        ∀ b, (.cancelBooking u id, .cancelled b) ∉ log) ∧
    (∀ s u id, (∃ b ∈ sys.shared.db.bookings.rows, b.id = id ∧ b.userId = u ∧ b.seatId = s ∧
        b.status = .cancelled) ↔ ∃ b, (.cancelBooking u id, .cancelled b) ∈ log ∧ b.seatId = s) ∧
    ∀ e, (∃ u ∈ sys.shared.db.users.rows, u.email = e) ↔
      (∃ u ∈ sys₀.shared.db.users.rows, u.email = e) ∨ e ∈ log.filterMap registers? := by
  intro log
  obtain ⟨a, hv, ops, hops, hsteps⟩ := serial h₀ h
  rw [hv.shared] at hsteps
  have hc := Reachable.consistent ⟨sys₀, h₀, Run.of_steps h⟩
  have hempty : sys₀.shared.db.office = .empty {e | ∃ u ∈ sys₀.shared.db.users.rows, u.email = e} := by
    obtain ⟨users, nextUser, -, -, rfl⟩ := h₀
    refine Office.ext (funext fun s => ?_) rfl
    have hbooking : ¬ (⟨users, .empty, .empty, .empty⟩ : Db).Occupied (.bookingSeat s) := fun ⟨_, hb, _⟩ => by
      cases hb
    have hseat : ¬ (⟨users, .empty, .empty, .empty⟩ : Db).Occupied (.seat s) := fun ⟨_, hs, _⟩ => by cases hs
    exact (Db.slot_of_not_occupied hbooking).trans (if_neg hseat)
  rw [hempty] at hsteps
  obtain ⟨hnodup, -, hmembers⟩ := hsteps.enrolled
  rw [← filterMap_registers hops] at hnodup hmembers
  refine ⟨fun s => countP_sells hops s ▸ hsteps.take_once s, hnodup, fun s u id => ?_, fun s u id => ?_,
    hmembers⟩
  · rw [← Db.slot_eq_taken hc, hsteps.taken_iff, take_mem hops, release_mem hops]
    refine and_congr_right fun ht => ⟨fun hrel b hb => ?_, fun hrel ⟨b, hb, _⟩ => hrel b hb⟩
    -- a ticket is for one resource: the answer cancels this seat
    have hreleased := hsteps.released_iff.2 ((release_mem hops).2 ⟨b, hb, rfl⟩)
    have hticket := hsteps.ticket ((take_mem hops).2 ht)
    exact hrel ⟨b, hb, hsteps.ticket_unique (by rw [hreleased]; rfl) hticket⟩
  · rw [← Db.slot_eq_released hc, hsteps.released_iff, release_mem hops]

end

/-! ## Bookings and cancellations side by side -/

/-- Ann and Bob book the seats 1 and 2, and Ann cancels her booking before Bob's is committed. -/
def bookedAndReturned : List Label := routeCreated ++ .spawn (.createBooking 2 1 1) ::
  .spawn (.createBooking 3 1 2) :: calls 1 13 ++ .spawn (.cancelBooking 2 1) :: calls 2 10 ++ calls 3 10 ++
  calls 2 3

theorem responses_bookedAndReturned : responses plainServer someStart bookedAndReturned =
    [(.createRoute 1 somePayload, .route ⟨1, "Moskva"⟩),
      (.createBooking 2 1 1, .created ⟨1, 2, 1, 1, .confirmed, 150000⟩),
      (.cancelBooking 2 1, .cancelled ⟨1, 2, 1, 1, .cancelled, 150000⟩),
      (.createBooking 3 1 2, .created ⟨2, 3, 1, 2, .confirmed, 150000⟩)] := by decide +kernel

theorem exists_bookedAndReturned : ∃ sys : System, runSome bookedAndReturned = some sys ∧ sys.Quiescent :=
  exists_runSome _ _ (by decide +kernel)

/-- Its four answers stand for four operations. -/
theorem serial_order_bookedAndReturned : ∃ sys : System, runSome bookedAndReturned = some sys ∧
    ∃ ops, ops.length = 4 ∧ Steps someStart.shared.db.office ops sys.shared.db.office := by
  obtain ⟨sys, hsys, -⟩ := exists_bookedAndReturned
  obtain ⟨ops, hops, hsteps⟩ := serial_order start_someStart hsys
  rw [responses_bookedAndReturned] at hops
  exact ⟨sys, hsys, ops, hops.length_eq.symm, hsteps⟩

/-- Seat 1 was sold once and given back, and Bob has seat 2. -/
theorem answers_determine_bookedAndReturned : ∃ sys : System, runSome bookedAndReturned = some sys ∧
    (∃ b ∈ sys.shared.db.bookings.rows, b.id = 2 ∧ b.userId = 3 ∧ b.seatId = 2 ∧ b.status = .confirmed) ∧
    ∃ b ∈ sys.shared.db.bookings.rows, b.id = 1 ∧ b.userId = 2 ∧ b.seatId = 1 ∧ b.status = .cancelled := by
  obtain ⟨sys, hsys, -⟩ := exists_bookedAndReturned
  obtain ⟨-, -, htaken, hreleased, -⟩ := answers_determine start_someStart hsys
  rw [responses_bookedAndReturned] at htaken hreleased
  exact ⟨sys, hsys, (htaken 2 3 2).2 (by simp), (hreleased 1 2 1).2 (by simp)⟩

end BusBookings

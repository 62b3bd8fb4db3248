import BusBookings.Proof.Events

/-!
# One confirmation and at most one cancellation of a booking

`Ledger`: the committed bookings are those whose `create_booking` was answered, each by one request,
and the cancelled ones those whose `cancel_booking` was. The second half needs `CancelsOnce`: no
cancellation is written over a booking that another one has cancelled since it was read. With what
the stages say about the publications this counts the events (`events_once`).
-/

namespace BusBookings

open Async ReadCommitted

/-! ## Answered requests -/

/-- Request `i` was answered with a response that satisfies `P`. -/
def Answered (a : Abs World Request Stage) (i : Nat) (P : Response → Prop) : Prop :=
  ∃ q resp, a.phase i = some (q, .ended resp) ∧ P resp

/-- The answer to the request that made, or cancelled, booking `id`. -/
def Response.Creates (id : Int) (resp : Response) : Prop := ∃ b, resp = .created b ∧ b.id = id

def Response.Cancels (id : Int) (resp : Response) : Prop := ∃ b, resp = .cancelled b ∧ b.id = id

theorem Response.Creates.books {id : Int} {resp : Response} (h : resp.Creates id) : resp.books = true := by
  obtain ⟨b, rfl, -⟩ := h
  rfl

theorem Response.Cancels.books {id : Int} {resp : Response} (h : resp.Cancels id) : resp.books = true := by
  obtain ⟨b, rfl, -⟩ := h
  rfl

section

variable {server : Server} {a : Abs World Request Stage} {i : Nat} {q : Request} {g g' : Stage}
  {w' : World}

theorem answered_update (w' : World) (g' : Stage)
    (hi : ∀ q' resp, a.phase i ≠ some (q', .ended resp)) {j : Nat}
    {P : Response → Prop} : Answered ⟨w', Function.update a.phase i (some (q, g'))⟩ j P ↔
      Answered a j P ∨ j = i ∧ ∃ resp, g' = .ended resp ∧ P resp := by
  unfold Answered
  by_cases hji : j = i
  · subst hji
    simp only [Function.update_self, Option.some.injEq, Prod.mk.injEq, true_and]
    constructor
    · rintro ⟨q', resp, ⟨-, rfl⟩, hP⟩
      exact .inr ⟨resp, rfl, hP⟩
    · rintro (⟨q', resp, hj, -⟩ | ⟨resp, rfl, hP⟩)
      · exact absurd hj (hi q' resp)
      · exact ⟨q, resp, ⟨rfl, rfl⟩, hP⟩
  · simp [hji]

theorem not_ended (hi : a.phase i = some (q, g)) (hg : ∀ resp, g ≠ .ended resp) (q' : Request)
    (resp : Response) : a.phase i ≠ some (q', .ended resp) := by
  rw [hi]
  simp [hg resp]

/-! ## The ledger -/

/-- The bookings and the requests that made and cancelled them. -/
structure Ledger (a : Abs World Request Stage) : Prop where
  created : ∀ b ∈ a.shared.db.bookings.rows, ∃ i, Answered a i (·.Creates b.id)
  createdRow : ∀ i id, Answered a i (·.Creates id) → ∃ b ∈ a.shared.db.bookings.rows, b.id = id
  oneCreated : ∀ i j id, Answered a i (·.Creates id) → Answered a j (·.Creates id) → i = j
  cancelled : ∀ b ∈ a.shared.db.bookings.rows, b.status = .cancelled → ∃ i, Answered a i (·.Cancels b.id)
  cancelledRow : ∀ i id, Answered a i (·.Cancels id) →
    ∃ b ∈ a.shared.db.bookings.rows, b.id = id ∧ b.status = .cancelled
  oneCancelled : ∀ i j id, Answered a i (·.Cancels id) → Answered a j (·.Cancels id) → i = j
  /-- A booking that a transaction is cancelling is not cancelled yet. -/
  untouched : ∀ p ∈ a.shared.pg.pending, ∀ id, p.2 = .updateBooking id .cancelled →
    ∀ b ∈ a.shared.db.bookings.rows, b.id = id → b.status ≠ .cancelled

namespace Ledger

/-- A step that commits no booking and answers none. -/
theorem frame (h : Ledger a) {a' : Abs World Request Stage}
    (hrows : a'.shared.db.bookings = a.shared.db.bookings)
    (hcreates : ∀ j id, Answered a' j (·.Creates id) ↔ Answered a j (·.Creates id))
    (hcancels : ∀ j id, Answered a' j (·.Cancels id) ↔ Answered a j (·.Cancels id))
    (hpending : ∀ p ∈ a'.shared.pg.pending, p ∈ a.shared.pg.pending ∨
      ∀ id, p.2 = .updateBooking id .cancelled →
        ∀ b ∈ a.shared.db.bookings.rows, b.id = id → b.status ≠ .cancelled) : Ledger a' where
  created b hb := by
    obtain ⟨j, hj⟩ := h.created b (hrows ▸ hb)
    exact ⟨j, (hcreates j b.id).2 hj⟩
  createdRow j id hj := by
    rw [hrows]
    exact h.createdRow j id ((hcreates j id).1 hj)
  oneCreated j k id hj hk := h.oneCreated j k id ((hcreates j id).1 hj) ((hcreates k id).1 hk)
  cancelled b hb hc := by
    obtain ⟨j, hj⟩ := h.cancelled b (hrows ▸ hb) hc
    exact ⟨j, (hcancels j b.id).2 hj⟩
  cancelledRow j id hj := by
    rw [hrows]
    exact h.cancelledRow j id ((hcancels j id).1 hj)
  oneCancelled j k id hj hk := h.oneCancelled j k id ((hcancels j id).1 hj) ((hcancels k id).1 hk)
  untouched p hp id hid b hb := by
    rw [hrows] at hb
    rcases hpending p hp with hp | hp
    · exact h.untouched p hp id hid b hb
    · exact hp id hid b hb

/-- `frame` for a step of one request. -/
theorem frame_step (h : Ledger a) (hi : ∀ q' resp, a.phase i ≠ some (q', .ended resp))
    (hrows : w'.db.bookings = a.shared.db.bookings)
    (hbooks : ∀ resp, g' = .ended resp → resp.books = false)
    (hpending : ∀ p ∈ w'.pg.pending, p ∈ a.shared.pg.pending ∨
      ∀ id, p.2 = .updateBooking id .cancelled →
        ∀ b ∈ a.shared.db.bookings.rows, b.id = id → b.status ≠ .cancelled) :
    Ledger ⟨w', Function.update a.phase i (some (q, g'))⟩ := by
  refine h.frame hrows (fun j id => ?_) (fun j id => ?_) hpending
  all_goals
    rw [answered_update _ _ hi]
    refine or_iff_left ?_
    intro ⟨_, resp, he, hP⟩
    have := hP.books
    rw [hbooks resp he] at this
    cases this

/-- What the transactions that stay open cancel, the committed one did not touch. -/
theorem untouched_commit (h : Ledger a) : ∀ p ∈ (a.shared.commit i).pg.pending, ∀ id,
    p.2 = .updateBooking id .cancelled → ∀ b ∈ (a.shared.commit i).db.bookings.rows, b.id = id →
      b.status ≠ .cancelled := by
  intro p hp id hid b hb hbid
  obtain ⟨hp, hne⟩ := List.mem_filter.1 hp
  refine h.untouched p hp id hid b (Db.mem_bookings_applyAll (fun ch hch hlock => ?_) hb) hbid
  have hlock' : LockKey.booking b.id ∈ Db.locks p.2 := by
    rw [hid, hbid]
    exact List.mem_singleton_self _
  exact a.shared.pg.excl (i, ch) (Store.mem_own.1 hch) p hp (Ne.symm (by simpa using hne)) _ hlock hlock'

theorem commit_create (h : Ledger a) (hinv : Inv server a) {b : Booking} {route : Route}
    (hi : a.phase i = some (q, .closing (.create b route))) :
    Ledger ⟨a.shared.commit i, Function.update a.phase i
      (some (q, .ended (.created (Db.setStatus .confirmed b))))⟩ := by
  have hid : ¬ a.shared.db.Occupied (.booking b.id) :=
    hinv.vacant hi (by simp) (.insertBooking b) (by simp [Stage.writes, Job.writes]) rfl
      (by simp [Db.locks])
  have hrows : (a.shared.commit i).db.bookings.rows =
      a.shared.db.bookings.rows ++ [Db.setStatus .confirmed b] := (hinv.commit_create hi).2.2.2
  have hmem (x : Booking) : x ∈ (a.shared.commit i).db.bookings.rows ↔
      x ∈ a.shared.db.bookings.rows ∨ x = Db.setStatus .confirmed b := by
    rw [hrows]
    simp
  have hcreates (j : Nat) (id : Int) := answered_update (a.shared.commit i)
    (.ended (.created (Db.setStatus .confirmed b))) (not_ended hi (by simp)) (q := q) (j := j)
    (P := (·.Creates id))
  have hcancels (j : Nat) (id : Int) : Answered ⟨a.shared.commit i, Function.update a.phase i
      (some (q, .ended (.created (Db.setStatus .confirmed b))))⟩ j (·.Cancels id) ↔
        Answered a j (·.Cancels id) := by
    rw [answered_update _ _ (not_ended hi (by simp))]
    refine or_iff_left ?_
    rintro ⟨-, resp, he, c, rfl, -⟩
    cases he
  have hself (id : Int) : (∃ resp, Stage.ended (.created (Db.setStatus .confirmed b)) = .ended resp ∧
      resp.Creates id) ↔ b.id = id := by
    constructor
    · rintro ⟨resp, he, c, rfl, hc⟩
      cases he
      exact hc
    · rintro rfl
      exact ⟨_, rfl, _, rfl, rfl⟩
  have hnew (j : Nat) : ¬ Answered a j (·.Creates b.id) := fun hj => by
    obtain ⟨x, hx, hxid⟩ := h.createdRow j b.id hj
    exact hid ⟨x, hx, hxid⟩
  refine ⟨fun x hx => ?_, fun j id hj => ?_, fun j k id hj hk => ?_, fun x hx hc => ?_,
    fun j id hj => ?_, fun j k id hj hk => ?_, h.untouched_commit⟩
  · rcases (hmem x).1 hx with hx | rfl
    · obtain ⟨j, hj⟩ := h.created x hx
      exact ⟨j, (hcreates j x.id).2 (.inl hj)⟩
    · exact ⟨i, (hcreates i _).2 (.inr ⟨rfl, (hself _).2 rfl⟩)⟩
  · rcases (hcreates j id).1 hj with hj | ⟨-, hj⟩
    · obtain ⟨x, hx, hxid⟩ := h.createdRow j id hj
      exact ⟨x, (hmem x).2 (.inl hx), hxid⟩
    · exact ⟨_, (hmem _).2 (.inr rfl), (hself id).1 hj⟩
  · rcases (hcreates j id).1 hj with hj | ⟨hji, hj⟩
    · rcases (hcreates k id).1 hk with hk | ⟨-, hk⟩
      · exact h.oneCreated j k id hj hk
      · exact absurd ((hself id).1 hk ▸ hj) (hnew j)
    · rcases (hcreates k id).1 hk with hk | ⟨hki, -⟩
      · exact absurd ((hself id).1 hj ▸ hk) (hnew k)
      · exact hji.trans hki.symm
  · rcases (hmem x).1 hx with hx | rfl
    · obtain ⟨j, hj⟩ := h.cancelled x hx hc
      exact ⟨j, (hcancels j x.id).2 hj⟩
    · cases hc
  · obtain ⟨x, hx, hxid⟩ := h.cancelledRow j id ((hcancels j id).1 hj)
    exact ⟨x, (hmem x).2 (.inl hx), hxid⟩
  · exact h.oneCancelled j k id ((hcancels j id).1 hj) ((hcancels k id).1 hk)

theorem commit_cancel (h : Ledger a) (hinv : Inv server a) {b : Booking} {free : Bool}
    (hi : a.phase i = some (q, .closing (.cancel b free))) :
    Ledger ⟨a.shared.commit i, Function.update a.phase i
      (some (q, .ended (.cancelled (Db.setStatus .cancelled b))))⟩ := by
  have hown : Change.updateBooking b.id .cancelled ∈ a.shared.pg.own i := by
    rw [hinv.own i _ _ hi (by simp)]
    cases free <;> simp [Stage.writes, Job.writes]
  have hnot : ∀ x ∈ a.shared.db.bookings.rows, x.id = b.id → x.status ≠ .cancelled :=
    h.untouched _ (Store.mem_own.1 hown) b.id rfl
  have hmem (x : Booking) : x ∈ (a.shared.commit i).db.bookings.rows ↔
      ∃ y ∈ a.shared.db.bookings.rows, (if y.id = b.id then Db.setStatus .cancelled y else y) = x := by
    rw [(hinv.commit_cancel hi).2.2.2]
    exact Db.mem_updateBooking
  have hsame (y : Booking) : (if y.id = b.id then Db.setStatus .cancelled y else y).id = y.id := by
    split <;> rfl
  have hcancels (j : Nat) (id : Int) := answered_update (a.shared.commit i)
    (.ended (.cancelled (Db.setStatus .cancelled b))) (not_ended hi (by simp)) (q := q) (j := j)
    (P := (·.Cancels id))
  have hcreates (j : Nat) (id : Int) : Answered ⟨a.shared.commit i, Function.update a.phase i
      (some (q, .ended (.cancelled (Db.setStatus .cancelled b))))⟩ j (·.Creates id) ↔
        Answered a j (·.Creates id) := by
    rw [answered_update _ _ (not_ended hi (by simp))]
    refine or_iff_left ?_
    rintro ⟨-, resp, he, c, rfl, -⟩
    cases he
  have hself (id : Int) : (∃ resp, Stage.ended (.cancelled (Db.setStatus .cancelled b)) = .ended resp ∧
      resp.Cancels id) ↔ b.id = id := by
    constructor
    · rintro ⟨resp, he, c, rfl, hc⟩
      cases he
      exact hc
    · rintro rfl
      exact ⟨_, rfl, _, rfl, rfl⟩
  have hnew (j : Nat) : ¬ Answered a j (·.Cancels b.id) := fun hj => by
    obtain ⟨x, hx, hxid, hc⟩ := h.cancelledRow j b.id hj
    exact hnot x hx hxid hc
  refine ⟨fun x hx => ?_, fun j id hj => ?_, fun j k id hj hk => ?_, fun x hx hc => ?_,
    fun j id hj => ?_, fun j k id hj hk => ?_, h.untouched_commit⟩
  · obtain ⟨y, hy, rfl⟩ := (hmem x).1 hx
    obtain ⟨j, hj⟩ := h.created y hy
    exact ⟨j, (hcreates j _).2 (by rwa [hsame])⟩
  · obtain ⟨y, hy, hyid⟩ := h.createdRow j id ((hcreates j id).1 hj)
    exact ⟨_, (hmem _).2 ⟨y, hy, rfl⟩, (hsame y).trans hyid⟩
  · exact h.oneCreated j k id ((hcreates j id).1 hj) ((hcreates k id).1 hk)
  · obtain ⟨y, hy, rfl⟩ := (hmem x).1 hx
    rw [hsame]
    by_cases hyb : y.id = b.id
    · exact ⟨i, (hcancels i _).2 (.inr ⟨rfl, (hself _).2 hyb.symm⟩)⟩
    · rw [if_neg hyb] at hc
      obtain ⟨j, hj⟩ := h.cancelled y hy hc
      exact ⟨j, (hcancels j _).2 (.inl hj)⟩
  · rcases (hcancels j id).1 hj with hj | ⟨-, hj⟩
    · obtain ⟨y, hy, hyid, hc⟩ := h.cancelledRow j id hj
      refine ⟨_, (hmem _).2 ⟨y, hy, rfl⟩, (hsame y).trans hyid, ?_⟩
      split
      · rfl
      · exact hc
    · obtain rfl := (hself id).1 hj
      obtain ⟨u, -, hheld, -⟩ := hinv.facts i _ _ hi
      obtain ⟨y, hy, hyid⟩ : ∃ y ∈ a.shared.db.bookings.rows, y.id = b.id := by
        rcases hheld.row with hb | hb
        · exact ⟨_, hb, rfl⟩
        · exact ⟨_, hb, rfl⟩
      exact ⟨_, (hmem _).2 ⟨y, hy, rfl⟩, (hsame y).trans hyid, by rw [if_pos hyid]; rfl⟩
  · rcases (hcancels j id).1 hj with hj | ⟨hji, hj⟩
    · rcases (hcancels k id).1 hk with hk | ⟨-, hk⟩
      · exact h.oneCancelled j k id hj hk
      · exact absurd ((hself id).1 hk ▸ hj) (hnew j)
    · rcases (hcancels k id).1 hk with hk | ⟨hki, -⟩
      · exact absurd ((hself id).1 hj ▸ hk) (hnew k)
      · exact hji.trans hki.symm

end Ledger

/-! ## Steps -/

theorem envStep_unchanged {w : World} {e : EnvEvent} (h : envStep e w = some w') :
    w'.db.bookings = w.db.bookings ∧ w'.pg.pending = w.pg.pending := by
  cases e <;> cases h <;> exact ⟨rfl, rfl⟩

/-- A cancellation that a step adds to the uncommitted changes is the call it takes. -/
theorem Step.cancels {w : World} {o : Outcome} {c : Call} (h : Step server q i o c g w g' w')
    (hl : g ≠ .lost) {p : Nat × Change} (hp : p ∈ w'.pg.pending) :
    p ∈ w.pg.pending ∨ ∀ id, p.2 = .updateBooking id .cancelled → c = .updateBooking id .cancelled := by
  cases h with
  | write hw hch =>
    obtain ⟨hb, -, rfl⟩ := change_ok hch
    rcases List.mem_append.1 hp with hp | hp
    · exact .inl (by simpa using hp)
    · rw [List.mem_singleton] at hp
      subst hp
      refine .inr fun id hid => ?_
      cases hw <;> cases hid
      rfl
  | writeFails hw hch =>
    obtain ⟨-, -, rfl⟩ := change_error hch
    exact .inl (by simpa using hp)
  | commit | rollback => exact .inl (List.mem_of_mem_filter hp)
  | lost => exact absurd rfl hl
  | _ => exact .inl hp

/-- The commits that are no booking's. -/
theorem commit_bookings (hinv : Inv server a) {j : Job} (hi : a.phase i = some (q, .closing j))
    (hj : j.response.books = false) : (a.shared.commit i).db.bookings = a.shared.db.bookings := by
  have hview : (a.shared.commit i).db = _ := hinv.view hi (by simp)
  rw [hview]
  cases j with
  | create | cancel => cases hj
  | _ => rfl

theorem Ledger.step (h : Ledger a) (hinv : Inv server a) (hann : Announced 0 a) {l : Label}
    {call : Option Call} {a' : Abs World Request Stage} (hs : (protocol server).Step envStep a l call a')
    (hcond : ∀ id, call = some (.updateBooking id .cancelled) →
      ∀ b ∈ a.shared.db.bookings.rows, b.id = id → b.status ≠ .cancelled) : Ledger a' := by
  cases hs with
  | env he =>
    obtain ⟨hrows, hpending⟩ := envStep_unchanged he
    exact h.frame hrows (fun _ _ => .rfl) (fun _ _ => .rfl) fun p hp => .inl (hpending ▸ hp)
  | spawn hi => exact h.frame_step (by simp [hi]) rfl (by simp [protocol]) fun p hp => .inl hp
  | run hi hw hst =>
    rename_i o i q g g' c w'
    have hl := hinv.ne_lost hi
    have hg := not_ended hi fun resp he => not_waits_ended (he ▸ hw)
    have hpending : ∀ p ∈ w'.pg.pending, p ∈ a.shared.pg.pending ∨
        ∀ id, p.2 = .updateBooking id .cancelled →
          ∀ b ∈ a.shared.db.bookings.rows, b.id = id → b.status ≠ .cancelled := fun p hp =>
      (hst.cancels hl hp).imp id fun hc id hid => hcond id (congrArg some (hc id hid))
    by_cases hend : ∃ resp, g' = .ended resp
    · obtain ⟨resp, rfl⟩ := hend
      rcases hst.ended with ⟨j, rfl, rfl, rfl⟩ | ⟨e, e', rfl, rfl, rfl⟩
      · cases j with
        | create b route => exact h.commit_create hinv hi
        | cancel b free => exact h.commit_cancel hinv hi
        | route r first | register u =>
          exact h.frame_step hg (commit_bookings hinv hi rfl) (fun resp he => by cases he; rfl) hpending
        | read resp =>
          have hquiet : resp.books = false := (hann i q _ (Nat.zero_le i) hi).2
          exact h.frame_step hg (commit_bookings hinv hi hquiet) (fun r he => by cases he; exact hquiet)
            hpending
      · exact h.frame_step hg rfl (fun r he => by cases he; cases e' <;> rfl) hpending
    · rw [not_exists] at hend
      exact h.frame_step hg (by rw [hst.db_eq hl hend]) (fun r he => absurd he (hend r)) hpending

/-! ## Counting the events -/

def Event.confirms (id : Int) : Event → Bool
  | .confirmed bookingId _ _ => bookingId = id
  | .cancelled .. => false

def Event.cancels (id : Int) : Event → Bool
  | .confirmed .. => false
  | .cancelled bookingId _ => bookingId = id

/-- How many confirmations, and cancellations, of booking `id` have been published. -/
def World.confirmations (w : World) (id : Int) : Nat := w.published.countP (·.event.confirms id)

def World.cancellations (w : World) (id : Int) : Nat := w.published.countP (·.event.cancels id)

theorem World.countP_published {w : World} {p : Event → Bool}
    (h : ∀ x ∈ w.published, p x.event = true → x.sender = i) :
    w.published.countP (p ·.event) = (w.sentBy i).countP (p ·.event) := by
  unfold sentBy
  rw [List.countP_filter]
  apply List.countP_congr
  intro x hx
  simpa using h x hx

/-- When every request has ended, the events are those of the answered bookings and cancellations. -/
theorem answered_of_published (hsil : Silent a) (hann : Announced 0 a)
    (hend : ∀ i q g, a.phase i = some (q, g) → ∃ resp, g = .ended resp) {x : Publication}
    (hx : x ∈ a.shared.published) :
    (∀ id, x.event.confirms id = true → Answered a x.sender (·.Creates id)) ∧
      ∀ id, x.event.cancels id = true → Answered a x.sender (·.Cancels id) := by
  have hmem : x ∈ a.shared.sentBy x.sender := List.mem_filter.2 ⟨hx, by simp⟩
  cases hi : a.phase x.sender with
  | none => rw [hsil _ hi] at hmem; cases hmem
  | some p =>
    obtain ⟨q, g⟩ := p
    obtain ⟨resp, rfl⟩ := hend _ _ _ hi
    have hsent := hann _ _ _ (Nat.zero_le _) hi
    cases resp with
    | created b =>
      obtain ⟨email, info, hps⟩ := hsent
      rw [hps, List.mem_singleton] at hmem
      rw [hmem]
      exact ⟨fun id hid => ⟨q, _, hi, b, rfl, of_decide_eq_true hid⟩, fun id hid => by cases hid⟩
    | cancelled b =>
      obtain ⟨email, hps⟩ := hsent
      rw [hps, List.mem_singleton] at hmem
      rw [hmem]
      exact ⟨fun id hid => (by cases hid), fun id hid => ⟨q, _, hi, b, rfl, of_decide_eq_true hid⟩⟩
    | _ => rw [show a.shared.sentBy x.sender = [] from hsent] at hmem; cases hmem

theorem Announced.creates (hann : Announced 0 a) {id : Int} (h : Answered a i (·.Creates id)) :
    ∃ email info, a.shared.sentBy i = [confirmation i id email info] := by
  obtain ⟨q, resp, hi, b, rfl, rfl⟩ := h
  exact hann i q _ (Nat.zero_le i) hi

theorem Announced.cancels (hann : Announced 0 a) {id : Int} (h : Answered a i (·.Cancels id)) :
    ∃ email, a.shared.sentBy i = [cancellation i id email] := by
  obtain ⟨q, resp, hi, b, rfl, rfl⟩ := h
  exact hann i q _ (Nat.zero_le i) hi

/-- **As many events as answered requests**, once every request has ended. -/
theorem Ledger.counts (h : Ledger a) (hsil : Silent a) (hann : Announced 0 a)
    (hend : ∀ i q g, a.phase i = some (q, g) → ∃ resp, g = .ended resp) {b : Booking}
    (hb : b ∈ a.shared.db.bookings.rows) : a.shared.confirmations b.id = 1 ∧
      a.shared.cancellations b.id = if b.status = .cancelled then 1 else 0 := by
  constructor
  · obtain ⟨i, hi⟩ := h.created b hb
    obtain ⟨email, info, hps⟩ := hann.creates hi
    unfold World.confirmations
    rw [World.countP_published (i := i) fun x hx hc =>
      h.oneCreated _ _ _ ((answered_of_published hsil hann hend hx).1 _ hc) hi, hps]
    simp [confirmation, Event.confirms]
  · unfold World.cancellations
    split
    · rename_i hc
      obtain ⟨i, hi⟩ := h.cancelled b hb hc
      obtain ⟨email, hps⟩ := hann.cancels hi
      rw [World.countP_published (i := i) fun x hx hc =>
        h.oneCancelled _ _ _ ((answered_of_published hsil hann hend hx).2 _ hc) hi, hps]
      simp [cancellation, Event.cancels]
    · rename_i hc
      refine List.countP_eq_zero.2 fun x hx hx' => hc ?_
      obtain ⟨b', hb', hid, hcancelled⟩ :=
        h.cancelledRow _ _ ((answered_of_published hsil hann hend hx).2 _ hx')
      exact Table.eq_of_key hb' hb hid ▸ hcancelled

/-! ## The owner's other cancellations -/

def alreadyCancelled : Exc := .http 400 "Booking is already cancelled"

/-- Booking `id` is cancelled. -/
def Db.Cancelled (db : Db) (id : Int) : Prop := ∃ b ∈ db.bookings.rows, b.id = id ∧ b.status = .cancelled

theorem Db.Cancelled.mono {db db' : Db} (hev : db.Evolves db') {id : Int} (h : db.Cancelled id) :
    db'.Cancelled id := by
  obtain ⟨b, hb, hid, hc⟩ := h
  rcases hev.bookings b hb with hb | hb
  · exact ⟨b, hb, hid, hc⟩
  · exact ⟨_, hb, hid, rfl⟩

/-- The cancellation of booking `id` by its owner cancels it, or is told that it is cancelled
already. -/
def Stage.Cancels (db : Db) (id : Int) : Stage → Prop
  | .failing e => e = alreadyCancelled ∧ db.Cancelled id
  | .ended resp => resp.Cancels id ∨ resp = errorResponse alreadyCancelled ∧ db.Cancelled id
  | _ => True

theorem Stage.Cancels.mono {db db' : Db} (hev : db.Evolves db') {id : Int} (h : g.Cancels db id) :
    g.Cancels db' id := by
  cases g with
  | failing e => exact ⟨h.1, h.2.mono hev⟩
  | ended resp => exact h.imp_right fun hc => ⟨hc.1, hc.2.mono hev⟩
  | _ => trivial

/-- The booking `b` is committed, and its owner's cancellations from request `n` on cancel it or are
told so. -/
structure Late (n : Nat) (b : Booking) (a : Abs World Request Stage) : Prop where
  row : ∃ x ∈ a.shared.db.bookings.rows, x.id = b.id ∧ x.userId = b.userId
  told : ∀ i g, n ≤ i → a.phase i = some (.cancelBooking b.userId b.id, g) → g.Cancels a.shared.db b.id

namespace Late

variable {n : Nat} {b : Booking}

/-- One call of such a cancellation. -/
theorem told_run (h : Late n b a) (hinv : Inv server a) (hn : n ≤ i) {c : Call}
    (hi : a.phase i = some (.cancelBooking b.userId b.id, g))
    (hst : Step server (.cancelBooking b.userId b.id) i .ok c g a.shared g' w')
    (hg' : g' ≠ .lost) : g'.Cancels w'.db b.id := by
  cases hst with
  | read hr =>
    cases hr with
    | again ha hp => cases ha <;> trivial
    | lost => trivial
    | booking =>
      obtain ⟨x, hx, hid, huser⟩ := h.row
      have hfind : (a.shared.view i).bookings.find? b.id = some x := by
        rw [hinv.view hi (by simp), ← hid]
        exact Table.find?_mem hx
      unfold cancelCheck
      rw [hfind]
      simp only [huser, ne_eq, not_true_eq_false, if_false]
      split
      · exact ⟨rfl, x, hx, hid, ‹_›⟩
      · trivial
    | owner => trivial
  | write hw hch => cases hw <;> trivial
  | writeFails hw hch =>
    have hins := (hinv.insert_of_error hi hw hch).1
    cases hw <;> cases hins
  | cachedRoutes hq | cachedSeats hq => cases hq
  | store => trivial
  | keys =>
    unfold Stage.afterKeys Stage.afterDelete
    split <;> [(split <;> trivial); trivial]
  | delete => unfold Stage.afterDelete; split <;> trivial
  | publish => unfold Stage.afterPublish; split <;> trivial
  | commit =>
    obtain ⟨x, free, rfl, hid, -⟩ := Job.Facts.isCancel (hinv.facts i _ _ hi)
    exact .inl ⟨_, rfl, hid.symm⟩
  | rollback =>
    obtain ⟨rfl, hc⟩ := h.told i _ hn hi
    exact .inr ⟨rfl, hc⟩
  | lost => exact absurd rfl hg'

theorem step (h : Late n b a) (hinv : Inv server a) {l : Label} {call : Option Call}
    {a' : Abs World Request Stage} (hs : (protocol server).Step envStep a l call a') (hl : NoFailure l) :
    Late n b a' := by
  have hev := hinv.evolves hs
  have hinv' := hinv.step hs
  refine ⟨?_, fun j g₁ hn hj => ?_⟩
  · obtain ⟨x, hx, hid, huser⟩ := h.row
    rcases hev.bookings x hx with hx | hx
    · exact ⟨x, hx, hid, huser⟩
    · exact ⟨_, hx, hid, huser⟩
  · rcases hs.phase_eq hj with hold | ⟨-, -, rfl⟩ | ⟨o, c, g, rfl, -, hi, -, hst⟩
    · exact (h.told j g₁ hn hold).mono hev
    · trivial
    · cases o with
      | fail => exact absurd rfl (hl j)
      | ok => exact h.told_run hinv hn hi hst (hinv'.ne_lost hj)

end Late

end

/-! ## Runs -/

/-- The booking a call cancels. -/
def Call.cancels : Call → Option Int
  | .updateBooking id .cancelled => some id
  | _ => none

/-- No call fails, and no cancellation is written over a booking that is cancelled already. -/
def CancelsOnce (sys : System) (l : Label) : Prop :=
  NoFailure l ∧ ∀ id ∈ (sys.callOf l).bind Call.cancels, ∀ b ∈ sys.shared.db.bookings.rows, b.id = id →
    b.status ≠ .cancelled

instance (sys : System) (l : Label) : Decidable (CancelsOnce sys l) :=
  inferInstanceAs (Decidable (_ ∧ _))

section

variable {server : Server} {sys₀ sys₁ sys : System}

/-- What the runs keep. -/
structure Accounted (server : Server) (a : Abs World Request Stage) : Prop where
  inv : Inv server a
  silent : Silent a
  announced : Announced 0 a
  ledger : Ledger a

theorem Accounted.step {a a' : Abs World Request Stage} (hv : View server sys a) {l : Label}
    (hl : CancelsOnce sys l) (h : Accounted server a)
    (hs : (protocol server).Step envStep a l (sys.callOf l) a') : Accounted server a' where
  inv := h.inv.step hs
  silent := h.silent.step h.inv hs
  announced := h.announced.step h.inv h.silent hs fun i hi => absurd hi (hl.1 i)
  ledger := h.ledger.step h.inv h.announced hs fun id hid b hb => by
    rw [hv.shared] at hb
    exact hl.2 id (by rw [hid]; rfl) b hb

theorem Start.accounted (h : Start sys₀) : ∃ a, View server sys₀ a ∧ Accounted server a := by
  obtain ⟨users, nextUser, hu, -, rfl⟩ := h
  refine ⟨_, Refines.initial _, inv_start hu, fun _ _ => rfl, fun _ _ _ _ hi => (by cases hi), ?_⟩
  constructor
  case created | cancelled => intro b hb; cases hb
  case untouched => intro p hp; cases hp
  case createdRow | cancelledRow => rintro i id ⟨q, resp, hi, -⟩; cases hi
  case oneCreated | oneCancelled => rintro i j id ⟨q, resp, hi, -⟩; cases hi

/-- **One confirmation and at most one cancellation of each booking.** In a run that cancels no
booking twice, once every request has ended, each committed booking has had one confirmation
published, and one cancellation if it is cancelled; and if its owner has asked for its cancellation
(`i`) after it was committed (`sys₁`), exactly one such request has succeeded and `i` has, or was
told that the booking is cancelled already. -/
theorem events_once (h₀ : Start sys₀) (h₁ : Run (semantics server) CancelsOnce sys₀ sys₁)
    (h₂ : Run (semantics server) CancelsOnce sys₁ sys) (hq : sys.Quiescent) :
    (∀ b ∈ sys.shared.db.bookings.rows, sys.shared.confirmations b.id = 1 ∧
      sys.shared.cancellations b.id = if b.status = .cancelled then 1 else 0) ∧
    ∀ b ∈ sys₁.shared.db.bookings.rows, ∀ i, sys₁.tasks.length ≤ i →
      sys.request i = some (.cancelBooking b.userId b.id) →
      (∃! j, ∃ c, c.id = b.id ∧ sys.answer j = some (.cancelled c)) ∧
      ((∃ c email, c.id = b.id ∧ sys.answer i = some (.cancelled c) ∧
          sys.shared.sentBy i = [cancellation i b.id email]) ∨
        sys.answer i = some (errorResponse (.http 400 "Booking is already cancelled")) ∧
          sys.shared.sentBy i = []) := by
  obtain ⟨a₀, hv₀, hb₀⟩ := h₀.accounted
  obtain ⟨a₁, hv₁, hb₁⟩ := Run.invariant (I := Accounted server) handler_sim
    (fun _ _ _ _ hv hl h hs => h.step hv hl hs) h₁ hv₀ hb₀
  have hlate₁ : ∀ b ∈ sys₁.shared.db.bookings.rows, Late sys₁.tasks.length b a₁ := fun b hb =>
    ⟨⟨b, hv₁.shared ▸ hb, rfl, rfl⟩, fun i g hn hi => by
      rw [hv₁.fresh i (by simpa using hn)] at hi
      cases hi⟩
  obtain ⟨a, hv, hb, hlate⟩ := Run.invariant
    (I := fun a => Accounted server a ∧ ∀ b ∈ sys₁.shared.db.bookings.rows, Late sys₁.tasks.length b a)
    handler_sim (fun _ _ _ _ hv hl h hs => ⟨h.1.step hv hl hs, fun b hb => (h.2 b hb).step h.1.inv hs hl.1⟩)
    h₂ hv₁ ⟨hb₁, hlate₁⟩
  have hend : ∀ i q g, a.phase i = some (q, g) → ∃ resp, g = .ended resp := fun i q g hi =>
    ended_of_quiescent hv hb.inv hq hi
  have hanswer {i : Nat} {resp : Response} : sys.answer i = some resp ↔
      ∃ q, a.phase i = some (q, .ended resp) :=
    answer_iff hv hb.inv
  have hcancels {i : Nat} {id : Int} : (∃ c, c.id = id ∧ sys.answer i = some (.cancelled c)) ↔
      Answered a i (·.Cancels id) := by
    constructor
    · intro ⟨c, hid, hc⟩
      obtain ⟨q, hi⟩ := hanswer.1 hc
      exact ⟨q, _, hi, c, rfl, hid⟩
    · rintro ⟨q, resp, hi, c, rfl, hid⟩
      exact ⟨c, hid, hanswer.2 ⟨q, hi⟩⟩
  rw [← hv.shared]
  refine ⟨fun b hrow => hb.ledger.counts hb.silent hb.announced hend hrow, fun b hrow i hn hreq => ?_⟩
  obtain ⟨t, ht, hreq⟩ := Option.map_eq_some_iff.1 hreq
  obtain ⟨g, hi, -⟩ := hv.sim i t ht
  rw [hreq] at hi
  obtain ⟨resp, rfl⟩ := hend i _ _ hi
  have hsent := hb.announced i _ _ (Nat.zero_le i) hi
  -- the booking is cancelled, by one request
  have hone {j : Nat} (hj : Answered a j (·.Cancels b.id)) :
      ∃! j, ∃ c, c.id = b.id ∧ sys.answer j = some (.cancelled c) :=
    ⟨j, hcancels.2 hj, fun k hk => hb.ledger.oneCancelled _ _ _ (hcancels.1 hk) hj⟩
  rcases (hlate b hrow).told i _ hn hi with hc | ⟨rfl, x, hx, hid, hc⟩
  · have hans : Answered a i (·.Cancels b.id) := ⟨_, _, hi, hc⟩
    obtain ⟨c, hid, hc⟩ := hcancels.2 hans
    obtain ⟨email, hps⟩ := hb.announced.cancels hans
    exact ⟨hone hans, .inl ⟨c, email, hid, hc, hps⟩⟩
  · obtain ⟨j, hj⟩ := hb.ledger.cancelled x hx hc
    exact ⟨hone (hid ▸ hj), .inr ⟨hanswer.2 ⟨_, hi⟩, hsent⟩⟩

end

/-- Ann cancels her booking twice, one request after the other. -/
theorem events_once_cancelled : ∃ sys : System, sys.shared.confirmations 1 = 1 ∧
    sys.shared.cancellations 1 = 1 ∧ (∃! j, ∃ c, c.id = 1 ∧ sys.answer j = some (.cancelled c)) ∧
    sys.answer 3 = some (errorResponse (.http 400 "Booking is already cancelled")) := by
  have hruns : ((semantics plainServer).stepsIf CancelsOnce someStart seatBooked).any (fun sys₁ =>
      ((semantics plainServer).stepsIf CancelsOnce sys₁ ([.spawn (.cancelBooking 2 1),
          .spawn (.cancelBooking 2 1)] ++ calls 2 10 ++ calls 3 2)).any fun sys =>
        sys.Quiescent ∧ sys₁.tasks.length ≤ 3 ∧ sys.request 3 = some (.cancelBooking 2 1) ∧
          (∃ b ∈ sys₁.shared.db.bookings.rows, b.userId = 2 ∧ b.id = 1) ∧
          (∃ b ∈ sys.shared.db.bookings.rows, b.id = 1 ∧ b.status = .cancelled) ∧
          (sys.answer 3).map Response.statusCode = some 400) = true := by decide +kernel
  obtain ⟨sys₁, h₁, hruns⟩ := (Option.any_eq_true _ _).1 hruns
  obtain ⟨sys, h₂, hP⟩ := (Option.any_eq_true _ _).1 hruns
  obtain ⟨hq, hn, hreq, ⟨b₁, hb₁, huser, hid₁⟩, ⟨b, hb, hid, hc⟩, hcode⟩ := of_decide_eq_true hP
  obtain ⟨hcounts, hlate⟩ :=
    events_once start_someStart (Run.of_stepsIf h₁) (Run.of_stepsIf h₂) hq
  obtain ⟨hconfirmed, hcancelled⟩ := hcounts b hb
  rw [hid] at hconfirmed hcancelled
  obtain ⟨hone, hlast⟩ := hlate b₁ hb₁ 3 hn (by rw [huser, hid₁]; exact hreq)
  rw [hid₁] at hone
  refine ⟨sys, hconfirmed, hcancelled.trans (if_pos hc), hone, ?_⟩
  rcases hlast with ⟨c, email, -, hans, -⟩ | ⟨hans, -⟩
  · rw [hans] at hcode
    cases hcode
  · exact hans

/-- Two overlapping cancellations of booking 1 read it before either is committed: both are answered
200, and two cancellations are published. -/
theorem cancelBooking_published_twice : ∃ sys, runSome (seatBooked ++
      [.spawn (.cancelBooking 2 1), .spawn (.cancelBooking 2 1)] ++ calls 2 2 ++ calls 3 2 ++ calls 2 8 ++
      calls 3 7) = some sys ∧ sys.Quiescent ∧
    sys.shared.db.bookings.rows.map (fun b => (b.id, b.status)) = [(1, .cancelled)] ∧
    sys.shared.cancellations 1 = 2 ∧ sys.answer 2 = sys.answer 3 ∧
    (sys.answer 3).map Response.statusCode = some 200 :=
  exists_runSome _ _ (by decide +kernel)

end BusBookings

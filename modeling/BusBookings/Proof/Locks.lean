import BusBookings.Proof.Alone
import BusBookings.Proof.Columns

/-!
# Who waits for whom

A call blocks iff another transaction holds a lock it needs (`WaitsFor`). Every transaction has the
changes of some stage (`Backed`), so its locks are those of its job (`Holder`): a request that waits has
changed nothing yet, and the one it waits for competes with it for the same seat, booking or e-mail
(`Inv.waitsFor`). So nobody waits for a request that waits: `Reachable.no_wait_chain`.
-/

namespace BusBookings

open Async ReadCommitted

/-- The row that an `INSERT INTO bookings` makes. -/
def NewBooking.row (w : World) (row : NewBooking) : Booking :=
  ⟨w.nextBooking, row.userId, row.routeId, row.seatId, row.status, row.totalPrice⟩

/-- The change a call makes. -/
def Call.change? (server : Server) (w : World) : Call → Option Change
  | .insertUser row => some (.insertUser (row.row w))
  | .insertRoute row => some (.insertRoute (row.row server w))
  | .insertSeats routeId numbers => some (.insertSeats (World.newSeats routeId w.nextSeat numbers))
  | .insertBooking row => some (.insertBooking (row.row w))
  | .updateSeat id flag => some (.updateSeat id flag)
  | .updateBooking id status => some (.updateBooking id status)
  | _ => none

/-- Request `i` waits for a lock that request `j` holds. -/
def WaitsFor (server : Server) (sys : System) (i j : Nat) : Prop :=
  j ≠ i ∧ ∃ c ch, sys.awaiting i = some c ∧ c.change? server sys.shared = some ch ∧
    ∃ ch' ∈ sys.shared.pg.own j, ∃ k ∈ Db.locks ch', k ∈ sys.shared.pg.needs ch

/-- Two requests for the same seat, booking or e-mail. -/
inductive Rivals (db : Db) : Request → Request → Prop
  | seat {u r u' r' s : Int} : Rivals db (.createBooking u r s) (.createBooking u' r' s)
  | booking {u u' id : Int} : Rivals db (.cancelBooking u id) (.cancelBooking u' id)
  | released {u r u' : Int} {b : Booking} : b ∈ db.bookings.rows →
      Rivals db (.createBooking u r b.seatId) (.cancelBooking u' b.id)
  | email {p p' : UserRegister} {salt salt' : String} : p.email = p'.email →
      Rivals db (.register p salt) (.register p' salt')

/-! ## Blocked calls -/

section

variable {server : Server} {i : Nat} {w : World} {c : Call} {ch : Change}

theorem change_eq_none : w.change i ch = none ↔ w.pg.blocked i ch = true := by
  unfold World.change
  split
  · rename_i hb
    constructor
    · intro h
      split at h <;> cases h
    · intro h
      rw [hb] at h
      cases h
  · rename_i hb
    simpa using hb

theorem insert_eq_none {id : Int} : w.insert i ch id = none ↔ w.pg.blocked i ch = true := by
  rw [World.insert, Option.map_eq_none_iff, change_eq_none]

/-- A call blocks iff its change has to wait. -/
theorem exec_eq_none : exec server .ok i c w = none ↔
    ∃ ch, c.change? server w = some ch ∧ w.pg.blocked i ch = true := by
  have hone (ch : Change) :
      w.pg.blocked i ch = true ↔ ∃ ch', some ch = some ch' ∧ w.pg.blocked i ch' = true := by simp
  cases c with
  | insertUser row => exact (insert_eq_none (w := w.bump (.insertUser row))).trans (hone _)
  | insertRoute row => exact (insert_eq_none (w := w.bump (.insertRoute row))).trans (hone _)
  | insertBooking row => exact (insert_eq_none (w := w.bump (.insertBooking row))).trans (hone _)
  | insertSeats routeId ns =>
    exact (change_eq_none (w := w.bump (.insertSeats routeId ns))).trans (hone _)
  | updateSeat id flag => exact change_eq_none.trans (hone _)
  | updateBooking id status => exact change_eq_none.trans (hone _)
  | _ => simp [exec, Call.change?]

/-- A suspended request can take its call, or waits for another request. -/
theorem step_eq_none {sys : System} (hc : sys.awaiting i = some c) :
    (semantics server).step sys (.run .ok i) = none ↔ ∃ j, WaitsFor server sys i j := by
  obtain ⟨t, ht, hco⟩ := Option.bind_eq_some_iff.1 hc
  obtain ⟨q, co⟩ := t
  cases co with
  | done r => cases hco
  | await c' k =>
    cases hco
    have hstep : (semantics server).step sys (.run .ok i) = none ↔
        exec server .ok i c sys.shared = none := by
      simp only [Semantics.step, ht, Option.map_eq_none_iff]
      rfl
    rw [hstep, exec_eq_none]
    constructor
    · rintro ⟨ch, hch, hb⟩
      obtain ⟨j, hj, hlock⟩ := Store.blocked_eq_true.1 hb
      exact ⟨j, hj, c, ch, hc, hch, hlock⟩
    · rintro ⟨j, hj, c', ch, hc', hch, hlock⟩
      obtain rfl : c = c' := Option.some.inj (hc.symm.trans hc')
      exact ⟨ch, hch, Store.blocked_eq_true.2 ⟨j, hj, hlock⟩⟩

end

/-! ## Who holds a lock -/

/-- The changes of a request are the first ones of a job, if there are any: also while the request
fails, when they are not rolled back yet. -/
def Backed (server : Server) (a : Abs World Request Stage) : Prop :=
  ∀ i q g, a.phase i = some (q, g) → a.shared.pg.own i = [] ∨
    ∃ j : Job, j.Facts server a.shared.db q ∧ a.shared.pg.own i <+: (Stage.closing j).writes

/-- Request `q` with the uncommitted changes `ws` holds a lock. -/
inductive Holder (db : Db) (ws : List Change) : Request → LockKey → Prop
  | newUser {p : UserRegister} {salt : String} {u : User} : .insertUser u ∈ ws →
      Holder db ws (.register p salt) (.user u.id)
  | email {p : UserRegister} {salt email : String} : p.email = email →
      Holder db ws (.register p salt) (.email email)
  | newRoute {u : Int} {p : RouteCreate} {r : Route} : .insertRoute r ∈ ws →
      Holder db ws (.createRoute u p) (.route r.id)
  | newSeat {u : Int} {p : RouteCreate} {ss : List Seat} {s : Seat} : .insertSeats ss ∈ ws → s ∈ ss →
      Holder db ws (.createRoute u p) (.seat s.id)
  | routeSeat {u n : Int} {p : RouteCreate} {r : Route} : .insertRoute r ∈ ws →
      Holder db ws (.createRoute u p) (.routeSeat r.id n)
  | newBooking {u r s : Int} {b : Booking} : .insertBooking b ∈ ws →
      Holder db ws (.createBooking u r s) (.booking b.id)
  | bookingSeat {u r s : Int} : Holder db ws (.createBooking u r s) (.bookingSeat s)
  | bookedSeat {u r s : Int} {b : Booking} : .insertBooking b ∈ ws → b.seatId = s →
      Db.Occupied db (.seat s) → Holder db ws (.createBooking u r s) (.seat s)
  | booking {u : Int} {b : Booking} : Held db u b →
      Holder db ws (.cancelBooking u b.id) (.booking b.id)
  | freedSeat {u : Int} {b : Booking} : Held db u b → .updateBooking b.id .cancelled ∈ ws →
      Holder db ws (.cancelBooking u b.id) (.seat b.seatId)

section

variable {server : Server} {db : Db} {sys : System} {a a' : Abs World Request Stage} {i j : Nat}
  {q q' : Request} {g g' : Stage} {c : Call} {ch : Change} {k : LockKey} {ws : List Change}

theorem Stage.Facts.job (h : g.Facts server db q) : g.writes = [] ∨
    ∃ j : Job, j.Facts server db q ∧ g.writes <+: (Stage.closing j).writes := by
  cases g with
  | inserted route b | marked route b | confirmed route b =>
    exact .inr ⟨.create b route, h, by simp [writes, Job.writes]⟩
  | cancelled b | refreshed b =>
    obtain ⟨u, hq, hheld⟩ := h
    exact .inr ⟨.cancel b true, ⟨u, hq, hheld, by simp⟩, by simp [writes]⟩
  | flushing b => exact .inr ⟨.cancel b true, h, by simp [writes]⟩
  | routeInserted r | routeRefreshed r => exact .inr ⟨.route r 0, h, by simp [writes, Job.writes]⟩
  | userInserted u => exact .inr ⟨.register u, h, by simp [writes, Job.writes]⟩
  | invalidating j | deleting j keys | invalidated j | notifying j email =>
    refine .inr ⟨j, h, ?_⟩
    cases j with
    | cancel b free => cases free <;> simp [writes, Job.writes]
    | _ => exact List.prefix_rfl
  | closing j => exact .inr ⟨j, h, List.prefix_rfl⟩
  | _ => exact .inl rfl

/-- The first change of a transaction. -/
theorem mem_of_prefix {x : Change} {xs : List Change} (h : ws <+: x :: xs) (hch : ch ∈ ws) : x ∈ ws := by
  cases ws with
  | nil => cases hch
  | cons y ys => simp [(List.cons_prefix_cons.1 h).1]

/-- What the locks of a job are. -/
theorem Job.Facts.holder {j : Job} (h : j.Facts server db q)
    (hws : ws <+: (Stage.closing j).writes) (hch : ch ∈ ws) (hk : k ∈ Db.locks ch) : Holder db ws q k := by
  have hmem := hws.subset hch
  cases j with
  | create b route =>
    obtain ⟨u, r, s, rfl, hres⟩ := h
    have hs : b.seatId = s := by rw [hres.booking]
    have hb := mem_of_prefix hws hch
    simp only [Stage.writes, Job.writes, List.mem_cons, List.not_mem_nil, or_false] at hmem
    rcases hmem with rfl | rfl | rfl <;>
      simp only [Db.locks, List.mem_cons, List.not_mem_nil, or_false] at hk
    · rcases hk with rfl | rfl
      · exact .newBooking hb
      · exact hs ▸ .bookingSeat
    · obtain ⟨seat, hseat, hid, -⟩ := hres.seat
      subst hk
      exact hs ▸ .bookedSeat hb rfl ⟨seat, hseat, hid.trans hs.symm⟩
    · subst hk
      exact .newBooking hb
  | cancel b free =>
    obtain ⟨u, rfl, hheld, -⟩ := h
    have hfirst : .updateBooking b.id .cancelled ∈ ws := by
      cases free with
      | true => exact mem_of_prefix hws hch
      | false => exact mem_of_prefix hws hch
    have hmem : ch = .updateBooking b.id .cancelled ∨ ch = .updateSeat b.seatId false := by
      cases free with
      | true => simpa [Stage.writes] using hmem
      | false => exact .inl (by simpa [Stage.writes, Job.writes] using hmem)
    rcases hmem with rfl | rfl <;>
      simp only [Db.locks, List.mem_cons, List.not_mem_nil, or_false] at hk <;> subst hk
    · exact .booking hheld
    · exact .freedSeat hheld hfirst
  | route r first =>
    obtain ⟨u, p, rfl, -⟩ := h
    have hr := mem_of_prefix hws hch
    simp only [Stage.writes, Job.writes, List.mem_cons, List.not_mem_nil, or_false] at hmem
    rcases hmem with rfl | rfl
    · obtain rfl : k = .route r.id := by simpa [Db.locks] using hk
      exact .newRoute hr
    · obtain ⟨s, hs, rfl | rfl⟩ := Db.mem_locks_insertSeats.1 hk
      · exact .newSeat hch hs
      · rw [(World.mem_newSeats hs).1]
        exact .routeSeat hr
  | register u =>
    obtain ⟨p, salt, rfl, hu⟩ := h
    obtain rfl : ch = .insertUser u := by simpa [Stage.writes, Job.writes] using hmem
    simp only [Db.locks, List.mem_cons, List.not_mem_nil, or_false] at hk
    rcases hk with rfl | rfl
    · exact .newUser hch
    · exact .email hu.symm
  | read resp => cases hmem

/-- A failure leaves the transactions as they are. -/
theorem Step.pg_of_failing {o : Outcome} {w w' : World} {e : Exc}
    (h : Step server q i o c g w (.failing e) w') (hl : g ≠ .lost) : w'.pg = w.pg := by
  generalize hg' : Stage.failing e = g' at h
  cases h with
  | write hw => cases hw <;> cases hg'
  | writeFails hw hch =>
    obtain ⟨-, -, rfl⟩ := change_error hch
    exact World.pg_bump _ _
  | commit | rollback => cases hg'
  | lost => exact absurd rfl hl
  | _ => rfl

theorem Backed.step (h : Backed server a) (hinv : Inv server a) {l : Label} {call : Option Call}
    (hs : (protocol server).Step envStep a l call a') : Backed server a' := by
  intro j q g hj
  have hev := hinv.evolves hs
  have hkeep {q : Request} {g : Stage} (hj : a.phase j = some (q, g))
      (hown : a'.shared.pg.own j = a.shared.pg.own j) : a'.shared.pg.own j = [] ∨
        ∃ jb : Job, jb.Facts server a'.shared.db q ∧ a'.shared.pg.own j <+: (Stage.closing jb).writes := by
    rw [hown]
    exact (h j q g hj).imp_right fun ⟨jb, hf, hws⟩ => ⟨jb, hf.mono hev, hws⟩
  have hinv' := hinv.step hs
  cases hs with
  | env he =>
    rename_i e w'
    cases e <;> cases he <;> exact hkeep hj rfl
  | spawn hi =>
    rename_i i q'
    by_cases hji : j = i
    · subst hji
      exact .inl (hinv.idle j hi)
    · exact hkeep (by simpa [Function.update_of_ne hji] using hj) rfl
  | run hi hw hst =>
    rename_i o i q' g₀ g₁ c w'
    by_cases hji : j = i
    · subst hji
      obtain ⟨rfl, rfl⟩ : q' = q ∧ g₁ = g := by simpa using hj
      by_cases hfail : ∃ e, g₁ = .failing e
      · obtain ⟨e, rfl⟩ := hfail
        refine hkeep hi ?_
        show w'.pg.own j = _
        rw [hst.pg_of_failing (hinv.ne_lost hi)]
      · rw [not_exists] at hfail
        rw [hinv'.own j q' g₁ hj hfail]
        exact (hinv'.facts j q' g₁ hj).job
    · exact hkeep (by simpa [Function.update_of_ne hji] using hj)
        (hst.own_ne (hinv.ne_lost hi) hji)

theorem Reachable.backed (h : Reachable server sys) :
    ∃ a, View server sys a ∧ Inv server a ∧ Backed server a :=
  h.keeps (fun _ _ _ _ _ _ hi => by cases hi) fun _ _ _ _ hinv hb hs => hb.step hinv hs

/-! ## What a request waits for -/

theorem Backed.holder (h : Backed server a) (hj : a.phase j = some (q, g)) (hch : ch ∈ a.shared.pg.own j)
    (hk : k ∈ Db.locks ch) : Holder a.shared.db (a.shared.pg.own j) q k := by
  rcases h j q g hj with hnil | ⟨jb, hf, hws⟩
  · rw [hnil] at hch
    cases hch
  · exact hf.holder hws hch hk

theorem Held.occupied {u : Int} {b : Booking} (h : Held db u b) :
    db.Occupied (.booking b.id) ∧ db.Occupied (.bookingSeat b.seatId) := by
  rcases h.row with hb | hb
  · exact ⟨⟨b, hb, rfl⟩, ⟨b, hb, rfl⟩⟩
  · exact ⟨⟨_, hb, rfl⟩, ⟨_, hb, rfl⟩⟩

theorem Holder.of_booking {id : Int} (h : Holder db ws q (.booking id)) :
    (∃ b, .insertBooking b ∈ ws ∧ b.id = id) ∨ (∃ u, q = .cancelBooking u id) ∧ db.Occupied (.booking id) := by
  generalize hk : LockKey.booking id = k at h
  cases h with
  | newBooking hb =>
    cases hk
    exact .inl ⟨_, hb, rfl⟩
  | booking hheld =>
    cases hk
    exact .inr ⟨⟨_, rfl⟩, hheld.occupied.1⟩
  | _ => cases hk

/-- Only a new user is locked. -/
theorem Holder.of_user {id : Int} (h : Holder db ws q (.user id)) : ∃ u, .insertUser u ∈ ws ∧ u.id = id := by
  generalize hk : LockKey.user id = k at h
  cases h with
  | newUser hu =>
    cases hk
    exact ⟨_, hu, rfl⟩
  | _ => cases hk

theorem Holder.of_routeSeat {r n : Int} (h : Holder db ws q (.routeSeat r n)) :
    ∃ route, .insertRoute route ∈ ws ∧ route.id = r := by
  generalize hk : LockKey.routeSeat r n = k at h
  cases h with
  | routeSeat hr =>
    cases hk
    exact ⟨_, hr, rfl⟩
  | _ => cases hk

theorem Holder.of_email {email : String} (h : Holder db ws q (.email email)) :
    ∃ p salt, q = .register p salt ∧ p.email = email := by
  cases h with
  | email he => exact ⟨_, _, rfl, he⟩

/-- The ids in locks are ids that the sequences have given out. -/
theorem Holder.below (h : Holder a.shared.db (a.shared.pg.own j) q k) (hinv : Inv server a) :
    a.shared.Below k := by
  have hnew {ch : Change} (hch : ch ∈ a.shared.pg.own j) (hins : ch.inserts = true) {k : LockKey}
      (hk : k ∈ Db.locks ch) : a.shared.Below k :=
    hinv.keyed.pendingBelow (j, ch) (Store.mem_own.1 hch) hins k hk
  cases h with
  | newUser hu => exact hnew hu rfl (by simp [Db.locks])
  | newRoute hr => exact hnew hr rfl (by simp [Db.locks])
  | newSeat hss hs => exact hnew hss rfl (Db.mem_locks_insertSeats.2 ⟨_, hs, .inl rfl⟩)
  | newBooking hb => exact hnew hb rfl (by simp [Db.locks])
  | bookedSeat hb hs hocc => exact hinv.keyed.below _ hocc
  | booking hheld => exact hinv.keyed.below _ hheld.occupied.1
  | freedSeat hheld =>
    obtain ⟨seat, hseat, hid, -⟩ := hheld.seat hinv.consistent
    exact hinv.keyed.below (.seat _) ⟨seat, hseat, hid⟩
  | email | routeSeat | bookingSeat => trivial

/-- What another transaction inserts does not exist yet. -/
theorem Inv.not_occupied (hinv : Inv server a) (hch : ch ∈ a.shared.pg.own j) (hins : ch.inserts = true)
    (hk : k ∈ Db.locks ch) : ¬ a.shared.db.Occupied k :=
  hinv.keyed.vacant (j, ch) (Store.mem_own.1 hch) hins k hk

/-- A seat whose booking is being changed is locked by nobody else. -/
theorem Inv.seat_unlocked (hinv : Inv server a) (hij : i ≠ j) {s : Int}
    (hi : (∃ b, .insertBooking b ∈ a.shared.pg.own i ∧ b.seatId = s) ∨
      ∃ u b, Held a.shared.db u b ∧ b.seatId = s ∧ .updateBooking b.id .cancelled ∈ a.shared.pg.own i)
    (hseat : a.shared.db.Occupied (.seat s)) :
    ¬ Holder a.shared.db (a.shared.pg.own j) q (.seat s) := by
  have hexcl {ch ch' : Change} (hch : ch ∈ a.shared.pg.own i) (hch' : ch' ∈ a.shared.pg.own j) {k : LockKey}
      (hk : k ∈ Db.locks ch) : k ∉ Db.locks ch' := Store.disjoint_locks hij hch hch' hk
  intro h
  cases h with
  | newSeat hss hs => exact hinv.not_occupied hss rfl (Db.mem_locks_insertSeats.2 ⟨_, hs, .inl rfl⟩) hseat
  | bookedSeat hb' hs' =>
    rename_i b'
    rcases hi with ⟨b, hb, hs⟩ | ⟨u, b, hheld, hs, -⟩
    · exact hexcl hb hb' (k := .bookingSeat s) (by simp [Db.locks, hs]) (by simp [Db.locks, hs'])
    · exact hinv.not_occupied hb' rfl (k := .bookingSeat s) (by simp [Db.locks, hs'])
        (hs ▸ hheld.occupied.2)
  | freedSeat hheld' hb' =>
    rename_i u' b'
    rcases hi with ⟨b, hb, hs⟩ | ⟨u, b, hheld, hs, hb⟩
    · exact hinv.not_occupied hb rfl (k := .bookingSeat b'.seatId) (by simp [Db.locks, hs])
        hheld'.occupied.2
    · -- the seat has only one booking
      obtain ⟨x, hx, hxid, hxs⟩ : ∃ x ∈ a.shared.db.bookings.rows, x.id = b.id ∧ x.seatId = b.seatId := by
        rcases hheld.row with hr | hr <;> exact ⟨_, hr, rfl, rfl⟩
      obtain ⟨y, hy, hyid, hys⟩ : ∃ y ∈ a.shared.db.bookings.rows, y.id = b'.id ∧ y.seatId = b'.seatId := by
        rcases hheld'.row with hr | hr <;> exact ⟨_, hr, rfl, rfl⟩
      have hid : b.id = b'.id := by
        rw [← hxid, ← hyid, hinv.consistent.oneBooking x hx y hy (by rw [hxs, hys, hs])]
      exact hexcl hb hb' (k := .booking b.id) (by simp [Db.locks]) (by simp [Db.locks, hid])

theorem Writes.change? {w : World} (h : Writes server w q c ch g g') : c.change? server w = some ch := by
  cases h with
  | insertBooking hrow hb => rw [hrow, hb]; rfl
  | insertRoute hd ha hrow hr => rw [hrow, hr]; rfl
  | insertSeats hid hns hss => rw [hss, hid]; rfl
  | insertUser hrow hu => rw [hrow, hu]; rfl
  | _ => rfl

/-- A call that makes a change is one of the protocol's. -/
theorem Step.writes_of_change {w w' : World} (h : Step server q i .ok c g w g' w') (hl : g ≠ .lost)
    (hch : c.change? server w = some ch) : ∃ g'', Writes server w q c ch g g'' := by
  cases h with
  | write hw | writeFails hw =>
    obtain rfl := Option.some.inj (hw.change?.symm.trans hch)
    exact ⟨_, hw⟩
  | read hr =>
    cases hr with
    | again ha => cases ha <;> cases hch
    | lost hno hex => obtain ⟨p, g', ha⟩ := hex; cases ha <;> cases hch
    | _ => cases hch
  | lost => exact absurd rfl hl
  | _ => cases hch

/-- The stage of a request whose call makes a change. The world is the system's, no transaction open. -/
theorem Inv.writes_of_awaiting (hinv : Inv server a) (hv : View server sys a) (hc : sys.awaiting i = some c)
    (hch : c.change? server sys.shared = some ch) : ∃ q g g', a.phase i = some (q, g) ∧
      Writes server { sys.shared with pg := .init sys.shared.db } q c ch g g' := by
  obtain ⟨t, ht, hco⟩ := Option.bind_eq_some_iff.1 hc
  have hreq : sys.request i = some t.req := by simp [Async.System.request, ht]
  have hexec : ∃ p, exec server .ok i c { sys.shared with pg := .init sys.shared.db } = some p :=
    exec_some fun ch => by simp [Store.blocked, Store.init]
  obtain ⟨⟨r, w'⟩, he⟩ := hexec
  obtain ⟨g, g', hi, hs⟩ := hv.taken (l := .ok) hreq hc he
  obtain ⟨g'', hw⟩ := hs.writes_of_change (hinv.ne_lost hi)
    ((show c.change? server _ = c.change? server sys.shared by cases c <;> rfl).trans hch)
  exact ⟨_, g, g'', hi, hw⟩

/-- A change that waits is the first one of its request, and the lock is held by a rival. -/
theorem Inv.rivals (hinv : Inv server a) (hij : i ≠ j) (hi : a.phase i = some (q, g))
    (hw : Writes server { a.shared with pg := .init a.shared.db } q c ch g g') (hk : k ∈ Db.locks ch)
    (hch' : ∃ ch' ∈ a.shared.pg.own j, k ∈ Db.locks ch')
    (hhold : Holder a.shared.db (a.shared.pg.own j) q' k) :
    g.writes = [] ∧ Rivals a.shared.db q q' := by
  have hown := hinv.own i q g hi hw.not_failing
  have hfacts := hinv.facts i q g hi
  have hbelow := hhold.below hinv
  have hexcl {ch : Change} (hch : ch ∈ g.writes) : k ∉ Db.locks ch := fun hk => by
    obtain ⟨ch', hch', hk'⟩ := hch'
    exact Store.disjoint_locks hij (hown ▸ hch) hch' hk hk'
  cases hw with
  | insertBooking hrow hb =>
    subst hb
    simp only [Db.locks, List.mem_cons, List.not_mem_nil, or_false] at hk
    rcases hk with rfl | rfl
    · exact absurd hbelow (by simp [World.Below])
    · cases hhold
      exact ⟨rfl, .seat⟩
  | mark =>
    rename_i u r s route b
    obtain rfl : k = .seat s := by simpa [Db.locks] using hk
    obtain ⟨u', r', s', hq, hres⟩ := hfacts
    cases hq
    obtain ⟨seat, hseat, hid, -⟩ := hres.seat
    exact absurd hhold (hinv.seat_unlocked hij
      (.inl ⟨b, by simp [hown, Stage.writes], by rw [hres.booking]⟩) ⟨seat, hseat, hid⟩)
  | confirm hid =>
    rename_i u r s id route b
    obtain rfl : k = .booking id := by simpa [Db.locks] using hk
    have hinsert : Change.insertBooking b ∈ Stage.writes (.marked route b) := by simp [Stage.writes]
    exact absurd (by simp [Db.locks, hid]) (hexcl hinsert)
  | cancel hid =>
    rename_i u id b
    obtain rfl : k = .booking id := by simpa [Db.locks] using hk
    obtain ⟨u', -, hheld⟩ := hfacts
    rcases hhold.of_booking with ⟨b', hb', hid'⟩ | ⟨⟨u', rfl⟩, -⟩
    · exact absurd (hid ▸ hheld.occupied.1) (hinv.not_occupied hb' rfl (by simp [Db.locks, hid']))
    · exact ⟨rfl, .booking⟩
  | free hs =>
    rename_i s b
    obtain rfl : k = .seat s := by simpa [Db.locks] using hk
    obtain ⟨u', -, hheld, -⟩ := hfacts
    obtain ⟨seat, hseat, hid, -⟩ := hheld.seat hinv.consistent
    exact absurd hhold (hinv.seat_unlocked hij
      (.inr ⟨u', b, hheld, hs.symm, by simp [hown, Stage.writes]⟩) ⟨seat, hseat, hid.trans hs.symm⟩)
  | insertRoute hd ha hrow hr =>
    subst hr
    obtain rfl : k = .route a.shared.nextRoute := by simpa [Db.locks] using hk
    exact absurd hbelow (by simp [World.Below])
  | insertSeats hid hns hss =>
    rename_i u id p r ns ss
    obtain ⟨s, hs, rfl | rfl⟩ := Db.mem_locks_insertSeats.1 hk
    · rw [hss] at hs
      exact absurd hbelow (Int.not_lt.2 (World.mem_newSeats hs).2.2.1)
    · rw [hss] at hs
      obtain ⟨route, hroute, hrid⟩ := hhold.of_routeSeat
      have hkey : route.id = r.id := hrid.trans (World.mem_newSeats hs).1
      exact absurd (Store.disjoint_locks hij (w := .insertRoute r) (by simp [hown, Stage.writes]) hroute
        (k := LockKey.route r.id) (by simp [Db.schema, Db.locks])) (by simp [Db.schema, Db.locks, hkey])
  | insertUser hrow hu =>
    subst hu
    simp only [Db.locks, List.mem_cons, List.not_mem_nil, or_false] at hk
    rcases hk with rfl | rfl
    · exact absurd hbelow (by simp [World.Below])
    · obtain ⟨p', salt', rfl, hp⟩ := hhold.of_email
      exact ⟨rfl, .email hp.symm⟩

/-- A row with the unique key of a new row is being changed only by a cancellation. -/
theorem Inv.rivals_sameKey (hinv : Inv server a) (hi : a.phase i = some (q, g))
    (hw : Writes server { a.shared with pg := .init a.shared.db } q c ch g g')
    (hk : k ∈ Db.sameKey a.shared.db ch) (hhold : Holder a.shared.db (a.shared.pg.own j) q' k) :
    g.writes = [] ∧ Rivals a.shared.db q q' := by
  cases hw with
  | insertBooking hrow hb =>
    rename_i u r s row route b
    obtain ⟨b', hb', hid⟩ := List.mem_map.1 hk
    obtain ⟨hmem, hseat⟩ := List.mem_filter.1 hb'
    subst hid hb
    rcases hhold.of_booking with ⟨x, hx, hxid⟩ | ⟨⟨u', rfl⟩, -⟩
    · exact absurd (show a.shared.db.Occupied (.booking b'.id) from ⟨b', hmem, rfl⟩)
        (hinv.not_occupied hx rfl (by simp [Db.locks, hxid]))
    · obtain rfl : b'.seatId = s := of_decide_eq_true hseat
      exact ⟨rfl, .released hmem⟩
  | insertUser hrow hu =>
    obtain ⟨u', hu', hid⟩ := List.mem_map.1 hk
    obtain ⟨hmem, -⟩ := List.mem_filter.1 hu'
    subst hid
    obtain ⟨x, hx, hxid⟩ := hhold.of_user
    exact absurd (show a.shared.db.Occupied (.user u'.id) from ⟨u', hmem, rfl⟩)
      (hinv.not_occupied hx rfl (by simp [Db.locks, hxid]))
  | insertSeats hid hns hss =>
    rename_i u id p r ns ss
    obtain ⟨s', hs', -⟩ := List.mem_map.1 hk
    obtain ⟨hmem, hany⟩ := List.mem_filter.1 hs'
    obtain ⟨s, hs, hsame⟩ := List.any_eq_true.1 hany
    simp only [Bool.and_eq_true, decide_eq_true_eq] at hsame
    rw [hss] at hs
    -- the route of a committed seat is committed, and this one is new
    obtain ⟨route, hroute, hrid⟩ := hinv.consistent.seatRoute s' hmem
    have hnew : ¬ a.shared.db.Occupied (.route r.id) := hinv.vacant hi (by simp) (.insertRoute r)
      (by simp [Stage.writes]) rfl (by simp [Db.locks])
    exact absurd ⟨route, hroute, by rw [hrid, hsame.1, (World.mem_newSeats hs).1]⟩ hnew
  | _ => cases hk

/-- **A request that waits has changed nothing**, and competes with the one it waits for. -/
theorem Inv.waitsFor (hinv : Inv server a) (hback : Backed server a) (hv : View server sys a)
    (h : WaitsFor server sys i j) : sys.shared.pg.own i = [] ∧
      ∃ q q', sys.request i = some q ∧ sys.request j = some q' ∧ Rivals sys.shared.db q q' := by
  obtain ⟨hji, c, ch, hc, hch, ch', hch', k, hk', hk⟩ := h
  obtain ⟨q, g, g', hi, hw⟩ := hinv.writes_of_awaiting hv hc hch
  rw [← hv.shared] at hw hch' hk ⊢
  cases hj : a.phase j with
  | none =>
    rw [hinv.idle j hj] at hch'
    cases hch'
  | some p =>
    obtain ⟨q', g₀⟩ := p
    have hhold := hback.holder hj hch' hk'
    obtain ⟨hnil, hr⟩ : g.writes = [] ∧ Rivals a.shared.db q q' := by
      rcases List.mem_append.1 hk with hk | hk
      · exact hinv.rivals hji.symm hi hw hk ⟨ch', hch', hk'⟩ hhold
      · exact hinv.rivals_sameKey hi hw hk hhold
    exact ⟨(hinv.own i q g hi hw.not_failing).trans hnil, q, q', hv.request hi, hv.request hj, hr⟩

/-- Nobody waits for a request that waits, so the one waited for moves on. -/
theorem Inv.waitsFor_moves (hinv : Inv server a) (hback : Backed server a) (hv : View server sys a)
    (h : WaitsFor server sys i j) : (∀ k, ¬ WaitsFor server sys j k) ∧
      ∃ sys', (semantics server).step sys (.run .ok j) = some sys' := by
  obtain ⟨-, c, ch, -, -, ch', hch', -⟩ := h
  have hchanged : sys.shared.pg.own j ≠ [] := fun hnil => by
    rw [hnil] at hch'
    cases hch'
  have hfree (k : Nat) : ¬ WaitsFor server sys j k := fun hk =>
    hchanged (hinv.waitsFor hback hv hk).1
  refine ⟨hfree, ?_⟩
  rw [← hv.shared] at hchanged
  cases hj : a.phase j with
  | none => exact absurd (hinv.idle j hj) hchanged
  | some p =>
    obtain ⟨q', g₀⟩ := p
    obtain ⟨t, ht, -, -, hends⟩ := hv.waits hj
    cases hco : t.co with
    | done r =>
      obtain rfl := (hends r (by rw [hco]; rfl)).resolve_right (hinv.ne_lost hj)
      exact absurd (hinv.own j q' _ hj (by simp)) hchanged
    | await c' k =>
      have hc' : sys.awaiting j = some c' := by simp [Async.System.awaiting, ht, hco]
      cases hstep : (semantics server).step sys (.run .ok j) with
      | some sys' => exact ⟨sys', rfl⟩
      | none =>
        obtain ⟨k, hk⟩ := (step_eq_none hc').1 hstep
        exact absurd hk (hfree k)

/-- **No chains of waiting requests**: a call blocks iff its request waits for another one. That one is a
rival, does not wait itself and can take its call, and the one that waits has changed nothing. -/
theorem Reachable.no_wait_chain (h : Reachable server sys) :
    (∀ i c, sys.awaiting i = some c →
      ((semantics server).step sys (.run .ok i) = none ↔ ∃ j, WaitsFor server sys i j)) ∧
    ∀ i j, WaitsFor server sys i j → sys.shared.pg.own i = [] ∧
      (∃ q q', sys.request i = some q ∧ sys.request j = some q' ∧ Rivals sys.shared.db q q') ∧
      (∀ k, ¬ WaitsFor server sys j k) ∧ ∃ sys', (semantics server).step sys (.run .ok j) = some sys' := by
  obtain ⟨a, hv, hinv, hback⟩ := h.backed
  refine ⟨fun i c hc => step_eq_none hc, fun i j hw => ?_⟩
  obtain ⟨hnil, hrivals⟩ := hinv.waitsFor hback hv hw
  exact ⟨hnil, hrivals, hinv.waitsFor_moves hback hv hw⟩

end

/-- Ann has inserted her booking of seat 1, and Bob is about to insert his. -/
def bothBooking : List Label := routeCreated ++ .spawn (.createBooking 2 1 1) ::
  .spawn (.createBooking 3 1 1) :: calls 1 3 ++ calls 2 2

/-- Bob waits for Ann. -/
theorem no_wait_chain_bothBooking : ∃ sys : System, runSome bothBooking = some sys ∧
    WaitsFor plainServer sys 2 1 ∧ sys.shared.pg.own 2 = [] ∧
    ∃ sys', (semantics plainServer).step sys (.run .ok 1) = some sys' := by
  obtain ⟨sys, hsys, hw⟩ := exists_runSome bothBooking (fun sys =>
    ((sys.awaiting 2).bind (Call.change? plainServer sys.shared)).any (fun ch =>
      (sys.shared.pg.own 1).any fun ch' => (Db.locks ch').any (· ∈ sys.shared.pg.needs ch)) = true)
    (by decide +kernel)
  have hwait : WaitsFor plainServer sys 2 1 := by
    obtain ⟨ch, hch, hlock⟩ := (Option.any_eq_true _ _).1 hw
    obtain ⟨c, hc, hchange⟩ := Option.bind_eq_some_iff.1 hch
    obtain ⟨ch', hch', hlock⟩ := List.any_eq_true.1 hlock
    obtain ⟨k, hk', hk⟩ := List.any_eq_true.1 hlock
    exact ⟨by decide, c, ch, hc, hchange, ch', hch', k, hk', of_decide_eq_true hk⟩
  obtain ⟨hnil, -, -, hmove⟩ := (Reachable.no_wait_chain (reachable_runSome hsys)).2 2 1 hwait
  exact ⟨sys, hsys, hwait, hnil, hmove⟩

end BusBookings

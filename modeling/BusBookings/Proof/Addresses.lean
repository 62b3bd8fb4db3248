import BusBookings.Proof.Accounts
import BusBookings.Proof.Departures

/-!
# Whom an event is for

A booking belongs to a registered user: its insertion would break a foreign key otherwise, and users stay.
So the e-mail that a request looks up before it publishes is its own user's, and the fallback "unknown" is
never used (`Reachable.addressed`).
-/

namespace BusBookings

open Async ReadCommitted

/-- User `u` is registered under the e-mail. -/
def Registered (db : Db) (u : Int) (email : String) : Prop :=
  ∃ user ∈ db.users.rows, user.id = u ∧ user.email = email

/-- The event tells user `u` about his request. -/
inductive Tells : Request → Event → Int → Prop
  | confirmed {u r s id : Int} {email info : String} :
      Tells (.createBooking u r s) (.confirmed id email info) u
  | cancelled {u id : Int} {email : String} : Tells (.cancelBooking u id) (.cancelled id email) u

/-- Bookings belong to users, and events are addressed to them. -/
structure Signed (a : Abs World Request Stage) : Prop where
  bookers : ∀ b ∈ a.shared.db.bookings.rows, a.shared.db.Occupied (.user b.userId)
  inserting : ∀ i u r s g b, a.phase i = some (.createBooking u r s, g) → .insertBooking b ∈ g.writes →
    a.shared.db.Occupied (.user u)
  notifying : ∀ i q j email event, a.phase i = some (q, .notifying j email) → j.event? email = some event →
    ∃ u, Tells q event u ∧ Registered a.shared.db u email
  published : ∀ pub ∈ a.shared.published, ∃ q g u, a.phase pub.sender = some (q, g) ∧
    Tells q pub.event u ∧ Registered a.shared.db u pub.event.userEmail

section

variable {server : Server} {db db' : Db} {sys : System} {a a' : Abs World Request Stage} {i : Nat}
  {q : Request} {g g' : Stage} {w w' : World} {o : Outcome} {c : Call} {l : Label} {call : Option Call}

theorem Registered.mono (hev : db.Evolves db') {u : Int} {email : String} (h : Registered db u email) :
    Registered db' u email := by
  obtain ⟨user, hu, rfl, rfl⟩ := h
  exact hev.users user hu

theorem Db.Occupied.user_mono (hev : db.Evolves db') {u : Int} (h : db.Occupied (.user u)) :
    db'.Occupied (.user u) := by
  obtain ⟨user, hu, rfl⟩ := h
  obtain ⟨user', hu', hid, -⟩ := hev.users user hu
  exact ⟨user', hu', hid⟩

/-- What the commit of a job does to the bookings. -/
theorem Inv.booker_commit (hinv : Inv server a) {j : Job} (hi : a.phase i = some (q, .closing j))
    {b : Booking} (hb : b ∈ (a.shared.commit i).db.bookings.rows) :
    (∃ b₀ ∈ a.shared.db.bookings.rows, b₀.userId = b.userId) ∨
      ∃ r s b₀, q = .createBooking b.userId r s ∧ .insertBooking b₀ ∈ (Stage.closing j).writes := by
  cases j with
  | create b₀ route =>
    obtain ⟨u, r, s, rfl, hres⟩ := hinv.facts i _ _ hi
    rw [(hinv.commit_create hi).2.2.2, List.mem_append, List.mem_singleton] at hb
    rcases hb with hb | rfl
    · exact .inl ⟨b, hb, rfl⟩
    · have hu : b₀.userId = u := by rw [hres.booking]
      exact .inr ⟨r, s, b₀, by rw [← hu]; rfl, by simp [Stage.writes, Job.writes]⟩
  | cancel b₀ free =>
    rw [(hinv.commit_cancel hi).2.2.2] at hb
    obtain ⟨b₁, hb₁, rfl⟩ := Db.mem_updateBooking.1 hb
    exact .inl ⟨b₁, hb₁, by split <;> rfl⟩
  | _ =>
    have hview : (a.shared.commit i).db = _ := hinv.view hi (by simp)
    rw [hview] at hb
    exact .inl ⟨b, hb, rfl⟩

theorem writes_cacheCheck {α : Type} (ofJson? : Json → Option α) (resp : α → Response) (entry : Option Json) :
    (cacheCheck ofJson? resp entry).writes = [] :=
  cacheCheck_ind (fun _ => rfl) rfl (fun _ => rfl) entry

/-- A change of a stage is one of the stage before, or the one that the call has made. -/
theorem Step.mem_writes (h : Step server q i o c g w g' w') (hl : g' ≠ .lost) (hf : g.Facts server db q)
    {ch : Change} (hch : ch ∈ g'.writes) :
    ch ∈ g.writes ∨ Writes server w q c ch g g' ∧ (w.bump c).change i ch = some (.ok (), w') := by
  cases h with
  | read hr => exact .inl (hr.writes_eq hl ▸ hch)
  | write hw hdo =>
    rw [hw.writes_eq hf, List.mem_append, List.mem_singleton] at hch
    rcases hch with hch | rfl
    · exact .inl hch
    · exact .inr ⟨hw, hdo⟩
  | cachedRoutes | cachedSeats =>
    rw [writes_cacheCheck] at hch
    cases hch
  | store => exact .inl hch
  | keys =>
    unfold Stage.afterKeys at hch
    split at hch
    · rw [writes_afterDelete] at hch
      exact .inl hch
    · exact .inl hch
  | delete =>
    rw [writes_afterDelete] at hch
    exact .inl hch
  | publish =>
    rw [writes_afterPublish] at hch
    exact .inl hch
  | lost => exact absurd rfl hl
  | _ => cases hch

/-- A booking is inserted for a user that exists. -/
theorem Inv.inserting (hinv : Inv server a) {u r s : Int} {b : Booking}
    (hi : a.phase i = some (.createBooking u r s, g))
    (hw : Writes server a.shared (.createBooking u r s) c (.insertBooking b) g g')
    (hch : (a.shared.bump c).change i (.insertBooking b) = some (.ok (), w')) :
    a.shared.db.Occupied (.user u) := by
  cases hw with
  | insertBooking hrow hnew =>
    have hview : a.shared.view i = a.shared.db := hinv.view hi (by simp)
    obtain ⟨-, hv, -⟩ := change_ok hch
    rw [show (a.shared.bump _).view i = a.shared.view i by simp [World.view], hview,
      Db.violation_eq_none] at hv
    have hconf := hv.2.1
    simp only [Db.conflicts, Bool.or_eq_false_iff] at hconf
    obtain ⟨user, huser⟩ := Option.isSome_iff_exists.1
      (show (a.shared.db.users.find? b.userId).isSome = true by simpa using hconf.1.1.1)
    obtain ⟨hmem, hid⟩ := Table.find?_eq_some.1 huser
    exact ⟨user, hmem, by rw [hid, hnew]⟩

/-- The user that a request looks up before it publishes. -/
theorem Signed.registered (h : Signed a) (hinv : Inv server a) {j : Job} {email : String} {event : Event}
    (hi : a.phase i = some (q, .invalidated j)) (he : j.event? email = some event) {u : Int}
    (hq : (∃ r s, q = .createBooking u r s) ∨ ∃ b, q = .cancelBooking u b) :
    Registered a.shared.db u (userEmail ((a.shared.view i).users.find? u)) ∧ Tells q event u := by
  have hview : a.shared.view i = Store.applyAll Db.schema j.writes a.shared.db := hinv.view hi (by simp)
  have hfacts : j.Facts server a.shared.db q := hinv.facts i _ _ hi
  have hfind (hu : a.shared.db.Occupied (.user u)) (husers : (a.shared.view i).users = a.shared.db.users) :
      Registered a.shared.db u (userEmail ((a.shared.view i).users.find? u)) := by
    obtain ⟨user, hmem, hid⟩ := hu
    rw [husers, Table.find?_eq_some.2 ⟨hmem, hid⟩]
    exact ⟨user, hmem, hid, rfl⟩
  rcases hq with ⟨r, s, rfl⟩ | ⟨b, rfl⟩
  · obtain ⟨b, route, rfl, -⟩ := hfacts.isCreate
    cases he
    exact ⟨hfind (h.inserting i u r s _ b hi (by simp [Stage.writes, Job.writes])) (by rw [hview]; rfl),
      .confirmed⟩
  · obtain ⟨b', free, rfl, rfl, hheld⟩ := hfacts.isCancel
    cases he
    have hu : a.shared.db.Occupied (.user b'.userId) := by
      rcases hheld.row with hb | hb
      · exact h.bookers b' hb
      · exact h.bookers (Db.setStatus .cancelled b') hb
    exact ⟨hfind (hheld.user ▸ hu) (by rw [hview]; rfl), .cancelled⟩

/-- A request notifies the user of its token. -/
theorem Step.notifying {j : Job} {email : String} (h : Step server q i o c g w (.notifying j email) w')
    (hl : g ≠ .lost) : g = .invalidated j ∧ ∃ u, email = userEmail ((w.view i).users.find? u) ∧
      ((∃ r s, q = .createBooking u r s) ∨ ∃ b, q = .cancelBooking u b) := by
  generalize hg' : Stage.notifying j email = g' at h
  cases h with
  | read hr =>
    cases hr with
    | again ha => cases ha <;> cases hg'
    | creator => cases hg'; exact ⟨rfl, _, rfl, .inl ⟨_, _, rfl⟩⟩
    | owner => cases hg'; exact ⟨rfl, _, rfl, .inr ⟨_, rfl⟩⟩
    | route => exact absurd hg' (routeCheck_ind (by simp) (by simp) _)
    | seat => exact absurd hg' (seatCheck_ind (by simp) (by simp) _)
    | booking => exact absurd hg' (cancelCheck_ind (by simp) (by simp) _)
    | admin => exact absurd hg' (adminCheck_ind (by simp) (by simp) _)
    | email => exact absurd hg' (registerCheck_ind (by simp) (by simp) _)
    | login => exact absurd hg' (loginCheck_ind (by simp) (by simp) _)
    | _ => cases hg'
  | write hw => cases hw <;> cases hg'
  | cachedRoutes | cachedSeats =>
    exact absurd hg' (cacheCheck_ind (motive := (.notifying j email ≠ ·)) (by simp) (by simp) (by simp) _)
  | keys =>
    unfold Stage.afterKeys Stage.afterDelete at hg'
    split at hg' <;> [split at hg'; skip] <;> cases hg'
  | delete => unfold Stage.afterDelete at hg'; split at hg' <;> cases hg'
  | publish => unfold Stage.afterPublish at hg'; split at hg' <;> cases hg'
  | lost => exact absurd rfl hl
  | _ => cases hg'

/-- A booking that appears is one that its user's request has inserted. -/
theorem Inv.booker_step (hinv : Inv server a) (hs : (protocol server).Step envStep a l call a')
    {b : Booking} (hb : b ∈ a'.shared.db.bookings.rows) :
    (∃ b₀ ∈ a.shared.db.bookings.rows, b₀.userId = b.userId) ∨
      ∃ i g r s b₀, a.phase i = some (.createBooking b.userId r s, g) ∧ .insertBooking b₀ ∈ g.writes := by
  cases hs with
  | env he =>
    rename_i e w'
    cases e <;> cases he <;> exact .inl ⟨b, hb, rfl⟩
  | spawn hi => exact .inl ⟨b, hb, rfl⟩
  | run hi hw hst =>
    rename_i o i q g g' c w'
    by_cases hend : ∃ resp, g' = .ended resp
    · obtain ⟨resp, rfl⟩ := hend
      rcases hst.ended with ⟨j, rfl, -, rfl⟩ | ⟨e, e', -, -, rfl⟩
      · rcases hinv.booker_commit hi hb with hold | ⟨r, s, b₀, rfl, hb₀⟩
        · exact .inl hold
        · exact .inr ⟨i, _, r, s, b₀, hi, hb₀⟩
      · exact .inl ⟨b, hb, rfl⟩
    · rw [show w'.db = a.shared.db from hst.db_eq (hinv.ne_lost hi) (not_exists.1 hend)] at hb
      exact .inl ⟨b, hb, rfl⟩

theorem Signed.step (h : Signed a) (hinv : Inv server a)
    (hs : (protocol server).Step envStep a l call a') : Signed a' := by
  have hev := hinv.evolves hs
  have hinv' := hinv.step hs
  refine ⟨fun b hb => ?_, fun i u r s g b hi hb => ?_, fun i q j email event hi he => ?_,
    fun pub hpub => ?_⟩
  · rcases hinv.booker_step hs hb with ⟨b₀, hb₀, hu⟩ | ⟨i, g, r, s, b₀, hi, hb₀⟩
    · rw [← hu]
      exact (h.bookers b₀ hb₀).user_mono hev
    · exact (h.inserting i _ r s g b₀ hi hb₀).user_mono hev
  · rcases hs.phase_eq hi with hi | ⟨-, -, rfl⟩ | ⟨o, c, g₀, -, -, hi₀, -, hst⟩
    · exact (h.inserting i u r s g b hi hb).user_mono hev
    · cases hb
    · rcases hst.mem_writes (hinv'.ne_lost hi) (hinv.facts i _ _ hi₀) hb with hb | ⟨hw, hch⟩
      · exact (h.inserting i u r s g₀ b hi₀ hb).user_mono hev
      · exact (hinv.inserting hi₀ hw hch).user_mono hev
  · rcases hs.phase_eq hi with hi | ⟨-, -, hstart⟩ | ⟨o, c, g₀, -, -, hi₀, -, hst⟩
    · obtain ⟨u, htells, hreg⟩ := h.notifying i q j email event hi he
      exact ⟨u, htells, hreg.mono hev⟩
    · cases hstart
    · obtain ⟨rfl, u, rfl, hq⟩ := hst.notifying (hinv.ne_lost hi₀)
      obtain ⟨hreg, htells⟩ := h.registered hinv hi₀ he hq
      exact ⟨u, htells, hreg.mono hev⟩
  · have hold (hpub : pub ∈ a.shared.published) : ∃ q g u, a'.phase pub.sender = some (q, g) ∧
        Tells q pub.event u ∧ Registered a'.shared.db u pub.event.userEmail := by
      obtain ⟨q, g, u, hi, htells, hreg⟩ := h.published pub hpub
      obtain ⟨g', hi'⟩ := hs.phase_request hi
      exact ⟨q, g', u, hi', htells, hreg.mono hev⟩
    have hs' := hs
    cases hs with
    | env he => exact hold (envStep_published he ▸ hpub)
    | spawn hi => exact hold hpub
    | run hi hw hst =>
      rcases hst.published (hinv.ne_lost hi) with heq | ⟨j, email, event, rfl, he, heq⟩
      · exact hold (heq ▸ hpub)
      · rw [heq, List.mem_append, List.mem_singleton] at hpub
        rcases hpub with hpub | rfl
        · exact hold hpub
        · obtain ⟨u, htells, hreg⟩ := h.notifying _ _ j email event hi he
          have hemail : event.userEmail = email := by
            cases j <;> cases he <;> rfl
          obtain ⟨g', hi'⟩ := hs'.phase_request hi
          exact ⟨_, g', u, hi', htells, hemail ▸ hreg.mono hev⟩

theorem Reachable.signed (h : Reachable server sys) : ∃ a, View server sys a ∧ Inv server a ∧ Signed a := by
  refine h.keeps (fun users nextUser _ => ?_) fun a l call a' hinv hsig hs => hsig.step hinv hs
  exact ⟨fun b hb => (by cases hb), fun i u r s g b hi => (by cases hi),
    fun i q j email event hi => (by cases hi), fun pub hpub => by cases hpub⟩

/-- An event is for the user of its request. -/
theorem Reachable.told (h : Reachable server sys) {pub : Publication} (hpub : pub ∈ sys.shared.published) :
    ∃ q u, sys.request pub.sender = some q ∧ Tells q pub.event u ∧
      Registered sys.shared.db u pub.event.userEmail := by
  obtain ⟨a, hv, hinv, hsig⟩ := h.signed
  rw [← hv.shared] at hpub ⊢
  obtain ⟨q, g, u, hi, htells, hreg⟩ := hsig.published pub hpub
  exact ⟨q, u, hv.request hi, htells, hreg⟩

/-- **An event is for the user of its request**, at the e-mail he is registered under and nobody else is. -/
theorem Reachable.addressed (h : Reachable server sys) {pub : Publication}
    (hpub : pub ∈ sys.shared.published) : ∃ q u, sys.request pub.sender = some q ∧ Tells q pub.event u ∧
      Registered sys.shared.db u pub.event.userEmail ∧
      ∀ u', Registered sys.shared.db u' pub.event.userEmail → u' = u := by
  obtain ⟨q, u, hreq, htells, hreg⟩ := h.told hpub
  obtain ⟨a, hv, -, hacc⟩ := h.accounts
  refine ⟨q, u, hreq, htells, hreg, fun u' ⟨user', hu', hid', he'⟩ => ?_⟩
  obtain ⟨user, hu, hid, he⟩ := hreg
  have hemails := hacc.emails
  rw [hv.shared] at hemails
  rw [← hid, ← hid', List.inj_on_of_nodup_map hemails hu' hu (he'.trans he.symm)]

end

/-- Ann's booking tells her. -/
theorem addressed_seatBooked : ∃ sys : System, runSome seatBooked = some sys ∧
    ∃ pub ∈ sys.shared.published, ∃ q u, sys.request pub.sender = some q ∧ Tells q pub.event u ∧
      Registered sys.shared.db u pub.event.userEmail := by
  obtain ⟨sys, hsys, hpub⟩ := exists_runSome seatBooked (fun sys => sys.shared.published.length = 1)
    (by decide +kernel)
  obtain ⟨pub, hmem⟩ := List.exists_mem_of_length_pos (l := sys.shared.published) (by omega)
  obtain ⟨q, u, hq, htells, hreg, -⟩ := Reachable.addressed (reachable_runSome hsys) hmem
  exact ⟨sys, hsys, pub, hmem, q, u, hq, htells, hreg⟩

end BusBookings

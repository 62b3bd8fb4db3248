import BusBookings.Proof.Alone
import BusBookings.Proof.Events

/-!
# A booking or cancellation that fails

The event is published before the transaction is committed. A failure of any call before the
publication leaves nothing behind; a failure after it, of the flush or of the commit, rolls the
database back and leaves the event published. So a request is all or nothing exactly if no call
fails once its event is published (`allOrNothing_iff`).
-/

namespace BusBookings

open Async ReadCommitted

/-- A request to make or to cancel a booking. -/
def Request.books : Request → Bool
  | .createBooking .. | .cancelBooking .. => true
  | _ => false

/-- The full change of a successful booking or cancellation. -/
def Response.change : Response → List Change
  | .created b => [.insertBooking (Db.setStatus .pending b), .updateSeat b.seatId true,
      .updateBooking b.id .confirmed]
  | .cancelled b => [.updateBooking b.id .cancelled, .updateSeat b.seatId false]
  | _ => []

/-- Request `i` is answered `resp`: its full change is committed and its one event is published, or the
database is `db` as before and nothing is published. -/
def AllOrNothing (db : Db) (i : Nat) (resp : Response) (w : World) : Prop :=
  (resp.books = true ∧ w.db = Store.applyAll Db.schema resp.change db ∧
    (Stage.ended resp).Sent i (w.sentBy i)) ∨
  ((∃ e, resp = errorResponse e) ∧ w.db = db ∧ w.sentBy i = [])

section

variable {server : Server} {ph : Nat → Option (Request × Stage)} {i : Nat} {q : Request}
  {g g' : Stage} {w w' : World} {o : Outcome} {c : Call} {db : Db}

/-- The database a booking or cancellation commits. -/
theorem Active.commit_change {j : Job} (h : Active server ph i q (.closing j) w) (hq : q.books = true) :
    j.response.books = true ∧
      (w.commit i).db = Store.applyAll Db.schema j.response.change w.db := by
  have hview : (w.commit i).db = Store.applyAll Db.schema (Stage.closing j).writes w.db :=
    h.view (by simp)
  have hfacts := h.facts
  rw [hview]
  cases q with
  | createBooking u r s =>
    obtain ⟨b, route, rfl, hres⟩ := Job.Facts.isCreate hfacts
    have hb : Db.setStatus .pending (Db.setStatus .confirmed b) = b := by
      rw [Db.setStatus_setStatus, hres.booking]
      rfl
    refine ⟨rfl, ?_⟩
    simp only [Job.response, Response.change, hb]
    rfl
  | cancelBooking u id =>
    obtain ⟨b, free, rfl, rfl, hheld⟩ := Job.Facts.isCancel hfacts
    refine ⟨rfl, ?_⟩
    cases free with
    | true => rfl
    | false =>
      obtain ⟨u', -, -, hcancelled⟩ := hfacts
      -- the seat of a cancelled booking is free already
      refine (Db.updateSeat_free fun s hs hid => ?_).symm
      have hcons : w.db.Consistent := h.inv.consistent
      apply Bool.eq_false_iff.2
      intro hbooked
      obtain ⟨b', hb', hseat, hconf⟩ := (hcons.flag s hs).1 hbooked
      have := hcons.oneBooking b' hb' _ (hcancelled rfl) (hseat.trans hid)
      rw [this] at hconf
      cases hconf
  | _ => cases hq

/-- The request is all or nothing when it ends, and until then has changed nothing. -/
def Atomic (db : Db) (i : Nat) (g : Stage) (w : World) : Prop := match g with
  | .ended resp => AllOrNothing db i resp w
  | g => w.db = db ∧ g.Sent i (w.sentBy i)

theorem atomic_of_not_ended (hg : ∀ resp, g ≠ .ended resp) :
    Atomic db i g w ↔ w.db = db ∧ g.Sent i (w.sentBy i) := by
  unfold Atomic
  split
  · exact absurd rfl (hg _)
  · rfl

theorem Atomic.step (h : Active server ph i q g w) (hq : q.books = true) (hJ : Atomic db i g w)
    (hclean : o = .fail → w.sentBy i = []) (hw : Waits q g c) (hs : Step server q i o c g w g' w') :
    Atomic db i g' w' := by
  have hg : ∀ resp, g ≠ .ended resp := fun resp he => not_waits_ended (he ▸ hw)
  obtain ⟨hdb, hsent⟩ := (atomic_of_not_ended hg).1 hJ
  have hsent' : g'.Sent i (w'.sentBy i) := h.inv.sent (q := q) (by simp) hsent hs hclean
  by_cases hend : ∃ resp, g' = .ended resp
  · obtain ⟨resp, rfl⟩ := hend
    rcases hs.ended with ⟨j, rfl, rfl, rfl⟩ | ⟨e, e', rfl, rfl, rfl⟩
    · obtain ⟨hbooks, hchange⟩ := h.commit_change hq
      exact .inl ⟨hbooks, hdb ▸ hchange, hsent'⟩
    · exact .inr ⟨⟨e', rfl⟩, hdb, hsent⟩
  · rw [not_exists] at hend
    exact (atomic_of_not_ended hend).2 ⟨(hs.db_eq h.ne_lost hend).trans hdb, hsent'⟩

/-- A request that has failed with its event published. -/
def Torn (i : Nat) (g : Stage) (w : World) : Prop :=
  ((∃ e, g = .failing e) ∨ ∃ e, g = .ended (errorResponse e)) ∧ w.sentBy i ≠ []

theorem Torn.step (h : Torn i g w) (hw : Waits q g c) (hs : Step server q i o c g w g' w') :
    Torn i g' w' := by
  obtain ⟨⟨e, rfl⟩ | ⟨e, rfl⟩, hsent⟩ := h
  · cases hs with
    | fail => exact ⟨.inl ⟨_, rfl⟩, hsent⟩
    | rollback => exact ⟨.inr ⟨_, rfl⟩, hsent⟩
    | read hr => exact absurd rfl (hr.not_failing e)
    | write hwr => exact absurd rfl (hwr.not_failing e)
    | writeFails hwr => exact absurd rfl (hwr.not_failing e)
  · exact absurd hw not_waits_ended

/-- A call that fails after the publication tears the request. -/
theorem torn_of_fail (h : Active server ph i q g w) (hsent : w.sentBy i ≠ [])
    (hs : Step server q i .fail c g w g' w') : Torn i g' w' := by
  cases hs with
  | fail => exact ⟨.inl ⟨_, rfl⟩, hsent⟩
  | rollback => exact ⟨.inr ⟨_, rfl⟩, hsent⟩
  | lost => exact absurd rfl h.ne_lost

theorem Torn.not_allOrNothing {resp : Response} (h : Torn i (.ended resp) w) :
    ¬ AllOrNothing db i resp w := by
  obtain ⟨⟨e, he⟩ | ⟨e, he⟩, hsent⟩ := h
  · cases he
  · cases he
    rintro (⟨hbooks, -⟩ | ⟨-, -, hnone⟩)
    · cases e <;> cases hbooks
    · exact hsent hnone

end

section

variable {server : Server} {sys₀ sys : System} {q : Request} {os : List Outcome} {resp : Response}

/-- **A booking or cancellation is all or nothing iff no call fails once its event is published.** -/
theorem allOrNothing_iff (h : Reachable server sys₀) (hq : q.books = true)
    (hrun : (semantics server).steps sys₀ (.spawn q :: callsOf sys₀.tasks.length os) = some sys)
    (hend : sys.answer sys₀.tasks.length = some resp) :
    AllOrNothing sys₀.shared.db sys₀.tasks.length resp sys.shared ↔
      ∀ os₁ os₂ sys₁, os = os₁ ++ .fail :: os₂ →
        (semantics server).steps sys₀ (.spawn q :: callsOf sys₀.tasks.length os₁) = some sys₁ →
          sys₁.shared.sentBy sys₀.tasks.length = [] := by
  obtain ⟨ph, hactive, hview⟩ := h.active q
  have hnew := h.sentBy_new
  generalize sys₀.tasks.length = i at *
  have hsteps : (semantics server).steps (arrive server sys₀ q) (callsOf i os) = some sys := hrun
  have hended {g : Stage} (hv : View server sys ⟨sys.shared, Function.update ph i (some (q, g))⟩)
      (hs : Active server ph i q g sys.shared) : g = .ended resp := by
    obtain ⟨q', hq'⟩ := (answer_iff hv hs.inv).1 hend
    simpa using congrArg (Option.map (·.2)) hq'
  constructor
  · intro hatomic os₁ os₂ sys₁ hos hrun₁
    by_contra hsent
    subst hos
    rw [callsOf, List.map_append, Semantics.steps_append] at hsteps
    obtain ⟨sys₁', h₁, h₂⟩ := Option.bind_eq_some_iff.1 hsteps
    obtain rfl : sys₁' = sys₁ := Option.some.inj (h₁.symm.trans hrun₁)
    obtain ⟨sys₂, hfail, h₃⟩ := Option.bind_eq_some_iff.1 h₂
    obtain ⟨g₁, hv₁, hs₁, -⟩ := Active.steps (J := fun _ _ => True) (K := fun _ _ => True)
      (fun _ _ _ _ _ _ _ _ _ _ _ => trivial) hview hactive trivial (fun _ _ _ _ _ _ => trivial) h₁
    obtain ⟨c, g₂, -, hst, hv₂, hs₂⟩ := hs₁.call hv₁ hfail
    obtain ⟨g₃, hv₃, hs₃, htorn⟩ := Active.steps (J := Torn i) (K := fun _ _ => True)
      (fun _ _ _ _ _ _ _ hJ _ hw hst => hJ.step hw hst) hv₂ hs₂ (torn_of_fail hs₁ hsent hst)
      (fun _ _ _ _ _ _ => trivial) h₃
    obtain rfl := hended hv₃ hs₃
    exact htorn.not_allOrNothing hatomic
  · intro hclean
    obtain ⟨g, hv, hs, hJ⟩ := Active.steps (J := Atomic sys₀.shared.db i)
      (K := fun o w => o = .fail → w.sentBy i = [])
      (fun o c g w g' w' hs hJ hK hw hst => hJ.step hs hq hK hw hst) hview hactive ⟨rfl, hnew⟩
      (fun os₁ o os₂ sys₁ hos h₁ ho => hclean os₁ os₂ sys₁ (ho ▸ hos) h₁) hsteps
    obtain rfl := hended hv hs
    exact hJ

end

/-- Ann books seat 1, and every call is carried out. -/
theorem allOrNothing_iff_booked : ∃ sys₀ sys resp, runSome routeCreated = some sys₀ ∧
    (semantics plainServer).steps sys₀ (.spawn (.createBooking 2 1 1) ::
      callsOf sys₀.tasks.length (List.replicate 13 .ok)) = some sys ∧
    AllOrNothing sys₀.shared.db sys₀.tasks.length resp sys.shared := by
  obtain ⟨sys₀, h₀, hrun⟩ := exists_runSome routeCreated (fun sys₀ =>
    (((semantics plainServer).steps sys₀ (.spawn (.createBooking 2 1 1) ::
      callsOf sys₀.tasks.length (List.replicate 13 .ok))).bind
        fun sys => sys.answer sys₀.tasks.length).isSome = true) (by decide +kernel)
  obtain ⟨resp, hresp⟩ := Option.isSome_iff_exists.1 hrun
  obtain ⟨sys, hsys, hanswer⟩ := Option.bind_eq_some_iff.1 hresp
  refine ⟨sys₀, sys, resp, h₀, hsys,
    (allOrNothing_iff (reachable_runSome h₀) rfl hsys hanswer).2 fun os₁ os₂ sys₁ hos => ?_⟩
  have : Outcome.fail ∈ List.replicate 13 Outcome.ok := by rw [hos]; simp
  cases (List.mem_replicate.1 this).2

/-- Ann books seat 1, and the commit fails: the answer is 500, there is no booking, and its
confirmation is published. -/
theorem createBooking_torn : ∃ sys₀ sys, runSome routeCreated = some sys₀ ∧ sys₀.Quiescent ∧
    (semantics plainServer).steps sys₀ (.spawn (.createBooking 2 1 1) ::
      callsOf sys₀.tasks.length (List.replicate 12 .ok ++ [.fail, .ok])) = some sys ∧
    sys.answer sys₀.tasks.length = some (errorResponse .infrastructure) ∧
    sys.shared.db.bookings.rows = [] ∧ (sys.shared.sentBy sys₀.tasks.length).length = 1 ∧
    ¬ AllOrNothing sys₀.shared.db sys₀.tasks.length (errorResponse .infrastructure) sys.shared := by
  obtain ⟨sys₀, h₀, hq, hrun⟩ := exists_runSome routeCreated (fun sys₀ => sys₀.Quiescent ∧
    ((semantics plainServer).steps sys₀ (.spawn (.createBooking 2 1 1) ::
      callsOf sys₀.tasks.length (List.replicate 12 .ok ++ [.fail, .ok]))).any (fun sys =>
        sys.answer sys₀.tasks.length = some (errorResponse .infrastructure) ∧
          sys.shared.db.bookings.rows = [] ∧ (sys.shared.sentBy sys₀.tasks.length).length = 1) = true)
    (by decide +kernel)
  obtain ⟨sys, hsys, hP⟩ := (Option.any_eq_true _ _).1 hrun
  obtain ⟨hanswer, hrows, hsent⟩ := of_decide_eq_true hP
  refine ⟨sys₀, sys, h₀, hq, hsys, hanswer, hrows, hsent, ?_⟩
  rintro (⟨hbooks, -⟩ | ⟨-, -, hnone⟩)
  · cases hbooks
  · rw [hnone] at hsent
    cases hsent

end BusBookings

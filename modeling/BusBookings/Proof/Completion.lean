import BusBookings.Protocol.Calls
import BusBookings.Proof.Locks

/-!
# Every request is answered

A request takes a bounded number of calls (`handler_within`) and some request can always take its next
one (`Reachable.exists_step`). So whatever the order of the calls, they end, and they end only when every
request has been answered: `Reachable.completes`.
-/

namespace BusBookings

open Async

section

variable {server : Server} {sys sys' : System}

theorem Reachable.bounded (h : Reachable server sys) :
    ∃ left, Async.Bounded (semantics server) maxCalls left sys := by
  obtain ⟨sys₀, ⟨users, nextUser, -, -, rfl⟩, hr⟩ := h
  have hstart : Async.Bounded (semantics server) maxCalls (fun _ => 0)
      ⟨⟨.init ⟨users, .empty, .empty, .empty⟩, nextUser, 1, 1, 1, ∅, []⟩, []⟩ := fun i t ht => by simp at ht
  exact hstart.of_run (fun q i => handler_within q i) hr

theorem Reachable.steps {ls : List Label} (h : Reachable server sys)
    (hs : (semantics server).steps sys ls = some sys') : Reachable server sys' := by
  obtain ⟨sys₀, h₀, hr⟩ := h
  exact ⟨sys₀, h₀, hr.trans (Run.of_steps hs)⟩

/-- While a request is in flight, some request can take its call. -/
theorem Reachable.exists_step (h : Reachable server sys) (hq : ¬ sys.Quiescent) :
    ∃ i sys', (semantics server).step sys (.run .ok i) = some sys' := by
  obtain ⟨a, hv, hinv, hback⟩ := h.backed
  simp only [System.Quiescent, not_forall] at hq
  obtain ⟨t, ht, hco⟩ := hq
  obtain ⟨i, hi⟩ := List.getElem?_of_mem ht
  obtain ⟨c, hc⟩ := Option.ne_none_iff_exists'.1 hco
  have hawait : sys.awaiting i = some c := by simp [Async.System.awaiting, hi, hc]
  cases hstep : (semantics server).step sys (.run .ok i) with
  | some sys' => exact ⟨i, sys', hstep⟩
  | none =>
    obtain ⟨j, hj⟩ := (step_eq_none hawait).1 hstep
    obtain ⟨-, sys', hs⟩ := hinv.waitsFor_moves hback hv hj
    exact ⟨j, sys', hs⟩

/-- **Every request is answered.** Without arrivals the calls end, in whatever order they are taken and
whichever of them fail, and where none is left to take every request has been answered; and there is such
an end. -/
theorem Reachable.completes (h : Reachable server sys) :
    (∀ ls sys', (∀ l ∈ ls, ∀ q, l ≠ .spawn q) → (semantics server).steps sys ls = some sys' →
      ls.countP Label.isCall ≤ sys.callsLeft maxCalls ∧
        (sys'.Quiescent ∨ ∃ i sys'', (semantics server).step sys' (.run .ok i) = some sys'')) ∧
    ∃ (is : List Nat) (sys' : System), (semantics server).steps sys (is.map (.run .ok)) = some sys' ∧
      sys'.Quiescent := by
  obtain ⟨left₀, h₀⟩ := h.bounded
  obtain ⟨left, hb, hsum⟩ := h₀.inFlight
  refine ⟨fun ls sys' hls hs => ⟨?_, ?_⟩, ?_⟩
  · obtain ⟨left', -, -, hcount⟩ := hb.steps hls hs
    omega
  · by_cases hq : sys'.Quiescent
    · exact .inl hq
    · exact .inr ((h.steps hs).exists_step hq)
  · exact exists_quiescent (I := Reachable server) (o := .ok)
      (fun sys i sys' h hs => h.steps (Semantics.steps_one hs)) (fun sys h hq => h.exists_step hq) h hb

end

/-- Bob waits for Ann; 30 calls answer both. -/
theorem completes_bothBooking : ∃ sys : System, runSome bothBooking = some sys ∧
    sys.callsLeft maxCalls = 30 ∧ ∃ (is : List Nat) (sys' : System), is.length ≤ 30 ∧
      (semantics plainServer).steps sys (is.map (.run .ok)) = some sys' ∧ sys'.Quiescent := by
  obtain ⟨sys, hsys, hleft⟩ := exists_runSome bothBooking (fun sys => sys.callsLeft maxCalls = 30)
    (by decide +kernel)
  obtain ⟨hends, is, sys', hs, hq⟩ := Reachable.completes (reachable_runSome hsys)
  refine ⟨sys, hsys, hleft, is, sys', ?_, hs, hq⟩
  have hcount := (hends _ sys' (by simp) hs).1
  rw [hleft, List.countP_map] at hcount
  simpa [List.countP_true, Function.comp_def, Label.isCall] using hcount

end BusBookings

import BusBookings.Proof.Runs

/-!
# Requests one after the other

When a request arrives only once the others are answered, at most one is in flight in every state
(`OneInFlight`).
-/

namespace BusBookings

open Async ReadCommitted

/-- The request has not ended. -/
def Stage.Open (g : Stage) : Prop := ∀ resp, g ≠ .ended resp

/-- At most one request is in flight, and it is of the kind `K`. -/
structure OneInFlight (K : Request → Prop) (a : Abs World Request Stage) : Prop where
  turn : ∀ i j q g q' g', a.phase i = some (q, g) → a.phase j = some (q', g') → g.Open → g'.Open → i = j
  kinds : ∀ i q g, a.phase i = some (q, g) → g.Open → K q

section

variable {server : Server} {a a' : Abs World Request Stage} {i : Nat} {q : Request} {g : Stage}
  {c : Call} {sys : System} {l : Label} {call : Option Call} {K : Request → Prop}

theorem open_of_waits (hw : Waits q g c) : g.Open := by
  intro resp he
  subst he
  exact not_waits_ended hw

theorem not_open_of_quiescent (hv : View server sys a) (hinv : Inv server a) (hq : sys.Quiescent)
    (hi : a.phase i = some (q, g)) : ¬ g.Open := by
  obtain ⟨resp, rfl⟩ := ended_of_quiescent hv hinv hq hi
  exact fun ho => ho resp rfl

theorem OneInFlight.start (hv : View server sys a) (hinv : Inv server a) (hq : sys.Quiescent) :
    OneInFlight K a where
  turn _ _ _ _ _ _ hi _ hg _ := absurd hg (not_open_of_quiescent hv hinv hq hi)
  kinds _ _ _ hi hg := absurd hg (not_open_of_quiescent hv hinv hq hi)

theorem OneInFlight.step (h : OneInFlight K a) (hv : View server sys a) (hinv : Inv server a)
    (hl : ∀ q, l = .spawn q → sys.Quiescent ∧ K q) (hs : (protocol server).Step envStep a l call a') :
    OneInFlight K a' where
  turn i j q g q' g' hi hj hg hg' := by
    cases hs with
    | env he => exact h.turn i j q g q' g' hi hj hg hg'
    | spawn hk =>
      rename_i k r
      have hnew : ∀ m q g, Function.update a.phase k (some (r, .start)) m = some (q, g) → g.Open →
          m = k := by
        intro m q g hm ho
        by_contra hmk
        rw [Function.update_of_ne hmk] at hm
        exact not_open_of_quiescent hv hinv (hl r rfl).1 hm ho
      rw [hnew i q g hi hg, hnew j q' g' hj hg']
    | run hk hw hst =>
      rename_i o k r g₀ g₁ c w'
      have hsame : ∀ m q g, Function.update a.phase k (some (r, g₁)) m = some (q, g) → g.Open → m = k := by
        intro m q g hm ho
        by_contra hmk
        rw [Function.update_of_ne hmk] at hm
        exact hmk (h.turn m k _ _ _ _ hm hk ho (open_of_waits (q := r) hw))
      rw [hsame i q g hi hg, hsame j q' g' hj hg']
  kinds i q g hi hg := by
    rcases hs.phase_eq hi with hold | ⟨rfl, -, -⟩ | ⟨o, c, g₀, -, -, hi, hw, -⟩
    · exact h.kinds i q g hold hg
    · exact (hl q rfl).2
    · exact h.kinds i q g₀ hi (open_of_waits (q := q) hw)

/-- A request that ends leaves none in flight. -/
theorem OneInFlight.quiescent (h : OneInFlight K a) (hv' : View server sys a') {o : Outcome}
    {resp : Response}
    (hs : (protocol server).Step envStep a (.run o i) call a') (hi : a.phase i = some (q, g)) (hg : g.Open)
    (hi' : a'.phase i = some (q, .ended resp)) : sys.Quiescent := by
  have hends : ∀ j q' g', a'.phase j = some (q', g') → ¬ g'.Open := by
    intro j q' g' hj ho
    obtain rfl : j = i := by
      rcases hs.phase_eq hj with hold | ⟨he, -, -⟩ | ⟨o', c, g₀, he, -, -, -, -⟩
      · exact h.turn j i _ _ _ _ hold hi ho hg
      · cases he
      · cases he
        rfl
    rw [hi'] at hj
    cases hj
    exact ho resp rfl
  intro t ht
  obtain ⟨j, hj⟩ := List.getElem?_of_mem ht
  obtain ⟨g', hg', -⟩ := hv'.sim j t hj
  obtain ⟨t', ht', -, hwaits, -⟩ := hv'.waits hg'
  obtain rfl : t = t' := Option.some.inj (hj.symm.trans ht')
  cases hco : t.co with
  | done resp => rfl
  | await c k => exact absurd (open_of_waits (hwaits c (by rw [hco]; rfl))) (hends j _ _ hg')

end

end BusBookings

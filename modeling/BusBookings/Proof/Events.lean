import BusBookings.Proof.Runs

/-!
# What a request has published

As long as no call of a request fails after its event is published, its stage tells what it has
published (`Stage.Sent`): nothing before the publication, its one event after it, nothing if it fails.
`Announced n` is this invariant for the requests from `n` on.
-/

namespace BusBookings

open Async ReadCommitted

/-- What request `i` has published. -/
def World.sentBy (w : World) (i : Nat) : List Publication := w.published.filter (·.sender = i)

theorem World.sentBy_congr {w w' : World} (h : w'.published = w.published) (i : Nat) :
    w'.sentBy i = w.sentBy i := by
  unfold sentBy
  rw [h]

/-- The publications of a booking's confirmation and of its cancellation. -/
def confirmation (i : Nat) (id : Int) (email info : String) : Publication :=
  ⟨i, .confirmed id email info, queueConfirmed, exchange⟩

def cancellation (i : Nat) (id : Int) (email : String) : Publication :=
  ⟨i, .cancelled id email, queueCancelled, exchange⟩

/-- The answer to a successful booking or cancellation. -/
def Response.books : Response → Bool
  | .created _ | .cancelled _ => true
  | _ => false

/-- The job answers with a booking only if it has made or cancelled it. -/
def Job.Quiet : Job → Prop
  | .read resp => resp.books = false
  | _ => True

/-- What request `i` has published in a stage. -/
def Stage.Sent (i : Nat) : Stage → List Publication → Prop
  | .closing (.create b _), ps | .ended (.created b), ps =>
    ∃ email info, ps = [confirmation i b.id email info]
  | .flushing b, ps | .closing (.cancel b _), ps | .ended (.cancelled b), ps =>
    ∃ email, ps = [cancellation i b.id email]
  | .storing _ _ _ resp, ps => ps = [] ∧ resp.books = false
  | .invalidating j, ps | .deleting j _, ps | .invalidated j, ps | .notifying j _, ps
  | .closing j, ps => ps = [] ∧ j.Quiet
  | .lost, _ => True
  | _, ps => ps = []

/-- No request that has not arrived yet has published anything. -/
def Silent (a : Abs World Request Stage) : Prop := ∀ i, a.phase i = none → a.shared.sentBy i = []

def Announced (n : Nat) (a : Abs World Request Stage) : Prop :=
  ∀ i q g, n ≤ i → a.phase i = some (q, g) → g.Sent i (a.shared.sentBy i)

section

variable {server : Server} {a : Abs World Request Stage} {i : Nat} {q : Request} {g g' : Stage}
  {w w' : World} {o : Outcome} {c : Call} {ps : List Publication}

theorem change_published {ch : Change} {r : Except Exc Unit}
    (h : (w.bump c).change i ch = some (r, w')) : w'.published = w.published := by
  cases r with
  | ok u =>
    obtain ⟨hb, -, rfl⟩ := change_ok h
    exact World.published_bump w c
  | error e =>
    obtain ⟨-, -, rfl⟩ := change_error h
    exact World.published_bump w c

/-- A step publishes for its own request only. -/
theorem Step.sentBy_ne (h : Step server q i o c g w g' w') (hl : g ≠ .lost) {j : Nat} (hj : j ≠ i) :
    w'.sentBy j = w.sentBy j := by
  cases h with
  | write hw hch => exact World.sentBy_congr (change_published hch) j
  | writeFails hw hch => exact World.sentBy_congr (change_published hch) j
  | publish he hq => simp [World.sentBy, Ne.symm hj]
  | lost => exact absurd rfl hl
  | _ => rfl

theorem Stage.Sent.afterDelete {j : Job} (h : ps = [] ∧ j.Quiet) : (Stage.afterDelete j).Sent i ps := by
  cases j <;> exact h

/-- A query publishes nothing. -/
theorem Reads.sent {v : Db} (h : Reads server v q c g g') (hs : g.Sent i ps) : g'.Sent i ps := by
  cases h with
  | again ha hp => cases ha <;> first | exact hs | exact ⟨hs, trivial⟩
  | lost => trivial
  | route => exact routeCheck_ind (fun _ => hs) (fun _ => hs) _
  | seat => exact seatCheck_ind (fun _ => hs) hs _
  | booking => exact cancelCheck_ind (fun _ => hs) (fun _ => hs) _
  | admin => exact adminCheck_ind (fun _ => hs) hs _
  | count => exact hs
  | page | seats | history => exact ⟨hs, rfl⟩
  | email => exact registerCheck_ind (fun _ => hs) hs _
  | login => exact loginCheck_ind (fun _ => hs) (fun _ => ⟨hs, rfl⟩) _
  | creator | owner => exact hs

/-- A change publishes nothing. -/
theorem Writes.sent {ch : Change} (h : Writes server w q c ch g g') (hs : g.Sent i ps) :
    g'.Sent i ps := by
  cases h with
  | insertSeats => exact ⟨hs, trivial⟩
  | _ => exact hs

/-- Nothing is published before an `INSERT`. -/
theorem Writes.sent_insert {ch : Change} (h : Writes server w q c ch g g') (hins : ch.inserts = true)
    (hs : g.Sent i ps) : ps = [] := by
  cases h with
  | mark | confirm | cancel | free => cases hins
  | _ => exact hs

/-- One step of a request, from what it has published to what it then has. -/
theorem Inv.sent (hinv : Inv server a) (hi : a.phase i = some (q, g))
    (hsent : g.Sent i (a.shared.sentBy i)) (hs : Step server q i o c g a.shared g' w')
    (hclean : o = .fail → a.shared.sentBy i = []) : g'.Sent i (w'.sentBy i) := by
  cases hs with
  | fail => exact hclean rfl
  | read hr => exact hr.sent hsent
  | write hwr hch =>
    rw [World.sentBy_congr (change_published hch)]
    exact hwr.sent hsent
  | writeFails hwr hch =>
    rw [World.sentBy_congr (change_published hch)]
    exact hwr.sent_insert (hinv.insert_of_error hi hwr hch).1 hsent
  | cachedRoutes hq hk => exact cacheCheck_ind (fun _ => hsent) hsent (fun _ => ⟨hsent, rfl⟩) _
  | cachedSeats hq hk => exact cacheCheck_ind (fun _ => hsent) hsent (fun _ => ⟨hsent, rfl⟩) _
  | store => exact hsent
  | keys hp =>
    unfold Stage.afterKeys
    split
    · exact .afterDelete hsent
    · exact hsent
  | delete => exact .afterDelete hsent
  | publish he hq =>
    rename_i j email event queue
    have hnone : a.shared.sentBy i = [] := hsent.1
    have hsent' : World.sentBy { a.shared with published :=
        a.shared.published ++ [⟨i, event, queue, exchange⟩] } i = [⟨i, event, queue, exchange⟩] := by
      show (a.shared.published ++ _).filter _ = _
      rw [List.filter_append, show a.shared.published.filter (·.sender = i) = [] from hnone]
      simp
    rw [hsent']
    cases j with
    | create b route =>
      cases he
      exact ⟨email, routeInfo route, by rw [hq]; rfl⟩
    | cancel b free =>
      cases he
      cases free <;> exact ⟨email, by rw [hq]; rfl⟩
    | _ => cases he
  | commit =>
    rename_i j
    cases j with
    | read resp => cases resp <;> first | exact hsent.1 | cases hsent.2
    | _ => first | exact hsent | exact hsent.1
  | rollback =>
    rename_i e
    cases o <;> cases e <;> exact hsent
  | lost => trivial

theorem envStep_published {e : EnvEvent} (h : envStep e w = some w') :
    w'.published = w.published := by
  cases e <;> cases h <;> rfl

theorem Silent.step {l : Label} {call : Option Call} {a' : Abs World Request Stage}
    (hinv : Inv server a) (h : Silent a) (hs : (protocol server).Step envStep a l call a') :
    Silent a' := by
  intro j hj
  cases hs with
  | env he => exact (World.sentBy_congr (envStep_published he) j).trans (h j hj)
  | spawn hi =>
    rename_i n q
    have hjn : j ≠ n := by rintro rfl; simp at hj
    exact h j (by simpa [Function.update_of_ne hjn] using hj)
  | run hi hw hst =>
    rename_i o n q g g' c w'
    have hjn : j ≠ n := by rintro rfl; simp at hj
    exact (hst.sentBy_ne (hinv.ne_lost hi) hjn).trans (h j (by simpa [Function.update_of_ne hjn] using hj))

/-- **What the stages say about the publications is kept** while no call fails after its request has
published. -/
theorem Announced.step {n : Nat} {l : Label} {call : Option Call} {a' : Abs World Request Stage}
    (hinv : Inv server a) (hsilent : Silent a) (h : Announced n a)
    (hs : (protocol server).Step envStep a l call a')
    (hclean : ∀ i, l = .run .fail i → a.shared.sentBy i = []) : Announced n a' := by
  intro j q' g₁ hn hj
  cases hs with
  | env he =>
    rw [World.sentBy_congr (envStep_published he)]
    exact h j q' g₁ hn hj
  | spawn hi =>
    rename_i m q
    by_cases hjn : j = m
    · subst hjn
      simp only [Function.update_self, Option.some.injEq, Prod.mk.injEq] at hj
      obtain ⟨-, rfl⟩ := hj
      exact hsilent j hi
    · exact h j q' g₁ hn (by simpa [Function.update_of_ne hjn] using hj)
  | run hi hw hst =>
    rename_i o m q g g' c w'
    by_cases hjn : j = m
    · subst hjn
      simp only [Function.update_self, Option.some.injEq, Prod.mk.injEq] at hj
      obtain ⟨rfl, rfl⟩ := hj
      exact hinv.sent hi (h j q g hn hi) hst fun ho => hclean j (by rw [ho])
    · rw [hst.sentBy_ne (hinv.ne_lost hi) hjn]
      exact h j q' g₁ hn (by simpa [Function.update_of_ne hjn] using hj)

end

theorem Reachable.silent {server : Server} {sys : System} (h : Reachable server sys) :
    ∃ a, View server sys a ∧ Inv server a ∧ Silent a :=
  h.keeps (fun _ _ _ _ _ => rfl) fun _ _ _ _ hinv hsil hs => hsil.step hinv hs

/-- A new request has published nothing. -/
theorem Reachable.sentBy_new {server : Server} {sys : System} (h : Reachable server sys) :
    sys.shared.sentBy sys.tasks.length = [] := by
  obtain ⟨a, ha, -, hsil⟩ := h.silent
  rw [← ha.shared]
  exact hsil _ (ha.fresh _ (by simp))

end BusBookings

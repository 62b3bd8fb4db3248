import Mathlib
import BusBookings.Proof.Retry

/-!
# What becomes of an event

The dead-letter exchange has no queue bound to it: `booking.dlq` is bound to the default exchange
only, and a rejected message is dropped. An event whose message has been delivered is handled, or
lost for good when the first `MAX_ATTEMPTS` attempts of its notification all fail (`kept_iff`).
-/

namespace BusBookings

/-! ## The topology -/

theorem Event.queue_eq (e : Event) : e.queue = queueConfirmed ∨ e.queue = queueCancelled := by
  cases e <;> simp [Event.queue]

theorem targets_event (e : Event) :
    topology.targets exchange.name e.queue.routingKey = [e.queue.name] := by
  rcases e.queue_eq with h | h <;> rw [h] <;> decide

/-- Nothing is bound to the dead-letter exchange. -/
theorem targets_deadLetter : topology.targets deadLetterExchange.name queueDlq.routingKey = [] := by
  decide

theorem reject_event {qs : Amqp.Queues Message} {m : Message} (e : Event) :
    Amqp.reject topology qs e.queue.name m = qs :=
  Amqp.reject_of_targets_nil deadLetterExchange.name queueDlq.routingKey
    (by rcases e.queue_eq with h | h <;> rw [h] <;> decide) targets_deadLetter

/-- The two queues have different names. -/
theorem Event.queue_eq_of_name {e e' : Event} (h : e.queue.name = e'.queue.name) : e.queue = e'.queue := by
  rcases e.queue_eq with he | he <;> rcases e'.queue_eq with he' | he' <;> rw [he, he'] at h ⊢ <;>
    exact absurd h (by decide)

theorem Event.queue_ne_dlq (e : Event) : e.queue.name ≠ queueDlq.name := by
  rcases e.queue_eq with h | h <;> rw [h] <;> decide

/-! ## Runs -/

namespace Mq

section

variable {E : Type} (notify : Nat → Nat → Except E Unit)

/-- One of the first `MAX_ATTEMPTS` attempts for message `n` succeeds. -/
def Succeeds (n : Nat) : Prop := ∃ k, 1 ≤ k ∧ k ≤ maxAttempts ∧ notify n k = .ok ()

def Reachable (s : Mq) : Prop := ∃ ls, start.steps notify ls = some s

/-- No event waits for its handler or is in it. -/
def Drained (s : Mq) : Prop := (∀ e : Event, s.queues e.queue.name = []) ∧ s.running = []

/-- Event `n` was handled, or is a dead letter. -/
def Kept (s : Mq) (n : Nat) : Prop :=
  (∃ m ∈ s.handled, m.id = n) ∨ (∃ m ∈ s.queues queueDlq.name, m.id = n) ∨ ∃ m ∈ s.deadLetters, m.id = n

structure Inv (s : Mq) : Prop where
  waiting : ∀ queue, ∀ m ∈ s.queues queue, queue = m.event.queue.name
  running : ∀ d ∈ s.running, d.queue = d.message.event.queue
  fate : ∀ n e, s.published[n]? = some e → ⟨n, e⟩ ∈ s.queues e.queue.name ∨
    (∃ d ∈ s.running, d.message = ⟨n, e⟩) ∨ ⟨n, e⟩ ∈ s.handled ∨ ⟨n, e⟩ ∈ s.rejected
  handled : ∀ m ∈ s.handled, Succeeds notify m.id
  rejected : ∀ m ∈ s.rejected, ¬ Succeeds notify m.id
  deadLetters : s.deadLetters = []

variable {notify} {s s' : Mq}

/-- **A delivery** starts a handler for the oldest message. -/
theorem deliver_eq {queue : RabbitQueue} (h : s.deliver queue = some s') : ∃ m ms,
    s.queues queue.name = m :: ms ∧ s' = { s with
      queues := Function.update s.queues queue.name ms
      delivered := s.delivered ++ [m]
      running := s.running ++ [⟨queue, m, 0⟩] } := by
  obtain ⟨⟨m, qs⟩, hpop, rfl⟩ := Option.map_eq_some_iff.1 h
  obtain ⟨ms, hms, rfl⟩ := Amqp.pop_eq_some.1 hpop
  exact ⟨m, ms, hms, rfl⟩

/-- **A step of a handler**: it goes on, returns, or raises and its message is dropped. -/
theorem proceed_eq (hinv : Inv notify s) {i : Nat} (h : s.proceed notify i = some s') : ∃ d,
    s.running[i]? = some d ∧
      ((d.done < (withRetry (notify d.message.id) maxAttempts).1.length ∧
          s' = { s with running := s.running.set i { d with done := d.done + 1 } }) ∨
        (Succeeds notify d.message.id ∧ s' = { s with
          running := s.running.eraseIdx i, handled := s.handled ++ [d.message] }) ∨
        (¬ Succeeds notify d.message.id ∧ s' = { s with
          running := s.running.eraseIdx i, rejected := s.rejected ++ [d.message] })) := by
  obtain ⟨d, hd, rfl⟩ := Option.map_eq_some_iff.1 h
  refine ⟨d, hd, ?_⟩
  dsimp only
  split
  · rename_i hlt
    exact .inl ⟨hlt, rfl⟩
  · split
    · rename_i hok
      exact .inr (.inl ⟨withRetry_ok.1 hok, rfl⟩)
    · rename_i exc herr
      refine .inr (.inr ⟨fun hs => ?_, ?_⟩)
      · rw [withRetry_ok.2 hs] at herr
        cases herr
      · rw [hinv.running d (List.mem_of_getElem? hd), reject_event]

theorem Inv.deliver (h : Inv notify s) {e : Event} (hs : s.deliver e.queue = some s') :
    Inv notify s' := by
  obtain ⟨m, ms, hms, rfl⟩ := deliver_eq hs
  have hm : e.queue.name = m.event.queue.name := h.waiting _ m (by simp [hms])
  have hwait : ∀ queue, ∀ x ∈ Function.update s.queues e.queue.name ms queue,
      queue = x.event.queue.name := fun queue x hx => by
    by_cases hq : queue = e.queue.name
    · subst hq
      rw [Function.update_self] at hx
      exact h.waiting _ x (by simp [hms, hx])
    · rw [Function.update_of_ne hq] at hx
      exact h.waiting _ x hx
  -- a message that waited still does, or is the one that was delivered
  have hleft : ∀ x : Message, x ∈ s.queues x.event.queue.name →
      x ∈ Function.update s.queues e.queue.name ms x.event.queue.name ∨ x = m := fun x hx => by
    by_cases hq : x.event.queue.name = e.queue.name
    · rw [hq, Function.update_self]
      rw [hq, hms, List.mem_cons] at hx
      exact hx.symm
    · rw [Function.update_of_ne hq]
      exact .inl hx
  refine ⟨hwait, fun d hd => ?_, fun n x hn => ?_, h.handled, h.rejected, h.deadLetters⟩
  · rcases List.mem_append.1 hd with hd | hd
    · exact h.running d hd
    · rw [List.mem_singleton.1 hd]
      exact Event.queue_eq_of_name hm
  · rcases h.fate n x hn with hw | ⟨d, hd, hx⟩ | hrest
    · rcases hleft ⟨n, x⟩ hw with hw | rfl
      · exact .inl hw
      · exact .inr (.inl ⟨⟨e.queue, ⟨n, x⟩, 0⟩, by simp, rfl⟩)
    · exact .inr (.inl ⟨d, List.mem_append_left _ hd, hx⟩)
    · exact .inr (.inr hrest)

/-- A handler that is not the one that ends goes on running. -/
theorem mem_eraseIdx_or {ds : List Delivery} {i : Nat} {d d' : Delivery} (hd : ds[i]? = some d)
    (h : d' ∈ ds) : d' ∈ ds.eraseIdx i ∨ d' = d := by
  obtain ⟨k, hk⟩ := List.mem_iff_getElem?.1 h
  by_cases hki : k = i
  · subst hki
    exact .inr (Option.some.inj (hk.symm.trans hd))
  · exact .inl (List.mem_eraseIdx_iff_getElem?.2 ⟨k, hki, hk⟩)

theorem Inv.proceed (h : Inv notify s) {i : Nat} (hs : s.proceed notify i = some s') :
    Inv notify s' := by
  obtain ⟨d, hd, hcase⟩ := proceed_eq h hs
  have hrun := h.running d (List.mem_of_getElem? hd)
  rcases hcase with ⟨-, rfl⟩ | ⟨hok, rfl⟩ | ⟨hfail, rfl⟩
  · refine ⟨h.waiting, fun d' hd' => ?_, fun n x hn => ?_, h.handled, h.rejected, h.deadLetters⟩
    · rcases List.mem_or_eq_of_mem_set hd' with hd' | rfl
      · exact h.running d' hd'
      · exact hrun
    · rcases h.fate n x hn with hw | ⟨d', hd', hx⟩ | hrest
      · exact .inl hw
      · obtain ⟨k, hk⟩ := List.mem_iff_getElem?.1 hd'
        refine .inr (.inl ?_)
        by_cases hki : k = i
        · subst hki
          cases hk.symm.trans hd
          exact ⟨_, List.mem_set (List.getElem?_eq_some_iff.1 hd).1 _, hx⟩
        · exact ⟨d', List.mem_of_getElem? (i := k) (by rwa [List.getElem?_set_ne (Ne.symm hki)]), hx⟩
      · exact .inr (.inr hrest)
  · refine ⟨h.waiting, fun d' hd' => h.running d' (List.mem_of_mem_eraseIdx hd'), fun n x hn => ?_,
      List.forall_mem_append.2 ⟨h.handled, List.forall_mem_singleton.2 hok⟩, h.rejected, h.deadLetters⟩
    rcases h.fate n x hn with hw | ⟨d', hd', hx⟩ | hh | hr
    · exact .inl hw
    · rcases mem_eraseIdx_or hd hd' with hd' | rfl
      · exact .inr (.inl ⟨d', hd', hx⟩)
      · exact .inr (.inr (.inl (by simp [hx])))
    · exact .inr (.inr (.inl (List.mem_append_left _ hh)))
    · exact .inr (.inr (.inr hr))
  · refine ⟨h.waiting, fun d' hd' => h.running d' (List.mem_of_mem_eraseIdx hd'), fun n x hn => ?_,
      h.handled, List.forall_mem_append.2 ⟨h.rejected, List.forall_mem_singleton.2 hfail⟩, h.deadLetters⟩
    rcases h.fate n x hn with hw | ⟨d', hd', hx⟩ | hh | hr
    · exact .inl hw
    · rcases mem_eraseIdx_or hd hd' with hd' | rfl
      · exact .inr (.inl ⟨d', hd', hx⟩)
      · exact .inr (.inr (.inr (by simp [hx])))
    · exact .inr (.inr (.inl hh))
    · exact .inr (.inr (.inr (List.mem_append_left _ hr)))

theorem Inv.step (h : Inv notify s) {l : Label} (hs : s.step notify l = some s') : Inv notify s' := by
  cases l with
  | publish e =>
    cases hs
    have hmem {queue : String} {x m : Message} : x ∈ Amqp.publish topology s.queues exchange.name
        e.queue.routingKey m queue ↔ x ∈ s.queues queue ∨ x = m ∧ queue = e.queue.name := by
      rw [Amqp.mem_publish, targets_event, List.mem_singleton]
    refine ⟨fun queue x hx => ?_, h.running, fun n x hn => ?_, h.handled, h.rejected, h.deadLetters⟩
    · rcases hmem.1 hx with hx | ⟨rfl, rfl⟩
      · exact h.waiting queue x hx
      · rfl
    · rw [hmem]
      by_cases hlt : n < s.published.length
      · rw [List.getElem?_append_left hlt] at hn
        exact (h.fate n x hn).imp_left .inl
      · have hlen := (List.getElem?_eq_some_iff.1 hn).1
        rw [List.length_append, List.length_singleton] at hlen
        obtain rfl : n = s.published.length := by omega
        simp only [List.getElem?_concat_length, Option.some.injEq] at hn
        subst hn
        exact .inl (.inr ⟨rfl, rfl⟩)
  | bookingConfirmed => exact h.deliver (e := .confirmed 0 "" "") hs
  | bookingCancelled => exact h.deliver (e := .cancelled 0 "") hs
  | proceed i => exact h.proceed hs
  | deadLetter =>
    obtain ⟨⟨m, qs⟩, hpop, -⟩ := Option.map_eq_some_iff.1 hs
    obtain ⟨ms, hms, -⟩ := Amqp.pop_eq_some.1 hpop
    exact absurd (h.waiting _ m (by simp [hms])).symm m.event.queue_ne_dlq

theorem Inv.steps (h : Inv notify s) {ls : List Label} (hs : s.steps notify ls = some s') :
    Inv notify s' := by
  induction ls generalizing s with
  | nil => cases hs; exact h
  | cons l ls ih =>
    obtain ⟨s₁, h₁, h₂⟩ := Option.bind_eq_some_iff.1 hs
    exact ih (h.step h₁) h₂

theorem inv_start : Inv notify start :=
  ⟨fun _ _ h => (nomatch h), fun _ h => (nomatch h), fun _ _ h => (nomatch h), fun _ h => (nomatch h),
    fun _ h => (nomatch h), rfl⟩

theorem Reachable.inv (h : Reachable notify s) : Inv notify s := by
  obtain ⟨ls, hs⟩ := h
  exact inv_start.steps hs

/-! ## Handling everything -/

/-- The steps that the handler of a message makes. -/
def handlerSteps (notify : Nat → Nat → Except E Unit) (m : Message) : Nat :=
  (withRetry (notify m.id) maxAttempts).1.length + 1

/-- The steps that are left to a handler, at least one. -/
def stepsLeft (notify : Nat → Nat → Except E Unit) (d : Delivery) : Nat :=
  handlerSteps notify d.message - 1 - d.done + 1

/-- The deliveries and the steps of handlers until everything is handled. -/
def work (notify : Nat → Nat → Except E Unit) (s : Mq) : Nat :=
  ((s.queues queueConfirmed.name).map fun m => handlerSteps notify m + 1).sum +
    ((s.queues queueCancelled.name).map fun m => handlerSteps notify m + 1).sum +
    (s.running.map (stepsLeft notify)).sum

/-- A handler that is running can go on, and everything else stays as it is. -/
theorem exists_proceed (h : Inv notify s) (hne : s.running ≠ []) : ∃ s', s.proceed notify 0 = some s' ∧
    s'.published = s.published ∧ work notify s' < work notify s := by
  obtain ⟨d, ds, hds⟩ := List.exists_cons_of_ne_nil hne
  obtain ⟨s', hs'⟩ : ∃ s', s.proceed notify 0 = some s' :=
    ⟨_, Option.map_eq_some_iff.2 ⟨d, by rw [hds]; rfl, rfl⟩⟩
  obtain ⟨d', hd', hcase⟩ := proceed_eq h hs'
  obtain rfl : d' = d := by simpa [hds] using hd'.symm
  refine ⟨s', hs', ?_⟩
  have hleft : 0 < stepsLeft notify d' := Nat.succ_pos _
  rcases hcase with ⟨hlt, rfl⟩ | ⟨-, rfl⟩ | ⟨-, rfl⟩
  · refine ⟨rfl, ?_⟩
    simp only [work, hds, List.set_cons_zero, List.map_cons, List.sum_cons, stepsLeft, handlerSteps]
    omega
  · refine ⟨rfl, ?_⟩
    simp only [work, hds, List.eraseIdx_cons_zero, List.map_cons, List.sum_cons]
    omega
  · refine ⟨rfl, ?_⟩
    simp only [work, hds, List.eraseIdx_cons_zero, List.map_cons, List.sum_cons]
    omega

/-- A message that waits can be delivered. -/
theorem exists_deliver (notify : Nat → Nat → Except E Unit) {e : Event} (hne : s.queues e.queue.name ≠ []) :
    ∃ s', s.deliver e.queue = some s' ∧ s'.published = s.published ∧ work notify s' < work notify s := by
  obtain ⟨m, ms, hms⟩ := List.exists_cons_of_ne_nil hne
  refine ⟨_, Option.map_eq_some_iff.2 ⟨_, Amqp.pop_eq_some.2 ⟨ms, hms, rfl⟩, rfl⟩, rfl, ?_⟩
  have hqueues : queueCancelled.name ≠ queueConfirmed.name := by decide
  rcases e.queue_eq with hq | hq
  all_goals
    rw [hq] at hms ⊢
    simp only [work, Function.update_self, Function.update_of_ne hqueues,
      Function.update_of_ne hqueues.symm, hms, List.map_append, List.map_cons, List.map_nil,
      List.sum_append, List.sum_cons, List.sum_nil, stepsLeft, handlerSteps]
    omega

/-- The broker can deliver every event that waits, and every handler can come to its end. -/
theorem drains (h : Inv notify s) : ∃ ls s',
    (∀ l ∈ ls, l = .bookingConfirmed ∨ l = .bookingCancelled ∨ ∃ i, l = .proceed i) ∧
      s.steps notify ls = some s' ∧ s'.Drained ∧ s'.published = s.published := by
  -- by the work that is left
  induction hn : work notify s using Nat.strong_induction_on generalizing s with
  | _ n ih =>
    subst hn
    by_cases hd : s.Drained
    · exact ⟨[], s, by simp, rfl, hd, rfl⟩
    obtain ⟨l, s₁, hl, hstep, hpub, hlt⟩ : ∃ l s₁,
        (l = .bookingConfirmed ∨ l = .bookingCancelled ∨ ∃ i, l = .proceed i) ∧ s.step notify l = some s₁ ∧
          s₁.published = s.published ∧ work notify s₁ < work notify s := by
      rcases not_and_or.1 hd with hwait | hrun
      · obtain ⟨e, he⟩ := not_forall.1 hwait
        obtain ⟨s₁, hs₁, hrest⟩ := exists_deliver notify he
        rcases e.queue_eq with hq | hq
        · exact ⟨.bookingConfirmed, s₁, .inl rfl, by rwa [hq] at hs₁, hrest⟩
        · exact ⟨.bookingCancelled, s₁, .inr (.inl rfl), by rwa [hq] at hs₁, hrest⟩
      · obtain ⟨s₁, hs₁, hrest⟩ := exists_proceed h hrun
        exact ⟨.proceed 0, s₁, .inr (.inr ⟨0, rfl⟩), hs₁, hrest⟩
    obtain ⟨ls, s', hls, hsteps, hdr, hpub'⟩ := ih _ hlt (h.step hstep) rfl
    exact ⟨l :: ls, s', List.forall_mem_cons.2 ⟨hl, hls⟩,
      Option.bind_eq_some_iff.2 ⟨s₁, hstep, hsteps⟩, hdr, hpub'.trans hpub⟩

theorem steps_append (s : Mq) (ls ls' : List Label) :
    s.steps notify (ls ++ ls') = (s.steps notify ls).bind (·.steps notify ls') := by
  induction ls generalizing s with
  | nil => rfl
  | cons l ls ih => simp [Mq.steps, ih, Option.bind_assoc]

theorem Reachable.steps (h : Reachable notify s) {ls : List Label} (hs : s.steps notify ls = some s') :
    Reachable notify s' := by
  obtain ⟨ls₀, h₀⟩ := h
  exact ⟨ls₀ ++ ls, by rw [steps_append, h₀]; exact hs⟩

theorem Inv.kept_iff_succeeds (h : Inv notify s) (hd : s.Drained) {n : Nat} {e : Event}
    (hn : s.published[n]? = some e) : s.Kept n ↔ Succeeds notify n := by
  constructor
  · rintro (⟨m, hm, rfl⟩ | ⟨m, hm, rfl⟩ | ⟨m, hm, rfl⟩)
    · exact h.handled m hm
    · exact absurd (h.waiting _ m hm).symm m.event.queue_ne_dlq
    · rw [h.deadLetters] at hm
      cases hm
  · intro hok
    rcases h.fate n e hn with hw | ⟨d, hrun, -⟩ | hh | hr
    · rw [hd.1 e] at hw
      cases hw
    · rw [hd.2] at hrun
      cases hrun
    · exact .inl ⟨_, hh, rfl⟩
    · exact absurd hok (h.rejected _ hr)

/-- **An event is kept iff one of the first `MAX_ATTEMPTS` attempts for it succeeds**: from every
reachable state every event can be delivered and its handler can come to its end, and once they are, no
other event was handled or is a dead letter. -/
theorem kept_iff (h : Reachable notify s) :
    (∃ ls s', (∀ l ∈ ls, l = .bookingConfirmed ∨ l = .bookingCancelled ∨ ∃ i, l = .proceed i) ∧
      s.steps notify ls = some s' ∧ s'.Drained ∧ s'.published = s.published) ∧
    ∀ ls s', s.steps notify ls = some s' → s'.Drained → ∀ n e, s'.published[n]? = some e →
      (s'.Kept n ↔ ∃ k, 1 ≤ k ∧ k ≤ maxAttempts ∧ notify n k = .ok ()) :=
  ⟨drains h.inv, fun _ _ hs hd _ _ hn => (h.steps hs).inv.kept_iff_succeeds hd hn⟩

end

/-- The confirmation is published and delivered, and its handler takes `n` steps. -/
def delivery (n : Nat) : List Label :=
  .publish (.confirmed 1 "ann@bus.com" "A → B") :: .bookingConfirmed :: List.replicate n (.proceed 0)

theorem drained_of_empty {s : Mq} (hconfirmed : s.queues queueConfirmed.name = [])
    (hcancelled : s.queues queueCancelled.name = []) (hrun : s.running = []) : s.Drained := by
  refine ⟨fun e => ?_, hrun⟩
  rcases e.queue_eq with h | h <;> rw [h] <;> assumption

/-- A booking is confirmed, and its notification succeeds at the third attempt. -/
theorem kept_iff_third_attempt :
    let notify : Nat → Nat → Except Unit Unit := fun _ k => if k = 3 then .ok () else .error ()
    ∃ s, start.steps notify (delivery 6) = some s ∧ s.Kept 0 := by
  intro notify
  refine ⟨_, rfl, ?_⟩
  have hreach : Reachable notify _ := ⟨delivery 6, rfl⟩
  exact ((kept_iff hreach).2 [] _ rfl (drained_of_empty (by decide) (by decide) rfl) 0 _ rfl).2
    ⟨3, by decide, by decide, rfl⟩

/-- The event whose notification fails three times is neither handled nor a dead letter. -/
theorem event_lost :
    let notify : Nat → Nat → Except Unit Unit := fun _ _ => .error ()
    ∃ s, start.steps notify (delivery 6) = some s ∧ s.Drained ∧
      s.published[0]? = some (.confirmed 1 "ann@bus.com" "A → B") ∧ ¬ s.Kept 0 := by
  intro notify
  refine ⟨_, rfl, drained_of_empty (by decide) (by decide) rfl, rfl, ?_⟩
  rintro (⟨m, hm, -⟩ | ⟨m, hm, -⟩ | ⟨m, hm, -⟩)
  · cases hm
  · revert hm
    decide +revert
  · cases hm

end Mq

end BusBookings

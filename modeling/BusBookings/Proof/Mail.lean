import BusBookings.App.Notification
import BusBookings.Proof.Addresses
import BusBookings.Proof.Delivery
import BusBookings.Proof.Events
import Mathlib.Data.List.Perm.Basic

/-!
# The e-mails of the service

* `Mq.delivered_in_order`: each queue is delivered in the order of its publications, and every message that
  has been delivered has one handler, which is running, has returned or has raised. Handlers overlap, and
  need not end in this order.
* `one_mail_each`: where no call fails, a booking or cancellation that has been answered leads to one e-mail
  to its user, or to none if every attempt for it fails, and no other request leads to any.

No message is delivered twice: a redelivery, after a lost connection, is not modelled.
-/

namespace BusBookings

open Async ReadCommitted

/-! ## The broker -/

namespace Mq

section

variable {E : Type} {notify : Nat → Nat → Except E Unit} {s s' : Mq}

/-- The messages of the events that have been published. -/
def messages (s : Mq) : List Message := s.published.mapIdx Message.mk

/-- The messages of a queue, among `ms`. -/
def ofQueue (queue : RabbitQueue) (ms : List Message) : List Message :=
  ms.filter (·.event.queue.name = queue.name)

theorem ofQueue_append {queue : RabbitQueue} (ms : List Message) (m : Message) :
    ofQueue queue (ms ++ [m]) =
      ofQueue queue ms ++ if m.event.queue.name = queue.name then [m] else [] := by
  rw [ofQueue, List.filter_append]
  congr 1
  by_cases h : m.event.queue.name = queue.name <;> simp [h]

/-- Each queue is in the order of publication, and each delivered message has one handler. -/
structure InOrder (s : Mq) : Prop where
  fifo : ∀ e : Event, ofQueue e.queue s.delivered ++ s.queues e.queue.name = ofQueue e.queue s.messages
  accounted : s.delivered.Perm (s.running.map (·.message) ++ s.handled ++ s.rejected)

theorem InOrder.deliver (h : InOrder s) (hinv : Inv notify s) {e : Event}
    (hs : s.deliver e.queue = some s') : InOrder s' := by
  obtain ⟨m, ms, hms, rfl⟩ := deliver_eq hs
  have hm : e.queue.name = m.event.queue.name := hinv.waiting _ m (by simp [hms])
  have hfifo (e' : Event) : ofQueue e'.queue (s.delivered ++ [m]) ++
      Function.update s.queues e.queue.name ms e'.queue.name = ofQueue e'.queue s.messages := by
    rw [← h.fifo e', ofQueue_append, ← hm]
    by_cases hq : e.queue.name = e'.queue.name
    · rw [← hq, Function.update_self, hms, if_pos rfl]
      simp
    · rw [Function.update_of_ne (Ne.symm hq), if_neg hq, List.append_nil]
  refine ⟨hfifo, List.perm_iff_count.2 fun x => ?_⟩
  have hcount := List.perm_iff_count.1 h.accounted x
  simp only [List.map_append, List.map_cons, List.map_nil, List.count_append] at hcount ⊢
  omega

/-- What a handler that ends leaves of the running ones. -/
theorem perm_eraseIdx {ds : List Delivery} {i : Nat} {d : Delivery} (hd : ds[i]? = some d) :
    (ds.map (·.message)).Perm (d.message :: (ds.eraseIdx i).map (·.message)) := by
  obtain ⟨hlt, rfl⟩ := List.getElem?_eq_some_iff.1 hd
  exact (List.getElem_cons_eraseIdx_perm hlt).symm.map (·.message)

theorem InOrder.proceed (h : InOrder s) (hinv : Inv notify s) {i : Nat}
    (hs : s.proceed notify i = some s') : InOrder s' := by
  obtain ⟨d, hd, hcase⟩ := proceed_eq hinv hs
  rcases hcase with ⟨-, rfl⟩ | ⟨-, rfl⟩ | ⟨-, rfl⟩
  · refine ⟨h.fifo, ?_⟩
    have hmap : (s.running.set i { d with done := d.done + 1 }).map (·.message) =
        s.running.map (·.message) := by
      refine List.ext_getElem? fun k => ?_
      rw [List.map_set, List.getElem?_set]
      split
      · rename_i hk
        subst hk
        obtain ⟨hlt, rfl⟩ := List.getElem?_eq_some_iff.1 hd
        simp [hlt]
      · rfl
    simpa only [hmap] using h.accounted
  all_goals
    refine ⟨h.fifo, List.perm_iff_count.2 fun x => ?_⟩
    have hcount := List.perm_iff_count.1 h.accounted x
    have hends := List.perm_iff_count.1 (perm_eraseIdx hd) x
    simp only [List.count_append, List.count_cons, List.count_nil] at hcount hends ⊢
    omega

theorem InOrder.publish (h : InOrder s) {e : Event} (hs : s.step notify (.publish e) = some s') :
    InOrder s' := by
  cases hs
  refine ⟨fun e' => ?_, h.accounted⟩
  have hmessages : (s.published ++ [e]).mapIdx Message.mk = s.messages ++ [⟨s.published.length, e⟩] := by
    simp [messages]
  show ofQueue e'.queue s.delivered ++ Amqp.publish topology s.queues exchange.name e.queue.routingKey
    ⟨s.published.length, e⟩ e'.queue.name = ofQueue e'.queue ((s.published ++ [e]).mapIdx Message.mk)
  rw [hmessages, ofQueue_append, ← h.fifo e', Amqp.publish, targets_event, List.append_assoc]
  by_cases hq : e.queue.name = e'.queue.name
  · rw [if_pos (by simp [hq]), if_pos hq]
  · rw [if_neg (by simpa using Ne.symm hq), if_neg hq, List.append_nil]

theorem InOrder.step (h : InOrder s) (hinv : Inv notify s) {l : Label} (hs : s.step notify l = some s') :
    InOrder s' := by
  cases l with
  | publish e => exact h.publish hs
  | bookingConfirmed => exact h.deliver hinv (e := .confirmed 0 "" "") hs
  | bookingCancelled => exact h.deliver hinv (e := .cancelled 0 "") hs
  | proceed i => exact h.proceed hinv hs
  | deadLetter =>
    obtain ⟨⟨m, qs⟩, hpop, -⟩ := Option.map_eq_some_iff.1 hs
    obtain ⟨ms, hms, -⟩ := Amqp.pop_eq_some.1 hpop
    exact absurd (hinv.waiting _ m (by simp [hms])).symm m.event.queue_ne_dlq

theorem InOrder.steps (h : InOrder s) (hinv : Inv notify s) {ls : List Label}
    (hs : s.steps notify ls = some s') : InOrder s' := by
  induction ls generalizing s with
  | nil => cases hs; exact h
  | cons l ls ih =>
    obtain ⟨s₁, h₁, h₂⟩ := Option.bind_eq_some_iff.1 hs
    exact ih (h.step hinv h₁) (hinv.step h₁) h₂

theorem Reachable.inOrder (h : Reachable notify s) : InOrder s := by
  obtain ⟨ls, hs⟩ := h
  exact InOrder.steps ⟨fun _ => rfl, .refl _⟩ inv_start hs

/-- What is delivered was published. -/
theorem InOrder.genuine (h : InOrder s) : ∀ m ∈ s.delivered, s.published[m.id]? = some m.event := by
  intro m hm
  have hmem : m ∈ ofQueue m.event.queue s.messages := by
    rw [← h.fifo m.event]
    exact List.mem_append_left _ (List.mem_filter.2 ⟨hm, by simp⟩)
  obtain ⟨i, hi, rfl⟩ := List.mem_mapIdx.1 (List.mem_of_mem_filter hmem)
  exact List.getElem?_eq_getElem hi

theorem pairwise_messages (s : Mq) : s.messages.Pairwise (·.id < ·.id) := by
  rw [List.pairwise_iff_getElem]
  intro i j hi hj hij
  simpa [messages] using hij

/-- Two messages with one number would be of one queue. -/
theorem InOrder.nodup_delivered (h : InOrder s) : (s.delivered.map (·.id)).Nodup := by
  refine List.pairwise_map.2 (List.pairwise_iff_forall_sublist.2 fun {x y} hsub hid => ?_)
  have hevent : x.event = y.event := by
    have hx := h.genuine x (hsub.subset (by simp))
    rw [hid, h.genuine y (hsub.subset (by simp))] at hx
    exact (Option.some.inj hx).symm
  have hsorted : (ofQueue x.event.queue s.delivered).Pairwise (·.id < ·.id) := by
    have := (pairwise_messages s).filter (·.event.queue.name = x.event.queue.name)
    rw [← ofQueue, ← h.fifo x.event] at this
    exact (List.pairwise_append.1 this).1
  have hpair := hsorted.sublist (hsub.filter _)
  simp [hevent, hid] at hpair

theorem InOrder.mem_delivered (h : InOrder s) {m : Message} (hm : m ∈ s.handled) : m ∈ s.delivered :=
  h.accounted.mem_iff.2 (by simp [hm])

theorem InOrder.nodup_handled (h : InOrder s) : (s.handled.map (·.id)).Nodup := by
  have hnodup := (h.accounted.map (·.id)).nodup_iff.1 h.nodup_delivered
  rw [List.map_append, List.map_append, List.append_assoc] at hnodup
  exact (List.nodup_append.1 (List.nodup_append.1 hnodup).2.1).1

/-- **Each queue is delivered in the order of publication, each message to one handler**: the messages of a
queue that were delivered and those that wait are those that were published, in order; no message is
delivered twice, and each that was delivered is in its handler, or the handler has returned, after an attempt
that succeeded, or has raised, after all of them failed. -/
theorem delivered_in_order (h : Reachable notify s) :
    (∀ e : Event, ofQueue e.queue s.delivered ++ s.queues e.queue.name = ofQueue e.queue s.messages) ∧
      (s.delivered.map (·.id)).Nodup ∧
      s.delivered.Perm (s.running.map (·.message) ++ s.handled ++ s.rejected) ∧
      (∀ m ∈ s.handled, Succeeds notify m.id) ∧ ∀ m ∈ s.rejected, ¬ Succeeds notify m.id :=
  ⟨h.inOrder.fifo, h.inOrder.nodup_delivered, h.inOrder.accounted, h.inv.handled, h.inv.rejected⟩

/-- Publishing hands over the events in order. -/
theorem published_of_steps {es : List Event} (hs : s.steps notify (es.map .publish) = some s') :
    s'.published = s.published ++ es := by
  induction es generalizing s with
  | nil =>
    cases hs
    simp
  | cons e es ih =>
    obtain ⟨s₁, h₁, h₂⟩ := Option.bind_eq_some_iff.1 hs
    cases h₁
    rw [ih h₂]
    simp

/-- A delivery publishes nothing. -/
theorem published_of_delivery {queue : RabbitQueue} {l : Label} (hl : Service.delivery queue = some l)
    (hs : s.step notify l = some s') : s'.published = s.published := by
  have hdeliver {queue : RabbitQueue} (h : s.deliver queue = some s') : s'.published = s.published := by
    obtain ⟨m, ms, -, rfl⟩ := deliver_eq h
    rfl
  unfold Service.delivery at hl
  split at hl
  · cases hl
    exact hdeliver hs
  · split at hl
    · cases hl
      exact hdeliver hs
    · split at hl
      · cases hl
        obtain ⟨p, -, rfl⟩ := Option.map_eq_some_iff.1 hs
        rfl
      · cases hl

theorem published_of_proceed (hinv : Inv notify s) {i : Nat} (hs : s.step notify (.proceed i) = some s') :
    s'.published = s.published := by
  obtain ⟨d, -, ⟨-, rfl⟩ | ⟨-, rfl⟩ | ⟨-, rfl⟩⟩ := proceed_eq hinv hs <;> rfl

end

/-- Two confirmations are delivered. The first attempt for the first one fails, and while its handler
pauses, the second one is handled. -/
theorem delivered_in_order_overtaking :
    let notify : Nat → Nat → Except Unit Unit := fun n k => if n = 0 ∧ k = 1 then .error () else .ok ()
    ∃ s, start.steps notify ([.publish (.confirmed 1 "ann@bus.com" "A → B"),
        .publish (.confirmed 2 "bob@bus.com" "A → B"), .bookingConfirmed, .bookingConfirmed, .proceed 0,
        .proceed 1, .proceed 1] ++ List.replicate 3 (.proceed 0)) = some s ∧
      s.delivered.map (·.id) = [0, 1] ∧ s.handled.map (·.id) = [1, 0] ∧
      s.delivered.Perm (s.running.map (·.message) ++ s.handled ++ s.rejected) := by
  intro notify
  obtain ⟨s, hs, hids⟩ := Option.map_eq_some_iff.1 (show (start.steps notify (
      [.publish (.confirmed 1 "ann@bus.com" "A → B"), .publish (.confirmed 2 "bob@bus.com" "A → B"),
        .bookingConfirmed, .bookingConfirmed, .proceed 0, .proceed 1, .proceed 1] ++
        List.replicate 3 (.proceed 0))).map
      (fun s => (s.delivered.map (·.id), s.handled.map (·.id))) = some ([0, 1], [1, 0]) by decide)
  exact ⟨s, hs, congrArg Prod.fst hids, congrArg Prod.snd hids, (delivered_in_order ⟨_, hs⟩).2.2.1⟩

end Mq

/-! ## The API and the broker -/

section

variable {server : Server} {a a' : Abs World Request Stage} {sys : System}

/-- The publications only grow. -/
theorem Inv.published (hinv : Inv server a) {l : Label} {call : Option Call}
    (hs : (protocol server).Step envStep a l call a') :
    ∃ new, a'.shared.published = a.shared.published ++ new := by
  cases hs with
  | env he => exact ⟨[], by rw [envStep_published he, List.append_nil]⟩
  | spawn hi => exact ⟨[], (List.append_nil _).symm⟩
  | run hi hw hst =>
    rcases hst.published (hinv.ne_lost hi) with h | ⟨j, email, event, -, -, h⟩
    · exact ⟨[], by rw [h, List.append_nil]⟩
    · exact ⟨_, h⟩

/-- The one publication of a request is at one place. -/
theorem World.sentBy_index {w : World} {i : Nat} {pub : Publication} (h : w.sentBy i = [pub]) :
    ∃ n, w.published[n]? = some pub ∧
      ∀ m : Nat, (w.published[m]?).any (·.sender = i) = true ↔ m = n := by
  obtain ⟨l₁, l₂, hl, hl₁, hpub, hl₂⟩ := List.filter_eq_cons_iff.1 h
  have hat : w.published[l₁.length]? = some pub := by simp [hl]
  refine ⟨l₁.length, hat, fun m => ⟨fun hm => ?_, fun hm => by simpa [hm, hat] using hpub⟩⟩
  obtain ⟨y, hy, hsender⟩ := (Option.any_eq_true _ _).1 hm
  rw [hl, List.getElem?_append] at hy
  split at hy
  · exact absurd hsender (hl₁ y (List.mem_of_getElem? hy))
  · cases hk : m - l₁.length with
    | zero => omega
    | succ k =>
      rw [hk, List.getElem?_cons_succ] at hy
      exact absurd hsender (List.filter_eq_nil_iff.1 hl₂ y (List.mem_of_getElem? hy))

end

namespace Service

/-- What the API has published is with the broker, and what the stages say about it is true. -/
structure Coupled {E : Type} (server : Server) (notify : Nat → Nat → Except E Unit) (s : Service) :
    Prop where
  published : s.mq.published = s.api.shared.published.map (·.event)
  reachable : Reachable server s.api
  broker : Mq.Reachable notify s.mq
  announced : ∃ a, View server s.api a ∧ Inv server a ∧ Silent a ∧ Announced 0 a

section

variable {E : Type} {server : Server} {notify : Nat → Nat → Except E Unit} {s s' : Service}

theorem coupled_start {sys₀ : BusBookings.System} (h₀ : Start sys₀) : Coupled server notify ⟨sys₀, .start⟩ := by
  have hreach : Reachable server sys₀ := ⟨sys₀, h₀, .refl _⟩
  obtain ⟨a, hv, hinv, hsil⟩ := hreach.silent
  obtain ⟨users, nextUser, -, -, rfl⟩ := h₀
  refine ⟨rfl, hreach, ⟨[], rfl⟩, a, hv, hinv, hsil, fun i q g _ hi => ?_⟩
  cases hv.request hi

theorem Coupled.step (h : Coupled server notify s) {l : Step} (hs : s.step server notify l = some s')
    (hclean : ∀ i, l = .api (.run .fail i) → s.api.shared.sentBy i = []) : Coupled server notify s' := by
  cases l with
  | api l =>
    obtain ⟨api, hstep, hs⟩ := Option.bind_eq_some_iff.1 hs
    obtain ⟨mq, hmq, hs⟩ := Option.bind_eq_some_iff.1 hs
    cases hs
    obtain ⟨a, hv, hinv, hsil, hann⟩ := h.announced
    obtain ⟨a', hst, hv'⟩ := hv.step handler_sim hstep
    obtain ⟨new, hnew⟩ := hinv.published hst
    rw [hv.shared, hv'.shared] at hnew
    refine ⟨?_, ?_, h.broker.steps hmq, a', hv', hinv.step hst, hsil.step hinv hst, hann.step hinv hsil hst ?_⟩
    · have hmq : s.mq.steps notify
          (((api.shared.published.drop s.api.shared.published.length).map (·.event)).map .publish) = some mq := by
        rw [List.map_map]
        exact hmq
      rw [Mq.published_of_steps hmq, h.published, hnew]
      simp
    · obtain ⟨sys₀, h₀, hr⟩ := h.reachable
      exact ⟨sys₀, h₀, hr.step trivial hstep⟩
    · intro i hl
      rw [hv.shared]
      exact hclean i (by rw [hl])
  | deliver queue =>
    obtain ⟨l, hl, hs⟩ := Option.bind_eq_some_iff.1 hs
    obtain ⟨mq, hmq, hs⟩ := Option.bind_eq_some_iff.1 hs
    cases hs
    have hone : s.mq.steps notify [l] = some mq := by simp [Mq.steps, hmq]
    exact ⟨(Mq.published_of_delivery hl hmq).trans h.published, h.reachable, h.broker.steps hone, h.announced⟩
  | proceed i =>
    obtain ⟨mq, hmq, hs⟩ := Option.bind_eq_some_iff.1 hs
    cases hs
    have hone : s.mq.steps notify [.proceed i] = some mq := by simp [Mq.steps, hmq]
    exact ⟨(Mq.published_of_proceed h.broker.inv hmq).trans h.published, h.reachable, h.broker.steps hone,
      h.announced⟩

/-- No call of a request fails once its event is published. -/
def Clean (server : Server) (notify : Nat → Nat → Except E Unit) (s : Service) (ls : List Step) : Prop :=
  ∀ ls₁ ls₂ s₁ i, ls = ls₁ ++ .api (.run .fail i) :: ls₂ → s.steps server notify ls₁ = some s₁ →
    s₁.api.shared.sentBy i = []

theorem Coupled.steps {ls : List Step} (h : Coupled server notify s)
    (hs : s.steps server notify ls = some s') (hclean : Clean server notify s ls) :
    Coupled server notify s' := by
  induction ls generalizing s with
  | nil =>
    cases hs
    exact h
  | cons l ls ih =>
    obtain ⟨s₁, h₁, h₂⟩ := Option.bind_eq_some_iff.1 hs
    refine ih (h.step h₁ fun i hl => hclean [] ls s i (by rw [hl]; rfl) rfl) h₂ fun ls₁ ls₂ s₂ i hls hs₂ => ?_
    exact hclean (l :: ls₁) ls₂ s₂ i (by rw [hls]; rfl) (Option.bind_eq_some_iff.2 ⟨s₁, h₁, hs₂⟩)

/-- Once all messages are delivered, the e-mails for a request that has published nothing. -/
theorem mailsFor_nil {i : Nat} (hsent : s.api.shared.sentBy i = []) : s.mailsFor i = [] := by
  have hnone : ∀ m ∈ s.mq.handled, ¬ (s.api.shared.published[m.id]?).any (·.sender = i) = true := by
    intro m _ hm
    obtain ⟨pub, hpub, hsender⟩ := (Option.any_eq_true _ _).1 hm
    exact List.filter_eq_nil_iff.1 hsent pub (List.mem_of_getElem? hpub) hsender
  rw [mailsFor, List.filter_eq_nil_iff.2 hnone, List.map_nil]

/-- The e-mails for a request that has published one event: one if the broker gets it handled. -/
theorem Coupled.mailsFor_of_sentBy (h : Coupled server notify s) (hd : s.mq.Drained) {i : Nat}
    {pub : Publication} (hsent : s.api.shared.sentBy i = [pub]) :
    ∃ n, s.api.shared.published[n]? = some pub ∧
      (Mq.Succeeds notify n → s.mailsFor i = [pub.event.mail]) ∧
      (¬ Mq.Succeeds notify n → s.mailsFor i = []) := by
  obtain ⟨n, hn, hindex⟩ := World.sentBy_index hsent
  have hgenuine : ∀ m ∈ s.mq.handled, s.mq.published[m.id]? = some m.event := fun m hm =>
    h.broker.inOrder.genuine m (h.broker.inOrder.mem_delivered hm)
  have hnodup := h.broker.inOrder.nodup_handled
  have hpub : s.mq.published[n]? = some pub.event := by simp [h.published, hn]
  have hevent : ∀ m ∈ s.mq.handled, m.id = n → m = ⟨n, pub.event⟩ := fun m hm hid => by
    have hm' := hgenuine m hm
    rw [hid, hpub] at hm'
    cases m
    cases hm'
    cases hid
    rfl
  refine ⟨n, hn, fun hok => ?_, fun hfail => ?_⟩
  · have hmem : ⟨n, pub.event⟩ ∈ s.mq.handled := by
      rcases h.broker.inv.fate n _ hpub with hw | ⟨d, hrun, -⟩ | hh | hr
      · rw [hd.1 pub.event] at hw
        cases hw
      · rw [hd.2] at hrun
        cases hrun
      · exact hh
      · exact absurd hok (h.broker.inv.rejected _ hr)
    have hone : s.mq.handled.filter (fun m => (s.api.shared.published[m.id]?).any (·.sender = i)) =
        [⟨n, pub.event⟩] := by
      refine List.perm_singleton.1 ((List.perm_ext_iff_of_nodup (hnodup.of_map.filter _)
        (List.nodup_singleton _)).2 fun m => ?_)
      rw [List.mem_filter, hindex, List.mem_singleton]
      exact ⟨fun ⟨hm, hid⟩ => hevent m hm hid, by rintro rfl; exact ⟨hmem, rfl⟩⟩
    rw [mailsFor, hone]
    rfl
  · have hnone : ∀ m ∈ s.mq.handled, ¬ (s.api.shared.published[m.id]?).any (·.sender = i) = true := by
      intro m hm hi
      exact hfail ((hindex m.id).1 hi ▸ h.broker.inv.handled m hm)
    rw [mailsFor, List.filter_eq_nil_iff.2 hnone, List.map_nil]

/-- Request `i` has an event, and leads to the one e-mail iff the notification for the event succeeds. -/
def Mails (notify : Nat → Nat → Except E Unit) (s : Service) (i : Nat) (mail : EmailMessage) : Prop :=
  ∃ n, (s.api.shared.published[n]?).any (·.sender = i) = true ∧
    (Mq.Succeeds notify n → s.mailsFor i = [mail]) ∧ (¬ Mq.Succeeds notify n → s.mailsFor i = [])

/-- What the answer `resp` to request `i` has led to. -/
def Notified (notify : Nat → Nat → Except E Unit) (s : Service) (i : Nat) : Response → Prop
  | .created b => ∃ seatId, ∃ user ∈ s.api.shared.db.users.rows, ∃ route ∈ s.api.shared.db.routes.rows,
    s.api.request i = some (.createBooking user.id route.id seatId) ∧
      s.Mails notify i (sendBookingConfirmed user.email b.id (routeInfo route))
  | .cancelled b => ∃ user ∈ s.api.shared.db.users.rows,
    s.api.request i = some (.cancelBooking user.id b.id) ∧
      s.Mails notify i (sendBookingCancelled user.email b.id)
  | _ => s.mailsFor i = []

theorem Coupled.mails (h : Coupled server notify s) (hd : s.mq.Drained) {i : Nat} {pub : Publication}
    (hsent : s.api.shared.sentBy i = [pub]) : s.Mails notify i pub.event.mail := by
  obtain ⟨n, hn, hok, hfail⟩ := h.mailsFor_of_sentBy hd hsent
  have hsender : pub.sender = i := by
    have hmem : pub ∈ s.api.shared.sentBy i := by simp [hsent]
    simpa using (List.mem_filter.1 hmem).2
  exact ⟨n, by simp [hn, hsender], hok, hfail⟩

theorem Coupled.notified (h : Coupled server notify s) (hd : s.mq.Drained) {i : Nat} {resp : Response}
    (hans : s.api.answer i = some resp) : s.Notified notify i resp := by
  obtain ⟨a, hv, hinv, -, hann⟩ := h.announced
  obtain ⟨q, hi⟩ := (answer_iff hv hinv).1 hans
  have hsent : (Stage.ended resp).Sent i (s.api.shared.sentBy i) := hv.shared ▸ hann i q _ (Nat.zero_le i) hi
  have hmem {pub : Publication} (hsent : s.api.shared.sentBy i = [pub]) : pub ∈ s.api.shared.published :=
    (List.mem_filter.1 (show pub ∈ s.api.shared.sentBy i by simp [hsent])).1
  cases resp with
  | created b =>
    obtain ⟨email, info, hsent⟩ := hsent
    obtain ⟨a', hv', -, hdep⟩ := h.reachable.departures
    obtain ⟨q', u, hreq, htells, user, huser, hid, hemail⟩ := h.reachable.told (hmem hsent)
    obtain ⟨u', r, seat, g, hi', route, hroute, hrid, hinfo⟩ :=
      hdep.shown _ (hv'.shared ▸ hmem hsent) _ _ _ rfl
    have hreq' := hv'.request hi'
    rw [hreq'] at hreq
    cases hreq
    cases htells
    subst hid hemail hrid hinfo
    exact ⟨seat, user, huser, route, hv'.shared ▸ hroute, hreq', h.mails hd hsent⟩
  | cancelled b =>
    obtain ⟨email, hsent⟩ := hsent
    obtain ⟨q', u, hreq, htells, user, huser, hid, hemail⟩ := h.reachable.told (hmem hsent)
    cases htells
    subst hid hemail
    exact ⟨user, huser, hreq, h.mails hd hsent⟩
  | _ => exact mailsFor_nil hsent

/-- **One e-mail each**: when no call fails after its event is published, all messages are delivered and
their handlers, which may overlap, have come to their ends, every booking and every cancellation that was
answered has led to one e-mail, with its number and route, to the user who asked for it, or to none if all
attempts to send it fail; no other answer has led to any. -/
theorem one_mail_each {sys₀ : BusBookings.System} {ls : List Step} (h₀ : Start sys₀)
    (hs : steps server notify ⟨sys₀, .start⟩ ls = some s)
    (hclean : Clean server notify ⟨sys₀, .start⟩ ls) (hd : s.mq.Drained) {i : Nat} {resp : Response}
    (hans : s.api.answer i = some resp) : s.Notified notify i resp :=
  ((coupled_start h₀).steps hs hclean).notified hd hans

end

/-- Ann books seat 1, and the confirmation is delivered and handled. -/
theorem one_mail_each_seatBooked :
    let notify : Nat → Nat → Except Unit Unit := fun _ _ => .ok ()
    ∃ s b, steps plainServer notify ⟨someStart, .start⟩
      (seatBooked.map .api ++ [.deliver queueConfirmed, .proceed 0, .proceed 0]) = some s ∧
      s.Notified notify 1 (.created b) := by
  intro notify
  obtain ⟨s, hs, hP⟩ := (Option.any_eq_true _ _).1 (show (steps plainServer notify ⟨someStart, .start⟩
      (seatBooked.map .api ++ [.deliver queueConfirmed, .proceed 0, .proceed 0])).any (fun s =>
        (s.api.answer 1).any (fun | .created _ => true | _ => false) &&
          s.mq.queues queueConfirmed.name = [] && s.mq.queues queueCancelled.name = [] &&
          s.mq.running = []) = true by
    decide +kernel)
  simp only [Bool.and_eq_true, decide_eq_true_eq] at hP
  obtain ⟨⟨⟨hans, hconfirmed⟩, hcancelled⟩, hrun⟩ := hP
  obtain ⟨resp, hresp, hcreated⟩ := (Option.any_eq_true _ _).1 hans
  cases resp with
  | created b =>
    refine ⟨s, b, hs, one_mail_each start_someStart hs (fun ls₁ ls₂ s₁ i hls _ => ?_)
      (Mq.drained_of_empty hconfirmed hcancelled hrun) hresp⟩
    -- no call fails
    have hmem : .api (.run .fail i) ∈
        seatBooked.map Step.api ++ [.deliver queueConfirmed, .proceed 0, .proceed 0] := by simp [hls]
    simp [seatBooked, routeCreated, calls] at hmem
  | _ => cases hcreated

end Service

end BusBookings

import BusBookings.App.Broker

/-!
# The consumers (`services/worker.py`) and the start-up of the broker (`main.py`)

`Mq` is RabbitMQ with the three subscribers: an event is published, the oldest message of a queue is
delivered to the queue's subscriber, which starts a handler for it, or a handler that is running goes on by
one call or pause. The handlers of messages overlap, also those of one queue. `notify n k` is how attempt
`k` of the notification call for message `n` ends. A handler that raises rejects its message without
requeueing.
-/

namespace BusBookings

/-- `MAX_ATTEMPTS`. -/
def maxAttempts : Nat := 3

/-- `RETRY_DELAY_SECONDS`. -/
def retryDelaySeconds : Nat := 2

inductive RetryOp where
  | call (attempt : Nat)
  | sleep (seconds : Nat)
deriving DecidableEq, Repr

section

variable {E : Type} (coroFunc : Nat → Except E Unit) (maxAttempts : Nat)

/-- The loop of `_with_retry` from `attempt` on, with `left` attempts left: the calls and sleeps it
makes, and how it ends (raising `last_exc`). -/
def retryFrom : (attempt left : Nat) → (lastExc : Option E) → List RetryOp × Except (Option E) Unit
  | _, 0, lastExc => ([], .error lastExc)
  | attempt, left + 1, _ =>
    match coroFunc attempt with
    | .ok () => ([.call attempt], .ok ())
    | .error exc =>
      let sleeps := if attempt < maxAttempts then [.sleep retryDelaySeconds] else []
      let (ops, result) := retryFrom (attempt + 1) left (some exc)
      (.call attempt :: sleeps ++ ops, result)

/-- `_with_retry`. -/
def withRetry : List RetryOp × Except (Option E) Unit := retryFrom coroFunc maxAttempts 1 maxAttempts none

end

/-! ## Start-up -/

/-- What the broker client is asked to do: `subscriber(queue, exchange)` declares both and binds
them, without an exchange it only declares the queue. -/
inductive BrokerOp where
  | declareExchange (exchange : RabbitExchange)
  | declareQueue (queue : RabbitQueue)
  | subscriber (queue : RabbitQueue) (exchange : Option RabbitExchange)

open Amqp in
def BrokerOp.apply (t : Topology) : BrokerOp → Topology
  | .declareExchange exchange => t.declareExchange exchange.name exchange.type
  | .declareQueue queue => t.declareQueue queue.name queue.deadLetter
  | .subscriber queue (some exchange) =>
    ((t.declareExchange exchange.name exchange.type).declareQueue queue.name queue.deadLetter).bind
      exchange.name queue.name queue.routingKey
  | .subscriber queue none => t.declareQueue queue.name queue.deadLetter

/-- `lifespan`: `rabbit_broker.start()` starts the subscribers of `services/worker.py`, then the
explicit declarations follow. -/
def lifespan : List BrokerOp :=
  [.subscriber queueConfirmed (some exchange), .subscriber queueCancelled (some exchange),
   .subscriber queueDlq none, .declareExchange exchange, .declareExchange deadLetterExchange,
   .declareQueue queueConfirmed, .declareQueue queueCancelled, .declareQueue queueDlq]

def topology : Amqp.Topology := lifespan.foldl BrokerOp.apply .empty

/-! ## Delivery -/

/-- The event published as number `id`. -/
structure Message where
  id : Nat
  event : Event
deriving DecidableEq, Repr

/-- A message in `on_booking_confirmed` or `on_booking_cancelled`, which has made the first `done` calls and
sleeps of `_with_retry`. -/
structure Delivery where
  queue : RabbitQueue
  message : Message
  done : Nat
deriving DecidableEq, Repr

structure Mq where
  published : List Event
  queues : Amqp.Queues Message
  /-- The messages that handlers have been started for, in the order of their delivery. -/
  delivered : List Message
  running : List Delivery
  /-- The messages whose handler returned. -/
  handled : List Message
  /-- The messages whose handler raised. -/
  rejected : List Message
  /-- The messages `on_dead_letter` got. -/
  deadLetters : List Message

namespace Mq

def start : Mq := ⟨[], fun _ => [], [], [], [], [], []⟩

/-- `proceed i`: the handler at place `i` of the running ones goes on. -/
inductive Label where
  | publish (event : Event)
  | bookingConfirmed
  | bookingCancelled
  | proceed (i : Nat)
  | deadLetter
deriving DecidableEq, Repr

section

variable {E : Type} (notify : Nat → Nat → Except E Unit)

/-- `on_booking_confirmed` or `on_booking_cancelled` gets a message of `queue`. -/
def deliver (s : Mq) (queue : RabbitQueue) : Option Mq :=
  (Amqp.pop s.queues queue.name).map fun (m, queues) => { s with
    queues, delivered := s.delivered ++ [m], running := s.running ++ [⟨queue, m, 0⟩] }

/-- Handler `i` makes the next call or sleep of `_with_retry`, or ends as that does. -/
def proceed (s : Mq) (i : Nat) : Option Mq := s.running[i]?.map fun h =>
  let (ops, result) := withRetry (notify h.message.id) maxAttempts
  if h.done < ops.length then { s with running := s.running.set i { h with done := h.done + 1 } }
  else match result with
    | .ok () => { s with running := s.running.eraseIdx i, handled := s.handled ++ [h.message] }
    | .error _ => { s with
        running := s.running.eraseIdx i
        rejected := s.rejected ++ [h.message]
        queues := Amqp.reject topology s.queues h.queue.name h.message }

def step (s : Mq) : Label → Option Mq
  | .publish event => some { s with
      published := s.published ++ [event]
      queues := Amqp.publish topology s.queues exchange.name event.queue.routingKey
        ⟨s.published.length, event⟩ }
  | .bookingConfirmed => s.deliver queueConfirmed
  | .bookingCancelled => s.deliver queueCancelled
  | .proceed i => s.proceed notify i
  | .deadLetter => (Amqp.pop s.queues queueDlq.name).map fun (m, queues) =>
    { s with queues, deadLetters := s.deadLetters ++ [m] }

def steps : Mq → List Label → Option Mq
  | s, [] => some s
  | s, l :: ls => (s.step notify l).bind (steps · ls)

end

end Mq

end BusBookings

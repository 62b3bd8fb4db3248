import BusBookings.Base.Amqp

/-!
# The RabbitMQ topology (`services/broker.py`) and the domain events (`schemas/events.py`)
-/

namespace BusBookings

structure RabbitExchange where
  name : String
  type : Amqp.ExchangeType
deriving DecidableEq, Repr

/-- `arguments`: the dead-letter exchange and its routing key, if the queue has them. -/
structure RabbitQueue where
  name : String
  routingKey : String
  deadLetter : Option (String × String)
deriving DecidableEq, Repr

/-- `EXCHANGE`. -/
def exchange : RabbitExchange := ⟨"booking.events", .topic⟩

/-- `DEAD_LETTER_EXCHANGE`. -/
def deadLetterExchange : RabbitExchange := ⟨"booking.dlx", .direct⟩

/-- `QUEUE_DLQ`. -/
def queueDlq : RabbitQueue := ⟨"booking.dlq", "booking.dead", none⟩

/-- `QUEUE_CONFIRMED`. -/
def queueConfirmed : RabbitQueue :=
  ⟨"booking.confirmed.queue", "booking.confirmed", some ("booking.dlx", "booking.dead")⟩

/-- `QUEUE_CANCELLED`. -/
def queueCancelled : RabbitQueue :=
  ⟨"booking.cancelled.queue", "booking.cancelled", some ("booking.dlx", "booking.dead")⟩

/-- `BookingConfirmedEvent` and `BookingCancelledEvent`. -/
inductive Event where
  | confirmed (bookingId : Int) (userEmail : String) (route : String)
  | cancelled (bookingId : Int) (userEmail : String)
deriving DecidableEq, Repr

/-- The queue an event is published to. -/
def Event.queue : Event → RabbitQueue
  | .confirmed .. => queueConfirmed
  | .cancelled .. => queueCancelled

def Event.userEmail : Event → String
  | .confirmed _ userEmail _ => userEmail
  | .cancelled _ userEmail => userEmail

/-- The booking an event is about. -/
def Event.bookingId : Event → Int
  | .confirmed bookingId _ _ => bookingId
  | .cancelled bookingId _ => bookingId

end BusBookings

import BusBookings.App.Api
import BusBookings.App.Worker

/-!
# The e-mails (`services/notification.py`) and the whole service

`Event.mail` is the e-mail that the handler of an event sends. `Service` is the API with the broker and the
subscribers, which run in the same process: a step of the API hands what it publishes to the broker, and in
between the broker delivers messages and their handlers go on.
-/

namespace BusBookings

structure EmailMessage where
  recipient : String
  subject : String
  body : String
deriving DecidableEq, Repr

def sendBookingConfirmed (userEmail : String) (bookingId : Int) (route : String) : EmailMessage where
  recipient := userEmail
  subject := s!"Бронирование #{bookingId} подтверждено"
  body := s!"Ваше бронирование #{bookingId} успешно подтверждено.\nМаршрут: {route}\n\n" ++
    "Спасибо, что выбрали наш сервис!"

def sendBookingCancelled (userEmail : String) (bookingId : Int) : EmailMessage where
  recipient := userEmail
  subject := s!"Бронирование #{bookingId} отменено"
  body := s!"Ваше бронирование #{bookingId} было отменено.\n" ++
    "Если вы не отменяли его — свяжитесь с поддержкой.\n\n" ++
    "Возврат средств будет произведён в течение 3–5 рабочих дней."

/-- What `on_booking_confirmed` and `on_booking_cancelled` send. -/
def Event.mail : Event → EmailMessage
  | .confirmed bookingId userEmail route => sendBookingConfirmed userEmail bookingId route
  | .cancelled bookingId userEmail => sendBookingCancelled userEmail bookingId

/-! ## The whole service -/

structure Service where
  api : System
  mq : Mq

namespace Service

inductive Step where
  | api (l : Label)
  | deliver (queue : RabbitQueue)
  | proceed (i : Nat)

/-- What the broker does to deliver from `queue`. -/
def delivery (queue : RabbitQueue) : Option Mq.Label :=
  if queue = queueConfirmed then some .bookingConfirmed
  else if queue = queueCancelled then some .bookingCancelled
  else if queue = queueDlq then some .deadLetter
  else none

section

variable {E : Type} (server : Server) (notify : Nat → Nat → Except E Unit)

def step (s : Service) : Step → Option Service
  | .api l => do
    let api ← (semantics server).step s.api l
    let new := api.shared.published.drop s.api.shared.published.length
    let mq ← s.mq.steps notify (new.map (.publish ·.event))
    return { api, mq }
  | .deliver queue => do
    let l ← delivery queue
    let mq ← s.mq.step notify l
    return { s with mq }
  | .proceed i => do
    let mq ← s.mq.step notify (.proceed i)
    return { s with mq }

def steps : Service → List Step → Option Service
  | s, [] => some s
  | s, l :: ls => (s.step server notify l).bind (steps · ls)

end

/-- The e-mails that have been sent for request `i`, in order. -/
def mailsFor (s : Service) (i : Nat) : List EmailMessage :=
  (s.mq.handled.filter fun m => (s.api.shared.published[m.id]?).any (·.sender = i)).map (·.event.mail)

end Service

end BusBookings

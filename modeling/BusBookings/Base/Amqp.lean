import Mathlib.Logic.Function.Basic
import Mathlib.Data.List.Infix

/-!
# AMQP topologies

`Topology`: the declared exchanges and queues and the bindings between them. A message reaches the
queues `targets` names: from the default exchange (`""`) the queue named by the routing key, from
any other exchange the queues bound to it by a matching key. It is dropped if there are none. A
message that is rejected without requeueing goes through its queue's dead-letter exchange.
-/

namespace Amqp

inductive ExchangeType where
  | topic
  | direct
deriving DecidableEq, Repr

structure Binding where
  exchange : String
  queue : String
  key : String
deriving DecidableEq, Repr

/-- A queue comes with its dead-letter exchange and routing key, if it has them. -/
structure Topology where
  exchanges : List (String × ExchangeType)
  queues : List (String × Option (String × String))
  bindings : List Binding

/-- The words of a topic: `*` matches one word, `#` any number. -/
def topicMatch : List (List Char) → List (List Char) → Bool
  | [], ws => ws.isEmpty
  | p :: ps, ws =>
    if p = ['#'] then ws.tails.any (topicMatch ps)
    else match ws with
      | [] => false
      | w :: ws => (p = ['*'] || p = w) && topicMatch ps ws

/-- An exchange routes a message with `key` over a binding with `bindingKey`. -/
def ExchangeType.accepts (bindingKey key : String) : ExchangeType → Bool
  | .topic => topicMatch (bindingKey.toList.splitOn '.') (key.toList.splitOn '.')
  | .direct => bindingKey = key

namespace Topology

def empty : Topology := ⟨[], [], []⟩

def declareExchange (t : Topology) (name : String) (type : ExchangeType) : Topology :=
  if (t.exchanges.lookup name).isSome then t else { t with exchanges := t.exchanges ++ [(name, type)] }

def declareQueue (t : Topology) (name : String) (deadLetter : Option (String × String)) : Topology :=
  if (t.queues.lookup name).isSome then t else { t with queues := t.queues ++ [(name, deadLetter)] }

def bind (t : Topology) (exchange queue key : String) : Topology :=
  { t with bindings := t.bindings ++ [⟨exchange, queue, key⟩] }

/-- The queues a message with `key` reaches from an exchange. -/
def targets (t : Topology) (exchange key : String) : List String :=
  (t.queues.map (·.1)).filter fun queue =>
    if exchange = "" then queue = key
    else t.bindings.any fun b => b.exchange = exchange && b.queue = queue &&
      (t.exchanges.lookup exchange).any (·.accepts b.key key)

end Topology

/-! ## Messages -/

/-- The messages that wait in each queue, the oldest first. -/
abbrev Queues (M : Type) := String → List M

section

variable {M : Type} (t : Topology) (qs : Queues M)

def publish (exchange key : String) (m : M) : Queues M := fun queue =>
  if queue ∈ t.targets exchange key then qs queue ++ [m] else qs queue

/-- `m`, taken from `queue`, is rejected without requeueing. -/
def reject (queue : String) (m : M) : Queues M := match (t.queues.lookup queue).join with
  | some (exchange, key) => publish t qs exchange key m
  | none => qs

/-- The oldest message of a queue is delivered. -/
def pop (queue : String) : Option (M × Queues M) := match qs queue with
  | [] => none
  | m :: ms => some (m, Function.update qs queue ms)

variable {t qs}

theorem mem_publish {exchange key queue : String} {m x : M} :
    x ∈ publish t qs exchange key m queue ↔
      x ∈ qs queue ∨ x = m ∧ queue ∈ t.targets exchange key := by
  unfold publish
  split <;> simp_all

/-- Without a queue behind the dead-letter exchange the message is dropped. -/
theorem reject_of_targets_nil {queue : String} {m : M} (exchange key : String)
    (hdl : (t.queues.lookup queue).join = some (exchange, key)) (h : t.targets exchange key = []) :
    reject t qs queue m = qs := by
  unfold reject publish
  simp [hdl, h]

theorem pop_eq_some {queue : String} {m : M} {qs' : Queues M} :
    pop qs queue = some (m, qs') ↔ ∃ ms, qs queue = m :: ms ∧ qs' = Function.update qs queue ms := by
  unfold pop
  split
  · simp_all
  · rename_i x xs h
    simp only [h, Option.some.injEq, Prod.mk.injEq, List.cons.injEq]
    constructor
    · rintro ⟨rfl, rfl⟩
      exact ⟨xs, ⟨rfl, rfl⟩, rfl⟩
    · rintro ⟨ms, ⟨rfl, rfl⟩, rfl⟩
      exact ⟨rfl, rfl⟩

end

end Amqp

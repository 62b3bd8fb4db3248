import BusBookings.App.Api
import BusBookings.Base.Expiry
import BusBookings.Base.Projection

/-!
# Requests in time

`timed` is `semantics` with a clock: time passes between the calls (`TimedEvent.tick`), a `SETEX` sets the
deadline of its key, and the entries whose deadlines have passed are gone. Entries may be lost earlier, as
in `semantics`, of which it is a refinement (`timed_projects`).
-/

namespace BusBookings

open Async

structure Timed where
  world : World
  timers : Redis.Timers

/-- `tick ms`: `ms` milliseconds pass. -/
inductive TimedEvent where
  | tick (ms : Nat)
  | env (e : EnvEvent)

/-- The deadlines after a call. -/
def setTimers (t : Redis.Timers) : Outcome → Call → Redis.Timers
  | .ok, .setex key ttl _ => t.setex key ttl
  | .ok, .delete keys => t.del keys
  | _, _ => t

def timedExec (server : Server) (o : Outcome) (i : Nat) (c : Call) (s : Timed) :
    Option (Except Exc (Reply c) × Timed) :=
  (exec server o i c s.world).map fun p => (p.1, ⟨p.2, setTimers s.timers o c⟩)

def timedEnv : TimedEvent → Timed → Option Timed
  | .tick ms, s => some
      ⟨{ s.world with redis := s.world.redis.del (s.timers.overdue ms) }, s.timers.tick ms⟩
  | .env e, s => (envStep e s.world).map fun w => { s with world := w }

def timed (server : Server) :
    Semantics Call (fun c => Except Exc (Reply c)) Timed Request Response Outcome TimedEvent where
  handler := handler server
  exec := timedExec server
  env := timedEnv

abbrev TimedSystem := Async.System Call (fun c => Except Exc (Reply c)) Timed Request Response

abbrev TimedLabel := Async.Label Request Outcome TimedEvent

/-- The system without its clock. -/
abbrev untimed (sys : TimedSystem) : System := sys.map Timed.world

def now (sys : TimedSystem) : Nat := sys.shared.timers.now

/-- A call does what it does without the clock. -/
theorem timedExec_some {server : Server} {o : Outcome} {i : Nat} {c : Call} {s s' : Timed}
    {r : Except Exc (Reply c)} (h : timedExec server o i c s = some (r, s')) :
    exec server o i c s.world = some (r, s'.world) ∧ s'.timers = setTimers s.timers o c := by
  obtain ⟨p, hp, he⟩ := Option.map_eq_some_iff.1 h
  cases he
  exact ⟨hp, rfl⟩

theorem envSteps_expire (server : Server) (w : World) (keys : List String) :
    Relation.ReflTransGen (semantics server).Env w { w with redis := w.redis.del keys } := by
  induction keys generalizing w with
  | nil => exact .refl
  | cons key keys ih => exact .head ⟨.expire key, rfl⟩ (ih { w with redis := w.redis.del [key] })

theorem timed_projects (server : Server) : Projects Timed.world (timed server) (semantics server) where
  handler := rfl
  exec h := (timedExec_some h).1
  env h := by
    rename_i e s s'
    cases e with
    | tick ms =>
      cases h
      exact envSteps_expire server s.world _
    | env e =>
      obtain ⟨w, hw, rfl⟩ := Option.map_eq_some_iff.1 h
      exact .single ⟨e, hw⟩

end BusBookings

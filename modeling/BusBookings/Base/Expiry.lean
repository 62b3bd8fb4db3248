import BusBookings.Base.Redis

/-!
# Keys with a deadline

`Timers` are the clock of a Redis server, in milliseconds, and the deadlines of its keys: `SETEX` sets one,
and when the clock goes on, the keys whose deadlines have passed are dropped. An entry is there through the
millisecond of its deadline.

`Dated φ ks t`: every entry of `ks` has a deadline, which has not passed, and `φ` says of what entries and
deadlines there are. The commands and the clock keep it, and so does the loss of entries (`Dated.setex`,
`Dated.del`, `Dated.tick`, `Dated.lose`).
-/

namespace Redis

structure Timers where
  now : Nat
  deadlines : Keyspace Nat

namespace Timers

/-- `SETEX key ttl`, in seconds. -/
def setex (t : Timers) (key : String) (ttl : Nat) : Timers :=
  { t with deadlines := t.deadlines.set key (t.now + 1000 * ttl) }

def del (t : Timers) (keys : List String) : Timers := { t with deadlines := t.deadlines.del keys }

/-- The keys whose deadlines pass within `ms` milliseconds. -/
def overdue (t : Timers) (ms : Nat) : List String :=
  t.deadlines.keys.filter fun key => (t.deadlines.get key).any (· < t.now + ms)

def tick (t : Timers) (ms : Nat) : Timers :=
  { now := t.now + ms, deadlines := t.deadlines.del (t.overdue ms) }

theorem mem_overdue {t : Timers} {ms d : Nat} {key : String} (h : t.deadlines.get key = some d) :
    key ∈ t.overdue ms ↔ d < t.now + ms := by
  have hmem : key ∈ t.deadlines.keys := AList.mem_keys.1 (AList.lookup_isSome.1 (Option.isSome_of_eq_some h))
  simp [overdue, hmem, h]

end Timers

section

variable {ν : Type} {φ φ' : String → ν → Nat → Prop} {ks : Keyspace ν} {t : Timers}

def Dated (φ : String → ν → Nat → Prop) (ks : Keyspace ν) (t : Timers) : Prop :=
  ∀ key v, ks.get key = some v → ∃ d, t.deadlines.get key = some d ∧ t.now ≤ d ∧ φ key v d

namespace Dated

theorem empty : Dated φ ∅ t := fun key v hv => by cases hv

theorem mono (h : Dated φ ks t) (hφ : ∀ key v d, φ key v d → φ' key v d) : Dated φ' ks t := fun key v hv => by
  obtain ⟨d, hd, hnow, hkv⟩ := h key v hv
  exact ⟨d, hd, hnow, hφ _ _ _ hkv⟩

theorem setex (h : Dated φ ks t) {key : String} {ttl : Nat} {v : ν} (hφ : φ key v (t.now + 1000 * ttl)) :
    Dated φ (ks.set key v) (t.setex key ttl) := fun key' v' hv => by
  simp only [Timers.setex, Keyspace.get_set] at hv ⊢
  split at hv
  · rename_i hk
    subst hk
    cases hv
    exact ⟨_, if_pos rfl, by omega, hφ⟩
  · rename_i hk
    rw [if_neg hk]
    exact h key' v' hv

theorem del (h : Dated φ ks t) (keys : List String) : Dated φ (ks.del keys) (t.del keys) := fun key v hv => by
  simp only [Timers.del, Keyspace.get_del] at hv ⊢
  split at hv
  · cases hv
  · rename_i hk
    rw [if_neg hk]
    exact h key v hv

theorem lose (h : Dated φ ks t) (keys : List String) : Dated φ (ks.del keys) t := fun key v hv => by
  rw [Keyspace.get_del] at hv
  split at hv
  · cases hv
  · exact h key v hv

theorem tick (h : Dated φ ks t) (ms : Nat) : Dated φ (ks.del (t.overdue ms)) (t.tick ms) := fun key v hv => by
  rw [Keyspace.get_del] at hv
  split at hv
  · cases hv
  · rename_i hk
    obtain ⟨d, hd, -, hkv⟩ := h key v hv
    rw [Timers.mem_overdue hd] at hk
    simp only [Timers.tick, Keyspace.get_del, if_neg ((Timers.mem_overdue hd).not.2 hk)]
    exact ⟨d, hd, by omega, hkv⟩

end Dated

end

end Redis

import BusBookings.Proof.CacheKeys
import BusBookings.Proof.Runs

/-!
# What the requests do to the cache

A call removes entries, or stores what its request has read (`Inv.redis_step`); the entries are
those of seats and searches, under the keys of the requests that stored them (`Keyring`).
-/

namespace BusBookings

open Async ReadCommitted

/-- The seats of a route as `list_seats` answers them. -/
def seatOuts (db : Db) (routeId : Int) : List SeatOut := (World.seatsOf db routeId).map .ofSeat

/-- The jobs that delete entries. -/
def Job.invalidates : Job → Bool
  | .create .. | .cancel .. | .route .. => true
  | _ => false

/-- The job of a request that is past its invalidation. -/
def Stage.invalidated? : Stage → Option Job
  | .invalidated j | .notifying j _ | .closing j => if j.invalidates then some j else none
  | .flushing b => some (.cancel b true)
  | _ => none

section

variable {server : Server} {a a' : Abs World Request Stage} {i : Nat} {q : Request} {g g' : Stage}
  {w w' : World} {c : Call} {o : Outcome} {sys : System} {l : Label} {call : Option Call}

/-- A call removes entries, or stores what the request has read. -/
theorem Step.redis (h : Step server q i o c g w g' w') (hl : g ≠ .lost) {key : String} {v : Json}
    (hv : w'.redis.get key = some v) : w.redis.get key = some v ∨
      ∃ ttl resp, g = .storing key ttl v resp ∧ o = .ok ∧ c = .setex key ttl v := by
  cases h with
  | store =>
    rename_i key' ttl value resp
    replace hv : (w.redis.set key' value).get key = some v := hv
    rw [Redis.Keyspace.get_set] at hv
    split at hv
    · rename_i hk
      subst hk
      cases hv
      exact .inr ⟨ttl, resp, rfl, rfl, rfl⟩
    · exact .inl hv
  | delete =>
    rename_i j keys
    replace hv : (w.redis.del keys).get key = some v := hv
    rw [Redis.Keyspace.get_del] at hv
    split at hv
    · cases hv
    · exact .inl hv
  | write hw hch =>
    obtain ⟨hb, -, rfl⟩ := change_ok hch
    exact .inl (by simpa using hv)
  | writeFails hw hch =>
    obtain ⟨-, -, rfl⟩ := change_error hch
    exact .inl (by simpa using hv)
  | lost => exact absurd rfl hl
  | _ => exact .inl hv

theorem envStep_redis {e : EnvEvent} (h : envStep e w = some w') {key : String} {v : Json}
    (hv : w'.redis.get key = some v) : w.redis.get key = some v := by
  cases e with
  | expire k =>
    cases h
    replace hv : (w.redis.del [k]).get key = some v := hv
    rw [Redis.Keyspace.get_del] at hv
    split at hv
    · cases hv
    · exact hv
  | setActive | setRole => cases h; exact hv

theorem Reads.storing {v : Db} {key : String} {ttl : Nat} {value : Json} {resp : Response}
    (h : Reads server v q c g (.storing key ttl value resp)) :
    (∃ r, q = .listSeats r ∧ g = .missed ∧ key = seatsKey r ∧ value = seatsToJson (seatOuts v r) ∧
      resp = .seats (seatOuts v r)) ∨ ∃ p, q = .listRoutes p ∧ key = routesKey p := by
  generalize hg' : Stage.storing key ttl value resp = g' at h
  cases h with
  | again ha hp => cases ha <;> cases hg'
  | route => exact absurd hg'.symm (routeCheck_ind (by simp) (by simp) _)
  | seat => exact absurd hg'.symm (seatCheck_ind (by simp) (by simp) _)
  | booking => exact absurd hg'.symm (cancelCheck_ind (by simp) (by simp) _)
  | admin => exact absurd hg'.symm (adminCheck_ind (by simp) (by simp) _)
  | email => exact absurd hg'.symm (registerCheck_ind (by simp) (by simp) _)
  | login => exact absurd hg'.symm (loginCheck_ind (by simp) (by simp) _)
  | page => cases hg'; exact .inr ⟨_, rfl, rfl⟩
  | seats hl => cases hg'; subst hl; exact .inl ⟨_, rfl, rfl, rfl, rfl, rfl⟩
  | _ => cases hg'

/-- What a request stores, it has just read. -/
theorem Step.storing {key : String} {ttl : Nat} {v : Json} {resp : Response}
    (h : Step server q i o c g w (.storing key ttl v resp) w') (hl : g ≠ .lost) : w' = w ∧
      ((∃ r, q = .listSeats r ∧ g = .missed ∧ key = seatsKey r ∧ v = seatsToJson (seatOuts (w.view i) r) ∧
        resp = .seats (seatOuts (w.view i) r)) ∨ ∃ p, q = .listRoutes p ∧ key = routesKey p) := by
  generalize hg' : Stage.storing key ttl v resp = g' at h
  cases h with
  | read hr => subst hg'; exact ⟨rfl, hr.storing⟩
  | write hw hch => cases hw <;> cases hg'
  | cachedRoutes | cachedSeats => exact absurd hg'.symm (cacheCheck_ind (by simp) (by simp) (by simp) _)
  | keys =>
    unfold Stage.afterKeys Stage.afterDelete at hg'
    split at hg' <;> [(split at hg' <;> cases hg'); cases hg']
  | delete => unfold Stage.afterDelete at hg'; split at hg' <;> cases hg'
  | publish => unfold Stage.afterPublish at hg'; split at hg' <;> cases hg'
  | lost => exact absurd rfl hl
  | _ => cases hg'

/-- An entry is there already, or is stored by the step. -/
theorem Inv.redis_step (hinv : Inv server a) (hs : (protocol server).Step envStep a l call a')
    {key : String}
    {v : Json} (hv : a'.shared.redis.get key = some v) : a.shared.redis.get key = some v ∨
      ∃ i q ttl resp, l = .run .ok i ∧ call = some (.setex key ttl v) ∧
        a.phase i = some (q, .storing key ttl v resp) := by
  cases hs with
  | env he => exact .inl (envStep_redis he hv)
  | spawn hi => exact .inl hv
  | run hi hw hst =>
    rcases hst.redis (hinv.ne_lost hi) hv with hold | ⟨ttl, resp, rfl, rfl, rfl⟩
    · exact .inl hold
    · exact .inr ⟨_, _, ttl, resp, rfl, rfl, hi⟩

/-- The entries are those of seats and searches, and a request stores its own. -/
structure Keyring (a : Abs World Request Stage) : Prop where
  entries : ∀ key v, a.shared.redis.get key = some v →
    (∃ r, key = seatsKey r) ∨ ∃ p, key = routesKey p
  storing : ∀ i q key ttl v resp, a.phase i = some (q, .storing key ttl v resp) →
    (∃ r, q = .listSeats r ∧ key = seatsKey r) ∨ ∃ p, q = .listRoutes p ∧ key = routesKey p

theorem Keyring.step (h : Keyring a) (hinv : Inv server a)
    (hs : (protocol server).Step envStep a l call a') : Keyring a' := by
  refine ⟨fun key v hv => ?_, fun i q key ttl v resp hi => ?_⟩
  · cases hs with
    | env he => exact h.entries key v (envStep_redis he hv)
    | spawn hi => exact h.entries key v hv
    | run hi hw hst =>
      rcases hst.redis (hinv.ne_lost hi) hv with hold | ⟨ttl, resp, rfl, -⟩
      · exact h.entries key v hold
      · exact (h.storing _ _ key ttl v resp hi).imp (fun ⟨r, hr⟩ => ⟨r, hr.2⟩) fun ⟨p, hp⟩ => ⟨p, hp.2⟩
  · rcases hs.phase_eq hi with hold | ⟨-, -, hstart⟩ | ⟨o, c, g, -, -, hi, -, hst⟩
    · exact h.storing i q key ttl v resp hold
    · cases hstart
    · exact (Step.storing hst (hinv.ne_lost hi)).2.imp_left fun ⟨r, hq, _, hkey, _⟩ => ⟨r, hq, hkey⟩

theorem Reachable.keyring (h : Reachable server sys) :
    ∃ a, View server sys a ∧ Inv server a ∧ Keyring a := by
  refine h.keeps (fun users nextUser _ => ?_) fun a l call a' hinv hk hs => hk.step hinv hs
  exact ⟨fun key v hv => (by cases hv), fun _ _ _ _ _ _ hi => by cases hi⟩

/-! ## Invalidation -/

theorem Stage.eq_of_mem_invalidated {j j' : Job} (h : j' ∈ if j.invalidates then some j else none) :
    j' = j := by
  split at h <;> cases h
  rfl

/-- A query does not change how far the invalidation is. -/
theorem Reads.invalidated {v : Db} (h : Reads server v q c g g') :
    (∀ j keys, g' ≠ .deleting j keys) ∧ g'.invalidated? = g.invalidated? := by
  cases h with
  | again ha hp => cases ha <;> exact ⟨by simp, rfl⟩
  | lost hno hex =>
    obtain ⟨p, g', ha⟩ := hex
    cases ha <;> exact ⟨by simp, rfl⟩
  | route => exact routeCheck_ind (fun _ => ⟨by simp, rfl⟩) (fun _ => ⟨by simp, rfl⟩) _
  | seat => exact seatCheck_ind (fun _ => ⟨by simp, rfl⟩) ⟨by simp, rfl⟩ _
  | booking => exact cancelCheck_ind (fun _ => ⟨by simp, rfl⟩) (fun _ => ⟨by simp, rfl⟩) _
  | admin => exact adminCheck_ind (fun _ => ⟨by simp, rfl⟩) ⟨by simp, rfl⟩ _
  | email => exact registerCheck_ind (fun _ => ⟨by simp, rfl⟩) ⟨by simp, rfl⟩ _
  | login => exact loginCheck_ind (fun _ => ⟨by simp, rfl⟩) (fun _ => ⟨by simp, rfl⟩) _
  | _ => exact ⟨by simp, rfl⟩

theorem Writes.invalidated {ch : Change} (h : Writes server w q c ch g g') :
    (∀ j keys, g' ≠ .deleting j keys) ∧ g'.invalidated? = g.invalidated? := by
  cases h <;> exact ⟨by simp, rfl⟩

theorem invalidated_afterPublish {j : Job} {email : String} {event : Event}
    (h : j.event? email = some event) :
    (Stage.afterPublish j).invalidated? = some j := by
  cases j with
  | cancel b free => cases free <;> rfl
  | create b route => rfl
  | _ => cases h

/-- The entries to delete are those of the job's pattern. -/
theorem Step.deleting {j : Job} {keys : List String} (h : Step server q i o c g w (.deleting j keys) w')
    (hl : g ≠ .lost) : keys = w.redis.keysOf j.pattern ∧ keys ≠ [] ∧ w' = w := by
  generalize hg' : Stage.deleting j keys = g' at h
  cases h with
  | read hr => exact absurd hg'.symm (hr.invalidated.1 j keys)
  | write hw hch => exact absurd hg'.symm (hw.invalidated.1 j keys)
  | cachedRoutes | cachedSeats => exact absurd hg'.symm (cacheCheck_ind (by simp) (by simp) (by simp) _)
  | keys hp =>
    unfold Stage.afterKeys at hg'
    split at hg'
    · unfold Stage.afterDelete at hg'
      split at hg' <;> cases hg'
    · cases hg'
      rename_i hne
      exact ⟨by rw [hp], by simpa using hne, rfl⟩
  | delete => unfold Stage.afterDelete at hg'; split at hg' <;> cases hg'
  | publish => unfold Stage.afterPublish at hg'; split at hg' <;> cases hg'
  | lost => exact absurd rfl hl
  | _ => cases hg'

theorem mem_invalidated_afterDelete {j j' : Job} (h : j' ∈ (Stage.afterDelete j).invalidated?) :
    j' = j := by
  unfold Stage.afterDelete at h
  split at h <;> exact Stage.eq_of_mem_invalidated h

/-- A request gets past its invalidation when there is nothing to delete, or by deleting it. -/
theorem Step.invalidated {j : Job} (h : Step server q i o c g w g' w') (hl : g ≠ .lost)
    (hj : j ∈ g'.invalidated?) : j ∈ g.invalidated? ∨
      (g = .invalidating j ∧ w.redis.keysOf j.pattern = [] ∧ w' = w) ∨
      ∃ keys, g = .deleting j keys ∧ w' = { w with redis := w.redis.del keys } := by
  cases h with
  | read hr => exact .inl (hr.invalidated.2 ▸ hj)
  | write hw hch => exact .inl (hw.invalidated.2 ▸ hj)
  | cachedRoutes | cachedSeats =>
    rw [cacheCheck_ind (motive := (·.invalidated? = none)) (fun _ => rfl) rfl (fun _ => rfl) _] at hj
    cases hj
  | keys hp =>
    unfold Stage.afterKeys at hj
    split at hj
    · rename_i hempty
      obtain rfl := mem_invalidated_afterDelete hj
      exact .inr (.inl ⟨rfl, by rw [← hp]; simpa using hempty, rfl⟩)
    · cases hj
  | delete =>
    obtain rfl := mem_invalidated_afterDelete hj
    exact .inr (.inr ⟨_, rfl, rfl⟩)
  | publish he =>
    rw [invalidated_afterPublish he] at hj
    cases hj
    rename_i email event queue
    refine .inl ?_
    cases j with
    | create | cancel => rfl
    | _ => cases he
  | lost => exact absurd rfl hl
  | _ => cases hj

end

end BusBookings

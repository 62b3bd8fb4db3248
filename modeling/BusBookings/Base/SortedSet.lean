import BusBookings.Base.Redis
import BusBookings.Base.Table

/-!
# Sorted sets with a time to live

`ZSpace`: a keyspace of sorted sets, with the commands `ZREMRANGEBYSCORE key -inf max`, `ZADD`,
`ZCARD` and `EXPIRE` executed at a time `now` (milliseconds). An entry is there through the
millisecond of its deadline; a set without members does not exist.

`rows_prune_add_expire` is what the commands do when a script executes them in this order.
-/

namespace Redis

/-- The members with their scores, and the deadline of the key if it has one. -/
structure ZEntry where
  members : Table (String × Int) Prod.fst
  deadline : Option Int

abbrev ZSpace := Keyspace ZEntry

namespace ZSpace

/-- The deadline has not passed. -/
def live (now : Int) (deadline : Option Int) : Bool := deadline.all (now ≤ ·)

/-- The entry of a key at time `now`. -/
def find (ks : ZSpace) (now : Int) (key : String) : Option ZEntry :=
  (ks.get key).filter (live now ·.deadline)

/-- The members of a key at time `now` with their scores. -/
def rows (ks : ZSpace) (now : Int) (key : String) : List (String × Int) :=
  ((ks.find now key).map (·.members.rows)).getD []

def zremrangebyscore (ks : ZSpace) (now : Int) (key : String) (max : Int) : ZSpace :=
  match ks.find now key with
  | none => ks.del [key]
  | some e =>
    let members := e.members.filter (max < ·.2)
    if members.rows.isEmpty then ks.del [key] else ks.set key { e with members }

/-- A member that is there gets the new score. -/
def zadd (ks : ZSpace) (now : Int) (key : String) (score : Int) (member : String) : ZSpace :=
  match ks.find now key with
  | none => ks.set key ⟨Table.empty.insert (member, score), none⟩
  | some e => ks.set key { e with members := (e.members.filter (·.1 ≠ member)).insert (member, score) }

def zcard (ks : ZSpace) (now : Int) (key : String) : Nat := (ks.rows now key).length

/-- `EXPIRE key ttl`, in seconds. -/
def expire (ks : ZSpace) (now : Int) (key : String) (ttl : Int) : ZSpace :=
  match ks.find now key with
  | none => ks.del [key]
  | some e => if ttl ≤ 0 then ks.del [key] else ks.set key { e with deadline := some (now + ttl * 1000) }

variable {ks : ZSpace} {now : Int} {key : String}

/-! ## Other keys -/

section

variable {key' : String} (h : key' ≠ key)
include h

theorem get_zremrangebyscore (max : Int) : (ks.zremrangebyscore now key max).get key' = ks.get key' := by
  unfold zremrangebyscore
  split
  · simp [Keyspace.get_del, h]
  · dsimp only
    split <;> simp [Keyspace.get_del, Keyspace.get_set, h]

theorem get_zadd (score : Int) (member : String) :
    (ks.zadd now key score member).get key' = ks.get key' := by
  unfold zadd
  split <;> simp [Keyspace.get_set, h]

theorem get_expire (ttl : Int) : (ks.expire now key ttl).get key' = ks.get key' := by
  unfold expire
  split
  · simp [Keyspace.get_del, h]
  · split <;> simp [Keyspace.get_del, Keyspace.get_set, h]

end

/-! ## The key itself -/

theorem find_of_get {e : ZEntry} (h : ks.get key = some e) :
    ks.find now key = if live now e.deadline then some e else none := by
  simp [find, h, Option.filter]

theorem find_set (e : ZEntry) :
    find (ks.set key e) now key = if live now e.deadline then some e else none :=
  find_of_get (by simp [Keyspace.get_set])

@[simp] theorem find_del : find (ks.del [key]) now key = none := by
  simp [find, Keyspace.get_del]

theorem rows_of_find_none (h : ks.find now key = none) : ks.rows now key = [] := by
  simp [rows, h]

theorem live_of_find {e : ZEntry} (h : ks.find now key = some e) : live now e.deadline = true :=
  (Option.filter_eq_some_iff.1 h).2

theorem rows_zremrangebyscore (max : Int) :
    (ks.zremrangebyscore now key max).rows now key = (ks.rows now key).filter (max < ·.2) := by
  unfold zremrangebyscore
  split
  · rename_i h
    rw [rows_of_find_none h, rows_of_find_none find_del]
    rfl
  · rename_i e h
    have hrows : (ks.rows now key).filter (max < ·.2) = (e.members.filter (max < ·.2)).rows := by
      simp [rows, h, Table.filter]
    dsimp only
    split
    · rename_i hempty
      rw [hrows, rows_of_find_none find_del, List.isEmpty_iff.1 hempty]
    · rw [hrows]
      simp [rows, find_set, live_of_find h]

/-- A new member comes last; the key keeps its deadline. -/
theorem find_zadd (score : Int) {member : String} (h : ∀ p ∈ ks.rows now key, p.1 ≠ member) :
    ∃ e, (ks.zadd now key score member).find now key = some e ∧
      e.members.rows = ks.rows now key ++ [(member, score)] := by
  unfold zadd
  split
  · rename_i hf
    refine ⟨⟨Table.empty.insert (member, score), none⟩, by rw [find_set]; rfl, ?_⟩
    rw [rows_of_find_none hf]
    exact Table.rows_insert fun r hr => by cases hr
  · rename_i e hf
    have hrows : ks.rows now key = e.members.rows := by simp [rows, hf]
    rw [hrows] at h
    have hfilter : (e.members.filter (·.1 ≠ member)).rows = e.members.rows :=
      List.filter_eq_self.2 fun p hp => by simpa using h p hp
    refine ⟨_, (find_set _).trans (if_pos (live_of_find hf)), ?_⟩
    rw [hrows, ← hfilter]
    exact Table.rows_insert fun p hp => h p (hfilter ▸ hp)

theorem get_expire_self {ttl : Int} {e : ZEntry} (h : ks.find now key = some e) (httl : 0 < ttl) :
    (ks.expire now key ttl).get key = some { e with deadline := some (now + ttl * 1000) } := by
  unfold expire
  rw [h]
  simp [Keyspace.get_set, show ¬ ttl ≤ 0 by omega]

/-- `ZADD` then `ZCARD`: an equal member counts once. -/
theorem zcard_zadd (score : Int) (member : String) : (ks.zadd now key score member).zcard now key =
    ((ks.rows now key).filter (·.1 ≠ member)).length + 1 := by
  unfold zadd zcard
  split
  · rename_i hf
    rw [rows_of_find_none hf]
    simp [rows, find_set, live, Table.insert, Table.empty]
  · rename_i e hf
    have hrows : (ks.rows now key).filter (·.1 ≠ member) = (e.members.filter (·.1 ≠ member)).rows := by
      simp [rows, hf, Table.filter]
    have hins : ((e.members.filter (·.1 ≠ member)).insert (member, score)).rows =
        (e.members.filter (·.1 ≠ member)).rows ++ [(member, score)] :=
      Table.rows_insert fun p hp => by simpa using (List.mem_filter.1 hp).2
    rw [hrows, rows, find_set, if_pos (live_of_find hf), Option.map_some, Option.getD_some, hins,
      List.length_append, List.length_singleton]

/-- **Prune, add, expire**: what the key holds then. -/
theorem get_prune_add_expire {max ttl : Int} (score : Int) {member : String} (httl : 0 < ttl)
    (h : ∀ p ∈ ks.rows now key, max < p.2 → p.1 ≠ member) : ∃ e,
    (((ks.zremrangebyscore now key max).zadd now key score member).expire now key ttl).get key =
      some e ∧ e.members.rows = (ks.rows now key).filter (max < ·.2) ++ [(member, score)] ∧
        e.deadline = some (now + ttl * 1000) := by
  have hnew : ∀ p ∈ (ks.zremrangebyscore now key max).rows now key, p.1 ≠ member := fun p hp => by
    rw [rows_zremrangebyscore, List.mem_filter] at hp
    exact h p hp.1 (by simpa using hp.2)
  obtain ⟨e, he, hrows⟩ := find_zadd score hnew
  rw [rows_zremrangebyscore] at hrows
  exact ⟨_, get_expire_self he httl, hrows, rfl⟩

/-- **Prune, add, count, expire**: the script's count, and the members at any later time. -/
theorem rows_prune_add_expire {max ttl : Int} (score : Int) {member : String} (httl : 0 < ttl)
    (h : ∀ p ∈ ks.rows now key, max < p.2 → p.1 ≠ member) :
    let ks' := (ks.zremrangebyscore now key max).zadd now key score member
    let members := (ks.rows now key).filter (max < ·.2) ++ [(member, score)]
    ks'.zcard now key = members.length ∧ ∀ now', (ks'.expire now key ttl).rows now' key =
      if now' ≤ now + ttl * 1000 then members else [] := by
  obtain ⟨e, he, hrows, hdeadline⟩ := get_prune_add_expire score httl h
  refine ⟨?_, fun now' => ?_⟩
  · have hself : ((ks.rows now key).filter (max < ·.2)).filter (·.1 ≠ member) =
        (ks.rows now key).filter (max < ·.2) := List.filter_eq_self.2 fun p hp => by
      simpa using h p (List.mem_filter.1 hp).1 (by simpa using (List.mem_filter.1 hp).2)
    rw [zcard_zadd, rows_zremrangebyscore, hself, List.length_append, List.length_singleton]
  · simp only [rows, find_of_get he, hdeadline, live, Option.all_some, decide_eq_true_eq]
    split
    · exact hrows
    · rfl

end ZSpace

end Redis

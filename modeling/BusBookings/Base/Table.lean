import Mathlib.Data.List.Nodup

/-!
# Tables with a primary key

`Table ρ key`: rows of type `ρ`, no two with the same `key`. A row is inserted only under a new key
(`insert` leaves the table alone otherwise: the key's constraint) and updated in place.
-/

/-- Rows with distinct keys, in insertion order. -/
structure Table (ρ : Type) {κ : Type} (key : ρ → κ) where
  rows : List ρ
  nodup : (rows.map key).Nodup

namespace Table

variable {ρ κ : Type} {key : ρ → κ}

def empty : Table ρ key := ⟨[], List.nodup_nil⟩

theorem ext {t t' : Table ρ key} (h : t.rows = t'.rows) : t = t' := by
  cases t; cases t'; cases h; rfl

theorem eq_of_key {t : Table ρ key} {r r' : ρ} (h : r ∈ t.rows) (h' : r' ∈ t.rows)
    (hk : key r = key r') : r = r' :=
  List.inj_on_of_nodup_map t.nodup h h' hk

variable [DecidableEq κ]

/-- The row with key `k`. -/
def find? (t : Table ρ key) (k : κ) : Option ρ := t.rows.find? fun r => key r = k

theorem find?_eq_some {t : Table ρ key} {k : κ} {r : ρ} :
    t.find? k = some r ↔ r ∈ t.rows ∧ key r = k := by
  constructor
  · intro h
    exact ⟨List.mem_of_find?_eq_some h, by simpa using List.find?_some h⟩
  · rintro ⟨hr, rfl⟩
    cases hf : t.find? (key r) with
    | none => exact absurd (List.find?_eq_none.1 hf r hr) (by simp)
    | some r' =>
      have hr' : r' ∈ t.rows := List.mem_of_find?_eq_some hf
      have hk : key r' = key r := by simpa using List.find?_some hf
      rw [eq_of_key hr' hr hk]

theorem find?_mem {t : Table ρ key} {r : ρ} (h : r ∈ t.rows) : t.find? (key r) = some r :=
  find?_eq_some.2 ⟨h, rfl⟩

/-! ## Insertion -/

def insert (t : Table ρ key) (r : ρ) : Table ρ key :=
  if h : key r ∈ t.rows.map key then t
  else ⟨t.rows ++ [r], by
    rw [List.map_append, List.nodup_append]
    refine ⟨t.nodup, by simp, fun k hk k' hk' => ?_⟩
    simp only [List.map_cons, List.map_nil, List.mem_singleton] at hk'
    exact fun he => h (hk' ▸ he ▸ hk)⟩

theorem rows_insert {t : Table ρ key} {r : ρ} (h : ∀ r' ∈ t.rows, key r' ≠ key r) :
    (t.insert r).rows = t.rows ++ [r] := by
  have hn : key r ∉ t.rows.map key := by
    simp only [List.mem_map, not_exists, not_and]
    exact h
  simp [insert, hn]

theorem mem_insert {t : Table ρ key} {r r' : ρ} (h : ∀ r' ∈ t.rows, key r' ≠ key r) :
    r' ∈ (t.insert r).rows ↔ r' ∈ t.rows ∨ r' = r := by
  rw [rows_insert h, List.mem_append, List.mem_singleton]

/-- An insertion never removes or changes a row. -/
theorem mem_insert_of_mem {t : Table ρ key} {r r' : ρ} (h : r' ∈ t.rows) : r' ∈ (t.insert r).rows := by
  unfold insert
  split
  · exact h
  · exact List.mem_append_left _ h

theorem mem_of_mem_insert {t : Table ρ key} {r r' : ρ} (h : r' ∈ (t.insert r).rows) :
    r' ∈ t.rows ∨ r' = r := by
  unfold insert at h
  split at h
  · exact .inl h
  · simpa using h

def insertAll (t : Table ρ key) (rs : List ρ) : Table ρ key := rs.foldl insert t

theorem rows_insertAll {t : Table ρ key} {rs : List ρ} (hn : (rs.map key).Nodup)
    (h : ∀ r ∈ rs, ∀ r' ∈ t.rows, key r' ≠ key r) : (t.insertAll rs).rows = t.rows ++ rs := by
  induction rs generalizing t with
  | nil => simp [insertAll]
  | cons r rs ih =>
    simp only [List.map_cons, List.nodup_cons, List.mem_map, not_exists, not_and] at hn
    have hr : (t.insert r).rows = t.rows ++ [r] := rows_insert (h r (by simp))
    have := ih (t := t.insert r) hn.2 fun x hx r' hr' => by
      rw [hr, List.mem_append, List.mem_singleton] at hr'
      rcases hr' with hr' | rfl
      · exact h x (List.mem_cons_of_mem _ hx) r' hr'
      · exact fun he => hn.1 x hx he.symm
    simpa [insertAll, hr] using this

theorem mem_insertAll_of_mem {t : Table ρ key} {rs : List ρ} {r : ρ} (h : r ∈ t.rows) :
    r ∈ (t.insertAll rs).rows := by
  induction rs generalizing t with
  | nil => exact h
  | cons x rs ih => exact ih (mem_insert_of_mem h)

theorem mem_of_mem_insertAll {t : Table ρ key} {rs : List ρ} {r : ρ} (h : r ∈ (t.insertAll rs).rows) :
    r ∈ t.rows ∨ r ∈ rs := by
  induction rs generalizing t with
  | nil => exact .inl h
  | cons x rs ih =>
    rcases ih h with h | h
    · rcases mem_of_mem_insert h with h | rfl
      · exact .inl h
      · exact .inr (by simp)
    · exact .inr (List.mem_cons_of_mem _ h)

/-! ## Deletion -/

omit [DecidableEq κ] in
/-- `DELETE … WHERE NOT p`. -/
def filter (t : Table ρ key) (p : ρ → Bool) : Table ρ key :=
  ⟨t.rows.filter p, t.nodup.sublist (List.filter_sublist.map key)⟩

/-! ## Update -/

/-- `UPDATE … SET f WHERE key = k`. -/
def update (t : Table ρ key) (k : κ) (f : ρ → ρ) (hf : ∀ r, key (f r) = key r) : Table ρ key :=
  ⟨t.rows.map fun r => if key r = k then f r else r, by
    have : key ∘ (fun r => if key r = k then f r else r) = key := by
      funext r
      simp only [Function.comp_apply]
      split
      · exact hf r
      · rfl
    rw [List.map_map, this]
    exact t.nodup⟩

variable {k : κ} {f : ρ → ρ} (hf : ∀ r, key (f r) = key r)

theorem mem_update {t : Table ρ key} {r : ρ} :
    r ∈ (t.update k f hf).rows ↔ ∃ r' ∈ t.rows, (if key r' = k then f r' else r') = r := by
  simp [update]

theorem find?_update_self {t : Table ρ key} {r : ρ} (h : t.find? k = some r) :
    (t.update k f hf).find? k = some (f r) := by
  obtain ⟨hr, rfl⟩ := find?_eq_some.1 h
  exact find?_eq_some.2 ⟨(mem_update hf).2 ⟨r, hr, if_pos rfl⟩, hf r⟩

theorem find?_update_ne {t : Table ρ key} {k' : κ} (h : k' ≠ k) :
    (t.update k f hf).find? k' = t.find? k' := by
  ext r
  rw [find?_eq_some, find?_eq_some, mem_update]
  constructor
  · rintro ⟨⟨r', hr', rfl⟩, rfl⟩
    split at h
    · rename_i hk
      exact absurd ((hf r').trans hk) h
    · rename_i hk
      rw [if_neg hk]
      exact ⟨hr', rfl⟩
  · rintro ⟨hr, rfl⟩
    exact ⟨⟨r, hr, if_neg h⟩, rfl⟩

end Table

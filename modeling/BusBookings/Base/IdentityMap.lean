/-!
# Identity maps

The objects a unit of work has loaded, each with the values it was loaded with. A row that is read
again does not overwrite the object of its key (`load`); what a flush has to write are the objects
whose values differ from the loaded ones (`dirty`).
-/

/-- An object: its values when it was loaded or last flushed, and its current ones. -/
structure Tracked (ρ : Type) where
  loaded : ρ
  cur : ρ

/-- The objects of a unit of work, at most one for each `key`. -/
abbrev IdentityMap (ρ : Type) := List (Tracked ρ)

namespace IdentityMap

variable {ρ κ : Type} [DecidableEq κ] (key : ρ → κ)

/-- The object of a row that was read: the one already loaded, if there is one. -/
def load (m : IdentityMap ρ) (row : ρ) : ρ × IdentityMap ρ :=
  match m.find? fun o => key o.cur = key row with
  | some o => (o.cur, m)
  | none => (row, m ++ [⟨row, row⟩])

/-- The object takes the values of a row that was read to refresh it. -/
def refresh (m : IdentityMap ρ) (row : ρ) : IdentityMap ρ :=
  (m.filter fun o => key o.cur ≠ key row) ++ [⟨row, row⟩]

def modify (m : IdentityMap ρ) (k : κ) (f : ρ → ρ) : IdentityMap ρ :=
  m.map fun o => if key o.cur = k then { o with cur := f o.cur } else o

/-- What a flush writes. -/
def dirty [DecidableEq ρ] (m : IdentityMap ρ) : List ρ :=
  (m.filter fun o => o.loaded ≠ o.cur).map (·.cur)

def clean (m : IdentityMap ρ) : IdentityMap ρ := m.map fun o => ⟨o.cur, o.cur⟩

end IdentityMap

import Mathlib.Data.List.AList
import Mathlib.Data.List.Infix

/-!
# A Redis keyspace with glob patterns

`Glob.Matches pattern key` is Redis's glob: `*` any text, `?` one character, `[…]` a class (with
`^`, ranges and escapes), `\` escapes the next character. `Keyspace ν` maps keys to values; the
commands are `GET`, `SETEX` (the time to live is the environment's: it may drop any entry),
`KEYS` and `DEL`.

`matches_literal_star`: a pattern `w*` without special characters in `w` matches exactly the keys
that start with `w`.
-/

namespace Redis

namespace Glob

/-- A parsed pattern element: one character with a property, or any text. -/
inductive Tok where
  | one (p : Char → Bool)
  | star

/-- The pattern's elements; in the second argument `some (n, p)`: inside a class that so far holds
the characters `p` and is negated if `n`. -/
def parse : List Char → Option (Bool × (Char → Bool)) → List Tok
  | [], none => []
  | '*' :: cs, none => .star :: parse cs none
  | '?' :: cs, none => .one (fun _ => true) :: parse cs none
  | '[' :: '^' :: cs, none => parse cs (some (true, fun _ => false))
  | '[' :: cs, none => parse cs (some (false, fun _ => false))
  | '\\' :: c :: cs, none => .one (· == c) :: parse cs none
  | c :: cs, none => .one (· == c) :: parse cs none
  | [], some (n, p) => [.one fun x => p x != n]
  | '\\' :: c :: cs, some (n, p) => parse cs (some (n, fun x => p x || x == c))
  | ']' :: cs, some (n, p) => .one (fun x => p x != n) :: parse cs none
  | a :: '-' :: b :: cs, some (n, p) =>
    parse cs (some (n, fun x => p x || (a ≤ x && x ≤ b) || (b ≤ x && x ≤ a)))
  | a :: cs, some (n, p) => parse cs (some (n, fun x => p x || x == a))

def run : List Tok → List Char → Bool
  | [], s => s.isEmpty
  | .one _ :: _, [] => false
  | .one p :: ts, c :: s => p c && run ts s
  | .star :: ts, s => s.tails.any (run ts)

/-- The key matches the pattern. -/
def isMatch (pattern key : String) : Bool := run (parse pattern.toList none) key.toList

/-- A character without meaning in a pattern. -/
def plain (c : Char) : Bool := c ∉ ['*', '?', '[', '\\']

theorem parse_plain {c : Char} (h : plain c = true) (cs : List Char) :
    parse (c :: cs) none = .one (· == c) :: parse cs none := by
  simp only [plain, List.mem_cons, List.not_mem_nil, or_false, not_or, decide_eq_true_eq] at h
  obtain ⟨h1, h2, h3, h4⟩ := h
  rw [parse] <;> simp_all

theorem run_star (s : List Char) : run [.star] s = true := by
  simp only [run, List.any_eq_true, List.mem_tails]
  exact ⟨[], List.nil_suffix, rfl⟩

theorem run_literal_star {w s : List Char} (hw : ∀ c ∈ w, plain c = true) :
    run (parse (w ++ ['*']) none) s = true ↔ ∃ t, s = w ++ t := by
  induction w generalizing s with
  | nil => simpa [parse] using run_star s
  | cons c w ih =>
    rw [List.cons_append, parse_plain (hw c (by simp))]
    cases s with
    | nil => simp [run]
    | cons x s =>
      simp only [run, Bool.and_eq_true, beq_iff_eq, ih fun d hd => hw d (List.mem_cons_of_mem _ hd),
        List.cons_append, List.cons.injEq]
      constructor
      · rintro ⟨rfl, t, rfl⟩; exact ⟨t, rfl, rfl⟩
      · rintro ⟨t, rfl, rfl⟩; exact ⟨rfl, t, rfl⟩

/-- **A pattern `w*`** without special characters in `w` matches the keys that start with `w`. -/
theorem matches_literal_star {w key : String} (hw : ∀ c ∈ w.toList, plain c = true) :
    isMatch (w ++ "*") key = true ↔ ∃ t, key.toList = w.toList ++ t := by
  unfold isMatch
  rw [String.toList_append]
  exact run_literal_star hw

end Glob

/-! ## The keyspace -/

abbrev Keyspace (ν : Type) := AList fun _ : String => ν

namespace Keyspace

variable {ν : Type}

def get (ks : Keyspace ν) (key : String) : Option ν := ks.lookup key

def set (ks : Keyspace ν) (key : String) (v : ν) : Keyspace ν := ks.insert key v

/-- `KEYS pattern`. -/
def keysOf (ks : Keyspace ν) (pattern : String) : List String :=
  ks.keys.filter (Glob.isMatch pattern)

/-- `DEL key …`. -/
def del (ks : Keyspace ν) (keys : List String) : Keyspace ν := keys.foldl (fun ks k => ks.erase k) ks

theorem get_set (ks : Keyspace ν) (key key' : String) (v : ν) :
    (ks.set key v).get key' = if key' = key then some v else ks.get key' := by
  unfold get set
  split
  · rename_i h; subst h; exact AList.lookup_insert ks
  · rename_i h; exact AList.lookup_insert_ne h

theorem get_del (ks : Keyspace ν) (keys : List String) (key : String) :
    (ks.del keys).get key = if key ∈ keys then none else ks.get key := by
  induction keys generalizing ks with
  | nil => rfl
  | cons k keys ih =>
    have hk : (ks.del (k :: keys)) = del (ks.erase k) keys := rfl
    rw [hk, ih]
    unfold get
    by_cases h : key = k
    · subst h; simp
    · simp [AList.lookup_erase_ne h, h]

theorem mem_keysOf {ks : Keyspace ν} {pattern key : String} :
    key ∈ ks.keysOf pattern ↔ (ks.get key).isSome ∧ Glob.isMatch pattern key = true := by
  simp [keysOf, get, AList.lookup_isSome, AList.mem_keys]

end Keyspace

end Redis

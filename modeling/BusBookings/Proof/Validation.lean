import BusBookings.App.Validation
import BusBookings.Proof.Errors

/-!
# The field of a validation error

The handler takes the last item of the first error's location for the name of a field. Every location
is that of a declared parameter or field or of the whole body, except for a body that is not JSON
(`loc_of_mem_errors`); there the item is the offset of a character (`validation_field_iff`).
-/

namespace BusBookings

/-- The `field` of an answer. -/
def HttpResponse.field (r : HttpResponse) : Option Json :=
  match r.body with
  | .json j => j.field "field"
  | _ => none

/-- The answer names a parameter or field that the endpoint declares, or it names none and the first
error is about the whole body. -/
def HttpResponse.NamesField (r : HttpResponse) (e : PathOperation) (errors : List ValidationError) :
    Prop :=
  (∃ name ∈ e.parameters.map (·.name), r.field = some (.str name)) ∨
    r.field = some .null ∧ ∃ first, errors.head? = some first ∧ first.loc = [.key "body"]

section

variable {v : Validator} {e : PathOperation} {req : HttpRequest} {err : ValidationError}

/-! ## Locations -/

/-- An error of a declared parameter or field, or of the whole body. -/
def ValidationError.Declared (e : PathOperation) (err : ValidationError) : Prop :=
  (∃ x ∈ e.parameters, err.loc = [.key x.source.str, .key x.name]) ∨ err.loc = [.key "body"]

theorem declared_of_mem_fieldErrors (h : err ∈ v.fieldErrors e req) : err.Declared e := by
  unfold Validator.fieldErrors at h
  split at h
  · obtain ⟨msg, -, rfl⟩ := Option.map_eq_some_iff.1 (Option.mem_toList.1 h)
    exact .inr rfl
  · obtain ⟨x, hx, hmap⟩ := List.mem_filterMap.1 h
    obtain ⟨msg, -, rfl⟩ := Option.map_eq_some_iff.1 hmap
    exact .inl ⟨x, hx, rfl⟩

/-- **Where the errors are.** -/
theorem loc_of_mem_errors (h : err ∈ v.errors e req) : err.Declared e ∧ ¬ v.Malformed e req ∨
    v.Malformed e req ∧ ∃ pos, err.loc = [.key "body", .index pos] := by
  unfold Validator.errors at h
  split at h
  · rename_i pos hkind hbody
    obtain rfl := List.mem_singleton.1 h
    exact .inr ⟨⟨hkind, pos, hbody⟩, pos, rfl⟩
  · rename_i hkind hbody
    obtain rfl := List.mem_singleton.1 h
    exact .inl ⟨.inr rfl, fun ⟨_, pos, hpos⟩ => by rw [hbody] at hpos; cases hpos⟩
  · rename_i hkind hbody
    obtain rfl := List.mem_singleton.1 h
    exact .inl ⟨.inr rfl, fun ⟨_, pos, hpos⟩ => by rw [hbody] at hpos; cases hpos⟩
  · cases h
  · rename_i hmalformed _ _ _
    exact .inl ⟨declared_of_mem_fieldErrors h, fun ⟨hkind, pos, hpos⟩ => hmalformed pos hkind hpos⟩

/-- No declared name is a number. -/
theorem number_not_declared (e : PathOperation) (n : Nat) : toString n ∉ e.parameters.map (·.name) := by
  have hletter : (e.parameters.map (·.name)).all (fun name => name.toList.any (!·.isDigit)) = true := by
    cases e <;> rfl
  intro hmem
  obtain ⟨c, hc, hdigit⟩ := List.any_eq_true.1 (List.all_eq_true.1 hletter _ hmem)
  have hlist : (toString n).toList = Nat.toDigits 10 n := Nat.toList_repr
  rw [hlist] at hc
  rw [Nat.isDigit_of_mem_toDigits (by omega) (by omega) hc] at hdigit
  cases hdigit

/-! ## The handler -/

/-- What the handler makes of the location of the first error. -/
def fieldOfLoc (loc : List LocItem) : Option String :=
  if loc.length > 1 then loc.getLast?.map LocItem.str else none

theorem handle_validation (first : ValidationError) (rest : List ValidationError) :
    ∃ r, handleException appHandlers (requestValidationError (first :: rest)) = some r ∧
      r.statusCode = 422 ∧ r.field = some (((fieldOfLoc first.loc).map .str).getD .null) :=
  ⟨_, rfl, rfl, rfl⟩

theorem namesField_iff {r : HttpResponse} {first : ValidationError} {rest : List ValidationError}
    (h : r.field = some (((fieldOfLoc first.loc).map .str).getD .null)) :
    r.NamesField e (first :: rest) ↔
      (∃ name ∈ e.parameters.map (·.name), fieldOfLoc first.loc = some name) ∨
        fieldOfLoc first.loc = none ∧ first.loc = [.key "body"] := by
  unfold HttpResponse.NamesField
  rw [h]
  cases hfield : fieldOfLoc first.loc with
  | none => simp
  | some name => simp

/-- In every answer to a failed validation the field is that of a declared parameter or of a field, or
null for an error of the whole body, iff the body is not malformed JSON. -/
theorem validation_field_iff {framework : Framework}
    {serve : PathOperation → HttpRequest → Except PyException Body}
    (hpreflight : framework.preflight req = none) (hroute : framework.route req = .found e)
    (herrors : v.errors e req ≠ [])
    (hserve : serve e req = .error (requestValidationError (v.errors e req))) :
    ∃ r, respond framework serve req = some r ∧ r.statusCode = 422 ∧
      (r.NamesField e (v.errors e req) ↔ ¬ v.Malformed e req) := by
  obtain ⟨first, rest, heq⟩ := List.exists_cons_of_ne_nil herrors
  have hmem : first ∈ v.errors e req := by simp [heq]
  have hloc := loc_of_mem_errors hmem
  obtain ⟨r, hr, hstatus, hfield⟩ := handle_validation first rest
  refine ⟨r, ?_, hstatus, ?_⟩
  · simp only [respond, hpreflight, hroute, hserve, heq]
    exact hr
  rw [heq, namesField_iff hfield]
  rcases hloc with ⟨⟨x, hx, hx'⟩ | hbody, hok⟩ | ⟨hbad, pos, hpos⟩
  · refine iff_of_true (.inl ⟨x.name, List.mem_map_of_mem hx, ?_⟩) hok
    rw [hx']
    rfl
  · refine iff_of_true (.inr ⟨?_, hbody⟩) hok
    rw [hbody]
    rfl
  · refine iff_of_false (fun h => ?_) (not_not.2 hbad)
    rw [hpos] at h
    rcases h with ⟨name, hname, he⟩ | ⟨he, -⟩
    · cases he
      exact number_not_declared e pos hname
    · cases he

end

/-! ## Two registrations -/

/-- A registration with the body `{}`, and one with the body `{`. -/
def emptyRegistration : HttpRequest := ⟨"POST", "/api/v1/auth/register", [], [0x7b, 0x7d]⟩

def brokenRegistration : HttpRequest := ⟨"POST", "/api/v1/auth/register", [], [0x7b]⟩

/-- `json.loads` and pydantic on these bodies. -/
def braceValidator : Validator where
  body req :=
    if req.body = [] then .missing
    else if req.body = [0x7b] then .malformed 1
    else .object
  check _ _ _ := some "Field required"
  text _ _ := ""
  strptimeError text := s!"time data '{text}' does not match format '%d-%m-%Y'"

/-- An endpoint whose validation fails. -/
def refusing (e : PathOperation) (req : HttpRequest) : Except PyException Body :=
  .error (requestValidationError (braceValidator.errors e req))

/-- The first field is missing. -/
theorem validation_field_empty :
    ∃ r, respond (createApp "/api/v1") refusing emptyRegistration = some r ∧ r.statusCode = 422 ∧
      r.NamesField .register (braceValidator.errors .register emptyRegistration) := by
  have hwell : ¬ braceValidator.Malformed .register emptyRegistration := by
    rintro ⟨-, pos, hpos⟩
    cases hpos
  have hpreflight : (createApp "/api/v1").preflight emptyRegistration = none := rfl
  have hroute : (createApp "/api/v1").route emptyRegistration = .found .register := by decide
  have herrors : braceValidator.errors .register emptyRegistration ≠ [] := List.cons_ne_nil _ _
  have hserve : refusing .register emptyRegistration =
      .error (requestValidationError (braceValidator.errors .register emptyRegistration)) := rfl
  obtain ⟨r, hr, hstatus, hiff⟩ := validation_field_iff hpreflight hroute herrors hserve
  exact ⟨r, hr, hstatus, hiff.2 hwell⟩

/-- The field is the offset `1`. -/
theorem validation_field_offset :
    ∃ r, respond (createApp "/api/v1") refusing brokenRegistration = some r ∧ r.statusCode = 422 ∧
      r.field = some (.str "1") ∧
      ¬ r.NamesField .register (braceValidator.errors .register brokenRegistration) := by
  have hpreflight : (createApp "/api/v1").preflight brokenRegistration = none := rfl
  have hroute : (createApp "/api/v1").route brokenRegistration = .found .register := by decide
  have hr : ∃ r, respond (createApp "/api/v1") refusing brokenRegistration = some r ∧
      r.statusCode = 422 ∧ r.field = some (.str "1") :=
    ⟨_, by simp only [respond, hpreflight, hroute]; rfl, rfl, rfl⟩
  obtain ⟨r, hr, hstatus, hone⟩ := hr
  refine ⟨r, hr, hstatus, hone, ?_⟩
  rintro (⟨name, hname, hfield⟩ | ⟨hfield, -⟩)
  · rw [hone] at hfield
    cases hfield
    exact absurd hname (by decide)
  · rw [hone] at hfield
    cases hfield

end BusBookings

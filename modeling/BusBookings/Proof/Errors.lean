import BusBookings.App.Errors

/-!
# The format of error responses

The three handlers that the application registers answer in the format of `ErrorResponse`; that of
FastAPI for Starlette's `HTTPException` does not, and it is the first one in the MRO of the
exceptions that the router and the request parser raise (`handleException_iff`). A refused preflight
request is answered with a text (`errors_uniform_iff`).
-/

namespace BusBookings

/-- The body has exactly the fields of `ErrorResponse`. -/
def HttpResponse.Uniform (r : HttpResponse) : Prop := ∃ e : ErrorResponse, r.body = .json e.toJson

/-- The classes that the application registers handlers for. -/
def ExcClass.Registered (c : ExcClass) : Prop :=
  c = .httpException ∨ c = .requestValidationError ∨ c = .exception

/-- Wherever Starlette's `HTTPException` stands in the MRO, a registered class stands before it. -/
def PyException.Covered (exc : PyException) : Prop := ∀ before after,
  exc.mro = before ++ .starletteHTTPException :: after → ∃ c ∈ before, c.Registered

section

variable {exc : PyException} {c : ExcClass} {handler : Handler} {r : HttpResponse}

/-! ## The handlers -/

theorem uniform_unhandled (h : unhandledExceptionHandlers exc = .ok r) : r.Uniform := by
  cases h
  exact ⟨_, rfl⟩

theorem uniform_validation (h : validationExceptionHandler exc = .ok r) : r.Uniform := by
  cases h
  exact ⟨_, rfl⟩

theorem uniform_http (h : httpExceptionHandler exc = .ok r) : r.Uniform := by
  unfold httpExceptionHandler at h
  split at h
  · cases h
    exact ⟨_, rfl⟩
  · cases h

theorem lookup_appHandlers (c : ExcClass) : appHandlers.lookup c = match c with
    | .httpException => some httpExceptionHandler
    | .requestValidationError => some validationExceptionHandler
    | .exception => some unhandledExceptionHandlers
    | .starletteHTTPException => some defaultHttpExceptionHandler
    | .other _ => none := by
  cases c <;> rfl

/-- What the handler of a registered class answers, or the handler for `Exception` after it. -/
theorem uniform_of_registered (hc : c.Registered) (hl : appHandlers.lookup c = some handler)
    (hm : appHandlers.lookupMro exc = some handler)
    (hr : handleException appHandlers exc = some r) :
    r.Uniform := by
  have hok (response : HttpResponse) (h : handler exc = .ok response) : response.Uniform := by
    rw [lookup_appHandlers] at hl
    rcases hc with rfl | rfl | rfl
    · cases hl
      exact uniform_http h
    · cases hl
      exact uniform_validation h
    · cases hl
      exact uniform_unhandled h
  unfold handleException at hr
  rw [hm] at hr
  simp only at hr
  split at hr
  · rename_i response he
    cases hr
    exact hok _ he
  · split at hr
    · rw [lookup_appHandlers] at hr
      cases hr
      exact ⟨_, rfl⟩
    · cases hr

/-- An exception without a handler, or the first class in its MRO that has one. -/
theorem lookupMro_cases (exc : PyException) :
    (∀ c ∈ exc.mro, appHandlers.lookup c = none) ∧ appHandlers.lookupMro exc = none ∨
    ∃ before c after handler, exc.mro = before ++ c :: after ∧ (∀ x ∈ before, appHandlers.lookup x = none) ∧
      appHandlers.lookup c = some handler ∧ appHandlers.lookupMro exc = some handler := by
  cases h : appHandlers.lookupMro exc with
  | none => exact .inl ⟨List.findSome?_eq_none_iff.1 h, rfl⟩
  | some handler =>
    obtain ⟨before, c, after, hmro, hc, hbefore⟩ := List.findSome?_eq_some_iff.1 h
    exact .inr ⟨before, c, after, handler, hmro, hbefore, hc, rfl⟩

theorem not_registered_of_lookup (h : appHandlers.lookup c = none) :
    ¬ c.Registered ∧ c ≠ .starletteHTTPException := by
  rw [lookup_appHandlers] at h
  cases c <;> simp [ExcClass.Registered] at h ⊢

theorem registered_of_lookup (h : appHandlers.lookup c = some handler) :
    c.Registered ∨ c = .starletteHTTPException ∧ handler = defaultHttpExceptionHandler := by
  rw [lookup_appHandlers] at h
  cases c with
  | httpException => exact .inl (.inl rfl)
  | requestValidationError => exact .inl (.inr (.inl rfl))
  | exception => exact .inl (.inr (.inr rfl))
  | starletteHTTPException => exact .inr ⟨rfl, (Option.some.inj h).symm⟩
  | other name => cases h

/-- Starlette's class comes after the first class that has a handler, if that is registered. -/
theorem covered_of_registered {before after : List ExcClass} (hmro : exc.mro = before ++ c :: after)
    (hbefore : ∀ x ∈ before, appHandlers.lookup x = none) (hc : c.Registered) : exc.Covered := by
  intro before' after' hmro'
  have hne : c ≠ .starletteHTTPException := by
    rintro rfl
    rcases hc with h | h | h <;> cases h
  rw [hmro'] at hmro
  rcases List.append_eq_append_iff.1 hmro with ⟨l, rfl, he⟩ | ⟨l, rfl, he⟩
  · cases l with
    | nil =>
      cases he
      exact absurd rfl hne
    | cons x l =>
      cases he
      exact absurd rfl (not_registered_of_lookup (hbefore .starletteHTTPException (by simp))).2
  · cases l with
    | nil =>
      cases he
      exact absurd rfl hne
    | cons x l =>
      cases he
      exact ⟨c, by simp, hc⟩

/-- FastAPI's own handler answers with the status of the exception, and an error with the field
`detail` only. -/
theorem handleException_default (hm : appHandlers.lookupMro exc = some defaultHttpExceptionHandler) :
    ∃ r, handleException appHandlers exc = some r ∧ r.statusCode = exc.statusCode ∧
      (400 ≤ exc.statusCode → ¬ r.Uniform) := by
  unfold handleException
  rw [hm]
  simp only [defaultHttpExceptionHandler]
  by_cases hbody : exc.statusCode < 200 ∨ exc.statusCode ∈ [204, 205, 304]
  · rw [if_pos hbody]
    refine ⟨_, rfl, rfl, fun hs => ?_⟩
    simp only [List.mem_cons, List.not_mem_nil, or_false] at hbody
    omega
  · rw [if_neg hbody]
    refine ⟨_, rfl, rfl, fun _ ⟨e, he⟩ => ?_⟩
    simp [ErrorResponse.toJson] at he

/-- The response to an exception, if it is an error, has the format exactly if a registered class
comes before Starlette's `HTTPException` in the MRO. -/
theorem handleException_iff (exc : PyException) :
    (∀ r, handleException appHandlers exc = some r → 400 ≤ r.statusCode → r.Uniform) ↔
      (400 ≤ exc.statusCode → exc.Covered) := by
  rcases lookupMro_cases exc with ⟨hnone, hm⟩ | ⟨before, c, after, handler, hmro, hbefore, hc, hm⟩
  · -- no class has a handler: the exception leaves the application
    refine iff_of_true (fun r hr => ?_) fun _ before after hmro => ?_
    · unfold handleException at hr
      rw [hm] at hr
      cases hr
    · exact absurd rfl (not_registered_of_lookup (hnone _ (by rw [hmro]; simp))).2
  · rcases registered_of_lookup hc with hreg | ⟨rfl, rfl⟩
    · exact iff_of_true (fun r hr _ => uniform_of_registered hreg hc hm hr) fun _ =>
        covered_of_registered hmro hbefore hreg
    · obtain ⟨r, hr, hstatus, hnot⟩ := handleException_default hm
      constructor
      · intro h hs
        exact absurd (h r hr (hstatus ▸ hs)) (hnot hs)
      · intro h r' hr' hs
        obtain rfl : r = r' := Option.some.inj (hr.symm.trans hr')
        rw [hstatus] at hs
        obtain ⟨c, hc, hreg⟩ := h hs before after hmro
        exact absurd hreg (not_registered_of_lookup (hbefore c hc)).1

/-- The exceptions of the endpoints are answered in the format. -/
theorem handleException_raised (e : Exc) : ∃ statusCode body, errorResponse e = .error statusCode body ∧
    handleException appHandlers e.raised = some ⟨statusCode, .json body.toJson⟩ := by
  cases e <;> exact ⟨_, _, rfl, rfl⟩

/-! ## The application -/

/-- The request is no preflight that is refused, its path and its method are those of a route, and
what its handling raises is covered. -/
structure Served (framework : Framework) (serve : PathOperation → HttpRequest → Except PyException Body)
    (req : HttpRequest) : Prop where
  allowed : ∀ r, framework.preflight req = some r → r.statusCode ≠ 400
  routed : framework.preflight req = none → framework.route req ≠ .wrongMethod ∧
    framework.route req ≠ .unmatched
  covered : framework.preflight req = none → ∀ e exc, framework.route req = .found e →
    serve e req = .error exc → 400 ≤ exc.statusCode → exc.Covered

theorem PathOperation.statusCode_lt (e : PathOperation) : e.statusCode < 400 := by
  cases e <;> decide

theorem not_covered_starlette (statusCode : Nat) (detail : String) :
    ¬ (starletteHTTPException statusCode detail).Covered := by
  intro h
  obtain ⟨c, hc, -⟩ := h [] [.exception] rfl
  cases hc

/-- The exceptions of the router are not answered in the format. -/
theorem not_uniform_starlette {statusCode : Nat} (hs : 400 ≤ statusCode) (detail : String) :
    ¬ ∀ r, handleException appHandlers (starletteHTTPException statusCode detail) = some r →
      400 ≤ r.statusCode → r.Uniform := by
  rw [handleException_iff]
  exact fun h => not_covered_starlette statusCode detail (h hs)

section

variable {framework : Framework} {serve : PathOperation → HttpRequest → Except PyException Body}
  {req : HttpRequest}

theorem uniform_preflight (hpre : framework.preflight req = some r) :
    (400 ≤ r.statusCode → r.Uniform) ↔ r.statusCode ≠ 400 := by
  rcases framework.preflight_answer req r hpre with hs | ⟨hs, content, hbody⟩
  · rw [hs]
    exact iff_of_true (fun h => by omega) (by decide)
  · refine iff_of_false (fun h => ?_) fun h => h hs
    obtain ⟨e, he⟩ := h (by omega)
    rw [hbody] at he
    cases he

theorem served_found {e : PathOperation} (hpre : framework.preflight req = none)
    (hroute : framework.route req = .found e) :
    Served framework serve req ↔
      ∀ exc, serve e req = .error exc → 400 ≤ exc.statusCode → exc.Covered := by
  constructor
  · intro h exc
    exact h.covered hpre e exc hroute
  · intro h
    refine ⟨fun r hr => ?_, fun _ => by simp [hroute], fun _ e' exc he => ?_⟩
    · rw [hpre] at hr
      cases hr
    · rw [hroute] at he
      cases he
      exact h exc

theorem served_slash (hpre : framework.preflight req = none) (hroute : framework.route req = .slash) :
    Served framework serve req := by
  refine ⟨fun r hr => ?_, fun _ => by simp [hroute], fun _ e exc he => ?_⟩
  · rw [hpre] at hr
    cases hr
  · rw [hroute] at he
    cases he

theorem served_preflight (hpre : framework.preflight req = some r) :
    Served framework serve req ↔ r.statusCode ≠ 400 := by
  constructor
  · intro h
    exact h.allowed r hpre
  · intro h
    refine ⟨fun r' hr' => ?_, fun hnone => ?_, fun hnone => ?_⟩
    · rw [hpre] at hr'
      exact Option.some.inj hr' ▸ h
    · rw [hpre] at hnone
      cases hnone
    · rw [hpre] at hnone
      cases hnone

/-- Every error response has the format of `ErrorResponse` exactly for the requests that are served. -/
theorem errors_uniform_iff (framework : Framework)
    (serve : PathOperation → HttpRequest → Except PyException Body) (req : HttpRequest) :
    (∀ r, respond framework serve req = some r → 400 ≤ r.statusCode → r.Uniform) ↔
      Served framework serve req := by
  cases hpre : framework.preflight req with
  | some r =>
    have hrespond : respond framework serve req = some r := by simp [respond, hpre]
    rw [hrespond, served_preflight hpre, ← uniform_preflight hpre]
    simp only [Option.some.injEq, forall_eq']
  | none =>
    cases hroute : framework.route req with
    | found e =>
      rw [served_found hpre hroute]
      cases hserve : serve e req with
      | ok body =>
        have hrespond : respond framework serve req = some ⟨e.statusCode, body⟩ := by
          simp [respond, hpre, hroute, hserve]
        rw [hrespond]
        refine iff_of_true (fun r hr hs => ?_) fun exc hexc => by cases hexc
        cases hr
        exact absurd hs (Nat.not_le_of_lt e.statusCode_lt)
      | error exc =>
        have hrespond : respond framework serve req = handleException appHandlers exc := by
          simp [respond, hpre, hroute, hserve]
        rw [hrespond, handleException_iff]
        simp only [Except.error.injEq, forall_eq']
    | slash =>
      have hrespond : respond framework serve req = some ⟨307, .empty⟩ := by simp [respond, hpre, hroute]
      rw [hrespond]
      refine iff_of_true (fun r hr hs => ?_) (served_slash hpre hroute)
      cases hr
      exact absurd hs (by decide)
    | wrongMethod =>
      have hrespond : respond framework serve req =
          handleException appHandlers (starletteHTTPException 405 "Method Not Allowed") := by
        simp [respond, hpre, hroute]
      rw [hrespond]
      exact iff_of_false (not_uniform_starlette (by decide) _) fun h => (h.routed hpre).1 hroute
    | unmatched =>
      have hrespond : respond framework serve req =
          handleException appHandlers (starletteHTTPException 404 "Not Found") := by
        simp [respond, hpre, hroute]
      rw [hrespond]
      exact iff_of_false (not_uniform_starlette (by decide) _) fun h => (h.routed hpre).2 hroute

end

end

/-- A path without a route is answered by FastAPI's own handler. -/
theorem errors_uniform_fails : ∃ r, respond (createApp "/api/v1") (fun _ _ => .ok .empty)
    { method := "GET", path := "/nope", headers := [], body := [] } = some r ∧
      r.statusCode = 404 ∧ r.body = .json (.obj [("detail", .str "Not Found")]) ∧ ¬ r.Uniform := by
  have hroute : (createApp "/api/v1").route
      { method := "GET", path := "/nope", headers := [], body := [] } = .unmatched := by decide
  refine ⟨⟨404, .json (.obj [("detail", .str "Not Found")])⟩, ?_, rfl, rfl, fun ⟨e, he⟩ => ?_⟩
  · unfold respond
    rw [hroute]
    rfl
  · simp [ErrorResponse.toJson] at he

end BusBookings

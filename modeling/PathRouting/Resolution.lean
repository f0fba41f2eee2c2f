import PathRouting.Registry

/-! What becomes of a request: the handlers that run before it, the endpoint that answers
it, and the handlers that run after it. -/

namespace PathRouting

/-- The outcome of a request. -/
structure Resolution where
  before : List String
  endpoint : Option String
  /-- The values of the parameters of the endpoint. -/
  params : List (Text × Text)
  after : List String
  /-- The methods that would be answered, if the method asked for is not. -/
  allow : List Kind

namespace Resolution

/-- The status: 200 with an endpoint, 405 if only other methods are answered, else 404. -/
def status (r : Resolution) : Nat :=
  if r.endpoint.isSome then 200 else if r.allow.isEmpty then 404 else 405

end Resolution

namespace Registry

/-- The handlers of a stage that answer a request path. -/
def handlers (reg : Registry) (k : Kind) (uri : Text) : List String :=
  (reg.find k uri).map (·.handler)

/-- Resolves a request. The first route registered for the method is the endpoint; the
stages for matched requests take part only if there is one. -/
def resolve (reg : Registry) (method : Kind) (uri : Text) : Resolution :=
  let before := reg.handlers .before uri
  let after := reg.handlers .after uri
  match (reg.find method uri).head? with
  | some r =>
    { before := before ++ reg.handlers .beforeMatched uri
      endpoint := some r.handler
      params := r.params uri
      after := reg.handlers .afterMatched uri ++ after
      allow := [] }
  | none => { before, endpoint := none, params := [], after, allow := reg.allowed uri }

variable {reg : Registry} {method : Kind} {uri : Text}

theorem resolve_of_some {r : Route} (hr : (reg.find method uri).head? = some r) :
    reg.resolve method uri =
      { before := reg.handlers .before uri ++ reg.handlers .beforeMatched uri
        endpoint := some r.handler
        params := r.params uri
        after := reg.handlers .afterMatched uri ++ reg.handlers .after uri
        allow := [] } := by
  simp only [resolve, hr]

theorem resolve_of_none (hnone : (reg.find method uri).head? = none) :
    reg.resolve method uri =
      { before := reg.handlers .before uri
        endpoint := none
        params := []
        after := reg.handlers .after uri
        allow := reg.allowed uri } := by
  simp only [resolve, hnone]

theorem status_of_some {r : Route} (hr : (reg.find method uri).head? = some r) :
    (reg.resolve method uri).status = 200 := by
  rw [resolve_of_some hr]
  rfl

theorem status_of_none (hnone : (reg.find method uri).head? = none) :
    (reg.resolve method uri).status = if reg.allowed uri = [] then 404 else 405 := by
  simp [resolve_of_none hnone, Resolution.status]

end Registry

end PathRouting

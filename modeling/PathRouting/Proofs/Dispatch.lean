import PathRouting.Proofs.Histories
import PathRouting.Resolution

/-! # How requests are dispatched

A request is dispatched by the routes that have been registered, taken in the one order in which
the calls for them succeeded. The buckets of a registry hold that order kind by kind, and no
more of it is needed: the endpoint is the earliest route of the method that answers, and the
stages around it run in their own order of registration. -/

namespace PathRouting

def Route.answers (r : Route) (k : Kind) (uri : Text) : Bool := r.kind == k && r.accepts uri

namespace Registry

def handlersOf (rs : List Route) (k : Kind) (uri : Text) : List String :=
  (rs.filter fun r => r.answers k uri).map (·.handler)

/-- The rule by which a request is dispatched to routes that stand in the order of their
registration. -/
inductive Dispatched (rs : List Route) (method : Kind) (uri : Text) (res : Resolution) : Prop
  /-- Some route of the method answers. The earliest of them is the endpoint, and the stages for
  matched requests take part, next to it on both sides. -/
  | answered (earlier later : List Route) (r : Route)
      (hroutes : rs = earlier ++ r :: later)
      (hanswers : r.answers method uri = true)
      (hearlier : ∀ s ∈ earlier, s.answers method uri = false)
      (hstatus : res.status = 200)
      (hendpoint : res.endpoint = some r.handler)
      (hparams : res.params = r.params uri)
      (hbefore : res.before = handlersOf rs .before uri ++ handlersOf rs .beforeMatched uri)
      (hafter : res.after = handlersOf rs .afterMatched uri ++ handlersOf rs .after uri)
      (hallow : res.allow = [])
  /-- No route of the method answers. Only the stages for all requests take part, and the methods
  that would be answered are told. -/
  | unanswered
      (hnone : ∀ r ∈ rs, r.answers method uri = false)
      (hendpoint : res.endpoint = none)
      (hparams : res.params = [])
      (hbefore : res.before = handlersOf rs .before uri)
      (hafter : res.after = handlersOf rs .after uri)
      (hallow : ∀ k, k ∈ res.allow ↔ k ∉ Kind.stages ∧ ∃ r ∈ rs, r.answers k uri = true)
      (horder : res.allow.Pairwise (·.rank < ·.rank))
      (hmethod : method ∉ res.allow)
      (hnotAllowed : res.allow ≠ [] → res.status = 405)
      (hnotFound : (∀ k ∉ Kind.stages, ∀ r ∈ rs, r.answers k uri = false) →
        res.status = 404)

/-- The routes of the calls that succeed on a registry that begins without routes, in the order
of the calls. -/
def registered (policy : Policy) (calls : List Call) : List Route :=
  (succeeded { policy } calls).filterMap (Call.route? policy)

variable {reg : Registry} {rs : List Route} {method : Kind} {uri : Text}

/-- The registry holds the routes of a list, those of each kind in the order of the list. -/
def Holds (reg : Registry) (rs : List Route) : Prop :=
  ∀ k, reg.ofKind k = rs.filter fun r => r.kind == k

theorem holds_registered (policy : Policy) (calls : List Call) :
    (run { policy } calls).Holds (registered policy calls) :=
  ofKind_run_empty policy calls

/-! ## What a registry finds -/

theorem Holds.find (h : reg.Holds rs) (k : Kind) (uri : Text) :
    reg.find k uri = rs.filter fun r => r.answers k uri := by
  rw [Registry.find, h k, List.filter_filter]
  apply List.filter_congr
  intro r _
  rw [Route.answers, Bool.and_comm]

theorem Holds.handlers (h : reg.Holds rs) (k : Kind) (uri : Text) :
    reg.handlers k uri = handlersOf rs k uri := by
  rw [Registry.handlers, h.find, handlersOf]

theorem Holds.has_iff (h : reg.Holds rs) (k : Kind) (uri : Text) :
    reg.has k uri = true ↔ ∃ r ∈ rs, r.answers k uri = true := by
  rw [Registry.has, h k, List.any_filter, List.any_eq_true]
  rfl

theorem Holds.mem_allowed_iff (h : reg.Holds rs) (k : Kind) (uri : Text) :
    k ∈ reg.allowed uri ↔ k ∉ Kind.stages ∧ ∃ r ∈ rs, r.answers k uri = true := by
  rw [allowed, List.mem_filter, h.has_iff, ← Kind.isHttp_iff, Kind.isHttp, List.contains_iff_mem]

/-- The methods that are told come in their fixed order, each of them once. -/
theorem pairwise_allowed (reg : Registry) (uri : Text) :
    (reg.allowed uri).Pairwise (·.rank < ·.rank) := by
  have hranks : Kind.httpMethods.Pairwise (·.rank < ·.rank) := by decide
  exact hranks.filter _

/-! ## The rule -/

theorem Holds.dispatched_of_find?_some (h : reg.Holds rs) {r : Route}
    (hfind : rs.find? (fun r => r.answers method uri) = some r) :
    Dispatched rs method uri (reg.resolve method uri) := by
  obtain ⟨hanswers, earlier, later, hroutes, hearlier⟩ := List.find?_eq_some_iff_append.mp hfind
  have hhead : (reg.find method uri).head? = some r := by
    rw [h.find, List.head?_filter, hfind]
  have hresolve := resolve_of_some hhead
  simp only [h.handlers] at hresolve
  rw [hresolve]
  exact .answered earlier later r hroutes hanswers (by simpa using hearlier) rfl rfl rfl rfl rfl rfl

theorem Holds.dispatched_of_find?_none (h : reg.Holds rs)
    (hfind : rs.find? (fun r => r.answers method uri) = none) :
    Dispatched rs method uri (reg.resolve method uri) := by
  have hnone : ∀ r ∈ rs, r.answers method uri = false := by
    simpa using List.find?_eq_none.mp hfind
  have hhead : (reg.find method uri).head? = none := by
    rw [h.find, List.head?_filter, hfind]
  have hresolve := resolve_of_none hhead
  have hstatus := status_of_none hhead
  simp only [h.handlers] at hresolve
  rw [hresolve] at hstatus ⊢
  refine .unanswered hnone rfl rfl rfl rfl ?_ (pairwise_allowed reg uri) ?_ ?_ ?_
  · intro k
    exact h.mem_allowed_iff k uri
  · intro hmethod
    obtain ⟨_, r, hr, hanswers⟩ := (h.mem_allowed_iff method uri).mp hmethod
    simp [hnone r hr] at hanswers
  · intro hallow
    rw [hstatus, if_neg hallow]
  · intro hother
    have hempty : reg.allowed uri = [] := by
      rw [List.eq_nil_iff_forall_not_mem]
      intro k hk
      obtain ⟨hhttp, r, hr, hanswers⟩ := (h.mem_allowed_iff k uri).mp hk
      simp [hother k hhttp r hr] at hanswers
    rw [hstatus, if_pos hempty]

/-- After any calls, requests are dispatched by the rule to the routes of the calls that
succeeded. -/
theorem dispatched_run (policy : Policy) (calls : List Call) (method : Kind) (uri : Text) :
    Dispatched (registered policy calls) method uri
      ((run { policy } calls).resolve method uri) := by
  have h := holds_registered policy calls
  cases hfind : (registered policy calls).find? fun r => r.answers method uri with
  | some r => exact h.dispatched_of_find?_some hfind
  | none => exact h.dispatched_of_find?_none hfind

end Registry

end PathRouting

import PathRouting.Proofs.Histories
import PathRouting.Resolution

/-! # Earlier routes come first

A registry never gives a route up, and what is registered later stands behind it. So a request
that is answered stays with its endpoint whatever is registered afterwards, and one that is not
can only come closer to an answer. -/

namespace PathRouting

/-- What an earlier resolution of a request leaves to a later one. -/
structure Resolution.KeptBy (old new : Resolution) : Prop where
  /-- An answered request stays with its endpoint and with the values of its parameters. -/
  answered : old.status = 200 →
    new.status = 200 ∧ new.endpoint = old.endpoint ∧ new.params = old.params
  /-- Where other methods are answered, the request itself is by now, or it is told all of these
  methods again. -/
  notAllowed : old.status = 405 →
    new.status = 200 ∨ new.status = 405 ∧ old.allow.Sublist new.allow
  /-- What has been found is not lost. -/
  found : old.status ≠ 404 → new.status ≠ 404
  /-- The handlers before the request run again, and in the same order. -/
  before : old.before.Sublist new.before
  /-- The handlers after the request run again, and in the same order. -/
  after : old.after.Sublist new.after

namespace Registry

variable {reg reg' : Registry} {method : Kind} {uri : Text}

/-- Each kind has the routes that it had, and further ones only behind them. -/
def Extends (reg reg' : Registry) : Prop := ∀ k, reg.ofKind k <+: reg'.ofKind k

theorem Extends.refl (reg : Registry) : Extends reg reg := fun k => List.prefix_refl (reg.ofKind k)

theorem Extends.trans {reg'' : Registry} (h : Extends reg reg') (h' : Extends reg' reg'') :
    Extends reg reg'' :=
  fun k => (h k).trans (h' k)

/-! ## Calls -/

theorem extends_after (reg : Registry) (call : Call) : Extends reg (reg.after call) := by
  intro k
  rw [ofKind_after]
  exact List.prefix_append _ _

theorem extends_run (reg : Registry) (calls : List Call) : Extends reg (reg.run calls) := by
  induction calls generalizing reg with
  | nil => exact .refl reg
  | cons call calls ih => exact (extends_after reg call).trans (ih (reg.after call))

/-! ## What is found -/

theorem Extends.find (h : Extends reg reg') (k : Kind) (uri : Text) :
    reg.find k uri <+: reg'.find k uri :=
  (h k).filter _

theorem Extends.handlers (h : Extends reg reg') (k : Kind) (uri : Text) :
    (reg.handlers k uri).Sublist (reg'.handlers k uri) :=
  (h.find k uri).sublist.map _

theorem Extends.has (h : Extends reg reg') {k : Kind} (hhas : reg.has k uri = true) :
    reg'.has k uri = true := by
  obtain ⟨r, hr, haccepts⟩ := List.any_eq_true.mp hhas
  exact List.any_eq_true.mpr ⟨r, (h k).subset hr, haccepts⟩

theorem Extends.allowed (h : Extends reg reg') (uri : Text) :
    (reg.allowed uri).Sublist (reg'.allowed uri) :=
  List.monotone_filter_right _ fun _ => h.has

theorem Extends.head?_find (h : Extends reg reg') {r : Route}
    (hr : (reg.find method uri).head? = some r) : (reg'.find method uri).head? = some r := by
  obtain ⟨later, hfind⟩ := List.head?_eq_some_iff.mp hr
  obtain ⟨further, hfind'⟩ := h.find method uri
  rw [← hfind', hfind]
  rfl

/-! ## Resolutions -/

theorem Extends.kept_of_some (h : Extends reg reg') {r : Route}
    (hr : (reg.find method uri).head? = some r) :
    (reg.resolve method uri).KeptBy (reg'.resolve method uri) := by
  rw [resolve_of_some hr, resolve_of_some (h.head?_find hr)]
  exact
    { answered := fun _ => ⟨rfl, rfl, rfl⟩
      notAllowed := fun _ => .inl rfl
      found := fun hfound => hfound
      before := (h.handlers .before uri).append (h.handlers .beforeMatched uri)
      after := (h.handlers .afterMatched uri).append (h.handlers .after uri) }

/-- A request without an endpoint may find one among the routes that have come since. -/
theorem Extends.kept_of_none (h : Extends reg reg')
    (hnone : (reg.find method uri).head? = none) :
    (reg.resolve method uri).KeptBy (reg'.resolve method uri) := by
  have hbefore := h.handlers .before uri
  have hafter := h.handlers .after uri
  have hallow := h.allowed uri
  have hold := status_of_none hnone
  have hunanswered : (reg.resolve method uri).status ≠ 200 := by
    rw [hold]
    split <;> decide
  cases hr : (reg'.find method uri).head? with
  | some r =>
      have hnew := status_of_some hr
      refine ⟨fun hanswered => absurd hanswered hunanswered, fun _ => .inl hnew, ?_, ?_, ?_⟩
      · simp [hnew]
      · rw [resolve_of_none hnone, resolve_of_some hr]
        exact hbefore.trans (List.sublist_append_left _ _)
      · rw [resolve_of_none hnone, resolve_of_some hr]
        exact hafter.trans (List.sublist_append_right _ _)
  | none =>
      have hnew := status_of_none hr
      have hmethods (hfound : (reg.resolve method uri).status ≠ 404) :
          (reg'.resolve method uri).status = 405 := by
        rw [hold] at hfound
        rw [hnew, if_neg]
        intro hempty
        rw [hempty, List.sublist_nil] at hallow
        exact hfound (if_pos hallow)
      refine ⟨fun hanswered => absurd hanswered hunanswered, ?_, ?_, ?_, ?_⟩
      · intro hmethod
        refine .inr ⟨hmethods (by simp [hmethod]), ?_⟩
        rwa [resolve_of_none hnone, resolve_of_none hr]
      · intro hfound
        simp [hmethods hfound]
      · rwa [resolve_of_none hnone, resolve_of_none hr]
      · rwa [resolve_of_none hnone, resolve_of_none hr]

/-- Whatever calls follow, successful or not, no request is taken over by a route that is
registered later. -/
theorem kept_resolve_run (reg : Registry) (calls : List Call) (method : Kind) (uri : Text) :
    (reg.resolve method uri).KeptBy ((reg.run calls).resolve method uri) := by
  have h := extends_run reg calls
  cases hfind : (reg.find method uri).head? with
  | some r => exact h.kept_of_some hfind
  | none => exact h.kept_of_none hfind

end Registry

end PathRouting

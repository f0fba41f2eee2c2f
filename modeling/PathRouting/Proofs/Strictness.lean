import PathRouting.Proofs.Acceptance
import PathRouting.Proofs.Histories

/-! # Stricter and more tolerant policies

A policy that overlooks more in request paths loses no match: every text that a piece of a
template takes under a stricter policy it takes under a more tolerant one. Which templates there
are does not depend on the policy, so a registry that is filled anew under a more tolerant policy
has the same routes and finds them for the same requests and for more. -/

namespace PathRouting

/-- Whatever the first policy overlooks the second one overlooks, too. -/
structure Policy.Stricter (policy policy' : Policy) : Prop where
  ignoreTrailingSlashes :
    policy.ignoreTrailingSlashes = true → policy'.ignoreTrailingSlashes = true
  mergeSlashes : policy.mergeSlashes = true → policy'.mergeSlashes = true
  caseless : policy.caseless = true → policy'.caseless = true

namespace Policy.Stricter

variable {policy policy' : Policy} {path t : Text}

/-! ## Characters, separators and ends -/

theorem same (h : policy.Stricter policy') {c d : Char} (hsame : policy.Same c d) :
    policy'.Same c d := by
  cases hcase : policy.caseless with
  | true =>
      rw [Policy.Same, if_pos hcase] at hsame
      rwa [Policy.Same, if_pos (h.caseless hcase)]
  | false =>
      obtain rfl : d = c := by simpa [Policy.Same, hcase] using hsame
      exact policy'.same_refl d

theorem isSeparator (h : policy.Stricter policy') (ht : policy.IsSeparator t) :
    policy'.IsSeparator t := by
  cases hmerge : policy.mergeSlashes with
  | true =>
      rw [Policy.IsSeparator, if_pos hmerge] at ht
      rwa [Policy.IsSeparator, if_pos (h.mergeSlashes hmerge)]
  | false =>
      obtain rfl : t = ['/'] := by simpa [Policy.IsSeparator, hmerge] using ht
      exact policy'.isSeparator_slash

theorem isSuffix (h : policy.Stricter policy') (ht : policy.IsSuffix path t) :
    policy'.IsSuffix path t := by
  rw [Policy.isSuffix_iff, Policy.tail] at ht ⊢
  split at ht
  · rename_i hroot
    rwa [if_pos hroot]
  · rename_i hroot
    rw [if_neg hroot]
    split at ht
    · rename_i hends
      rw [if_pos hends]
      exact h.isSeparator ht
    · rename_i hends
      rw [if_neg hends]
      split at ht
      · rename_i hignore
        rw [if_pos (h.ignoreTrailingSlashes hignore)]
        exact ht.imp_right h.isSeparator
      · obtain rfl : t = [] := ht
        split
        · exact .inl rfl
        · exact rfl

end Policy.Stricter

namespace Template

variable {policy policy' : Policy} {path u : Text} {t t' : Template}

/-! ## Templates -/

theorem takes_of_stricter (h : policy.Stricter policy') {p : Piece} {text : Text}
    (htext : p.Takes policy path text) : p.Takes policy' path text := by
  cases p with
  | separator => exact h.isSeparator htext
  | suffix => exact h.isSuffix htext
  | element e =>
      cases e with
      | literal _ _ => exact List.Forall₂.imp (fun _ _ => h.same) htext
      | parameter name reach => cases reach <;> exact htext
      | wildcard => exact htext

theorem hasCut_of_stricter (h : policy.Stricter policy') {ps : List Piece}
    (hcut : HasCut policy path ps u) : HasCut policy' path ps u := by
  obtain ⟨cut, htakes, hwhole⟩ := hcut
  exact ⟨cut, htakes.imp fun p text => takes_of_stricter h, hwhole⟩

theorem follows_of_stricter (h : policy.Stricter policy') (hfollows : Follows policy path u) :
    Follows policy' path u := by
  obtain ⟨ess, hspelled, way, hway, hcut⟩ := hfollows
  exact ⟨ess, hspelled, way, hway, hasCut_of_stricter h hcut⟩

theorem accepts_of_stricter (h : policy.Stricter policy') (hraw : policy.rawLiterals = false)
    (hraw' : policy'.rawLiterals = false) (ht : ofPath policy path = .ok t)
    (ht' : ofPath policy' path = .ok t') (haccepts : t.accepts u = true) : t'.accepts u = true := by
  obtain ⟨_, hmade⟩ := exists_madeOf hraw ht
  obtain ⟨_, hmade'⟩ := exists_madeOf hraw' ht'
  rw [hmade.accepts_iff, ← hmade.follows_iff] at haccepts
  rw [hmade'.accepts_iff, ← hmade'.follows_iff]
  exact follows_of_stricter h haccepts

end Template

/-! ## Routes -/

namespace Route

variable {r r' : Route} {u : Text}

/-- The second route is configured like the first one and answers all requests that it answers. -/
structure Eased (r r' : Route) : Prop where
  entry_eq : r'.entry = r.entry
  accepts : ∀ u, r.accepts u = true → r'.accepts u = true

theorem accepts_of_template (hpath : r'.path = r.path)
    (h : r.template.accepts u = true → r'.template.accepts u = true)
    (haccepts : r.accepts u = true) : r'.accepts u = true := by
  rw [Route.accepts, Bool.or_eq_true] at haccepts ⊢
  rw [hpath]
  exact haccepts.imp_right h

theorem Eased.kind_eq (h : Eased r r') : r'.kind = r.kind := congrArg RouteEntry.kind h.entry_eq

theorem Eased.path_eq (h : Eased r r') : r'.path = r.path := congrArg RouteEntry.path h.entry_eq

theorem Eased.refl (r : Route) : Eased r r := ⟨rfl, fun _ => id⟩

end Route

/-! ## Registries -/

namespace Registry

open Route (Eased)

variable {reg reg' : Registry}

/-- The second registry was filled like the first one, under a policy that overlooks more. -/
structure Rebuilt (reg reg' : Registry) : Prop where
  stricter : reg.policy.Stricter reg'.policy
  plain : reg.policy.rawLiterals = false
  plain' : reg'.policy.rawLiterals = false
  routes : ∀ k, List.Forall₂ Eased (reg.ofKind k) (reg'.ofKind k)

/-- The route of a call is there under one policy just if it is under the other one. -/
theorem Rebuilt.route? (h : Rebuilt reg reg') (call : Call) :
    Option.Rel Eased (call.route? reg.policy) (call.route? reg'.policy) := by
  cases call with
  | ofRoute r => exact .some (.refl r)
  | ofPath kind path handler roles =>
      cases ht : Template.ofPath reg.policy path with
      | ok t =>
          obtain ⟨t', ht', _⟩ := Template.exists_ofPath_of_ok h.plain ht _ h.plain'
          have hpath : t'.path = t.path :=
            (Template.ofPath_eq_ok ht').2.1.trans (Template.ofPath_eq_ok ht).2.1.symm
          simp only [Call.route?, ht, ht', Except.toOption, Option.map_some]
          refine .some ⟨by simp [Route.entry, Route.path, hpath], ?_⟩
          intro u
          exact Route.accepts_of_template hpath
            (Template.accepts_of_stricter h.stricter h.plain h.plain' ht ht')
      | error e =>
          cases ht' : Template.ofPath reg'.policy path with
          | ok t' =>
              obtain ⟨t, ht'', _⟩ := Template.exists_ofPath_of_ok h.plain' ht' _ h.plain
              simp [ht] at ht''
          | error e' =>
              simp only [Call.route?, ht, ht', Except.toOption, Option.map_none]
              exact .none

theorem Rebuilt.isDuplicate_eq (h : Rebuilt reg reg') {r r' : Route} (hr : Eased r r') :
    reg'.isDuplicate r' = reg.isDuplicate r := by
  have hany : ((reg'.ofKind r.kind).any fun other => other.path == r.path) =
      (reg.ofKind r.kind).any fun other => other.path == r.path := by
    have hroutes := h.routes r.kind
    generalize reg.ofKind r.kind = xs at hroutes
    generalize reg'.ofKind r.kind = ys at hroutes
    induction hroutes with
    | nil => rfl
    | cons hx _ ih => rw [List.any_cons, List.any_cons, hx.path_eq, ih]
  rw [isDuplicate, isDuplicate, hr.kind_eq, hr.path_eq, hany]

theorem Rebuilt.succeeds_eq (h : Rebuilt reg reg') (call : Call) :
    reg'.succeeds call = reg.succeeds call := by
  have hroute := h.route? call
  rw [Bool.eq_iff_iff, succeeds_iff, succeeds_iff]
  generalize call.route? reg.policy = x at hroute ⊢
  generalize call.route? reg'.policy = y at hroute ⊢
  cases hroute with
  | none => simp
  | some hr => simp [h.isDuplicate_eq hr]

theorem Rebuilt.added (h : Rebuilt reg reg') (call : Call) :
    List.Forall₂ Eased (call.route? reg.policy).toList (call.route? reg'.policy).toList := by
  have hroute := h.route? call
  generalize call.route? reg.policy = x at hroute ⊢
  generalize call.route? reg'.policy = y at hroute ⊢
  cases hroute with
  | none => exact .nil
  | some hr => exact .cons hr .nil

/-- A call keeps two registries filled alike. -/
theorem Rebuilt.after (h : Rebuilt reg reg') (call : Call) :
    Rebuilt (reg.after call) (reg'.after call) := by
  refine ⟨?_, ?_, ?_, ?_⟩
  · rw [policy_after, policy_after]
    exact h.stricter
  · rw [policy_after]
    exact h.plain
  · rw [policy_after]
    exact h.plain'
  · intro k
    rw [ofKind_after, ofKind_after, h.succeeds_eq]
    refine List.rel_append (h.routes k) (List.rel_filter ?_ ?_)
    · intro r r' hr
      simp only [hr.kind_eq]
    · split
      · exact h.added call
      · exact .nil

theorem Rebuilt.run (h : Rebuilt reg reg') (calls : List Call) :
    Rebuilt (reg.run calls) (reg'.run calls) := by
  induction calls generalizing reg reg' with
  | nil => exact h
  | cons call calls ih => exact ih (h.after call)

theorem Rebuilt.sublist_find (h : Rebuilt reg reg') (k : Kind) (u : Text) :
    ((reg.find k u).map Route.entry).Sublist ((reg'.find k u).map Route.entry) := by
  have hroutes := h.routes k
  rw [Registry.find, Registry.find]
  generalize reg.ofKind k = xs at hroutes
  generalize reg'.ofKind k = ys at hroutes
  induction hroutes with
  | nil => exact .slnil
  | @cons r r' rs rs' hr _ ih =>
      cases haccepts : r.accepts u with
      | true => simpa [haccepts, hr.accepts u haccepts, hr.entry_eq] using ih
      | false =>
          have hlater := ((List.sublist_cons_self r' rs').filter (·.accepts u)).map Route.entry
          simpa [haccepts] using ih.trans hlater

/-- With plain literals, a policy that overlooks more makes templates of the same paths, with the
same segments and names, and loses no match: neither of a template, nor of a route, nor of a
registry for which the same calls are made again. -/
theorem matches_of_stricter {policy policy' : Policy} (h : policy.Stricter policy')
    (hplain : policy.rawLiterals = false) (hplain' : policy'.rawLiterals = false) :
    (∀ path,
      ((∃ t, Template.ofPath policy path = .ok t) ↔ ∃ t', Template.ofPath policy' path = .ok t') ∧
      ∀ t t', Template.ofPath policy path = .ok t → Template.ofPath policy' path = .ok t' →
        t'.segments = t.segments ∧ t'.names = t.names ∧ ∀ u,
          (t.accepts u = true → t'.accepts u = true) ∧
          ∀ kind handler roles, Route.accepts ⟨kind, t, handler, roles⟩ u = true →
            Route.accepts ⟨kind, t', handler, roles⟩ u = true) ∧
    ∀ calls k u,
      (((run { policy } calls).find k u).map Route.entry).Sublist
        (((run { policy := policy' } calls).find k u).map Route.entry) := by
  refine ⟨?_, ?_⟩
  · intro path
    refine ⟨⟨?_, ?_⟩, ?_⟩
    · rintro ⟨t, ht⟩
      obtain ⟨t', ht', _⟩ := Template.exists_ofPath_of_ok hplain ht policy' hplain'
      exact ⟨t', ht'⟩
    · rintro ⟨t', ht'⟩
      obtain ⟨t, ht, _⟩ := Template.exists_ofPath_of_ok hplain' ht' policy hplain
      exact ⟨t, ht⟩
    · intro t t' ht ht'
      obtain ⟨t'', ht'', hsegments, hnames⟩ :=
        Template.exists_ofPath_of_ok hplain ht policy' hplain'
      obtain rfl : t' = t'' := Except.ok.inj (ht'.symm.trans ht'')
      have hpath := (Template.ofPath_eq_ok ht').2.1.trans (Template.ofPath_eq_ok ht).2.1.symm
      refine ⟨hsegments, hnames, ?_⟩
      intro u
      have haccepts : t.accepts u = true → t'.accepts u = true :=
        Template.accepts_of_stricter h hplain hplain' ht ht'
      refine ⟨haccepts, ?_⟩
      intro kind handler roles
      exact Route.accepts_of_template hpath haccepts
  · intro calls k u
    have hempty : Rebuilt { policy } { policy := policy' } := ⟨h, hplain, hplain', fun _ => .nil⟩
    exact (hempty.run calls).sublist_find k u

theorem matches_of_stricter_users :
    Policy.Stricter { ignoreTrailingSlashes := false } { mergeSlashes := true, caseless := true } ∧
    ∃ t t', Template.ofPath { ignoreTrailingSlashes := false } "/Users/{id}".toList = .ok t ∧
      Template.ofPath { mergeSlashes := true, caseless := true } "/Users/{id}".toList = .ok t' ∧
      t'.names = t.names ∧ t.accepts "/Users/7".toList = true ∧
      t'.accepts "/Users/7".toList = true ∧
      ∀ calls : List Call,
        (((run { policy := { ignoreTrailingSlashes := false } } calls).find .get
          "/Users/7".toList).map Route.entry).Sublist
        (((run { policy := { mergeSlashes := true, caseless := true } } calls).find .get
          "/Users/7".toList).map Route.entry) := by
  have hstricter : Policy.Stricter { ignoreTrailingSlashes := false }
      { mergeSlashes := true, caseless := true } := ⟨by decide, by decide, by decide⟩
  obtain ⟨htemplates, hfind⟩ := matches_of_stricter hstricter rfl rfl
  have h : (Template.ofPath { ignoreTrailingSlashes := false } "/Users/{id}".toList).toOption.any
      (·.accepts "/Users/7".toList) = true := by decide +kernel
  obtain ⟨t, ht, haccepts⟩ := exists_ok_of_any h
  obtain ⟨hiff, hkept⟩ := htemplates "/Users/{id}".toList
  obtain ⟨t', ht'⟩ := hiff.mp ⟨t, ht⟩
  obtain ⟨_, hnames, hmatches⟩ := hkept t t' ht ht'
  refine ⟨hstricter, t, t', ht, ht', hnames, haccepts, (hmatches _).1 haccepts, ?_⟩
  intro calls
  exact hfind calls .get _

end Registry

end PathRouting

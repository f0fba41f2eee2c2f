import PathRouting.Config.Basic
import PathRouting.Proofs.Language

/-! # Registering routes

A route that is registered stands behind the others of its kind, and the routes of the other
kinds stay as they are. So what every registration keeps holds of all routes of a registry
that has been built. -/

namespace PathRouting

theorem Kind.mem_all (k : Kind) : k ∈ Kind.all := by
  cases k <;> decide

def Route.entry (r : Route) : RouteEntry := ⟨r.kind, r.path, r.handler, r.roles⟩

namespace Registry

variable {reg reg' : Registry} {r : Route}

/-! ## Buckets -/

theorem ofKind_withBucket (reg : Registry) (k : Kind) (routes : List Route) (k' : Kind) :
    (reg.withBucket k routes).ofKind k' = if k' = k then routes else reg.ofKind k' := by
  by_cases hk : k' = k <;> simp [ofKind, withBucket, hk]

/-- A new bucket is empty. -/
theorem ofKind_opened (reg : Registry) (k k' : Kind) :
    (reg.opened k).ofKind k' = reg.ofKind k' := by
  rw [opened, ofKind_withBucket]
  split
  · rename_i hk
    rw [hk]
  · rfl

theorem ofKind_put (reg : Registry) (r : Route) (k : Kind) :
    (reg.put r).ofKind k = reg.ofKind k ++ [r].filter fun r => r.kind == k := by
  rw [put, ofKind_withBucket]
  by_cases hk : k = r.kind
  · simp [hk]
  · simp [hk, Ne.symm hk]

theorem isDuplicate_opened (reg : Registry) (k : Kind) (r : Route) :
    (reg.opened k).isDuplicate r = reg.isDuplicate r := by
  rw [isDuplicate, ofKind_opened, isDuplicate]

theorem all_eq (reg : Registry) : reg.all = Kind.all.flatMap reg.ofKind := by
  apply flatMap_filter_of_eq_nil
  intro k hk
  have hnone : reg.bucket? k = none := by simpa using hk
  rw [ofKind, hnone, Option.getD_none]

theorem mem_all_iff : r ∈ reg.all ↔ ∃ k, r ∈ reg.ofKind k := by
  rw [all_eq, List.mem_flatMap]
  constructor
  · rintro ⟨k, _, hr⟩
    exact ⟨k, hr⟩
  · rintro ⟨k, hr⟩
    exact ⟨k, k.mem_all, hr⟩

theorem size_eq (reg : Registry) : reg.size = reg.all.length := by
  rw [size, all_eq, List.length_flatMap]
  generalize Kind.all = ks
  induction ks with
  | nil => rfl
  | cons k ks ih =>
      have hlength : (reg.ofKind k).length = ((reg.bucket? k).map List.length).getD 0 := by
        cases hk : reg.bucket? k <;> simp [ofKind, hk]
      rw [List.map_cons, List.sum_cons, hlength, ← ih]
      cases hk : reg.bucket? k <;> simp [hk]

/-! ## Offers -/

theorem offer_of_isDuplicate (h : reg.isDuplicate r = true) :
    reg.offer r = (reg.opened r.kind, .error (.duplicateRoute r.kind r.path)) := by
  simp [offer, isDuplicate_opened, h]

theorem offer_of_new (h : reg.isDuplicate r = false) :
    reg.offer r = ((reg.opened r.kind).put r, .ok ()) := by
  simp [offer, isDuplicate_opened, h]

theorem add_eq_ok_iff :
    reg.add r = .ok reg' ↔
      reg.isDuplicate r = false ∧ reg' = (reg.opened r.kind).put r := by
  unfold add accepted
  cases hduplicate : reg.isDuplicate r with
  | true => simp [offer_of_isDuplicate hduplicate, Except.map]
  | false => simp [offer_of_new hduplicate, Except.map, eq_comm]

theorem addPath_eq_ok_iff {kind : Kind} {path : Text} {handler : String} {roles : Roles} :
    reg.addPath kind path handler roles = .ok reg' ↔
      ∃ template, Template.ofPath reg.policy path = .ok template ∧
        reg.add { kind, template, handler, roles } = .ok reg' := by
  unfold addPath offerPath
  cases htemplate : Template.ofPath reg.policy path with
  | error e => simp [accepted, Except.map]
  | ok template => simp [add]

/-- Every route has the template that its path is read as under the policy. -/
def Compiled (reg : Registry) : Prop :=
  ∀ r ∈ reg.all, Template.ofPath reg.policy r.path = .ok r.template

theorem compiled_addPath (h : reg.Compiled) {kind : Kind} {path : Text} {handler : String}
    {roles : Roles} (hadd : reg.addPath kind path handler roles = .ok reg') :
    reg'.policy = reg.policy ∧ reg'.Compiled := by
  obtain ⟨template, htemplate, hadd⟩ := addPath_eq_ok_iff.mp hadd
  obtain ⟨_, rfl⟩ := add_eq_ok_iff.mp hadd
  refine ⟨rfl, ?_⟩
  intro r hr
  obtain ⟨k, hr⟩ := mem_all_iff.mp hr
  rw [ofKind_put, ofKind_opened] at hr
  rcases List.mem_append.mp hr with hr | hr
  · exact h r (mem_all_iff.mpr ⟨k, hr⟩)
  · obtain rfl := List.mem_singleton.mp (List.mem_filter.mp hr).1
    have hpath := (Template.ofPath_eq_ok htemplate).2.1
    rw [Route.path, hpath]
    exact htemplate

theorem mem_of_mem_find {method : Kind} {uri : Text} {r : Route}
    (h : r ∈ reg.find method uri) : r ∈ reg.all ∧ r.accepts uri = true := by
  obtain ⟨hkind, haccepts⟩ := List.mem_filter.mp h
  exact ⟨mem_all_iff.mpr ⟨method, hkind⟩, haccepts⟩

end Registry

namespace Config

theorem compiled_register {reg reg' : Registry} {es : List RouteEntry} (h : reg.Compiled)
    (hregister : register reg es = .ok reg') : reg'.policy = reg.policy ∧ reg'.Compiled := by
  induction es generalizing reg with
  | nil =>
      obtain rfl : reg = reg' := by simpa [register] using hregister
      exact ⟨rfl, h⟩
  | cons e es ih =>
      rw [register] at hregister
      cases hadd : reg.addPath e.kind e.path e.handler e.roles with
      | error e => simp [hadd, bind, Except.bind] at hregister
      | ok next =>
          simp only [hadd, bind, Except.bind] at hregister
          obtain ⟨hpolicy, hnext⟩ := Registry.compiled_addPath h hadd
          obtain ⟨hpolicy', hcompiled⟩ := ih hnext hregister
          exact ⟨hpolicy'.trans hpolicy, hcompiled⟩

/-- A registry that has been built has the policy of the configuration, and the templates
of its routes have been read under it. -/
theorem compiled_build {c : Config} {reg : Registry} (h : c.build = .ok reg) :
    reg.policy = c.policy ∧ reg.Compiled := by
  have hempty : Registry.Compiled { policy := c.policy } := by
    intro r hr
    obtain ⟨k, hr⟩ := Registry.mem_all_iff.mp hr
    exact absurd hr List.not_mem_nil
  exact compiled_register hempty h

end Config

end PathRouting

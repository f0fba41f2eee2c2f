import Mathlib.Data.List.Induction
import PathRouting.Proofs.Dispatch

/-! # Building a registry

The configured routes are registered in their order, and the first one that is faulty decides how
building ends: its path makes no template, or an earlier route of its HTTP method has the same
path. The routes behind it have no say. Without a faulty route the registry holds them all. -/

namespace PathRouting.Config

open Registry (Holds)

/-- Two configured routes that cannot both be registered: they are for the same HTTP method and
have the same path. -/
def Clash (e e' : RouteEntry) : Prop :=
  e.kind ∉ Kind.stages ∧ e.kind = e'.kind ∧ e.path = e'.path

/-- Why a configured route cannot be registered behind earlier ones. A path that cannot be read is
the reason whatever the earlier routes are. -/
inductive Fault (policy : Policy) (earlier : List RouteEntry) (e : RouteEntry) :
    RouteError → Prop where
  | unread (err : RouteError) (hread : Template.ofPath policy e.path = .error err) :
    Fault policy earlier e err
  | repeated (t : Template) (hread : Template.ofPath policy e.path = .ok t)
      (hearlier : ∃ e' ∈ earlier, Clash e' e) :
    Fault policy earlier e (.duplicateRoute e.kind e.path)

/-- No route is faulty behind those that stand before it. -/
def Faultless (policy : Policy) (es : List RouteEntry) : Prop :=
  ∀ before e after, es = before ++ e :: after → ∀ err, ¬Fault policy before e err

/-- How registering configured routes under a policy ends. -/
inductive Built (policy : Policy) (es : List RouteEntry) : Except RouteError Registry → Prop where
  /-- The first faulty route says why there is no registry. -/
  | faulty (before after : List RouteEntry) (e : RouteEntry) (err : RouteError)
      (hroutes : es = before ++ e :: after) (hbefore : Faultless policy before)
      (hfault : Fault policy before e err) :
    Built policy es (.error err)
  /-- The routes of each kind are those that are configured, in their order, and their templates
  are what their paths are read as. -/
  | registry (reg : Registry) (hfaultless : Faultless policy es) (hpolicy : reg.policy = policy)
      (hroutes : ∀ k, (reg.ofKind k).map Route.entry = es.filter fun e => e.kind == k)
      (htemplates : ∀ r ∈ reg.all, Template.ofPath policy r.path = .ok r.template)
      (hsize : reg.size = es.length) :
    Built policy es (.ok reg)

variable {policy : Policy} {earlier es : List RouteEntry} {e : RouteEntry} {reg : Registry}
  {rs : List Route} {t : Template}

/-! ## Faults -/

theorem faultless_nil (policy : Policy) : Faultless policy [] := by
  intro before e after h
  simp at h

theorem not_fault_iff :
    (∀ err, ¬Fault policy earlier e err) ↔
      (∃ t, Template.ofPath policy e.path = .ok t) ∧ ∀ e' ∈ earlier, ¬Clash e' e := by
  constructor
  · intro h
    cases hread : Template.ofPath policy e.path with
    | error err => exact absurd (.unread err hread) (h err)
    | ok t =>
        refine ⟨⟨t, rfl⟩, ?_⟩
        intro e' he' hclash
        exact h _ (.repeated t hread ⟨e', he', hclash⟩)
  · rintro ⟨⟨t, hread⟩, hclash⟩ err hfault
    cases hfault with
    | unread _ herror => simp [hread] at herror
    | repeated _ _ hearlier =>
        obtain ⟨e', he', hclash'⟩ := hearlier
        exact hclash e' he' hclash'

theorem faultless_concat_iff :
    Faultless policy (es ++ [e]) ↔
      Faultless policy es ∧ ∀ err, ¬Fault policy es e err := by
  constructor
  · intro h
    refine ⟨?_, h es e [] rfl⟩
    rintro before e' after rfl
    exact h before e' (after ++ [e]) (by simp)
  · rintro ⟨hes, he⟩ before e' after hsplit
    rcases after.eq_nil_or_concat' with rfl | ⟨after, last, rfl⟩
    · obtain ⟨rfl, hlast⟩ := List.append_inj' hsplit rfl
      obtain rfl : e = e' := by simpa using hlast
      exact he
    · rw [← List.cons_append, ← List.append_assoc] at hsplit
      exact hes before e' after (List.append_inj' hsplit rfl).1

/-- Routes are without fault if all their paths can be read and no two of them clash. -/
theorem faultless_iff :
    Faultless policy es ↔ (∀ e ∈ es, ∃ t, Template.ofPath policy e.path = .ok t) ∧
      es.Pairwise fun e e' => ¬Clash e e' := by
  induction es using List.reverseRecOn with
  | nil => simp [faultless_nil]
  | append_singleton es e ih =>
      rw [faultless_concat_iff, not_fault_iff, ih, List.pairwise_append]
      simp only [List.mem_append, List.mem_singleton, List.pairwise_singleton, or_imp, forall_and,
        forall_eq, true_and]
      tauto

/-! ## Registries that are being filled -/

/-- A registry into which configured routes have been put, as the routes `rs`. -/
structure Filled (policy : Policy) (es : List RouteEntry) (rs : List Route) (reg : Registry) :
    Prop where
  policy_eq : reg.policy = policy
  entries : rs.map Route.entry = es
  compiled : ∀ r ∈ rs, Template.ofPath policy r.path = .ok r.template
  holds : reg.Holds rs

theorem filled_empty (policy : Policy) : Filled policy [] [] { policy } where
  policy_eq := rfl
  entries := rfl
  compiled := by simp
  holds := fun _ => rfl

theorem Filled.map_ofKind (h : Filled policy es rs reg) (k : Kind) :
    (reg.ofKind k).map Route.entry = es.filter fun e => e.kind == k := by
  rw [h.holds k, ← h.entries, List.filter_map]
  rfl

theorem Filled.all_eq (h : Filled policy es rs reg) : reg.all = rs.mergeSort Registry.ordered :=
  Registry.all_eq_mergeSort h.holds

theorem Filled.size_eq (h : Filled policy es rs reg) : reg.size = es.length := by
  rw [Registry.size_eq, h.all_eq, List.length_mergeSort, ← h.entries, List.length_map]

/-- A route is the second one with its path just if an earlier one clashes with it. -/
theorem Filled.isDuplicate_iff (h : Filled policy es rs reg) (r : Route) :
    reg.isDuplicate r = true ↔ ∃ e ∈ es, Clash e r.entry := by
  rw [← h.entries, Registry.isDuplicate, h.holds]
  simp only [Bool.and_eq_true, List.any_eq_true, List.mem_filter, beq_iff_eq, List.mem_map,
    exists_exists_and_eq_and, Clash, Route.entry, Kind.isHttp_iff]
  constructor
  · rintro ⟨hhttp, s, ⟨hs, hkind⟩, hpath⟩
    exact ⟨s, hs, by rwa [hkind], hkind, hpath⟩
  · rintro ⟨s, hs, hhttp, hkind, hpath⟩
    exact ⟨by rwa [← hkind], s, ⟨hs, hkind⟩, hpath⟩

/-- A route that is put behind the others is filled in behind them. -/
theorem Filled.put (h : Filled policy es rs reg) {r : Route}
    (hread : Template.ofPath policy r.path = .ok r.template) :
    Filled policy (es ++ [r.entry]) (rs ++ [r]) ((reg.opened r.kind).put r) where
  policy_eq := h.policy_eq
  entries := by rw [List.map_append, h.entries, List.map_singleton]
  compiled := by
    intro s hs
    rcases List.mem_append.mp hs with hs | hs
    · exact h.compiled s hs
    · rwa [List.mem_singleton.mp hs]
  holds := by
    intro k
    rw [Registry.ofKind_put, Registry.ofKind_opened, h.holds k, List.filter_append]

/-! ## Registering -/

/-- A configured route is put behind those before it unless it is faulty. -/
theorem Filled.addPath (h : Filled policy es rs reg) (e : RouteEntry) :
    (∃ err, Fault policy es e err ∧
      reg.addPath e.kind e.path e.handler e.roles = .error err) ∨
    (∀ err, ¬Fault policy es e err) ∧ ∃ r next,
      reg.addPath e.kind e.path e.handler e.roles = .ok next ∧
        Filled policy (es ++ [e]) (rs ++ [r]) next := by
  cases hread : Template.ofPath policy e.path with
  | error err =>
      refine .inl ⟨err, .unread err hread, ?_⟩
      rw [Registry.addPath, Registry.offerPath, h.policy_eq, hread]
      rfl
  | ok t =>
      have hpath := (Template.ofPath_eq_ok hread).2.1
      have hentry : Route.entry ⟨e.kind, t, e.handler, e.roles⟩ = e := by
        simp [Route.entry, Route.path, hpath]
      have hadd : reg.addPath e.kind e.path e.handler e.roles =
          reg.add ⟨e.kind, t, e.handler, e.roles⟩ := by
        rw [Registry.addPath, Registry.offerPath, h.policy_eq, hread, Registry.add]
      have hduplicate := h.isDuplicate_iff ⟨e.kind, t, e.handler, e.roles⟩
      rw [hentry] at hduplicate
      rw [hadd, Registry.add]
      by_cases hearlier : ∃ e' ∈ es, Clash e' e
      · refine .inl ⟨_, .repeated t hread hearlier, ?_⟩
        rw [Registry.offer_of_isDuplicate (hduplicate.mpr hearlier), Route.path, hpath]
        rfl
      · have hnew := Bool.eq_false_iff.mpr (mt hduplicate.mp hearlier)
        have hnone : ∀ e' ∈ es, ¬Clash e' e := by simpa using hearlier
        have hfilled := h.put (r := ⟨e.kind, t, e.handler, e.roles⟩) (by rwa [Route.path, hpath])
        rw [hentry] at hfilled
        rw [Registry.offer_of_new hnew]
        exact .inr ⟨not_fault_iff.mpr ⟨⟨t, hread⟩, hnone⟩, _, _, rfl, hfilled⟩

/-- Registering further routes stops at the first faulty one, or fills them all in. -/
theorem Filled.register (h : Filled policy earlier rs reg) (hearlier : Faultless policy earlier)
    (es : List RouteEntry) :
    (∃ before e after err, earlier ++ es = before ++ e :: after ∧ Faultless policy before ∧
      Fault policy before e err ∧ register reg es = .error err) ∨
    ∃ rs' reg', register reg es = .ok reg' ∧ Faultless policy (earlier ++ es) ∧
      Filled policy (earlier ++ es) rs' reg' := by
  induction es generalizing earlier rs reg with
  | nil =>
      rw [List.append_nil]
      exact .inr ⟨rs, reg, rfl, hearlier, h⟩
  | cons e es ih =>
      rw [Config.register]
      rcases h.addPath e with ⟨err, hfault, hadd⟩ | ⟨hnone, r, next, hadd, hnext⟩
      · exact .inl ⟨earlier, e, es, err, rfl, hearlier, hfault, by rw [hadd]; rfl⟩
      · have hrest := ih hnext (faultless_concat_iff.mpr ⟨hearlier, hnone⟩)
        rw [List.append_assoc, List.singleton_append] at hrest
        rw [hadd]
        exact hrest

theorem exists_filled {c : Config} (h : c.build = .ok reg) :
    ∃ rs, Filled c.policy c.routes rs reg := by
  rcases (filled_empty c.policy).register (faultless_nil c.policy) c.routes with
    ⟨_, _, _, err, _, _, _, herror⟩ | ⟨rs, reg', hok, _, hfilled⟩
  · rw [build, herror] at h
    simp at h
  · rw [build, hok] at h
    exact ⟨rs, Except.ok.inj h ▸ hfilled⟩

/-- Building a registry ends at the first faulty route or else holds the configured routes, and it
succeeds just if all paths can be read and no two routes of an HTTP method have the same one. -/
theorem built_build (c : Config) :
    Built c.policy c.routes c.build ∧
      ((∃ reg, c.build = .ok reg) ↔
        (∀ e ∈ c.routes, ∃ t, Template.ofPath c.policy e.path = .ok t) ∧
          c.routes.Pairwise fun e e' => ¬Clash e e') := by
  rw [← faultless_iff]
  rcases (filled_empty c.policy).register (faultless_nil c.policy) c.routes with
    ⟨before, e, after, err, hroutes, hbefore, hfault, herror⟩ | ⟨rs, reg, hok, hfaultless, hfilled⟩
  · rw [build, herror]
    refine ⟨.faulty before after e err hroutes hbefore hfault, ?_⟩
    simp only [reduceCtorEq, exists_false, false_iff]
    intro hfaultless
    exact hfaultless before e after hroutes err hfault
  · have hbuild : c.build = .ok reg := hok
    obtain ⟨hpolicy, hcompiled⟩ := compiled_build hbuild
    rw [hbuild]
    refine ⟨.registry reg hfaultless hpolicy hfilled.map_ofKind ?_ hfilled.size_eq, ?_⟩
    · intro r hr
      rw [← hpolicy]
      exact hcompiled r hr
    · exact ⟨fun _ => hfaultless, fun _ => ⟨reg, rfl⟩⟩

end PathRouting.Config

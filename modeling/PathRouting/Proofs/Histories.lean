import PathRouting.Proofs.Registration

/-! # Histories of a registry

A registry is filled by calls, some of which fail. What it answers afterwards is told by the
calls that succeeded, in their order: a call that fails may open a bucket, but nothing that
can be asked of the registry tells of it. -/

namespace PathRouting

namespace Registry

/-- A call that is to register a route. -/
inductive Call where
  /-- The path is still to be read, under the policy of the registry. -/
  | ofPath (kind : Kind) (path : Text) (handler : String) (roles : Roles)
  /-- The template of the route has been read before, under whatever policy. -/
  | ofRoute (r : Route)

namespace Call

def kind : Call → Kind
  | ofPath kind _ _ _ => kind
  | ofRoute r => r.kind

def rawPath : Call → Text
  | ofPath _ path _ _ => path
  | ofRoute r => r.path

/-- The route that a call is about, if its template can be read. -/
def route? (policy : Policy) : Call → Option Route
  | ofPath kind path handler roles =>
    (Template.ofPath policy path).toOption.map fun template => { kind, template, handler, roles }
  | ofRoute r => some r

end Call

def perform (reg : Registry) : Call → Registry × Except RouteError Unit
  | .ofPath kind path handler roles => reg.offerPath kind path handler roles
  | .ofRoute r => reg.offer r

def after (reg : Registry) (call : Call) : Registry := (reg.perform call).1

def succeeds (reg : Registry) (call : Call) : Bool := (reg.perform call).2.isOk

def run (reg : Registry) (calls : List Call) : Registry := calls.foldl after reg

def succeeded (reg : Registry) : List Call → List Call
  | [] => []
  | call :: calls =>
    if reg.succeeds call then call :: (reg.after call).succeeded calls
    else (reg.after call).succeeded calls

variable {reg reg' : Registry} {call : Call}

/-! ## Single calls -/

theorem kind_rawPath_of_route? {policy : Policy} {r : Route}
    (h : call.route? policy = some r) : r.kind = call.kind ∧ r.path = call.rawPath := by
  cases call with
  | ofPath kind path handler roles =>
      obtain ⟨template, htemplate, rfl⟩ := Option.map_eq_some_iff.mp h
      refine ⟨rfl, ?_⟩
      cases hread : Template.ofPath policy path with
      | error e => simp [hread, Except.toOption] at htemplate
      | ok t =>
          obtain rfl : t = template := by simpa [hread, Except.toOption] using htemplate
          exact (Template.ofPath_eq_ok hread).2.1
  | ofRoute r' =>
      obtain rfl := Option.some.inj h
      exact ⟨rfl, rfl⟩

/-- The ways in which a call ends: there is no route for it, its route is turned down, or its
route is put behind the others of its kind. -/
inductive Ends (reg : Registry) (call : Call) : Registry × Except RouteError Unit → Prop
  | unread (e : RouteError) : call.route? reg.policy = none → Ends reg call (reg, .error e)
  | refused (r : Route) (e : RouteError) : call.route? reg.policy = some r →
      reg.isDuplicate r = true → Ends reg call (reg.opened r.kind, .error e)
  | accepted (r : Route) : call.route? reg.policy = some r → reg.isDuplicate r = false →
      Ends reg call ((reg.opened r.kind).put r, .ok ())

theorem ends_offer {r : Route} (hr : call.route? reg.policy = some r) :
    Ends reg call (reg.offer r) := by
  cases hduplicate : reg.isDuplicate r with
  | true =>
      rw [offer_of_isDuplicate hduplicate]
      exact .refused r _ hr hduplicate
  | false =>
      rw [offer_of_new hduplicate]
      exact .accepted r hr hduplicate

theorem ends_perform (reg : Registry) (call : Call) : Ends reg call (reg.perform call) := by
  cases call with
  | ofRoute r => exact ends_offer rfl
  | ofPath kind path handler roles =>
      rw [perform, offerPath]
      cases hread : Template.ofPath reg.policy path with
      | error e => exact .unread e (by simp [Call.route?, hread, Except.toOption])
      | ok template => exact ends_offer (by simp [Call.route?, hread, Except.toOption])

theorem succeeds_iff :
    reg.succeeds call = true ↔
      ∃ r, call.route? reg.policy = some r ∧ reg.isDuplicate r = false := by
  have hends := ends_perform reg call
  unfold succeeds
  generalize reg.perform call = outcome at hends
  cases hends with
  | unread e hr => simp [hr, Except.isOk, Except.toBool]
  | refused r e hr hduplicate => simp [hr, hduplicate, Except.isOk, Except.toBool]
  | accepted r hr hduplicate => simp [hr, hduplicate, Except.isOk, Except.toBool]

theorem policy_after (reg : Registry) (call : Call) : (reg.after call).policy = reg.policy := by
  have hends := ends_perform reg call
  unfold after
  generalize reg.perform call = outcome at hends
  cases hends <;> rfl

/-- A call changes the routes of a kind only if it succeeds, by its own route. -/
theorem ofKind_after (reg : Registry) (call : Call) (k : Kind) :
    (reg.after call).ofKind k = reg.ofKind k ++
      (if reg.succeeds call then (call.route? reg.policy).toList else []).filter
        fun r => r.kind == k := by
  have hends := ends_perform reg call
  unfold after succeeds
  generalize reg.perform call = outcome at hends
  cases hends with
  | unread e hr => simp [Except.isOk, Except.toBool]
  | refused r e hr hduplicate => simp [ofKind_opened, Except.isOk, Except.toBool]
  | accepted r hr hduplicate =>
      simp only [ofKind_put, ofKind_opened, hr, Option.toList, Except.isOk, Except.toBool, ite_true]

theorem isDuplicate_eq_false_iff {r : Route} :
    reg.isDuplicate r = false ↔
      r.kind ∈ Kind.stages ∨ ∀ s ∈ reg.ofKind r.kind, s.path ≠ r.path := by
  rw [isDuplicate, Bool.and_eq_false_iff, List.any_eq_false, Kind.isHttp_eq_false_iff]
  simp only [beq_iff_eq, ne_eq]

/-! ## Answers -/

/-- Whatever is asked, two registries give the same answer. -/
structure Agree (reg reg' : Registry) : Prop where
  ofKind : ∀ k, reg'.ofKind k = reg.ofKind k
  find : ∀ k uri, reg'.find k uri = reg.find k uri
  has : ∀ k uri, reg'.has k uri = reg.has k uri
  allowed : ∀ uri, reg'.allowed uri = reg.allowed uri
  all : reg'.all = reg.all
  size : reg'.size = reg.size

/-- Every answer is told by the routes of each kind. -/
theorem agree_of_ofKind (h : ∀ k, reg'.ofKind k = reg.ofKind k) : Agree reg reg' := by
  have hhas (k : Kind) (uri : Text) : reg'.has k uri = reg.has k uri := by
    rw [Registry.has, h, Registry.has]
  have hall : reg'.all = reg.all := by rw [all_eq, all_eq, funext h]
  refine ⟨h, ?_, hhas, ?_, hall, ?_⟩
  · intro k uri
    rw [Registry.find, h, Registry.find]
  · intro uri
    simp only [Registry.allowed, hhas]
  · rw [size_eq, size_eq, hall]

/-- A call that fails changes no answer. -/
theorem agree_after (h : reg.succeeds call = false) : Agree reg (reg.after call) := by
  apply agree_of_ofKind
  intro k
  rw [ofKind_after, h]
  simp

/-! ## Runs -/

theorem run_append (reg : Registry) (before calls : List Call) :
    reg.run (before ++ calls) = (reg.run before).run calls := by
  rw [run, run, run, List.foldl_append]

theorem policy_run (reg : Registry) (calls : List Call) : (reg.run calls).policy = reg.policy := by
  induction calls generalizing reg with
  | nil => rfl
  | cons call calls ih =>
      have hrest := ih (reg.after call)
      rw [policy_after] at hrest
      exact hrest

/-- Every call that succeeds has a route. -/
theorem isSome_of_mem_succeeded {calls : List Call} (h : call ∈ reg.succeeded calls) :
    (call.route? reg.policy).isSome = true := by
  induction calls generalizing reg with
  | nil => simp [succeeded] at h
  | cons first calls ih =>
      rw [succeeded] at h
      have hlater (hcall : call ∈ (reg.after first).succeeded calls) :
          (call.route? reg.policy).isSome = true := by
        rw [← policy_after reg first]
        exact ih hcall
      cases hfirst : reg.succeeds first with
      | false =>
          rw [hfirst] at h
          exact hlater h
      | true =>
          rw [hfirst] at h
          rcases List.mem_cons.mp h with rfl | h
          · obtain ⟨r, hr, _⟩ := succeeds_iff.mp hfirst
            rw [hr, Option.isSome_some]
          · exact hlater h

/-- The routes of a kind after a run are those before it and those of the calls that
succeeded. -/
theorem ofKind_run (reg : Registry) (calls : List Call) (k : Kind) :
    (reg.run calls).ofKind k = reg.ofKind k ++
      ((reg.succeeded calls).filterMap (Call.route? reg.policy)).filter fun r => r.kind == k := by
  induction calls generalizing reg with
  | nil => simp [run, succeeded]
  | cons call calls ih =>
      have hrest := ih (reg.after call)
      rw [policy_after, ofKind_after] at hrest
      have hrun : reg.run (call :: calls) = (reg.after call).run calls := rfl
      rw [hrun, hrest, succeeded, List.append_assoc, ← List.filter_append]
      cases hcall : reg.succeeds call with
      | false => simp
      | true =>
          obtain ⟨r, hr, _⟩ := succeeds_iff.mp hcall
          simp [hr]

def Distinct (reg : Registry) : Prop :=
  ∀ k ∉ Kind.stages, ((reg.ofKind k).map Route.path).Nodup

theorem Distinct.after (h : reg.Distinct) (call : Call) : (reg.after call).Distinct := by
  intro k hk
  rw [ofKind_after]
  cases hcall : reg.succeeds call with
  | false => simpa using h k hk
  | true =>
      obtain ⟨r, hr, hduplicate⟩ := succeeds_iff.mp hcall
      simp only [hr, Option.toList, ite_true]
      by_cases hkind : r.kind = k
      · subst hkind
        have hnew : ∀ s ∈ reg.ofKind r.kind, s.path ≠ r.path := by
          rcases isDuplicate_eq_false_iff.mp hduplicate with hstage | hnew
          · simp [hk] at hstage
          · exact hnew
        simpa [List.nodup_append] using ⟨h r.kind hk, hnew⟩
      · simpa [hkind] using h k hk

theorem Distinct.run (h : reg.Distinct) (calls : List Call) : (reg.run calls).Distinct := by
  induction calls generalizing reg with
  | nil => exact h
  | cons call calls ih => exact ih (h.after call)

/-! ## Routes kind by kind -/

def ordered (r s : Route) : Bool := r.kind.rank ≤ s.kind.rank

theorem filter_kind_append {k : Kind} {rs : List Route} (h : rs.Pairwise (ordered · ·))
    (hk : ∀ r ∈ rs, k.rank ≤ r.kind.rank) (hinj : ∀ r ∈ rs, r.kind.rank = k.rank → r.kind = k) :
    rs.filter (fun r => r.kind == k) ++ rs.filter (fun r => r.kind != k) = rs := by
  induction rs with
  | nil => rfl
  | cons r rs ih =>
      obtain ⟨hfirst, hrest⟩ := List.pairwise_cons.mp h
      have hrs := ih hrest (fun s hs => hk s (by simp [hs])) (fun s hs => hinj s (by simp [hs]))
      by_cases hr : r.kind = k
      · simpa [hr] using hrs
      · have hlater : ∀ s ∈ rs, s.kind ≠ k := by
          rintro s hs rfl
          have hle : r.kind.rank ≤ s.kind.rank := by simpa [ordered] using hfirst s hs
          have hge := hk r (by simp)
          exact hr (hinj r (by simp) (by omega))
        have hnone : rs.filter (fun s => s.kind == k) = [] := by
          rw [List.filter_eq_nil_iff]
          intro s hs
          simpa using hlater s hs
        have hall : rs.filter (fun s => s.kind != k) = rs := by
          rw [List.filter_eq_self]
          intro s hs
          simpa using hlater s hs
        simp [hr, hnone, hall]

/-- Routes in the order of their kinds are the routes of each kind, kind after kind. -/
theorem flatMap_filter_kind {ks : List Kind} (hks : ks.Pairwise (·.rank < ·.rank))
    {rs : List Route} (h : rs.Pairwise (ordered · ·)) (hmem : ∀ r ∈ rs, r.kind ∈ ks) :
    ks.flatMap (fun k => rs.filter fun r => r.kind == k) = rs := by
  induction ks generalizing rs with
  | nil =>
      rw [List.flatMap_nil, eq_comm, List.eq_nil_iff_forall_not_mem]
      exact fun r hr => List.not_mem_nil (hmem r hr)
  | cons k ks ih =>
      obtain ⟨hfirst, hlater⟩ := List.pairwise_cons.mp hks
      have hle : ∀ r ∈ rs, k.rank ≤ r.kind.rank := by
        intro r hr
        rcases List.mem_cons.mp (hmem r hr) with heq | hr'
        · rw [heq]
        · exact Nat.le_of_lt (hfirst _ hr')
      have hinj : ∀ r ∈ rs, r.kind.rank = k.rank → r.kind = k := by
        intro r hr hrank
        rcases List.mem_cons.mp (hmem r hr) with heq | hr'
        · exact heq
        · have hlt := hfirst _ hr'
          omega
      have hrest := ih hlater (h.filter fun r => r.kind != k) (by
        intro r hr
        obtain ⟨hr, hne⟩ := List.mem_filter.mp hr
        rcases List.mem_cons.mp (hmem r hr) with heq | hr'
        · simp [heq] at hne
        · exact hr')
      have hsame : ∀ k' ∈ ks, (rs.filter fun r => r.kind != k).filter (fun r => r.kind == k') =
          rs.filter fun r => r.kind == k' := by
        intro k' hk'
        rw [List.filter_filter]
        apply List.filter_congr
        intro r hr
        have hne : r.kind = k' → r.kind ≠ k := by
          rintro heq rfl
          have hlt := hfirst k' hk'
          rw [heq] at hlt
          exact Nat.lt_irrefl _ hlt
        by_cases hkind : r.kind = k'
        · rw [(beq_iff_eq).mpr hkind, (bne_iff_ne).mpr (hne hkind), Bool.and_self]
        · rw [(beq_eq_false_iff_ne).mpr hkind, Bool.false_and]
      rw [List.flatMap_cons, ← List.flatMap_congr hsame, hrest]
      exact filter_kind_append h hle hinj

theorem ordered_trans (r s t : Route) (hrs : ordered r s = true) (hst : ordered s t = true) :
    ordered r t = true := by
  simp only [ordered, decide_eq_true_eq] at hrs hst ⊢
  omega

theorem ordered_total (r s : Route) : (ordered r s || ordered s r) = true := by
  simp only [ordered, Bool.or_eq_true, decide_eq_true_eq]
  omega

/-- Putting routes in the order of their kinds keeps the order of the routes of each kind. -/
theorem filter_mergeSort (rs : List Route) (k : Kind) :
    (rs.mergeSort ordered).filter (fun r => r.kind == k) = rs.filter fun r => r.kind == k := by
  have hequal : (rs.filter fun r => r.kind == k).Pairwise (ordered · ·) := by
    refine List.pairwise_iff_forall_sublist.mpr ?_
    intro r s hrs
    have hkind (t : Route) (ht : t ∈ [r, s]) : t.kind = k := by
      simpa using (List.mem_filter.mp (hrs.subset ht)).2
    simp [ordered, hkind r (by simp), hkind s (by simp)]
  have hsublist := List.sublist_mergeSort ordered_trans ordered_total hequal List.filter_sublist
  have hfilter := hsublist.filter fun r => r.kind == k
  rw [List.filter_filter] at hfilter
  simp only [Bool.and_self] at hfilter
  exact (hfilter.eq_of_length ((List.mergeSort_perm rs ordered).filter _).length_eq.symm).symm

/-- If the routes of each kind are those of a list, all routes are that list in the order of
the kinds. -/
theorem all_eq_mergeSort {rs : List Route}
    (h : ∀ k, reg.ofKind k = rs.filter fun r => r.kind == k) :
    reg.all = rs.mergeSort ordered := by
  have hranks : Kind.all.Pairwise (·.rank < ·.rank) := by decide
  have hsorted := List.pairwise_mergeSort ordered_trans ordered_total rs
  rw [all_eq, funext h, ← flatMap_filter_kind hranks hsorted fun r _ => r.kind.mem_all]
  simp only [filter_mergeSort]

/-! ## What a registry tells about its calls -/

/-- The routes of a registry that begins without routes are those of the calls that
succeeded. -/
theorem ofKind_run_empty (policy : Policy) (calls : List Call) (k : Kind) :
    (run { policy } calls).ofKind k =
      ((succeeded { policy } calls).filterMap (Call.route? policy)).filter fun r => r.kind == k :=
  ofKind_run { policy } calls k

/-- A registry has a route of a kind with a path just if a call for them has succeeded. -/
theorem exists_route_iff (policy : Policy) (calls : List Call) (k : Kind) (path : Text) :
    (∃ s ∈ (run { policy } calls).ofKind k, s.path = path) ↔
      ∃ call ∈ succeeded { policy } calls, call.kind = k ∧ call.rawPath = path := by
  simp only [ofKind_run_empty, List.mem_filter, List.mem_filterMap, beq_iff_eq]
  constructor
  · rintro ⟨s, ⟨⟨call, hcall, hs⟩, hkind⟩, hpath⟩
    obtain ⟨hkind', hpath'⟩ := kind_rawPath_of_route? hs
    exact ⟨call, hcall, hkind'.symm.trans hkind, hpath'.symm.trans hpath⟩
  · rintro ⟨call, hcall, hkind, hpath⟩
    obtain ⟨s, hs⟩ := Option.isSome_iff_exists.mp (isSome_of_mem_succeeded hcall)
    obtain ⟨hkind', hpath'⟩ := kind_rawPath_of_route? hs
    exact ⟨s, ⟨⟨call, hcall, hs⟩, hkind'.trans hkind⟩, hpath'.trans hpath⟩

/-- A call succeeds if there is a route for it and it clashes with no earlier call that
succeeded. -/
theorem succeeds_run_iff (policy : Policy) (before : List Call) (call : Call) :
    (run { policy } before).succeeds call = true ↔
      (call.route? policy).isSome = true ∧
        (call.kind ∈ Kind.stages ∨ ∀ earlier ∈ succeeded { policy } before,
          ¬(earlier.kind = call.kind ∧ earlier.rawPath = call.rawPath)) := by
  have hclash : (∀ s ∈ (run { policy } before).ofKind call.kind, s.path ≠ call.rawPath) ↔
      ∀ earlier ∈ succeeded { policy } before,
        ¬(earlier.kind = call.kind ∧ earlier.rawPath = call.rawPath) := by
    simpa using not_congr (exists_route_iff policy before call.kind call.rawPath)
  rw [succeeds_iff, policy_run, ← hclash]
  constructor
  · rintro ⟨r, hr, hduplicate⟩
    obtain ⟨hkind, hpath⟩ := kind_rawPath_of_route? hr
    rw [isDuplicate_eq_false_iff, hkind, hpath] at hduplicate
    exact ⟨by simp [hr], hduplicate⟩
  · rintro ⟨hread, hnew⟩
    obtain ⟨r, hr⟩ := Option.isSome_iff_exists.mp hread
    obtain ⟨hkind, hpath⟩ := kind_rawPath_of_route? hr
    rw [← hkind, ← hpath, ← isDuplicate_eq_false_iff] at hnew
    exact ⟨r, hr, hnew⟩

theorem filter_filterMap_route? (policy : Policy) (calls : List Call) (k : Kind) :
    (calls.filterMap (Call.route? policy)).filter (fun r => r.kind == k) =
      (calls.filter fun call => call.kind == k).filterMap (Call.route? policy) := by
  induction calls with
  | nil => rfl
  | cons call calls ih =>
      cases hr : call.route? policy with
      | none =>
          by_cases hk : call.kind = k <;> simp [hr, hk, ih]
      | some r =>
          have hkind := (kind_rawPath_of_route? hr).1
          by_cases hk : call.kind = k <;> simp [hr, hkind, hk, ih]

theorem length_filterMap_of_isSome {α β : Type} {f : α → Option β} {xs : List α}
    (h : ∀ x ∈ xs, (f x).isSome = true) : (xs.filterMap f).length = xs.length := by
  induction xs with
  | nil => rfl
  | cons x xs ih =>
      obtain ⟨y, hy⟩ := Option.isSome_iff_exists.mp (h x (by simp))
      simp [hy, ih fun x hx => h x (by simp [hx])]

/-- What calls on a registry that begins without routes come to. -/
structure Recorded (policy : Policy) (calls : List Call) : Prop where
  /-- A call succeeds if its template can be read and it is for a stage, or else no earlier
  call that succeeded is for the same method and path. -/
  succeeds : ∀ before call later, calls = before ++ call :: later →
    ((run { policy } before).succeeds call = true ↔
      (call.route? policy).isSome = true ∧
        (call.kind ∈ Kind.stages ∨ ∀ earlier ∈ succeeded { policy } before,
          ¬(earlier.kind = call.kind ∧ earlier.rawPath = call.rawPath)))
  /-- A call that fails changes no answer of the registry. -/
  fails : ∀ before call later, calls = before ++ call :: later →
    (run { policy } before).succeeds call = false →
      Agree (run { policy } before) (run { policy } (before ++ [call]))
  /-- The routes of a kind are those of the calls for it that succeeded, in their order. -/
  ofKind : ∀ k, (run { policy } calls).ofKind k =
    ((succeeded { policy } calls).filter fun call => call.kind == k).filterMap
      (Call.route? policy)
  /-- The routes of an HTTP method have different paths. -/
  distinct : ∀ k ∉ Kind.stages,
    (((run { policy } calls).ofKind k).map Route.path).Nodup
  /-- There are as many routes as calls that succeeded. -/
  size : (run { policy } calls).size = (succeeded { policy } calls).length
  /-- All routes are those of the calls that succeeded, sorted by kind with the order of the
  calls kept for each kind. -/
  all : (run { policy } calls).all =
    ((succeeded { policy } calls).filterMap (Call.route? policy)).mergeSort ordered

/-- After any calls a registry holds what the calls that succeeded have put into it. -/
theorem recorded (policy : Policy) (calls : List Call) : Recorded policy calls where
  succeeds := by
    intro before call later _
    exact succeeds_run_iff policy before call
  fails := by
    intro before call later _ hfails
    rw [run_append]
    exact agree_after hfails
  ofKind := by
    intro k
    rw [ofKind_run_empty, filter_filterMap_route?]
  distinct := by
    intro k hk
    have hempty : Distinct { policy } := fun _ _ => List.nodup_nil
    exact hempty.run calls k hk
  size := by
    have hroutes : ∀ call ∈ succeeded { policy } calls, (call.route? policy).isSome = true := by
      intro call hcall
      have hroute := isSome_of_mem_succeeded hcall
      exact hroute
    rw [size_eq, all_eq_mergeSort (ofKind_run_empty policy calls), List.length_mergeSort,
      length_filterMap_of_isSome hroutes]
  all := all_eq_mergeSort (ofKind_run_empty policy calls)

end Registry

end PathRouting

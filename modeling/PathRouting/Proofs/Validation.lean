import Mathlib.Data.List.TakeWhile
import PathRouting.Config.Loading

/-! # The rules of a configuration

Validation finds every field that breaks its rule, once and in the order of the fields: route by
route, the path of a route before its handler, the log level last. So a configuration that is read
meets all rules, and of one that does not the error says all that is wrong with it. -/

namespace PathRouting

namespace Config

/-- The path of a route is a lone star or begins with a slash. -/
def GoodPath (path : Text) : Prop := path = ['*'] ∨ path.head? = some '/'

/-- The name of a handler has a character that is not white space. -/
def GoodHandler (handler : String) : Prop := ∃ c ∈ handler.toList, Text.isBlank c = false

/-- A log level is a known one up to the case of its ASCII letters. -/
def GoodLevel (level : String) : Prop :=
  ∃ known ∈ logLevels, Text.lowerAscii level.toList = Text.lowerAscii known.toList

/-- A configuration that meets all rules. -/
structure Sound (c : Config) : Prop where
  paths : ∀ e ∈ c.routes, GoodPath e.path
  handlers : ∀ e ∈ c.routes, GoodHandler e.handler
  logLevel : GoodLevel c.logLevel

/-- A field for which there is a rule, the routes being counted from zero. -/
inductive Field where
  | path (i : Nat)
  | handler (i : Nat)
  | logLevel

def Field.name : Field → String
  | path i => "routes[" ++ toString i ++ "].path"
  | handler i => "routes[" ++ toString i ++ "].handler"
  | logLevel => "observability.log_level"

def Field.Before : Field → Field → Prop
  | path i, path j => i < j
  | path i, handler j => i ≤ j
  | handler i, path j => i < j
  | handler i, handler j => i < j
  | logLevel, _ => False
  | _, logLevel => True

/-- A field breaks its rule, and what is to be said about it. -/
inductive Breaks (c : Config) : Field → String → Prop
  | emptyPath {i : Nat} {e : RouteEntry} (hroute : c.routes[i]? = some e) (hempty : e.path = []) :
    Breaks c (.path i) "must not be empty"
  | path {i : Nat} {e : RouteEntry} (hroute : c.routes[i]? = some e) (hne : e.path ≠ [])
      (hpath : ¬GoodPath e.path) :
    Breaks c (.path i) ("'" ++ e.path.toString ++ "' must start with '/' or be '*'")
  | handler {i : Nat} {e : RouteEntry} (hroute : c.routes[i]? = some e)
      (hhandler : ¬GoodHandler e.handler) :
    Breaks c (.handler i) "must not be empty"
  | logLevel (hlevel : ¬GoodLevel c.logLevel) :
    Breaks c .logLevel ("'" ++ c.logLevel ++ "' is not one of trace, debug, info, warn, error")

/-- Problems that are just the broken rules of a configuration. -/
structure Reports (c : Config) (ps : List Problem) : Prop where
  /-- There is one problem for each field that breaks its rule, in the order of the fields. -/
  listed : ∃ faults : List (Field × String),
    ps = faults.map (fun fault => ⟨fault.1.name, fault.2⟩) ∧
      (∀ f reason, (f, reason) ∈ faults ↔ Breaks c f reason) ∧
      (faults.map Prod.fst).Pairwise Field.Before
  /-- No two problems are located at the same field. -/
  once : (ps.map Problem.field).Nodup

/-- What becomes of the text of a configuration. -/
inductive Validated (t : Text) : Except LoadError Config → Prop
  | malformed (hform : (Toml.document? t).bind ofRows? = none) : Validated t (.error .form)
  | sound (c : Config) (hform : (Toml.document? t).bind ofRows? = some c) (hsound : c.Sound) :
    Validated t (.ok c)
  /-- The error lists what is reported, each problem with its location. -/
  | unsound (c : Config) (ps : List Problem) (hform : (Toml.document? t).bind ofRows? = some c)
      (hsound : ¬c.Sound) (hreports : c.Reports ps)
      (hmessage : (LoadError.invalid ps).message = "Validation failed: " ++
        ", ".intercalate (ps.map fun p => p.field ++ ": " ++ p.reason)) :
    Validated t (.error (.invalid ps))

variable {c : Config} {path t : Text} {handler level reason : String} {f f' : Field} {i : Nat}
  {e : RouteEntry}

/-! ## The rules of the fields -/

theorem trim_eq_nil_iff : Text.trim t = [] ↔ ∀ c ∈ t, Text.isBlank c = true := by
  rw [Text.trim, List.reverse_eq_nil_iff, List.dropWhile_eq_nil_iff]
  simp only [List.mem_reverse]
  constructor
  · intro h c hc
    rw [← List.takeWhile_append_dropWhile (p := Text.isBlank) (l := t), List.mem_append] at hc
    rcases hc with hc | hc
    · exact List.mem_takeWhile_imp hc
    · exact h c hc
  · intro h c hc
    exact h c ((List.dropWhile_sublist _).mem hc)

theorem goodHandler_iff : GoodHandler handler ↔ Text.trim handler.toList ≠ [] := by
  rw [ne_eq, trim_eq_nil_iff]
  simp [GoodHandler]

theorem goodLevel_iff :
    GoodLevel level ↔ logLevels.contains (Text.lowerAscii level.toList).toString = true := by
  have hlower : ∀ known ∈ logLevels, Text.lowerAscii known.toList = known.toList := by decide
  rw [GoodLevel, List.contains_iff_mem]
  constructor
  · rintro ⟨known, hknown, hsame⟩
    rw [hsame, hlower known hknown, Text.toString, String.ofList_toList]
    exact hknown
  · intro hmem
    refine ⟨_, hmem, ?_⟩
    rw [hlower _ hmem, Text.toString, String.toList_ofList]

theorem pathProblem?_eq_some_iff :
    pathProblem? path = some reason ↔
      path = [] ∧ reason = "must not be empty" ∨
        path ≠ [] ∧ ¬GoodPath path ∧
          reason = "'" ++ path.toString ++ "' must start with '/' or be '*'" := by
  have hquoted : RouteError.quoted path ++ " must start with '/' or be '*'" =
      "'" ++ path.toString ++ "' must start with '/' or be '*'" := by
    simp [RouteError.quoted, String.append_assoc]
  rw [pathProblem?, hquoted]
  by_cases hempty : path = []
  · simp [hempty, eq_comm]
  · rw [if_neg (by simp [hempty])]
    by_cases hpath : GoodPath path
    · rw [if_neg fun h => not_or.mpr h hpath]
      simp [hempty, hpath]
    · rw [if_pos (not_or.mp hpath)]
      simp [hempty, hpath, eq_comm]

theorem handlerProblem?_eq_some_iff :
    handlerProblem? handler = some reason ↔
      ¬GoodHandler handler ∧ reason = "must not be empty" := by
  simp only [goodHandler_iff, handlerProblem?, List.isEmpty_iff, not_not]
  by_cases hblank : Text.trim handler.toList = []
  · simp [hblank, eq_comm]
  · simp [hblank]

theorem logLevelProblem?_eq_some_iff :
    logLevelProblem? level = some reason ↔
      ¬GoodLevel level ∧
        reason = "'" ++ level ++ "' is not one of trace, debug, info, warn, error" := by
  have hlevels : ", ".intercalate logLevels = "trace, debug, info, warn, error" := rfl
  have hquoted : RouteError.quoted level.toList ++ " is not one of " ++ ", ".intercalate logLevels =
      "'" ++ level ++ "' is not one of trace, debug, info, warn, error" := by
    rw [hlevels]
    simp [RouteError.quoted, Text.toString, String.append_assoc]
  rw [goodLevel_iff, logLevelProblem?, hquoted]
  cases logLevels.contains (Text.lowerAscii level.toList).toString with
  | true => simp
  | false => simp [eq_comm]

/-! ## The faults of a configuration -/

def routeFaults (i : Nat) (e : RouteEntry) : List (Field × String) :=
  ((pathProblem? e.path).map (Field.path i, ·)).toList ++
    ((handlerProblem? e.handler).map (Field.handler i, ·)).toList

/-- The faults of a configuration, in the order of the fields. -/
def faults (c : Config) : List (Field × String) :=
  (c.routes.zipIdx.flatMap fun r => routeFaults r.2 r.1) ++
    ((logLevelProblem? c.logLevel).map (Field.logLevel, ·)).toList

def faultProblem (fault : Field × String) : Problem := ⟨fault.1.name, fault.2⟩

theorem routeProblems_eq (i : Nat) (e : RouteEntry) :
    routeProblems i e = (routeFaults i e).map faultProblem := by
  have hpath : routeField i "path" = (Field.path i).name := by
    simp [routeField, Field.name, String.append_assoc]
  have hhandler : routeField i "handler" = (Field.handler i).name := by
    simp [routeField, Field.name, String.append_assoc]
  rw [routeProblems, routeFaults, hpath, hhandler]
  cases pathProblem? e.path <;> cases handlerProblem? e.handler <;> rfl

theorem routesProblems_eq (i : Nat) (es : List RouteEntry) :
    routesProblems i es =
      ((es.zipIdx i).flatMap fun r => routeFaults r.2 r.1).map faultProblem := by
  induction es generalizing i with
  | nil => rfl
  | cons e es ih =>
      rw [routesProblems, routeProblems_eq, ih, List.zipIdx_cons, List.flatMap_cons,
        List.map_append]

theorem problems_eq (c : Config) : c.problems = c.faults.map faultProblem := by
  rw [problems, faults, routesProblems_eq, List.map_append]
  cases logLevelProblem? c.logLevel <;> rfl

theorem mem_routeFaults_iff :
    (f, reason) ∈ routeFaults i e ↔
      pathProblem? e.path = some reason ∧ .path i = f ∨
        handlerProblem? e.handler = some reason ∧ .handler i = f := by
  simp only [routeFaults, List.mem_append, Option.mem_toList, Option.map_eq_some_iff,
    Prod.mk.injEq, exists_eq_right_right]

theorem breaks_path_iff :
    Breaks c (.path i) reason ↔
      ∃ e, c.routes[i]? = some e ∧ pathProblem? e.path = some reason := by
  constructor
  · intro h
    cases h with
    | emptyPath hroute hempty =>
        exact ⟨_, hroute, pathProblem?_eq_some_iff.mpr (.inl ⟨hempty, rfl⟩)⟩
    | path hroute hne hpath =>
        exact ⟨_, hroute, pathProblem?_eq_some_iff.mpr (.inr ⟨hne, hpath, rfl⟩)⟩
  · rintro ⟨e, hroute, hproblem⟩
    rcases pathProblem?_eq_some_iff.mp hproblem with ⟨hempty, rfl⟩ | ⟨hne, hpath, rfl⟩
    · exact .emptyPath hroute hempty
    · exact .path hroute hne hpath

theorem breaks_handler_iff :
    Breaks c (.handler i) reason ↔
      ∃ e, c.routes[i]? = some e ∧ handlerProblem? e.handler = some reason := by
  constructor
  · intro h
    cases h with
    | handler hroute hhandler =>
        exact ⟨_, hroute, handlerProblem?_eq_some_iff.mpr ⟨hhandler, rfl⟩⟩
  · rintro ⟨e, hroute, hproblem⟩
    obtain ⟨hhandler, rfl⟩ := handlerProblem?_eq_some_iff.mp hproblem
    exact .handler hroute hhandler

theorem breaks_logLevel_iff :
    Breaks c .logLevel reason ↔ logLevelProblem? c.logLevel = some reason := by
  rw [logLevelProblem?_eq_some_iff]
  constructor
  · intro h
    cases h with
    | logLevel hlevel => exact ⟨hlevel, rfl⟩
  · rintro ⟨hlevel, rfl⟩
    exact .logLevel hlevel

/-- The faults are the fields that break their rules. -/
theorem mem_faults_iff : (f, reason) ∈ c.faults ↔ Breaks c f reason := by
  have hroutes : (f, reason) ∈ c.routes.zipIdx.flatMap (fun r => routeFaults r.2 r.1) ↔
      ∃ e i, c.routes[i]? = some e ∧ (f, reason) ∈ routeFaults i e := by
    simp only [List.mem_flatMap, Prod.exists, List.mk_mem_zipIdx_iff_getElem?]
  rw [faults, List.mem_append, hroutes]
  cases f with
  | path i =>
      rw [breaks_path_iff]
      simp [mem_routeFaults_iff]
  | handler i =>
      rw [breaks_handler_iff]
      simp [mem_routeFaults_iff]
  | logLevel =>
      rw [breaks_logLevel_iff]
      simp [mem_routeFaults_iff]

/-! ## The order of the faults -/

theorem Field.Before.ne (h : f.Before f') : f ≠ f' := by
  rintro rfl
  cases f with
  | path i => exact Nat.lt_irrefl i h
  | handler i => exact Nat.lt_irrefl i h
  | logLevel => exact h

/-- The fields of two routes are ordered like the routes. -/
theorem before_of_lt {j : Nat} (hij : i < j) (hf : f = .path i ∨ f = .handler i)
    (hf' : f' = .path j ∨ f' = .handler j) : f.Before f' := by
  rcases hf with rfl | rfl
  · rcases hf' with rfl | rfl
    · exact hij
    · exact hij.le
  · rcases hf' with rfl | rfl
    · exact hij
    · exact hij

theorem field_of_mem_routeFaults {fault : Field × String} (h : fault ∈ routeFaults i e) :
    fault.1 = .path i ∨ fault.1 = .handler i := by
  rcases mem_routeFaults_iff.mp h with ⟨_, hf⟩ | ⟨_, hf⟩
  · exact .inl hf.symm
  · exact .inr hf.symm

theorem pairwise_routeFaults (i : Nat) (e : RouteEntry) :
    (routeFaults i e).Pairwise fun a b => a.1.Before b.1 := by
  rw [routeFaults]
  cases pathProblem? e.path <;> cases handlerProblem? e.handler <;> simp [Field.Before]

theorem pairwise_faults (c : Config) : c.faults.Pairwise fun a b => a.1.Before b.1 := by
  have hindices : c.routes.zipIdx.Pairwise fun r s => r.2 < s.2 := by
    rw [← List.pairwise_map (f := Prod.snd), List.zipIdx_map_snd]
    exact List.pairwise_lt_range' 1
  rw [faults, List.pairwise_append, List.pairwise_flatMap]
  refine ⟨⟨fun r _ => pairwise_routeFaults r.2 r.1, hindices.imp ?_⟩, ?_, ?_⟩
  · intro r s hrs a ha b hb
    exact before_of_lt hrs (field_of_mem_routeFaults ha) (field_of_mem_routeFaults hb)
  · cases logLevelProblem? c.logLevel <;> simp
  · intro a ha b hb
    obtain ⟨r, _, ha⟩ := List.mem_flatMap.mp ha
    obtain ⟨_, _, rfl⟩ := Option.map_eq_some_iff.mp (Option.mem_toList.mp hb)
    rcases field_of_mem_routeFaults ha with hfield | hfield
    · rw [hfield]
      trivial
    · rw [hfield]
      trivial

/-! ## The locations of the fields -/

theorem eq_of_routeField {j : Nat} {field : String}
    (h : "routes[" ++ toString i ++ field = "routes[" ++ toString j ++ field) : i = j := by
  have hdigits : Nat.toDigits 10 i = Nat.toDigits 10 j := by
    simpa [Nat.repr_eq_ofList_toDigits, String.ofList_inj] using h
  rw [← Nat.ofDigitChars_ten_toDigits (n := i), hdigits, Nat.ofDigitChars_ten_toDigits]

theorem Field.name_injective : Function.Injective Field.name := by
  have hroutes (i : Nat) (field : String) :
      "routes[" ++ toString i ++ field ≠ "observability.log_level" := by
    intro h
    have hfirst := congrArg (fun s => s.toList.head?) h
    simp at hfirst
  have hfields (i j : Nat) : "routes[" ++ toString i ++ "].path" ≠
      "routes[" ++ toString j ++ "].handler" := by
    intro h
    have hlast := congrArg (fun s => s.toList.reverse.head?) h
    simp at hlast
  intro f f' h
  cases f with
  | path i =>
      cases f' with
      | path j => rw [eq_of_routeField h]
      | handler j => exact absurd h (hfields i j)
      | logLevel => exact absurd h (hroutes i _)
  | handler i =>
      cases f' with
      | path j => exact absurd h.symm (hfields j i)
      | handler j => rw [eq_of_routeField h]
      | logLevel => exact absurd h (hroutes i _)
  | logLevel =>
      cases f' with
      | path j => exact absurd h.symm (hroutes j _)
      | handler j => exact absurd h.symm (hroutes j _)
      | logLevel => rfl

/-! ## Validation -/

theorem sound_iff : c.Sound ↔ ∀ f reason, ¬Breaks c f reason := by
  constructor
  · rintro ⟨hpaths, hhandlers, hlevel⟩ f reason hbreaks
    cases hbreaks with
    | emptyPath hroute hempty =>
        have hgood := hpaths _ (List.mem_of_getElem? hroute)
        simp [GoodPath, hempty] at hgood
    | path hroute _ hpath => exact hpath (hpaths _ (List.mem_of_getElem? hroute))
    | handler hroute hhandler => exact hhandler (hhandlers _ (List.mem_of_getElem? hroute))
    | logLevel hbad => exact hbad hlevel
  · intro h
    refine ⟨?_, ?_, ?_⟩
    · intro e he
      obtain ⟨i, hroute⟩ := List.mem_iff_getElem?.mp he
      by_contra hpath
      by_cases hempty : e.path = []
      · exact h _ _ (.emptyPath hroute hempty)
      · exact h _ _ (.path hroute hempty hpath)
    · intro e he
      obtain ⟨i, hroute⟩ := List.mem_iff_getElem?.mp he
      by_contra hhandler
      exact h _ _ (.handler hroute hhandler)
    · by_contra hlevel
      exact h _ _ (.logLevel hlevel)

theorem problems_eq_nil_iff : c.problems = [] ↔ c.Sound := by
  rw [problems_eq, List.map_eq_nil_iff, List.eq_nil_iff_forall_not_mem, sound_iff, Prod.forall]
  simp only [mem_faults_iff]

theorem reports_problems (c : Config) : c.Reports c.problems := by
  have hfields : (c.faults.map Prod.fst).Pairwise Field.Before :=
    List.pairwise_map.mpr (pairwise_faults c)
  refine ⟨⟨c.faults, problems_eq c, fun f reason => mem_faults_iff, hfields⟩, ?_⟩
  have hnames : c.problems.map Problem.field = (c.faults.map Prod.fst).map Field.name := by
    rw [problems_eq, List.map_map, List.map_map]
    rfl
  rw [hnames]
  exact (hfields.imp Field.Before.ne).map _ fun f f' hne => Field.name_injective.ne hne

theorem message_invalid (ps : List Problem) :
    (LoadError.invalid ps).message =
      "Validation failed: " ++ ", ".intercalate (ps.map fun p => p.field ++ ": " ++ p.reason) := by
  rw [LoadError.message, LoadError.words, String.join_cons, String.join_cons, String.join_nil,
    String.append_empty]
  rfl

/-- Validation reports the broken rules of a configuration and nothing else, each one once and in
the order of the fields. So a text is read as a configuration only if that meets all rules, and
otherwise the error names what is reported, in the same order. -/
theorem validated_parse :
    (∀ c : Config, (c.problems = [] ↔ c.Sound) ∧ c.Reports c.problems) ∧
      ∀ t, Validated t (parse t) := by
  refine ⟨fun c => ⟨problems_eq_nil_iff, reports_problems c⟩, ?_⟩
  intro t
  cases hform : (Toml.document? t).bind ofRows? with
  | none =>
      have hparse : parse t = .error .form := by simp only [parse, hform]
      rw [hparse]
      exact .malformed hform
  | some c =>
      have hparse : parse t = if c.problems = [] then .ok c else .error (.invalid c.problems) := by
        simp only [parse, hform, List.isEmpty_iff]
      rw [hparse]
      by_cases hsound : c.Sound
      · rw [if_pos (problems_eq_nil_iff.mpr hsound)]
        exact .sound c hform hsound
      · rw [if_neg (mt problems_eq_nil_iff.mp hsound)]
        exact .unsound c _ hform hsound (reports_problems c) (message_invalid c.problems)

end Config

end PathRouting

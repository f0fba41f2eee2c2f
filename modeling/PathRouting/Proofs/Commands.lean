import Mathlib.Data.Char
import Mathlib.Data.List.Lex
import PathRouting.CommandLine.Run
import PathRouting.Proofs.Building
import PathRouting.Proofs.JsonText

/-! # What the commands have in common

Every command loads the file and builds the registry by itself, yet all of them stay in step with
loading: a file that cannot be loaded fails them alike, and from a file that can be loaded each
prints what it is asked for. -/

namespace PathRouting

namespace Config

/-- How loading a file ends. The stages come one after another, and the first one that objects
decides. -/
inductive Loads (file : File) : Except LoadError (Config × Registry) → Prop where
  /-- The file has no text. -/
  | unreadable (e : FileError) (htext : file.text = .error e) : Loads file (.error (.file e))
  /-- The text writes no configuration. -/
  | malformed (t : Text) (htext : file.text = .ok t)
      (hform : (Toml.document? t).bind ofRows? = none) : Loads file (.error .form)
  /-- The configuration breaks rules. -/
  | invalid (t : Text) (c : Config) (htext : file.text = .ok t)
      (hform : (Toml.document? t).bind ofRows? = some c) (hrules : c.problems ≠ []) :
    Loads file (.error (.invalid c.problems))
  /-- The configured routes make no registry. -/
  | unroutable (t : Text) (c : Config) (e : RouteError) (htext : file.text = .ok t)
      (hform : (Toml.document? t).bind ofRows? = some c) (hrules : c.problems = [])
      (hbuild : c.build = .error e) : Loads file (.error (.routing e))
  | loaded (t : Text) (c : Config) (reg : Registry) (htext : file.text = .ok t)
      (hform : (Toml.document? t).bind ofRows? = some c) (hrules : c.problems = [])
      (hbuild : c.build = .ok reg) : Loads file (.ok (c, reg))

variable {file : File} {t : Text} {c : Config}

theorem load_of_form (htext : file.text = .ok t)
    (hform : (Toml.document? t).bind ofRows? = some c) :
    load file = if c.problems = [] then .ok c else .error (.invalid c.problems) := by
  simp only [load, htext, parse, hform, List.isEmpty_iff]

theorem loadRegistry_of_load (h : load file = .ok c) :
    loadRegistry file =
      match c.build with
      | .error e => .error (.routing e)
      | .ok reg => .ok (c, reg) := by
  rw [loadRegistry, h]
  rfl

theorem loadRegistry_of_load_error {e : LoadError} (h : load file = .error e) :
    loadRegistry file = .error e := by
  rw [loadRegistry, h]
  rfl

theorem loads_loadRegistry (file : File) : Loads file (loadRegistry file) := by
  cases htext : file.text with
  | error e =>
      have hload : load file = .error (.file e) := by simp only [load, htext]
      rw [loadRegistry_of_load_error hload]
      exact .unreadable e htext
  | ok t =>
      cases hform : (Toml.document? t).bind ofRows? with
      | none =>
          have hload : load file = .error .form := by simp only [load, htext, parse, hform]
          rw [loadRegistry_of_load_error hload]
          exact .malformed t htext hform
      | some c =>
          have hload := load_of_form htext hform
          split at hload
          · rename_i hrules
            rw [loadRegistry_of_load hload]
            cases hbuild : c.build with
            | error e => exact .unroutable t c e htext hform hrules hbuild
            | ok reg => exact .loaded t c reg htext hform hrules hbuild
          · rename_i hrules
            rw [loadRegistry_of_load_error hload]
            exact .invalid t c htext hform hrules

end Config

theorem Text.precedes_iff {s t : Text} : s.precedes t = true ↔ s < t := by
  induction s generalizing t with
  | nil =>
      cases t with
      | nil => simp [precedes]
      | cons d ds => simp [precedes]
  | cons c cs ih =>
      cases t with
      | nil => simp [precedes]
      | cons d ds => simp [precedes, ih, List.cons_lt_cons_iff, Char.lt_def, UInt32.lt_iff_toNat_lt]

theorem sublist_map_fst_zip {α β : Type} (xs : List α) (ys : List β) :
    ((xs.zip ys).map (·.1)).Sublist xs := by
  induction xs generalizing ys with
  | nil => exact .refl _
  | cons x xs ih =>
      cases ys with
      | nil => exact List.nil_sublist _
      | cons y ys => exact (ih ys).cons_cons x

theorem Template.nodup_params {policy : Policy} {path : Text} {t : Template}
    (h : Template.ofPath policy path = .ok t) (uri : Text) : ((t.params uri).map (·.1)).Nodup := by
  obtain ⟨_, _, _, hnodup, _⟩ := Template.ofPath_eq_ok h
  rw [Template.params]
  split
  · exact List.nodup_nil
  · exact hnodup.sublist (sublist_map_fst_zip _ _)

/-- A request is given at most one value for each parameter. -/
theorem Registry.nodup_params {c : Config} {reg : Registry} (h : c.build = .ok reg)
    (method : Kind) (uri : Text) :
    ((reg.resolve method uri).params.map (·.1)).Nodup := by
  cases hfind : (reg.find method uri).head? with
  | none =>
      rw [Registry.resolve_of_none hfind]
      exact List.nodup_nil
  | some r =>
      have hroute := (Registry.mem_of_mem_find (List.mem_of_mem_head? hfind)).1
      rw [Registry.resolve_of_some hfind]
      exact Template.nodup_params ((Config.compiled_build h).2 r hroute) uri

/-- Whether a configured route may stand before another one when routes are put in the order of
their kinds. -/
def RouteEntry.ordered (e e' : RouteEntry) : Bool := e.kind.rank ≤ e'.kind.rank

namespace CommandLine

/-- The failure of the program that an error of loading comes to. That routes make no registry is
said by the error of the route alone. -/
def Failure.ofLoad : LoadError → Failure
  | .routing e => .route e
  | e => .load e

def complaint : LoadError → String
  | .routing e => e.message
  | e => e.message

def parametersOf (policy : Policy) (e : RouteEntry) : List Text :=
  (Template.ofPath policy e.path).toOption.elim [] (·.names)

/-- A configured route as it is listed, with the names of the parameters in its path. -/
def listing (policy : Policy) (e : RouteEntry) : Json :=
  .object
    [("method", .string e.kind.name), ("path", .string e.path.toString),
      ("params", .array ((parametersOf policy e).map fun name => .string name.toString)),
      ("handler", .string e.handler), ("roles", .array (e.roles.map .string))]

/-- What is told of a resolution, its parameters being put in order. The methods allowed are left
out if there are none. -/
def told (r : Resolution) (params : List (Text × Text)) : Json :=
  .object
    ([("status", .number (toString r.status)), ("before", .array (r.before.map .string)),
        ("endpoint", r.endpoint.elim .null .string),
        ("params", .object (params.map fun p => (p.1.toString, .string p.2.toString))),
        ("after", .array (r.after.map .string))] ++
      if r.allow = [] then [] else [("allow", .array (r.allow.map fun k => .string k.name))])

/-- An invocation succeeds and prints a value, so that a reader of its output has the value. -/
structure Printed (o : Outcome) (v : Json) : Prop where
  outcome_eq : o = ⟨0, v.pretty ++ ['\n'], []⟩
  read_out : Json.read? o.out = some v

/-- What a file makes of the invocations that name it. -/
inductive Answered (file : File) : Prop where
  /-- The file cannot be loaded. All invocations fail with the error, which is all that they say. -/
  | failed (e : LoadError) (hload : Config.loadRegistry file = .error e)
      (hrun : ∀ inv, run inv file = .error (.ofLoad e))
      (houtcome : ∀ inv, outcome inv file =
        ⟨1, [], "Error: ".toList ++ (complaint e).toList ++ ['\n']⟩)
  /-- The file can be loaded. All invocations succeed, and each prints what its command asks for:
  the number of the routes, the routes in the order of their kinds, or the resolution of a
  request with its parameters in the order of their names. -/
  | printed (c : Config) (reg : Registry) (hload : Config.loadRegistry file = .ok (c, reg))
      (hcheck : ∀ name level, outcome ⟨name, level, .check⟩ file =
        ⟨0, name ++ ": ".toList ++ (toString c.routes.length).toList ++ " routes OK\n".toList, []⟩)
      (hroutes : ∀ name level, ∃ items,
        Printed (outcome ⟨name, level, .routes⟩ file) (.array items) ∧
          items.length = c.routes.length ∧
          items = (c.routes.mergeSort RouteEntry.ordered).map (listing c.policy))
      (hresolve : ∀ name level method path, ∃ params,
        params.Perm (reg.resolve method path).params ∧ params.Pairwise (·.1 < ·.1) ∧
          Printed (outcome ⟨name, level, .resolve method path⟩ file)
            (told (reg.resolve method path) params))

variable {file : File} {inv : Invocation} {policy : Policy} {es : List RouteEntry} {rs : List Route}
  {reg : Registry}

/-! ## Loading and running -/

/-- An invocation does what loading does, and then reports on the registry. -/
theorem run_eq (inv : Invocation) (file : File) :
    run inv file =
      match Config.loadRegistry file with
      | .error e => .error (.ofLoad e)
      | .ok (_, reg) => .ok (report inv.config reg inv.command ++ ['\n']) := by
  have hloads := Config.loads_loadRegistry file
  generalize Config.loadRegistry file = result at hloads
  cases hloads with
  | unreadable e htext => simp only [run, Config.load, htext, Failure.ofLoad]
  | malformed t htext hform =>
      simp only [run, Config.load, htext, Config.parse, hform, Failure.ofLoad]
  | invalid t c htext hform hrules =>
      simp only [run, Config.load_of_form htext hform, if_neg hrules, Failure.ofLoad]
  | unroutable t c e htext hform hrules hbuild =>
      simp only [run, Config.load_of_form htext hform, if_pos hrules, hbuild, Failure.ofLoad]
  | loaded t c reg htext hform hrules hbuild =>
      simp only [run, Config.load_of_form htext hform, if_pos hrules, hbuild]

theorem message_ofLoad (e : LoadError) : (Failure.ofLoad e).message = complaint e := by
  cases e <;> rfl

theorem build_of_loadRegistry {c : Config} (h : Config.loadRegistry file = .ok (c, reg)) :
    c.build = .ok reg := by
  have hloads := Config.loads_loadRegistry file
  rw [h] at hloads
  cases hloads with
  | loaded _ _ _ _ _ _ hbuild => exact hbuild

theorem printed_of_outcome {o : Outcome} {v : Json} (hv : v.Natural)
    (ho : o = ⟨0, v.pretty ++ ['\n'], []⟩) : Printed o v where
  outcome_eq := ho
  read_out := by
    rw [ho]
    exact Json.read?_pretty hv rfl

theorem natural_array {α : Type} {f : α → Json} (h : ∀ x, (f x).Natural) (xs : List α) :
    (Json.array (xs.map f)).Natural := by
  apply Json.Natural.array
  intro v hv
  obtain ⟨x, _, rfl⟩ := List.mem_map.mp hv
  exact h x

/-! ## The list of routes -/

theorem natural_listing (policy : Policy) (e : RouteEntry) : (listing policy e).Natural := by
  apply Json.Natural.object
  simp only [List.forall_mem_cons]
  exact ⟨.string _, .string _, natural_array (fun _ => .string _) _, .string _,
    natural_array .string _, List.forall_mem_nil _⟩

theorem jsonRoute_eq {r : Route} (h : Template.ofPath policy r.path = .ok r.template) :
    jsonRoute r = listing policy r.entry := by
  have hnames : parametersOf policy r.entry = r.template.names := by
    simp [parametersOf, Route.entry, h, Except.toOption]
  rw [listing, hnames]
  simp [jsonRoute, jsonStrings, Kind.toJson, Route.entry]

/-- The routes of a registry are listed as they are configured, in the order of their kinds. -/
theorem map_jsonRoute (h : Config.Filled policy es rs reg) :
    reg.all.map jsonRoute = (es.mergeSort RouteEntry.ordered).map (listing policy) := by
  have hlisted : reg.all.map jsonRoute = reg.all.map fun r => listing policy r.entry := by
    rw [h.all_eq]
    apply List.map_congr_left
    intro r hr
    exact jsonRoute_eq (h.compiled r (List.mem_mergeSort.mp hr))
  have hsorted : reg.all.map Route.entry = es.mergeSort RouteEntry.ordered := by
    rw [h.all_eq, ← h.entries]
    exact List.map_mergeSort fun r _ s _ => rfl
  rw [hlisted, ← hsorted, List.map_map]
  rfl

theorem printed_listings {c : Config} {o : Outcome} (h : Config.Filled c.policy c.routes rs reg)
    (ho : o = ⟨0, (Json.array (reg.all.map jsonRoute)).pretty ++ ['\n'], []⟩) :
    ∃ items, Printed o (.array items) ∧ items.length = c.routes.length ∧
      items = (c.routes.mergeSort RouteEntry.ordered).map (listing c.policy) := by
  rw [map_jsonRoute h] at ho
  refine ⟨_, printed_of_outcome (natural_array (natural_listing c.policy) _) ho, ?_, rfl⟩
  rw [List.length_map, List.length_mergeSort]

/-! ## A resolution -/

theorem perm_insertField (f : Text × Text) (fs : List (Text × Text)) :
    (insertField f fs).Perm (f :: fs) := by
  induction fs with
  | nil => exact .refl _
  | cons g gs ih =>
      rw [insertField]
      split
      · exact .refl _
      · exact (ih.cons g).trans (.swap f g gs)

/-- A field with a new name is put into its place. -/
theorem pairwise_insertField {f : Text × Text} {fs : List (Text × Text)}
    (h : fs.Pairwise (·.1 < ·.1)) (hnew : ∀ g ∈ fs, f.1 ≠ g.1) :
    (insertField f fs).Pairwise (·.1 < ·.1) := by
  induction fs with
  | nil => exact List.pairwise_singleton _ _
  | cons g gs ih =>
      obtain ⟨hg, hgs⟩ := List.pairwise_cons.mp h
      obtain ⟨hne, hnew⟩ := List.forall_mem_cons.mp hnew
      rw [insertField]
      split
      · rename_i hfirst
        have hfg := Text.precedes_iff.mp hfirst
        refine List.pairwise_cons.mpr ⟨?_, h⟩
        exact List.forall_mem_cons.mpr ⟨hfg, fun x hx => hfg.trans (hg x hx)⟩
      · rename_i hlater
        have hnot : ¬f.1 < g.1 := mt Text.precedes_iff.mpr hlater
        have hgf : g.1 < f.1 := lt_of_le_of_ne (not_lt.mp hnot) hne.symm
        refine List.pairwise_cons.mpr ⟨?_, ih hgs hnew⟩
        intro x hx
        rcases List.mem_cons.mp ((perm_insertField f gs).mem_iff.mp hx) with rfl | hx
        · exact hgf
        · exact hg x hx

/-- Fields with different names are put in the order of their names. -/
theorem ordered_fields {ps : List (Text × Text)} (h : (ps.map (·.1)).Nodup) :
    (ps.foldr insertField []).Perm ps ∧ (ps.foldr insertField []).Pairwise (·.1 < ·.1) := by
  induction ps with
  | nil => exact ⟨.refl _, .nil⟩
  | cons p ps ih =>
      rw [List.map_cons, List.nodup_cons] at h
      obtain ⟨hperm, hpairwise⟩ := ih h.2
      refine ⟨(perm_insertField p _).trans (hperm.cons p), pairwise_insertField hpairwise ?_⟩
      intro q hq heq
      exact h.1 (heq ▸ List.mem_map_of_mem (hperm.mem_iff.mp hq))

theorem jsonResolution_eq (r : Resolution) :
    jsonResolution r = told r (r.params.foldr insertField []) := by
  have hnames : r.allow.map Kind.toJson = r.allow.map fun k => .string k.name := rfl
  cases hendpoint : r.endpoint <;>
    simp [jsonResolution, told, jsonStrings, jsonParams, hendpoint, hnames]

theorem natural_status (r : Resolution) : (Json.number (toString r.status)).Natural := by
  unfold Resolution.status
  split_ifs <;> exact .number _ (by decide) (List.all_eq_true.mp (by decide))

theorem natural_told (r : Resolution) (params : List (Text × Text)) :
    (told r params).Natural := by
  have hendpoint : (r.endpoint.elim .null .string : Json).Natural := by
    cases r.endpoint with
    | none => exact .null
    | some handler => exact .string handler
  have hparams :
      (Json.object (params.map fun p => (p.1.toString, .string p.2.toString))).Natural := by
    apply Json.Natural.object
    intro f hf
    obtain ⟨p, _, rfl⟩ := List.mem_map.mp hf
    exact .string _
  apply Json.Natural.object
  simp only [List.forall_mem_append, List.forall_mem_cons]
  refine ⟨⟨natural_status r, natural_array .string _, hendpoint, hparams,
    natural_array .string _, List.forall_mem_nil _⟩, ?_⟩
  split
  · exact List.forall_mem_nil _
  · exact List.forall_mem_singleton.mpr (natural_array (fun _ => .string _) _)

/-- A printed resolution tells the parameters in the order of their names. -/
theorem exists_printed_told {c : Config} {o : Outcome} {method : Kind} {uri : Text}
    (h : c.build = .ok reg)
    (ho : o = ⟨0, (jsonResolution (reg.resolve method uri)).pretty ++ ['\n'], []⟩) :
    ∃ params, params.Perm (reg.resolve method uri).params ∧ params.Pairwise (·.1 < ·.1) ∧
      Printed o (told (reg.resolve method uri) params) := by
  obtain ⟨hperm, hordered⟩ := ordered_fields (Registry.nodup_params h method uri)
  rw [jsonResolution_eq] at ho
  exact ⟨_, hperm, hordered, printed_of_outcome (natural_told _ _) ho⟩

/-! ## The commands -/

/-- Whatever the command is, an invocation fails as loading the file does, at the first stage that
objects, and otherwise prints what it is asked for about the routes in the file. -/
theorem answered_outcome (file : File) :
    Config.Loads file (Config.loadRegistry file) ∧ Answered file ∧
      ∀ inv, (outcome inv file).exit = 0 ↔ ∃ loaded, Config.loadRegistry file = .ok loaded := by
  refine ⟨Config.loads_loadRegistry file, ?_⟩
  cases hload : Config.loadRegistry file with
  | error e =>
      have hrun (inv : Invocation) : run inv file = .error (.ofLoad e) := by rw [run_eq, hload]
      have houtcome (inv : Invocation) : outcome inv file =
          ⟨1, [], "Error: ".toList ++ (complaint e).toList ++ ['\n']⟩ := by
        simp only [outcome, hrun, message_ofLoad]
      refine ⟨.failed e hload hrun houtcome, ?_⟩
      intro inv
      simp [houtcome]
  | ok loaded =>
      obtain ⟨c, reg⟩ := loaded
      have hbuild := build_of_loadRegistry hload
      obtain ⟨rs, hfilled⟩ := Config.exists_filled hbuild
      have hdone (inv : Invocation) :
          outcome inv file = ⟨0, report inv.config reg inv.command ++ ['\n'], []⟩ := by
        simp only [outcome, run_eq, hload]
      refine ⟨.printed c reg hload ?_ ?_ ?_, ?_⟩
      · intro name level
        rw [hdone, report, hfilled.size_eq]
        simp
      · intro name level
        exact printed_listings hfilled (hdone ⟨name, level, .routes⟩)
      · intro name level method path
        exact exists_printed_told hbuild (hdone ⟨name, level, .resolve method path⟩)
      · intro inv
        simp [hdone]

end CommandLine

end PathRouting

import PathRouting.Config.Validation
import PathRouting.Proofs.Registration
import PathRouting.Proofs.Values
import PathRouting.Resolution

/-! # What the answers to requests carry

A request that is answered carries the values of all parameters of its endpoint, unless it
is the very text of the path of the endpoint and the template does not accept that text. -/

namespace PathRouting

namespace Template

theorem MadeOf.keys_params {policy : Policy} {path uri : Text} {t : Template}
    {ess : List (List Element)} (hmade : MadeOf policy path t ess)
    (h : t.accepts uri = true) : (t.params uri).map (·.1) = t.names := by
  obtain ⟨values, _, hparams, hnames⟩ := hmade.exists_extracts h
  rw [hparams, ← hnames, List.map_map]
  rfl

theorem names_star {policy : Policy} {t : Template} (h : ofPath policy ['*'] = .ok t) :
    t.names = [] := by
  obtain ⟨hsegments, _, hnames, _⟩ := ofPath_eq_ok h
  have hread : (chunks ['*']).mapM (Segment.ofChunk ['*'] policy.rawLiterals) =
      .ok [.element .wildcard] := by
    cases policy.rawLiterals <;> rfl
  have hsegments := Except.ok.inj (hread.symm.trans hsegments)
  rw [hnames, ← hsegments]
  rfl

end Template

namespace Registry

/-- A request is answered by the first route found for it. -/
theorem exists_endpoint_of_status {reg : Registry} {method : Kind} {uri : Text}
    (h : (reg.resolve method uri).status = 200) :
    ∃ r, (reg.find method uri).head? = some r ∧
      (reg.resolve method uri).params = r.params uri := by
  cases hfind : (reg.find method uri).head? with
  | some r => exact ⟨r, rfl, by rw [resolve_of_some hfind]⟩
  | none =>
      rw [status_of_none hfind] at h
      split at h <;> simp at h

end Registry

namespace Config

/-- An answer carries exactly the parameters of its endpoint, or none where the endpoint
has parameters but was only found because the request is its path. -/
theorem params_of_answer {c : Config} {reg : Registry} {method : Kind} {uri : Text}
    (hraw : c.policy.rawLiterals = false) (hbuild : c.build = .ok reg)
    (h : (reg.resolve method uri).status = 200) :
    ∃ r, (reg.find method uri).head? = some r ∧ r.template.names.Nodup ∧
      ((reg.resolve method uri).params.map (·.1) = r.template.names ∨
        r.path = uri ∧ r.template.accepts uri = false ∧ r.template.names ≠ [] ∧
          (reg.resolve method uri).params = []) := by
  obtain ⟨hpolicy, hcompiled⟩ := compiled_build hbuild
  obtain ⟨r, hr, hparams⟩ := Registry.exists_endpoint_of_status h
  obtain ⟨hroute, haccepts⟩ := Registry.mem_of_mem_find (List.mem_of_mem_head? hr)
  have htemplate := hcompiled r hroute
  rw [hpolicy] at htemplate
  obtain ⟨ess, hmade⟩ := Template.exists_madeOf hraw htemplate
  refine ⟨r, hr, hmade.nodup, ?_⟩
  rw [hparams, Route.params]
  cases hmatch : r.template.accepts uri with
  | true => exact .inl (hmade.keys_params hmatch)
  | false =>
      have hempty := Template.params_eq_nil hmatch
      by_cases hnames : r.template.names = []
      · exact .inl (by rw [hempty, hnames, List.map_nil])
      · have hstar : r.path ≠ ['*'] := by
          intro hstar
          rw [hstar] at htemplate
          exact hnames (Template.names_star htemplate)
        have hpath : r.path = uri := by simpa [Route.accepts, hmatch, hstar] using haccepts
        exact .inr ⟨hpath, rfl, hnames, hempty⟩

theorem params_of_answer_get :
    ∃ reg, build { routes := [⟨.get, "/a/{x}".toList, "show", []⟩] } = .ok reg ∧
      (reg.resolve .get "/a/1".toList).status = 200 ∧
      ∃ r, (reg.find .get "/a/1".toList).head? = some r ∧ r.template.names.Nodup ∧
        ((reg.resolve .get "/a/1".toList).params.map (·.1) = r.template.names ∨
          r.path = "/a/1".toList ∧ r.template.accepts "/a/1".toList = false ∧
            r.template.names ≠ [] ∧ (reg.resolve .get "/a/1".toList).params = []) := by
  have h : (build { routes := [⟨.get, "/a/{x}".toList, "show", []⟩] }).toOption.any (fun reg =>
      (reg.resolve .get "/a/1".toList).status == 200) = true := by decide +kernel
  obtain ⟨reg, hreg, hstatus⟩ := exists_ok_of_any h
  have hanswer := beq_iff_eq.mp hstatus
  exact ⟨reg, hreg, hanswer, params_of_answer rfl hreg hanswer⟩

/-- A path with an empty chunk answers itself, but its template does not accept it. -/
theorem params_lost_doubled_slash :
    problems { routes := [⟨.get, "/a//{x}".toList, "show", []⟩] } = [] ∧
    ∃ reg, build { routes := [⟨.get, "/a//{x}".toList, "show", []⟩] } = .ok reg ∧
      (reg.resolve .get "/a//{x}".toList).status = 200 ∧
      (reg.resolve .get "/a//{x}".toList).params = [] ∧
      ∃ r, (reg.find .get "/a//{x}".toList).head? = some r ∧
        r.template.names = ["x".toList] := by
  refine ⟨by decide +kernel, ?_⟩
  have h : (build { routes := [⟨.get, "/a//{x}".toList, "show", []⟩] }).toOption.any (fun reg =>
      (reg.resolve .get "/a//{x}".toList).status == 200 &&
        (reg.resolve .get "/a//{x}".toList).params == [] &&
        (reg.find .get "/a//{x}".toList).head?.any fun r => r.template.names == ["x".toList]) =
      true := by decide +kernel
  obtain ⟨reg, hreg, hall⟩ := exists_ok_of_any h
  simp only [Bool.and_eq_true, beq_iff_eq, Option.any_eq_true] at hall
  obtain ⟨⟨hstatus, hparams⟩, r, hr, hnames⟩ := hall
  exact ⟨reg, hreg, hstatus, hparams, r, hr, hnames⟩

end Config

end PathRouting

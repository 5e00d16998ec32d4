import SkillAudit.Body
import SkillAudit.Frontmatter.Checks
import SkillAudit.Layout
import SkillAudit.Script.Checks

/-!
# The catalogue

All rules, in the order in which they are evaluated.
-/

namespace SkillAudit
namespace Catalogue

/-- The rules of some checks. -/
def rulesOf {α : Type} (checks : List (Check α)) : List Rule :=
  checks.map (·.rule)

/-- All rules in evaluation order; the two script rules are evaluated together. -/
def rules : List Rule :=
  [Layout.entryMissing] ++ rulesOf Layout.rootChecks ++
    [Script.syntaxError, Script.unchecked] ++ rulesOf Layout.referenceChecks ++
    [Frontmatter.noHeader] ++ rulesOf Frontmatter.checks ++ rulesOf Body.checks

/-- The rule of an identifier. -/
def find? (id : String) : Option Rule :=
  rules.find? (·.id == id)

/-- No identifier is used twice. -/
theorem nodup_ids : (rules.map (·.id)).Nodup := by
  decide

/-- A rule that is found has the identifier that was asked for. -/
theorem id_of_find?
    {id : String}
    {rule : Rule}
    (h : find? id = some rule) :
    rule.id = id := by
  simpa using List.find?_some h

end Catalogue
end SkillAudit

import SkillAudit.Command.Verbosity
import SkillAudit.Frontmatter.Printer
import SkillAudit.Main
import SkillAudit.Proofs.Collection
import SkillAudit.Proofs.Evaluation.CatalogueOrder
import SkillAudit.Proofs.Frontmatter.Contract
import SkillAudit.Proofs.Frontmatter.RoundTrip
import SkillAudit.Proofs.Package.Snapshot
import SkillAudit.Proofs.Report.Reading
import SkillAudit.Proofs.Report.SarifReferences
import SkillAudit.Proofs.Report.Verdict
import SkillAudit.Proofs.Command.CollectionRun
import SkillAudit.Proofs.FileSystem.Children
import SkillAudit.Proofs.Command.Coverage
import SkillAudit.Proofs.Evaluation.Independence
import SkillAudit.Proofs.Evaluation.Origins
import SkillAudit.Proofs.Evaluation.Locations
import SkillAudit.Proofs.Report.PrettyLines
import SkillAudit.Proofs.Evaluation.Messages
import SkillAudit.Proofs.FileSystem.Writing
import SkillAudit.Proofs.Command.DefaultRun
import SkillAudit.Proofs.Frontmatter.Delimiters
import SkillAudit.Proofs.Frontmatter.LastWins
import SkillAudit.Proofs.Frontmatter.LineOrder
import SkillAudit.Proofs.Toml.DistinctKeys
import SkillAudit.Proofs.Config.Overrides
import SkillAudit.Proofs.Text.Occurrences
import SkillAudit.Proofs.Script.ShellMessages
import SkillAudit.Proofs.Layout.DirectoryTree
import SkillAudit.Proofs.Report.SarifLocations
import SkillAudit.Proofs.Body
import SkillAudit.Proofs.Report.PrettyReading
import SkillAudit.Proofs.Report.Colors
import SkillAudit.Proofs.Package.Spelling
import SkillAudit.Proofs.Package.Selection
import SkillAudit.Proofs.Host.ProgramSearch

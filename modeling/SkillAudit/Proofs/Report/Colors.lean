import SkillAudit.Command.Run
import SkillAudit.Proofs.FileSystem.Writing
import SkillAudit.Proofs.Terminal
import SkillAudit.Proofs.Text.OneLine

/-!
# Colors decorate

With colors on, the report for people and the summary of a collection have the letters that they
have with colors off, between control sequences.  The other forms have no colors, and neither has a
report in a file.

* `isTidy_of_mem_pretty`, `isTidy_of_mem_summary`: the words around names and messages have no
  escape and, where they have a look, no line feed.
* `IsTidy.decoration`: what follows for spans of such texts.
* `filed_eq`, `filed_pretty`: what is written to a file.
* `node_deliver`: what is in the file to which a report is given out.
-/

namespace SkillAudit

open Terminal (IsPlain erase endsOpen)

section Tidy

variable {oneLine : Prop}
variable {look : Look}
variable {text : String}

/-- A number has no escape. -/
@[simp] theorem Terminal.isPlain_repr
    (n : Nat) :
    IsPlain n.repr :=
  Text.not_mem_toString (by decide) n

/-- A letter that is no escape can be repeated. -/
theorem Terminal.isPlain_replicate
    {c : Char}
    (hc : '\x1b' ≠ c)
    (n : Nat) :
    IsPlain (String.ofList (List.replicate n c)) := by
  rw [IsPlain, String.toList_ofList, List.mem_replicate]
  exact fun h => hc h.2

/-- The text of a span has no escape and, if it has a look, is on one line as soon as `oneLine`
holds. -/
structure IsTidy (oneLine : Prop) (span : Span) : Prop where
  plain : IsPlain span.text
  line : oneLine → ∀ look text, span = .styled look text → Text.IsOneLine text

theorem isTidy_plain
    (h : IsPlain text) :
    IsTidy oneLine (.plain text) where
  plain := h
  line := by
    rintro - look text ⟨⟩

theorem isTidy_styled
    (hplain : IsPlain text)
    (hline : oneLine → Text.IsOneLine text) :
    IsTidy oneLine (.styled look text) where
  plain := hplain
  line := by
    rintro h look text ⟨⟩
    exact hline h

/-- A fixed text with a look. -/
theorem isTidy_fixed
    (h : IsPlain text ∧ Text.IsOneLine text) :
    IsTidy oneLine (.styled look text) :=
  isTidy_styled h.1 fun _ => h.2

/-- Tidy spans are their texts between control sequences, and have no open look at the end of a
line. -/
theorem IsTidy.decoration
    {spans : List Span}
    (h : ∀ span ∈ spans, IsTidy oneLine span) :
    erase (Span.renderAll true spans).toList = (Span.renderAll false spans).toList ∧
      (oneLine → ∀ line ∈ Text.splitOn '\n' (Span.renderAll true spans).toList,
        endsOpen line = false) := by
  have hplain : ∀ span ∈ spans, IsPlain span.text := fun span hspan => (h span hspan).plain
  refine ⟨Terminal.erase_renderAll hplain, fun hline => ?_⟩
  refine Terminal.endsOpen_of_mem_lines hplain ?_
  intro look text hspan
  exact (h _ hspan).line hline look text rfl

end Tidy

namespace Report

section Pretty

variable {oneLine : Prop}
variable {report : Report}

/-- The name of a category is fixed. -/
theorem isPlain_category
    (category : Category) :
    IsPlain category.text := by
  cases category <;> decide

/-- The bars of a report are fixed. -/
theorem isPlain_bar : IsPlain bar :=
  Terminal.isPlain_replicate (by decide) 60

/-- A section has no escapes but those of its messages. -/
theorem isTidy_of_mem_sectionOf
    {title mark : String}
    {color : Color}
    {diagnostics : List Diagnostic}
    (htitle : IsPlain title ∧ Text.IsOneLine title)
    (hmark : IsPlain mark ∧ Text.IsOneLine mark)
    (hmessages : ∀ d ∈ diagnostics, IsPlain d.message)
    (count : Nat) :
    ∀ span ∈ sectionOf title mark color count diagnostics, IsTidy oneLine span := by
  have hwords : IsPlain " (" ∧ IsPlain "):" ∧ Text.IsOneLine " (" ∧ Text.IsOneLine "):" := by
    decide
  obtain ⟨hopen, hclose, hopenLine, hcloseLine⟩ := hwords
  unfold sectionOf
  split
  · simp only [List.forall_mem_append, List.forall_mem_cons]
    refine ⟨⟨⟨isTidy_fixed ⟨?_, ?_⟩, isTidy_plain (by decide), List.forall_mem_nil _⟩, ?_⟩,
      isTidy_plain (by decide), List.forall_mem_nil _⟩
    · simp [htitle.1, hopen, hclose]
    · simp [htitle.2, hopenLine, hcloseLine]
    · rw [sectionLines, List.forall_mem_flatMap]
      intro d hd
      have hrow : IsPlain (" " ++ d.text ++ "\n") := by
        have hframe : IsPlain " " ∧ IsPlain "\n" ∧ IsPlain "[" ∧ IsPlain "] " := by
          decide
        simp [Diagnostic.text, hframe, isPlain_category, hmessages d hd]
      simp only [List.forall_mem_cons]
      exact ⟨isTidy_plain (by decide), isTidy_fixed hmark, isTidy_plain hrow, List.forall_mem_nil _⟩
  · exact List.forall_mem_nil _

/-- The line that says what came out has a number or two between fixed words. -/
theorem isTidy_resultLine
    (report : Report) :
    IsTidy oneLine report.resultLine := by
  have hwords : ∀ word ∈ ["RESULT: PASS (", "RESULT: FAIL (", " errors, ", " warnings)"],
      IsPlain word ∧ Text.IsOneLine word := by
    decide
  simp only [List.forall_mem_cons] at hwords
  obtain ⟨hpass, hfail, herrors, hwarnings, -⟩ := hwords
  unfold resultLine
  dsimp only
  split
  · refine isTidy_fixed ⟨?_, ?_⟩
    · simp [hpass, hwarnings]
    · simp [hpass, hwarnings]
  · refine isTidy_fixed ⟨?_, ?_⟩
    · simp [hfail, herrors, hwarnings]
    · simp [hfail, herrors, hwarnings]

/-- A report for people has no escapes but those of its name and messages. -/
theorem isTidy_of_mem_pretty
    (hname : IsPlain report.name)
    (hmessages : ∀ d ∈ report.diagnostics, IsPlain d.message) :
    ∀ span ∈ report.pretty, IsTidy (Text.IsOneLine report.name) span := by
  have hsection (severity : Severity) :
      ∀ d ∈ report.ofSeverity severity, IsPlain d.message := by
    intro d hd
    exact hmessages d (List.mem_filter.1 hd).1
  have htitle : IsPlain "Skill Validation: " ∧ Text.IsOneLine "Skill Validation: " := by
    decide
  have hblank : IsPlain "\n" ∧ IsPlain "\n  " ∧ IsPlain "\n\n" := by
    decide
  unfold pretty
  dsimp only
  simp only [List.forall_mem_append, List.forall_mem_cons]
  refine ⟨⟨⟨⟨⟨?_, ?_, ?_, List.forall_mem_nil _⟩, ?_⟩, ?_⟩, ?_⟩, ?_, isTidy_resultLine report, ?_,
    List.forall_mem_nil _⟩
  · exact isTidy_plain (by simp [isPlain_bar, hblank])
  · exact isTidy_styled (by simp [htitle.1, hname]) fun hline => by simp [htitle.2, hline]
  · exact isTidy_plain (by simp [isPlain_bar, hblank])
  · exact isTidy_of_mem_sectionOf (by decide) (by decide) (hsection .error) _
  · exact isTidy_of_mem_sectionOf (by decide) (by decide) (hsection .warning) _
  · split
    · rw [allPassed]
      simp only [List.forall_mem_cons]
      exact ⟨isTidy_plain (by decide), isTidy_fixed (by decide), isTidy_plain (by decide),
        List.forall_mem_nil _⟩
    · exact List.forall_mem_nil _
  · exact isTidy_plain (by simp [isPlain_bar, hblank])
  · exact isTidy_plain (by simp [isPlain_bar, hblank])

/-- With colors on, the title is between control sequences. -/
theorem not_isPlain_text_pretty
    (report : Report) :
    ¬ IsPlain (report.text .pretty true) := by
  have htitle : Span.styled .bold ("Skill Validation: " ++ report.name) ∈ report.pretty :=
    List.mem_append_left _ (List.mem_append_left _ (List.mem_append_left _
      (List.mem_append_left _ (.tail _ (.head _)))))
  rw [IsPlain, not_not, text, Span.renderAll, String.toList_ofList]
  exact List.mem_flatMap_of_mem htitle (.head _)

end Pretty

section Summary

variable {oneLine : Prop}

/-- A number before fixed words. -/
theorem isTidy_count
    {label : String}
    {look : Look}
    (hlabel : IsPlain label ∧ Text.IsOneLine label)
    (n : Nat) :
    IsTidy oneLine (.styled look (toString n ++ label)) :=
  isTidy_fixed ⟨by simp [hlabel.1], by simp [hlabel.2]⟩

/-- The row of a report has no escapes but those of the name. -/
theorem isTidy_of_mem_row
    {report : Report}
    (hname : IsPlain report.name) :
    ∀ span ∈ Collection.row report, IsTidy oneLine span := by
  have hblanks (n : Nat) : IsPlain (String.ofList (List.replicate n ' ')) :=
    Terminal.isPlain_replicate (by decide) n
  have hwords : IsPlain " " ∧ IsPlain "  " ∧ IsPlain "e " ∧ IsPlain "w\n" := by
    decide
  unfold Collection.row
  dsimp only
  simp only [List.forall_mem_cons]
  refine ⟨isTidy_plain (by decide), ?_, ?_, ?_, ?_, List.forall_mem_nil _⟩
  · cases report.status <;> exact isTidy_fixed (by decide)
  · exact isTidy_plain (by simp [Collection.nameColumn, hwords, hblanks, hname])
  · cases report.status <;> exact isTidy_fixed (by decide)
  · exact isTidy_plain (by simp [hwords])

/-- The summary of a collection has no escapes but those of its path and of the names. -/
theorem isTidy_of_mem_summary
    {path : String}
    {reports : List Report}
    (hpath : IsPlain path)
    (hnames : ∀ report ∈ reports, IsPlain report.name) :
    ∀ span ∈ Collection.summary path reports, IsTidy (Text.IsOneLine path) span := by
  have hwords : ∀ word ∈ ["  Collection Summary: ", "  (", " skills)"],
      IsPlain word ∧ Text.IsOneLine word := by
    decide
  simp only [List.forall_mem_cons] at hwords
  obtain ⟨htitle, hopen, hclose, -⟩ := hwords
  have hbar : IsTidy (Text.IsOneLine path) Collection.bar := by
    refine isTidy_fixed ⟨Terminal.isPlain_replicate (by decide) 54, ?_⟩
    rw [Text.IsOneLine, String.toList_ofList, List.mem_replicate]
    exact fun h => absurd h.2 (by decide)
  unfold Collection.summary
  dsimp only
  simp only [List.forall_mem_append, List.forall_mem_cons]
  refine ⟨⟨⟨isTidy_plain (by decide), isTidy_styled ?_ fun hline => ?_, isTidy_plain (by decide),
    hbar, isTidy_plain (by decide), List.forall_mem_nil _⟩, ?_⟩, hbar, isTidy_plain (by decide),
    isTidy_count (by decide) _, isTidy_plain (by decide), isTidy_count (by decide) _,
    isTidy_plain (by decide), isTidy_count (by decide) _, isTidy_plain (by decide),
    List.forall_mem_nil _⟩
  · simp [htitle.1, hopen.1, hclose.1, hpath]
  · simp [htitle.2, hopen.2, hclose.2, hline]
  · rw [List.forall_mem_flatMap]
    exact fun report hreport => isTidy_of_mem_row (hnames report hreport)

end Summary

section Filing

variable {host : Host}
variable {options : Command.Options}
variable {file : String}

/-- A line feed is added exactly to a text that does not end with one. -/
theorem filed_eq
    (report : Report)
    (format : Format) :
    report.filed format = report.text format false ++
      if (report.text format false).toList.getLast? = some '\n' then "" else "\n" := by
  unfold filed printed endLine
  split
  · exact String.append_empty.symm
  · rfl

/-- The report for people has a line feed at its end, so none is added. -/
theorem filed_pretty
    (report : Report) :
    report.filed .pretty = report.text .pretty false := by
  have hlast : report.pretty.getLast? = some (.plain ("\n" ++ bar ++ "\n\n")) := by
    unfold pretty
    exact List.getLast?_append_of_ne_nil _ (List.cons_ne_nil _ _)
  obtain ⟨front, hfront⟩ := List.getLast?_eq_some_iff.1 hlast
  have hended : (report.text .pretty false).toList.getLast? = some '\n' := by
    simp only [text, Span.renderAll, hfront, String.toList_ofList, List.flatMap_append,
      List.flatMap_singleton, Span.render_off, Span.text_plain, String.toList_append]
    rw [List.getLast?_append_of_ne_nil _ (by simp), List.getLast?_append_of_ne_nil _ (by decide)]
    decide
  rw [filed, printed, endLine, if_pos hended]

/-- A report that is given out to a file that can be written is in that file. -/
theorem node_deliver
    {emptied : FileSystem}
    (houtput : options.output = some file)
    (hwrite : host.files.write file [] = .ok emptied)
    (report : Report)
    (errors : String) :
    ∃ content, (Command.deliver host options report errors).files.node file =
        .ok (.file content) ∧
      content.bytes = Text.Utf8.encode (report.filed (options.format.getD .pretty)) := by
  unfold Command.deliver
  simp only [houtput]
  cases hfiled : host.files.write file
      (Text.Utf8.encode (report.filed (options.format.getD .pretty))) with
  | error fault =>
      rw [FileSystem.write_error_congr hfiled []] at hwrite
      cases hwrite
  | ok files =>
      exact FileSystem.node_of_write hfiled

end Filing

/--
A report for people with colors has control sequences; with these deleted, it is the one without
colors, if its name and messages have no escape; and if the name is on one line, no look is open at
the end of a line.  The other forms are the same with colors.  A summary without its control
sequences is the one without colors, if neither the path of the collection nor a name has an escape.
In a file that can be written is the text without colors, whatever the environment says, with a line
feed added if it has none at its end.
-/
theorem colors_are_decoration
    (report : Report) :
    ¬ IsPlain (report.text .pretty true) ∧
    (IsPlain report.name → (∀ d ∈ report.diagnostics, IsPlain d.message) →
      erase (report.text .pretty true).toList = (report.text .pretty false).toList ∧
      (Text.IsOneLine report.name →
        ∀ line ∈ Text.splitOn '\n' (report.text .pretty true).toList, endsOpen line = false)) ∧
    report.text .json true = report.text .json false ∧
    report.text .sarif true = report.text .sarif false ∧
    (∀ (path : String) (reports : List Report),
      IsPlain path → (∀ other ∈ reports, IsPlain other.name) →
        erase (Span.renderAll true (Collection.summary path reports)).toList =
          (Span.renderAll false (Collection.summary path reports)).toList) ∧
    ∀ (host : Host) (options : Command.Options) (errors file : String) (emptied : FileSystem),
      options.output = some file → host.files.write file [] = .ok emptied →
        ∃ content,
          (Command.deliver host options report errors).files.node file = .ok (.file content) ∧
          content.bytes = Text.Utf8.encode
            (report.text (options.format.getD .pretty) false ++
              if (report.text (options.format.getD .pretty) false).toList.getLast? = some '\n'
              then "" else "\n") := by
  refine ⟨not_isPlain_text_pretty report, ?_, rfl, rfl, ?_, ?_⟩
  · intro hname hmessages
    exact IsTidy.decoration (isTidy_of_mem_pretty hname hmessages)
  · intro path reports hpath hnames
    exact (IsTidy.decoration (isTidy_of_mem_summary hpath hnames)).1
  · intro host options errors file emptied houtput hwrite
    obtain ⟨content, hnode, hbytes⟩ := node_deliver houtput hwrite report errors
    exact ⟨content, hnode, by rw [hbytes, filed_eq]⟩

section Witness

/-- A report with a message of two lines. -/
def brightReport : Report where
  name := "lint"
  diagnostics :=
    [{ ruleId := "b", severity := .warning, category := .body, message := "long\nbody"
       file := none },
      { ruleId := "n", severity := .error, category := .name, message := "no name", file := none }]
  strict := true

/-- A host without files on which colors are forced. -/
def brightHost : Host where
  files := FileSystem.empty []
  programs := []
  environment := [("CLICOLOR_FORCE", "1")]

/-- A report of a run with colors goes to a file without them. -/
theorem colors_of_brightReport :
    IsPlain brightReport.name ∧ (∀ d ∈ brightReport.diagnostics, IsPlain d.message) ∧
    Text.IsOneLine brightReport.name ∧
    Command.colored brightHost { output := some "/o" } = true ∧
    ¬ IsPlain (brightReport.text .pretty true) ∧
    erase (brightReport.text .pretty true).toList = (brightReport.text .pretty false).toList ∧
    erase (Span.renderAll true (Collection.summary "skills" [brightReport])).toList =
      (Span.renderAll false (Collection.summary "skills" [brightReport])).toList ∧
    ∃ emptied, brightHost.files.write "/o" [] = .ok emptied ∧
      ∃ content,
        (Command.deliver brightHost { output := some "/o" } brightReport "").files.node "/o" =
          .ok (.file content) ∧
        content.bytes = Text.Utf8.encode (brightReport.text .pretty false) := by
  have hname : IsPlain brightReport.name := by
    decide
  have hmessages : ∀ d ∈ brightReport.diagnostics, IsPlain d.message := by
    decide
  have hwrite : ∃ emptied, brightHost.files.write "/o" [] = .ok emptied := by
    have hsteps : FileSystem.stepsOf "/o" = ["o"] := by
      decide
    have hland : brightHost.files.land "/o" true = .ok (.vacant [] "o") := by
      rw [FileSystem.land_of_fits (by decide) (by decide), FileSystem.startOf_of_isAbsolute
        (by decide), hsteps]
      dsimp only
      rw [FileSystem.follow_absent (by decide) rfl rfl, if_neg (by decide)]
    refine ⟨brightHost.files.put [] "o" (.file { bytes := [] }) trivial, ?_⟩
    rw [FileSystem.write, if_neg (by decide), hland]
    rfl
  obtain ⟨emptied, hemptied⟩ := hwrite
  obtain ⟨hcolored, hpretty, -, -, hsummary, hfile⟩ := colors_are_decoration brightReport
  refine ⟨hname, hmessages, by decide, by decide, hcolored, (hpretty hname hmessages).1,
    hsummary "skills" [brightReport] (by decide) (by decide), emptied, hemptied, ?_⟩
  obtain ⟨content, hnode, hbytes⟩ := hfile brightHost { output := some "/o" } "" "/o" emptied rfl
    hemptied
  refine ⟨content, hnode, ?_⟩
  rw [hbytes, ← filed_pretty, filed_eq]
  rfl

end Witness

end Report
end SkillAudit

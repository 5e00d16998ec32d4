import Mathlib.Data.List.Basic
import Mathlib.Data.List.TakeWhile
import SkillAudit.Command.Listing
import SkillAudit.Host.Launch

/-!
# Verdicts on scripts

The programs that are missing are looked up once for all scripts of a package and are then known by
their names in one list.  Still, what is said of a script is what would be said of it if it were the
only script: the list holds the program of a script exactly when that program is not installed,
whatever the other scripts need, and also when both languages are given to one program.

* `mem_missingPrograms`: the list holds the programs that are needed and not installed.
* `diagnostics_eq_filterMap`: the scripts are judged one by one, each as if it were alone.
* `alone_eq_some_iff`: what is said of a file that is alone.
* `diagnostics_exact`: the diagnostics, file by file, from the names of the files, the programs that
  are installed and the answers of the interpreters.
-/

namespace SkillAudit

/-- The extension of a name is what stands behind its last dot, if something stands before it. -/
theorem Path.nameExtension?_eq_some_iff
    {name extension : String} :
    Path.nameExtension? name = some extension ↔
      ∃ stem : List Char,
        stem ≠ [] ∧ name.toList = stem ++ '.' :: extension.toList ∧ '.' ∉ extension.toList := by
  -- The last dot is the first one from behind, so both sides are compared backwards.
  constructor
  · intro h
    have hsplit := List.takeWhile_append_dropWhile (p := (· != '.')) (l := name.toList.reverse)
    have hnodot : '.' ∉ name.toList.reverse.takeWhile (· != '.') := by
      intro hmem
      simpa using List.mem_takeWhile_imp hmem
    simp only [Path.nameExtension?] at h
    split at h
    · next dot next rest hdrop =>
        have hdot : dot = '.' := by
          have hhead := List.head_dropWhile_not (· != '.') (l := name.toList.reverse)
            (by simp [hdrop])
          simpa [hdrop] using hhead
        rw [hdrop, hdot] at hsplit
        have hname : name.toList = (next :: rest).reverse ++
            '.' :: (name.toList.reverse.takeWhile (· != '.')).reverse := by
          calc name.toList = name.toList.reverse.reverse := (List.reverse_reverse _).symm
            _ = (name.toList.reverse.takeWhile (· != '.') ++ '.' :: next :: rest).reverse :=
              congrArg List.reverse hsplit.symm
            _ = (next :: rest).reverse ++
                '.' :: (name.toList.reverse.takeWhile (· != '.')).reverse := by simp
        rw [← Option.some.inj h, String.toList_ofList]
        exact ⟨(next :: rest).reverse, by simp, hname, by simpa using hnodot⟩
    · cases h
  · rintro ⟨stem, hstem, hname, hnodot⟩
    have hall : ∀ c ∈ extension.toList.reverse, (c != '.') = true := by
      intro c hc
      rw [bne_iff_ne]
      rintro rfl
      exact hnodot (List.mem_reverse.1 hc)
    obtain ⟨last, front, hreverse⟩ : ∃ last front, stem.reverse = last :: front := by
      cases h : stem.reverse with
      | nil => exact absurd (List.reverse_eq_nil_iff.1 h) hstem
      | cons last front => exact ⟨last, front, rfl⟩
    simp only [Path.nameExtension?, hname, List.reverse_append, List.reverse_cons,
      List.append_assoc, List.singleton_append, hreverse]
    rw [List.dropWhile_append_of_pos hall, List.takeWhile_append_of_pos hall]
    simp

namespace Script

section Languages

/-- The small form of the extension is one of the language. -/
def IsExtensionOf (small : String) : Language → Prop
  | .python => small = "py"
  | .shell => small = "sh" ∨ small = "bash"

/-- A file is a script of a language by what stands behind the last dot of its name, if something
stands before that dot. -/
def IsScriptOf (file : List String) (language : Language) : Prop :=
  ∃ stem extension : List Char,
    stem ≠ [] ∧
    (file.getLastD "").toList = stem ++ '.' :: extension ∧
    '.' ∉ extension ∧
    IsExtensionOf (String.ofList (Text.lowercase extension)) language

theorem contains_extensions_iff
    {language : Language}
    {small : String} :
    language.extensions.contains small = true ↔ IsExtensionOf small language := by
  cases language <;> simp [Language.extensions, IsExtensionOf]

theorem IsExtensionOf.unique
    {small : String}
    {language other : Language}
    (h : IsExtensionOf small language)
    (hother : IsExtensionOf small other) :
    language = other := by
  cases language with
  | python =>
      cases other with
      | python => rfl
      | shell =>
          rcases hother with hother | hother <;>
            exact absurd (h.symm.trans hother) (by decide)
  | shell =>
      cases other with
      | python =>
          rcases h with h | h <;>
            exact absurd (h.symm.trans hother) (by decide)
      | shell => rfl

theorem handlesName_iff
    {language : Language}
    {file : List String} :
    language.handlesName (file.getLastD "") = true ↔ IsScriptOf file language := by
  rw [Language.handlesName]
  constructor
  · intro h
    split at h
    · next extension hextension =>
        obtain ⟨stem, hstem, hname, hnodot⟩ := Path.nameExtension?_eq_some_iff.1 hextension
        exact ⟨stem, extension.toList, hstem, hname, hnodot, contains_extensions_iff.1 h⟩
    · cases h
  · rintro ⟨stem, extension, hstem, hname, hnodot, hof⟩
    have hextension : Path.nameExtension? (file.getLastD "") = some (String.ofList extension) := by
      refine Path.nameExtension?_eq_some_iff.2 ⟨stem, hstem, ?_, ?_⟩
      · rw [String.toList_ofList, hname]
      · rwa [String.toList_ofList]
    simp only [hextension, String.toList_ofList]
    exact contains_extensions_iff.2 hof

/-- No file is a script of two languages. -/
theorem IsScriptOf.unique
    {file : List String}
    {language other : Language}
    (h : IsScriptOf file language)
    (hother : IsScriptOf file other) :
    language = other := by
  rw [← handlesName_iff, Language.handlesName] at h hother
  split at h
  · next extension hextension =>
      rw [hextension] at hother
      exact (contains_extensions_iff.1 h).unique (contains_extensions_iff.1 hother)
  · cases h

/-- A file that is a script of a language has a job in that language. -/
theorem ofFile?_eq_some_iff
    {file : List String}
    {job : Job} :
    Job.ofFile? file = some job ↔ job.file = file ∧ IsScriptOf file job.language := by
  obtain ⟨own, language⟩ := job
  rw [Job.ofFile?, Language.ofName?, Option.map_eq_some_iff]
  constructor
  · rintro ⟨found, hfound, hjob⟩
    obtain ⟨rfl, rfl⟩ := Job.mk.inj hjob
    exact ⟨rfl, handlesName_iff.1 (by simpa using List.find?_some hfound)⟩
  · rintro ⟨rfl, hscript⟩
    cases hfound : Language.all.find? (·.handlesName (own.getLastD "")) with
    | none =>
        have hmem : language ∈ Language.all := by cases language <;> decide
        exact absurd (handlesName_iff.2 hscript) (List.find?_eq_none.1 hfound language hmem)
    | some found =>
        have hown : IsScriptOf own found :=
          handlesName_iff.1 (by simpa using List.find?_some hfound)
        exact ⟨found, rfl, by rw [hown.unique hscript]⟩

end Languages

section Verdicts

theorem mem_eraseReps
    {α : Type}
    [BEq α]
    [LawfulBEq α]
    {a : α}
    {list : List α} :
    a ∈ list.eraseReps ↔ a ∈ list := by
  -- The loop holds the last element apart and gathers the kept ones behind it.
  have hloop : ∀ (rest : List α) (last : α) (kept : List α),
      a ∈ List.eraseRepsBy.loop (· == ·) last rest kept ↔ a ∈ kept ∨ a = last ∨ a ∈ rest := by
    intro rest
    induction rest with
    | nil =>
        intro last kept
        simp [List.eraseRepsBy.loop, or_comm]
    | cons b rest ih =>
        intro last kept
        rw [List.eraseRepsBy.loop]
        cases h : last == b with
        | true =>
            simp [ih, eq_of_beq h]
        | false =>
            simp [ih, or_assoc, or_left_comm]
  cases list with
  | nil =>
      simp [List.eraseReps, List.eraseRepsBy]
  | cons b rest =>
      simp [List.eraseReps, List.eraseRepsBy, hloop]

variable (tools : Toolchain)
variable (interpreters : Interpreters)

/-- The list holds the programs that some script needs and that are not installed. -/
theorem mem_missingPrograms
    {jobs : List Job}
    {program : String} :
    program ∈ missingPrograms tools interpreters jobs ↔
      (∃ job ∈ jobs, interpreters.program job.language = program) ∧
        tools.available program = false := by
  simp [missingPrograms, mem_eraseReps]

/-- For the program of one of the scripts, the list tells whether it is installed. -/
theorem contains_missingPrograms
    {jobs : List Job}
    {job : Job}
    (hjob : job ∈ jobs) :
    (missingPrograms tools interpreters jobs).contains (interpreters.program job.language) =
      !tools.available (interpreters.program job.language) := by
  rw [Bool.eq_iff_iff, List.contains_iff_mem, mem_missingPrograms, Bool.not_eq_true']
  constructor
  · rintro ⟨-, hmissing⟩
    exact hmissing
  · intro hmissing
    exact ⟨⟨job, hjob, rfl⟩, hmissing⟩

/-- What is said of a file that is alone. -/
def alone (root : String) (file : List String) : Option Diagnostic :=
  (Job.ofFile? file).bind fun job =>
    job.diagnostic? tools interpreters (missingPrograms tools interpreters [job]) root

/-- The scripts of a package are judged one by one, each as if it were alone. -/
theorem diagnostics_eq_filterMap
    (package : Package) :
    diagnostics tools interpreters package =
      (package.filesDirectlyIn Contract.scriptsDirectory).filterMap
        (alone tools interpreters package.root) := by
  rw [diagnostics, jobs, List.filterMap_filterMap]
  refine List.filterMap_congr fun file hfile => ?_
  cases hjob : Job.ofFile? file with
  | none =>
      simp [alone, hjob]
  | some job =>
      have hmem : job ∈ jobs package := List.mem_filterMap.2 ⟨file, hfile, hjob⟩
      have hall := contains_missingPrograms tools interpreters hmem
      have hself := contains_missingPrograms tools interpreters
        (List.mem_singleton_self job)
      rw [jobs] at hall
      simp only [alone, hjob, Option.bind_some, Job.diagnostic?, hall, hself]

/-- What there is to say of a file.  A script whose interpreter is not installed is reported as not
checked; a script that its interpreter finds invalid is reported with what the interpreter says;
nothing is said of any other file. -/
inductive Says (root : String) (file : List String) : Diagnostic → Prop
  | notInstalled
      (language : Language)
      (hscript : IsScriptOf file language)
      (hmissing : tools.available (interpreters.program language) = false) :
      Says root file
        { ruleId := "scripts/unchecked"
          severity := .warning
          category := .scripts
          message := "script not checked: " ++ file.getLastD "" ++ " (" ++
            interpreters.program language ++ " not found on PATH)"
          file := some (Path.ofNames file) }
  | invalid
      (language : Language)
      (detail : String)
      (hscript : IsScriptOf file language)
      (hinstalled : tools.available (interpreters.program language) = true)
      (houtcome :
        checkFile tools language (interpreters.program language)
          (Path.join root (Path.ofNames file)) (file.getLastD "") = .invalid detail) :
      Says root file
        { ruleId := "scripts/syntax-error"
          severity := .error
          category := .scripts
          message := "syntax error in " ++ file.getLastD "" ++ ": " ++ detail
          file := some (Path.ofNames file) }

/-- What is said of a file that is alone depends on its own interpreter only. -/
theorem alone_eq_some_iff
    {root : String}
    {file : List String}
    {d : Diagnostic} :
    alone tools interpreters root file = some d ↔ Says tools interpreters root file d := by
  constructor
  · intro h
    obtain ⟨job, hjob, hd⟩ := Option.bind_eq_some_iff.1 h
    obtain ⟨rfl, hscript⟩ := ofFile?_eq_some_iff.1 hjob
    have hlisted := contains_missingPrograms tools interpreters (List.mem_singleton_self job)
    simp only [Job.diagnostic?, hlisted, Bool.not_eq_true'] at hd
    split at hd
    · next hmissing =>
        rw [← Option.some.inj hd]
        exact .notInstalled job.language hscript hmissing
    · next hinstalled =>
        split at hd
        · next detail houtcome =>
            rw [← Option.some.inj hd]
            exact .invalid job.language detail hscript (by simpa using hinstalled) houtcome
        · cases hd
        · cases hd
  · intro h
    cases h with
    | notInstalled language hscript hmissing =>
        have hjob : Job.ofFile? file = some ⟨file, language⟩ :=
          ofFile?_eq_some_iff.2 ⟨rfl, hscript⟩
        have hlisted := contains_missingPrograms tools interpreters
          (List.mem_singleton_self (Job.mk file language))
        rw [hmissing] at hlisted
        rw [alone, hjob, Option.bind_some, Job.diagnostic?]
        exact if_pos hlisted
    | invalid language detail hscript hinstalled houtcome =>
        have hjob : Job.ofFile? file = some ⟨file, language⟩ :=
          ofFile?_eq_some_iff.2 ⟨rfl, hscript⟩
        have hlisted := contains_missingPrograms tools interpreters
          (List.mem_singleton_self (Job.mk file language))
        rw [hinstalled] at hlisted
        rw [alone, hjob, Option.bind_some, Job.diagnostic?]
        rw [if_neg (by rw [hlisted]; decide), Job.pathIn, Job.shown, houtcome]
        rfl

/-- A diagnostic of a script is of one of the two rules on scripts. -/
theorem rule_of_mem_diagnostics
    {package : Package}
    {d : Diagnostic}
    (hd : d ∈ diagnostics tools interpreters package) :
    ∃ rule ∈ [syntaxError, unchecked], ∃ violation, rule.diagnostic violation = d := by
  obtain ⟨job, -, hjob⟩ := List.mem_filterMap.1 hd
  simp only [Job.diagnostic?] at hjob
  split at hjob
  · exact ⟨unchecked, by simp, _, Option.some.inj hjob⟩
  · split at hjob
    · exact ⟨syntaxError, by simp, _, Option.some.inj hjob⟩
    · cases hjob
    · cases hjob

theorem file_eq_of_alone
    {root : String}
    {file : List String}
    {d : Diagnostic}
    (h : alone tools interpreters root file = some d) :
    d.file = some (Path.ofNames file) := by
  cases (alone_eq_some_iff tools interpreters).1 h with
  | notInstalled => rfl
  | invalid => rfl

theorem filesDirectlyIn_scriptsDirectory
    (package : Package) :
    package.filesDirectlyIn Contract.scriptsDirectory =
      package.files.filter fun file => file.dropLast = ["scripts"] := by
  have hparts : Path.parts Contract.scriptsDirectory = [.name "scripts"] := by decide
  refine List.filter_congr fun file _ => ?_
  rw [hparts, Bool.eq_iff_iff, beq_iff_eq, decide_eq_true_iff, Package.fileParts]
  constructor
  · intro h
    obtain ⟨name, hname, hpart⟩ := List.map_eq_singleton_iff.1 h
    rw [hname, PathPart.name.inj hpart]
  · intro h
    rw [h, List.map_singleton]

/-- A choice from a list leaves what is read off the chosen things in the order of the list. -/
theorem map_filterMap_sublist
    {α β γ : Type}
    {f : α → Option β}
    {g : β → γ}
    {h : α → γ}
    (hread : ∀ a b, f a = some b → g b = h a)
    (list : List α) :
    ((list.filterMap f).map g).Sublist (list.map h) := by
  induction list with
  | nil =>
      exact List.Sublist.refl []
  | cons a rest ih =>
      cases ha : f a with
      | none =>
          rw [List.filterMap_cons_none ha]
          exact ih.cons (h a)
      | some b =>
          rw [List.filterMap_cons_some ha, List.map_cons, hread a b ha]
          exact ih.cons_cons (h a)

/-- The list of the interpreters shows as not available what counts as missing for a package. -/
theorem notAvailable_mem_interpreterLine
    (host : Host)
    (language : Language) :
    Span.styled (.plainIn .red) "NOT AVAILABLE" ∈
        Command.interpreterLine host interpreters language ↔
      host.toolchain.available (interpreters.program language) = false := by
  rw [Command.interpreterLine, Host.toolchain]
  cases h : host.hasProgram (interpreters.program language) <;>
    simp [h, Look.plainIn, Look.boldIn]

/--
The diagnostics of the scripts of a package, for any host and any answers of the interpreters: of
the files directly in the script directory, in their order, each has what there is to say of it and
no other file has any.  A program counts as missing exactly when the list of the interpreters shows
it as not available.
-/
theorem diagnostics_exact
    (package : Package) :
    (∃ said : List String → Option Diagnostic,
      (∀ file d, said file = some d ↔ Says tools interpreters package.root file d) ∧
      diagnostics tools interpreters package =
        (package.files.filter fun file => file.dropLast = ["scripts"]).filterMap said) ∧
    ((diagnostics tools interpreters package).map (·.file)).Sublist
      ((package.files.filter fun file => file.dropLast = ["scripts"]).map
        fun file => some (Path.ofNames file)) ∧
    (∀ (host : Host) (language : Language),
      Span.styled (.plainIn .red) "NOT AVAILABLE" ∈
          Command.interpreterLine host interpreters language ↔
        host.toolchain.available (interpreters.program language) = false) := by
  have hdiagnostics := diagnostics_eq_filterMap tools interpreters package
  rw [filesDirectlyIn_scriptsDirectory] at hdiagnostics
  refine ⟨⟨alone tools interpreters package.root, ?_, hdiagnostics⟩, ?_, ?_⟩
  · intro file d
    exact alone_eq_some_iff tools interpreters
  · rw [hdiagnostics]
    exact map_filterMap_sublist (fun file d => file_eq_of_alone tools interpreters) _
  · intro host language
    exact notAvailable_mem_interpreterLine interpreters host language

example :
    let tools : Toolchain :=
      { available := fun program => program == "python3"
        launch := fun _ arguments => some
          { exitCode := some (if arguments.contains "/p/scripts/b.PY" then 3 else 0)
            output := "bad syntax".toUTF8.toList
            errors := [] } }
    let package : Package :=
      { root := "/p"
        name := "p"
        document := none
        files := [["scripts", "a.sh"], ["scripts", "b.PY"], ["scripts", "c.py"],
          ["scripts", "d.md"], ["scripts", "e", "f.py"]]
        topLevel := ["scripts"]
        exclusions := none }
    (diagnostics tools {} package).map (·.text) =
      ["[scripts] script not checked: a.sh (bash not found on PATH)",
        "[scripts] syntax error in b.PY: bad syntax"] := by
  decide +kernel

end Verdicts
end Script
end SkillAudit

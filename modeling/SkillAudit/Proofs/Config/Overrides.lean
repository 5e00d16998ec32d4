import Mathlib.Computability.Primrec.List
import SkillAudit.Command.Run
import SkillAudit.Proofs.FileSystem.Children
import SkillAudit.Proofs.Toml.DistinctKeys

/-!
# Configurations as overridden defaults

A configuration has seven settings, which a document gives in three sections.  A loaded
configuration has what the document gives and the defaults elsewhere; a value of the wrong kind
refuses the whole document.  What a document gives does not depend on the order of its entries,
because no key comes twice.

* `ofEntries?_eq_some_iff`: the configuration of a document, setting by setting.
* `exists_ofEntries?_iff`: the documents that have a configuration.
* `ofEntries?_eq_of_gives`: the order of a document and what else it says do not count.
* `load_overrides_defaults`: the configuration that is loaded, from which file, and when none is.
-/

namespace SkillAudit

/-- A text is the text of this table: its statements build the table, and each of its numbers can be
represented. -/
structure Toml.IsTableOf (text : String) (entries : Toml.Entries) : Prop where
  document_eq : Toml.document? text = some entries
  numbers_fit : Toml.areIgnorableEntries entries = true

namespace Config

/-- The settings of a configuration. -/
inductive Setting where
  | strictness
  | layout
  | scripts
  | frontmatter
  | body
  | python
  | shell
  deriving DecidableEq, Repr

namespace Setting

/-- The section in which a document gives a setting. -/
def sectionKey : Setting → String
  | strictness => "strict"
  | layout | scripts | frontmatter | body => "checks"
  | python | shell => "interpreters"

/-- The key of a setting in its section. -/
def key : Setting → String
  | strictness => "enabled"
  | layout => "structure"
  | scripts => "scripts"
  | frontmatter => "frontmatter"
  | body => "body"
  | python => "python"
  | shell => "shell"

/-- The value of a setting, as a document gives it. -/
def value (config : Config) : Setting → Toml
  | strictness => .bool config.strict.enabled
  | layout => .bool config.checks.layout
  | scripts => .bool config.checks.scripts
  | frontmatter => .bool config.checks.frontmatter
  | body => .bool config.checks.body
  | python => .string config.interpreters.python
  | shell => .string config.interpreters.shell

/-- The default of a setting. -/
def default : Setting → Toml
  | strictness => .bool false
  | layout | scripts | frontmatter | body => .bool true
  | python => .string "python3"
  | shell => .string "bash"

/-- Whether a value is of the kind of a setting. -/
def Fits : Setting → Toml → Prop
  | strictness, value | layout, value | scripts, value | frontmatter, value | body, value =>
      ∃ on, value = .bool on
  | python, value | shell, value => ∃ text, value = .string text

theorem fits_value
    (setting : Setting)
    (config : Config) :
    setting.Fits (setting.value config) := by
  cases setting <;> exact ⟨_, rfl⟩

/-- A configuration is known from the values of its settings. -/
theorem ext_value
    {config config' : Config}
    (h : ∀ setting : Setting, setting.value config = setting.value config') :
    config = config' := by
  obtain ⟨⟨enabled⟩, ⟨layout, scripts, frontmatter, body⟩, ⟨python, shell⟩⟩ := config
  obtain ⟨⟨enabled'⟩, ⟨layout', scripts', frontmatter', body'⟩, ⟨python', shell'⟩⟩ := config'
  cases h .strictness
  cases h .layout
  cases h .scripts
  cases h .frontmatter
  cases h .body
  cases h .python
  cases h .shell
  rfl

theorem value_defaults
    (setting : Setting) :
    setting.value {} = setting.default := by
  cases setting <;> rfl

end Setting

/-- Every section that the entries of a document have is a table. -/
def SectionsAreTables (entries : Toml.Entries) : Prop :=
  ∀ (setting : Setting) (value : Toml),
    (setting.sectionKey, value) ∈ entries → ∃ origin inner, value = .table origin inner

/-- A document gives a setting a value: an entry of the section, which is a table. -/
def Gives (entries : Toml.Entries) (setting : Setting) (value : Toml) : Prop :=
  ∃ origin inner,
    (setting.sectionKey, Toml.table origin inner) ∈ entries ∧ (setting.key, value) ∈ inner

/-- The entries of a section; a missing section has none. -/
def sectionOf (entries : Toml.Entries) (key : String) : Toml.Entries :=
  match entries.lookup key with
  | some (.table _ inner) => inner
  | _ => []

/-- What is found for a setting. -/
def found? (entries : Toml.Entries) (setting : Setting) : Option Toml :=
  (sectionOf entries setting.sectionKey).lookup setting.key

/-- The numbers under keys that are not known can all be represented. -/
structure UnknownFit (entries : Toml.Entries) : Prop where
  sections : Toml.unknownIgnorable ["strict", "checks", "interpreters"] entries = true
  strict : Toml.unknownIgnorable ["enabled"] (sectionOf entries "strict") = true
  checks :
    Toml.unknownIgnorable ["structure", "scripts", "frontmatter", "body"]
      (sectionOf entries "checks") = true
  interpreters :
    Toml.unknownIgnorable ["python", "shell"] (sectionOf entries "interpreters") = true

section Reading

variable {entries : Toml.Entries}

/-- What is found for a setting is what the document gives it. -/
theorem found?_eq_some_iff
    (h : Toml.AreDistinct entries)
    {setting : Setting}
    {value : Toml} :
    found? entries setting = some value ↔ Gives entries setting value := by
  constructor
  · intro hfound
    unfold found? sectionOf at hfound
    split at hfound
    · next origin inner hlookup =>
        exact ⟨origin, inner, Toml.mem_of_lookup_eq_some hlookup,
          Toml.mem_of_lookup_eq_some hfound⟩
    · cases hfound
  · rintro ⟨origin, inner, hsection, hvalue⟩
    have hinner := Toml.hasDistinctKeys_table_iff.1 (h.values _ hsection)
    rw [found?, sectionOf, h.lookup_eq_some_iff.2 hsection]
    exact hinner.lookup_eq_some_iff.2 hvalue

/-- A reader accepts the values of one kind and takes them off their wrapping. -/
def Unwraps {α : Type} (read : Toml → Option α) (wrap : α → Toml) : Prop :=
  ∀ value a, read value = some a ↔ value = wrap a

theorem unwraps_asBool? : Unwraps Toml.asBool? .bool := by
  intro value on
  cases value <;> simp [Toml.asBool?]

theorem unwraps_asText? : Unwraps Toml.asText? .string := by
  intro value text
  cases value <;> simp [Toml.asText?]

section Unwraps

variable {α : Type} {read : Toml → Option α} {wrap : α → Toml}
variable {default : α} {value : Option Toml}

theorem Unwraps.read_wrap
    (h : Unwraps read wrap)
    (a : α) :
    read (wrap a) = some a :=
  (h _ _).2 rfl

/-- A setting is what its value wraps, or the default. -/
theorem Unwraps.setting_eq_some_iff
    (h : Unwraps read wrap)
    {a : α} :
    setting read default value = some a ↔ wrap a = value.getD (wrap default) := by
  cases value with
  | none =>
      rw [setting, Option.getD_none, ← h, h.read_wrap, eq_comm]
  | some value =>
      rw [setting, Option.getD_some, h, eq_comm]

/-- What is found, if it is of the right kind. -/
theorem Unwraps.wrap_getD
    (h : Unwraps read wrap)
    (hvalue : ∀ found, value = some found → ∃ a, found = wrap a) :
    wrap ((value.bind read).getD default) = value.getD (wrap default) := by
  cases value with
  | none =>
      rfl
  | some found =>
      obtain ⟨a, rfl⟩ := hvalue found rfl
      rw [Option.bind_some, h.read_wrap, Option.getD_some, Option.getD_some]

end Unwraps

theorem readStrictness_table_eq_some_iff
    {origin : TableOrigin}
    {strict : Strictness} :
    readStrictness (.table origin entries) = some strict ↔
      Toml.unknownIgnorable ["enabled"] entries = true ∧
      Toml.bool strict.enabled = (entries.lookup "enabled").getD (.bool false) := by
  rw [← unwraps_asBool?.setting_eq_some_iff]
  cases hfit : Toml.unknownIgnorable ["enabled"] entries with
  | false =>
      simp [readStrictness, Toml.settings?, hfit]
  | true =>
      have hread : readStrictness (.table origin entries) =
          (setting Toml.asBool? false (entries.lookup "enabled")).bind fun enabled =>
            some { enabled } := by
        simp [readStrictness, Toml.settings?, hfit]
      rw [hread, Option.bind_eq_some_iff]
      constructor
      · rintro ⟨enabled, henabled, hstrict⟩
        cases hstrict
        exact ⟨rfl, henabled⟩
      · rintro ⟨-, henabled⟩
        exact ⟨strict.enabled, henabled, rfl⟩

theorem readGroups_table_eq_some_iff
    {origin : TableOrigin}
    {checks : Groups} :
    readGroups (.table origin entries) = some checks ↔
      Toml.unknownIgnorable ["structure", "scripts", "frontmatter", "body"] entries = true ∧
      Toml.bool checks.layout = (entries.lookup "structure").getD (.bool true) ∧
      Toml.bool checks.scripts = (entries.lookup "scripts").getD (.bool true) ∧
      Toml.bool checks.frontmatter = (entries.lookup "frontmatter").getD (.bool true) ∧
      Toml.bool checks.body = (entries.lookup "body").getD (.bool true) := by
  simp only [← unwraps_asBool?.setting_eq_some_iff]
  cases hfit : Toml.unknownIgnorable ["structure", "scripts", "frontmatter", "body"] entries with
  | false =>
      simp [readGroups, Toml.settings?, hfit]
  | true =>
      have hread : readGroups (.table origin entries) =
          (setting Toml.asBool? true (entries.lookup "structure")).bind fun layout =>
            (setting Toml.asBool? true (entries.lookup "scripts")).bind fun scripts =>
              (setting Toml.asBool? true (entries.lookup "frontmatter")).bind fun frontmatter =>
                (setting Toml.asBool? true (entries.lookup "body")).bind fun body =>
                  some { layout, scripts, frontmatter, body } := by
        simp [readGroups, Toml.settings?, hfit]
      simp only [hread, Option.bind_eq_some_iff]
      constructor
      · rintro ⟨layout, hlayout, scripts, hscripts, frontmatter, hfrontmatter, body, hbody, hchecks⟩
        cases hchecks
        exact ⟨trivial, hlayout, hscripts, hfrontmatter, hbody⟩
      · rintro ⟨-, hlayout, hscripts, hfrontmatter, hbody⟩
        exact ⟨_, hlayout, _, hscripts, _, hfrontmatter, _, hbody, rfl⟩

theorem readInterpreters_table_eq_some_iff
    {origin : TableOrigin}
    {interpreters : Interpreters} :
    readInterpreters (.table origin entries) = some interpreters ↔
      Toml.unknownIgnorable ["python", "shell"] entries = true ∧
      Toml.string interpreters.python = (entries.lookup "python").getD (.string "python3") ∧
      Toml.string interpreters.shell = (entries.lookup "shell").getD (.string "bash") := by
  simp only [← unwraps_asText?.setting_eq_some_iff]
  cases hfit : Toml.unknownIgnorable ["python", "shell"] entries with
  | false =>
      simp [readInterpreters, Toml.settings?, hfit]
  | true =>
      have hread : readInterpreters (.table origin entries) =
          (setting Toml.asText? "python3" (entries.lookup "python")).bind fun python =>
            (setting Toml.asText? "bash" (entries.lookup "shell")).bind fun shell =>
              some { python, shell } := by
        simp [readInterpreters, Toml.settings?, hfit]
      simp only [hread, Option.bind_eq_some_iff]
      constructor
      · rintro ⟨python, hpython, shell, hshell, hinterpreters⟩
        cases hinterpreters
        exact ⟨trivial, hpython, hshell⟩
      · rintro ⟨-, hpython, hshell⟩
        exact ⟨_, hpython, _, hshell, rfl⟩

/-- A missing section is read as a table without entries. -/
theorem setting_section
    {α : Type}
    (read : Toml → Option α)
    {default : α}
    (horigin : ∀ origin inner, read (.table origin inner) = read (.table .header inner))
    (hempty : read (.table .header []) = some default)
    {key : String}
    (htables : ∀ value, entries.lookup key = some value →
      ∃ origin inner, value = .table origin inner) :
    setting read default (entries.lookup key) = read (.table .header (sectionOf entries key)) := by
  unfold sectionOf
  cases hlookup : entries.lookup key with
  | none =>
      exact hempty.symm
  | some value =>
      obtain ⟨origin, inner, rfl⟩ := htables value hlookup
      exact horigin origin inner

/-- A document whose sections are tables has a configuration exactly if each setting of the
configuration is what is found for it, or else the default. -/
theorem ofEntries?_eq_some_iff
    (htables : SectionsAreTables entries)
    {config : Config} :
    ofEntries? entries = some config ↔
      UnknownFit entries ∧
      ∀ setting : Setting,
        setting.value config = (found? entries setting).getD setting.default := by
  have htable : ∀ (setting : Setting) (value : Toml),
      entries.lookup setting.sectionKey = some value →
        ∃ origin inner, value = .table origin inner := fun setting value h =>
    htables setting value (Toml.mem_of_lookup_eq_some h)
  have hstrict : setting readStrictness {} (entries.lookup "strict") =
      readStrictness (.table .header (sectionOf entries "strict")) :=
    setting_section readStrictness (fun _ _ => rfl) rfl (htable .strictness)
  have hchecks : setting readGroups {} (entries.lookup "checks") =
      readGroups (.table .header (sectionOf entries "checks")) :=
    setting_section readGroups (fun _ _ => rfl) rfl (htable .layout)
  have hinterpreters : setting readInterpreters {} (entries.lookup "interpreters") =
      readInterpreters (.table .header (sectionOf entries "interpreters")) :=
    setting_section readInterpreters (fun _ _ => rfl) rfl (htable .python)
  cases hfit : Toml.unknownIgnorable ["strict", "checks", "interpreters"] entries with
  | false =>
      constructor
      · intro h
        simp [ofEntries?, hfit] at h
      · rintro ⟨hunknown, -⟩
        rw [hunknown.sections] at hfit
        cases hfit
  | true =>
      have hread : ofEntries? entries =
          (readStrictness (.table .header (sectionOf entries "strict"))).bind fun strict =>
            (readGroups (.table .header (sectionOf entries "checks"))).bind fun checks =>
              (readInterpreters (.table .header (sectionOf entries "interpreters"))).bind
                fun interpreters => some { strict, checks, interpreters } := by
        rw [← hstrict, ← hchecks, ← hinterpreters, ofEntries?, if_pos hfit]
        rfl
      simp only [hread, Option.bind_eq_some_iff, readStrictness_table_eq_some_iff,
        readGroups_table_eq_some_iff, readInterpreters_table_eq_some_iff]
      constructor
      · rintro ⟨strict, ⟨hfitStrict, henabled⟩, checks,
          ⟨hfitChecks, hlayout, hscripts, hfrontmatter, hbody⟩, interpreters,
          ⟨hfitInterpreters, hpython, hshell⟩, hconfig⟩
        cases hconfig
        refine ⟨⟨hfit, hfitStrict, hfitChecks, hfitInterpreters⟩, fun setting => ?_⟩
        cases setting with
        | strictness => exact henabled
        | layout => exact hlayout
        | scripts => exact hscripts
        | frontmatter => exact hfrontmatter
        | body => exact hbody
        | python => exact hpython
        | shell => exact hshell
      · rintro ⟨hunknown, hvalue⟩
        exact ⟨_, ⟨hunknown.strict, hvalue .strictness⟩, _,
          ⟨hunknown.checks, hvalue .layout, hvalue .scripts, hvalue .frontmatter, hvalue .body⟩, _,
          ⟨hunknown.interpreters, hvalue .python, hvalue .shell⟩, rfl⟩

/-- Values of the right kinds are those of a configuration. -/
theorem exists_value_eq
    (hfits : ∀ (setting : Setting) (value : Toml),
      found? entries setting = some value → setting.Fits value) :
    ∃ config : Config, ∀ setting : Setting,
      setting.value config = (found? entries setting).getD setting.default := by
  refine
    ⟨{ strict.enabled := ((found? entries .strictness).bind Toml.asBool?).getD false
       checks :=
        { layout := ((found? entries .layout).bind Toml.asBool?).getD true
          scripts := ((found? entries .scripts).bind Toml.asBool?).getD true
          frontmatter := ((found? entries .frontmatter).bind Toml.asBool?).getD true
          body := ((found? entries .body).bind Toml.asBool?).getD true }
       interpreters :=
        { python := ((found? entries .python).bind Toml.asText?).getD "python3"
          shell := ((found? entries .shell).bind Toml.asText?).getD "bash" } },
      fun setting => ?_⟩
  cases setting with
  | strictness => exact unwraps_asBool?.wrap_getD (hfits .strictness)
  | layout => exact unwraps_asBool?.wrap_getD (hfits .layout)
  | scripts => exact unwraps_asBool?.wrap_getD (hfits .scripts)
  | frontmatter => exact unwraps_asBool?.wrap_getD (hfits .frontmatter)
  | body => exact unwraps_asBool?.wrap_getD (hfits .body)
  | python => exact unwraps_asText?.wrap_getD (hfits .python)
  | shell => exact unwraps_asText?.wrap_getD (hfits .shell)

/-- A document whose sections are tables has a configuration exactly if the numbers under unknown
keys can be represented and every setting that it gives has a value of its kind. -/
theorem exists_ofEntries?_iff
    (htables : SectionsAreTables entries) :
    (∃ config, ofEntries? entries = some config) ↔
      UnknownFit entries ∧
      ∀ (setting : Setting) (value : Toml),
        found? entries setting = some value → setting.Fits value := by
  constructor
  · rintro ⟨config, hconfig⟩
    obtain ⟨hunknown, hvalue⟩ := (ofEntries?_eq_some_iff htables).1 hconfig
    refine ⟨hunknown, fun setting value hfound => ?_⟩
    have hfits := setting.fits_value config
    rw [hvalue, hfound] at hfits
    exact hfits
  · rintro ⟨hunknown, hfits⟩
    obtain ⟨config, hvalue⟩ := exists_value_eq hfits
    exact ⟨config, (ofEntries?_eq_some_iff htables).2 ⟨hunknown, hvalue⟩⟩

theorem areIgnorableEntries_iff :
    Toml.areIgnorableEntries entries = true ↔
      ∀ entry ∈ entries, Toml.isIgnorable entry.2 = true := by
  induction entries with
  | nil =>
      simp [Toml.areIgnorableEntries]
  | cons entry entries ih =>
      rw [Toml.areIgnorableEntries, Bool.and_eq_true, ih, List.forall_mem_cons]

theorem unknownIgnorable_of_areIgnorable
    (h : Toml.areIgnorableEntries entries = true)
    (known : List String) :
    Toml.unknownIgnorable known entries = true := by
  rw [Toml.unknownIgnorable, areIgnorableEntries_iff]
  intro entry hentry
  exact areIgnorableEntries_iff.1 h entry (List.mem_of_mem_filter hentry)

/-- If all numbers can be represented, those under unknown keys can. -/
theorem unknownFit_of_areIgnorable
    (h : Toml.areIgnorableEntries entries = true) :
    UnknownFit entries := by
  have hsection : ∀ key, Toml.areIgnorableEntries (sectionOf entries key) = true := by
    intro key
    unfold sectionOf
    split
    · next origin inner hlookup =>
        have hvalue := areIgnorableEntries_iff.1 h _ (Toml.mem_of_lookup_eq_some hlookup)
        rwa [Toml.isIgnorable] at hvalue
    · rfl
  exact ⟨unknownIgnorable_of_areIgnorable h _, unknownIgnorable_of_areIgnorable (hsection _) _,
    unknownIgnorable_of_areIgnorable (hsection _) _,
    unknownIgnorable_of_areIgnorable (hsection _) _⟩

/-- Two documents that give the same settings have the same configuration. -/
theorem ofEntries?_eq_of_gives
    {entries' : Toml.Entries}
    (h : Toml.AreDistinct entries)
    (h' : Toml.AreDistinct entries')
    (htables : SectionsAreTables entries)
    (htables' : SectionsAreTables entries')
    (hfit : UnknownFit entries)
    (hfit' : UnknownFit entries')
    (hgives : ∀ setting value, Gives entries setting value ↔ Gives entries' setting value) :
    ofEntries? entries = ofEntries? entries' := by
  have hfound : ∀ setting, found? entries setting = found? entries' setting := fun setting =>
    Option.ext fun value => by
      rw [found?_eq_some_iff h, found?_eq_some_iff h']
      exact hgives setting value
  refine Option.ext fun config => ?_
  rw [ofEntries?_eq_some_iff htables, ofEntries?_eq_some_iff htables']
  simp only [hfit, hfit', hfound]

end Reading

section Loading

variable {fs : FileSystem}
variable {path : Option String}
variable {file text : String}
variable {entries : Toml.Entries}

/-- The file that is read: the one that is named, or else the default file. -/
structure IsRead (fs : FileSystem) (path : Option String) (file text : String) : Prop where
  path_getD : path.getD defaultFile = file
  content : fs.readText file = .ok text

theorem IsRead.of_trail
    {trail : FileSystem.Trail}
    (hpath : path.getD defaultFile = file)
    (htrail : fs.trail file = .ok trail)
    (hnode : FileSystem.nodeAt fs.root trail = .file { bytes := Text.toBytes text.toList })
    (htext : ∀ c ∈ text.toList, c.toNat < 0x80) :
    IsRead fs path file text where
  path_getD := hpath
  content := by
    have hbytes : fs.readBytes file = .ok (Text.toBytes text.toList) := by
      rw [FileSystem.readBytes, FileSystem.node_eq_ok_iff.2 ⟨_, htrail, hnode⟩]
      rfl
    rw [FileSystem.readText, hbytes]
    dsimp only
    rw [Text.decode?_of_ascii htext]
    dsimp only
    rw [String.ofList_toList]

theorem pathExists_of_readText
    (h : fs.readText file = .ok text) :
    fs.pathExists file = true := by
  rw [FileSystem.pathExists]
  cases htrail : fs.trail file with
  | ok trail => rfl
  | error fault =>
      simp [FileSystem.readText, FileSystem.readBytes, FileSystem.node, htrail, Except.map] at h

theorem readFile_eq
    (h : fs.readText file = .ok text) :
    readFile fs file =
      match ofText? text with
      | some config => .ok config
      | none => .error (.configInvalid file) := by
  cases hconfig : ofText? text <;> simp only [readFile, h, hconfig]

/-- A file that can be read decides alone what is loaded. -/
theorem IsRead.load_eq
    (h : IsRead fs path file text) :
    load fs path =
      match ofText? text with
      | some config => .ok config
      | none => .error (.configInvalid file) := by
  obtain ⟨rfl, htext⟩ := h
  have hexists := pathExists_of_readText htext
  cases path with
  | none => exact (if_pos hexists).trans (readFile_eq htext)
  | some path => exact (if_pos hexists).trans (readFile_eq htext)

/-- The command line can make what is loaded strict, and changes nothing else. -/
theorem loadConfig_eq
    (host : Host)
    (options : Command.Options) :
    Command.loadConfig host options =
      (load host.files options.config).map fun config =>
        { config with strict := { enabled := config.strict.enabled || options.strict } } := by
  cases hload : load host.files options.config with
  | error fault => simp [Command.loadConfig, hload, Except.map]
  | ok config =>
      cases hstrict : options.strict <;>
        simp [Command.loadConfig, hload, hstrict, tighten, Except.map]

end Loading

section Overrides

/--
A document of a file that is read, whose sections are tables.  If its numbers can be represented and
each setting that it gives has a value of its kind, a configuration is loaded.  A loaded
configuration has the value that the document gives for each setting that it gives, and the default
for every other one.  If some setting has a value of another kind, nothing is loaded, and the file
is named as the one that is no configuration.  Two documents that give the same settings have the
same configuration, in whatever order, and with whatever else they say.  The command line changes
the strictness of what is loaded and nothing else.  Without a file that is named or the default one
the defaults hold; a configuration has no more than its seven settings.  A file that is named and
does not exist is an error, whatever other file there is.
-/
theorem load_overrides_defaults :
    (∀ (fs : FileSystem) (path : Option String) (file text : String) (entries : Toml.Entries),
      IsRead fs path file text →
      Toml.document? text = some entries →
      SectionsAreTables entries →
      (Toml.areIgnorableEntries entries = true →
        (∀ setting value, Gives entries setting value → setting.Fits value) →
        ∃ config, load fs path = .ok config) ∧
      (∀ config, load fs path = .ok config → ∀ setting : Setting,
        (∀ value, Gives entries setting value → setting.value config = value) ∧
        ((∀ value, ¬ Gives entries setting value) →
          setting.value config = setting.default)) ∧
      ((∃ setting value, Gives entries setting value ∧ ¬ setting.Fits value) →
        load fs path = .error (.configInvalid file))) ∧
    (∀ (text text' : String) (entries entries' : Toml.Entries),
      Toml.IsTableOf text entries →
      Toml.IsTableOf text' entries' →
      SectionsAreTables entries →
      SectionsAreTables entries' →
      (∀ setting value, Gives entries setting value ↔ Gives entries' setting value) →
      ofText? text = ofText? text') ∧
    (∀ (host : Host) (options : Command.Options),
      Command.loadConfig host options =
        (load host.files options.config).map fun config =>
          { config with strict := { enabled := config.strict.enabled || options.strict } }) ∧
    (∀ fs : FileSystem, fs.pathExists defaultFile = false → load fs none = .ok {}) ∧
    (∀ setting : Setting, setting.value {} = setting.default) ∧
    (∀ config config' : Config,
      (∀ setting : Setting, setting.value config = setting.value config') → config = config') ∧
    (∀ (fs : FileSystem) (path : String), fs.pathExists path = false →
      load fs (some path) = .error (.configNotFound path)) := by
  refine ⟨?_, ?_, ?_, ?_, Setting.value_defaults, fun _ _ => Setting.ext_value, ?_⟩
  · intro fs path file text entries hread hdocument htables
    have hdistinct := Toml.areDistinct_of_document? hdocument
    have htext : ofText? text = ofEntries? entries := by
      rw [ofText?, hdocument]
      rfl
    have hload := hread.load_eq
    rw [htext] at hload
    refine ⟨fun hnumbers hfits => ?_, fun config hconfig setting => ?_, ?_⟩
    · obtain ⟨config, hconfig⟩ := (exists_ofEntries?_iff htables).2
        ⟨unknownFit_of_areIgnorable hnumbers,
          fun setting value hfound => hfits _ _ ((found?_eq_some_iff hdistinct).1 hfound)⟩
      rw [hconfig] at hload
      exact ⟨config, hload⟩
    · cases hentries : ofEntries? entries with
      | none =>
          rw [hload, hentries] at hconfig
          cases hconfig
      | some found =>
          rw [hload, hentries] at hconfig
          cases hconfig
          have hvalue := ((ofEntries?_eq_some_iff htables).1 hentries).2 setting
          refine ⟨fun value hgives => ?_, fun hgives => ?_⟩
          · rw [hvalue, (found?_eq_some_iff hdistinct).2 hgives]
            rfl
          · cases hfound : found? entries setting with
            | none =>
                rw [hvalue, hfound]
                rfl
            | some value =>
                exact absurd ((found?_eq_some_iff hdistinct).1 hfound) (hgives value)
    · rintro ⟨setting, value, hgives, hwrong⟩
      cases hentries : ofEntries? entries with
      | none =>
          rw [hload, hentries]
      | some config =>
          have hfits := ((exists_ofEntries?_iff htables).1 ⟨config, hentries⟩).2
          exact absurd (hfits _ _ ((found?_eq_some_iff hdistinct).2 hgives)) hwrong
  · intro text text' entries entries' htext htext' htables htables' hgives
    rw [ofText?, ofText?, htext.document_eq, htext'.document_eq]
    exact ofEntries?_eq_of_gives (Toml.areDistinct_of_document? htext.document_eq)
      (Toml.areDistinct_of_document? htext'.document_eq) htables htables'
      (unknownFit_of_areIgnorable htext.numbers_fit)
      (unknownFit_of_areIgnorable htext'.numbers_fit) hgives
  · intro host options
    exact loadConfig_eq host options
  · intro fs habsent
    rw [load, habsent]
    rfl
  · intro fs path habsent
    rw [load, habsent]
    rfl

def partialText : String := "[checks]\nscripts = false\nnew = \x7b a = 'b' \x7d\n"

def partialEntries : Toml.Entries :=
  [("checks", .table .header
    [("scripts", .bool false), ("new", .table .inline [("a", .string "b")])])]

def shuffledText : String := "[strict]\n[checks]\nold = 'c'\nscripts = false\n"

def shuffledEntries : Toml.Entries :=
  [("strict", .table .header []),
    ("checks", .table .header [("old", .string "c"), ("scripts", .bool false)])]

def wrongText : String := "[checks]\nscripts = 'no'\n"

def wrongEntries : Toml.Entries :=
  [("checks", .table .header [("scripts", .string "no")])]

def partialNode : Node := .file { bytes := Text.toBytes partialText.toList }

def wrongNode : Node := .file { bytes := Text.toBytes wrongText.toList }

/-- A default file that gives one setting, and a file with a value of the wrong kind. -/
def twoFiles : FileSystem where
  root := .directory [(defaultFile, partialNode), ("wrong.toml", wrongNode)]
  workingDirectory := []
  ordered := by
    simp only [partialNode, wrongNode, Node.Ordered, Node.OrderedEntries]
    decide

def noFiles : FileSystem where
  root := .directory []
  workingDirectory := []
  ordered := by
    simp [Node.Ordered, Node.OrderedEntries]

theorem isRead_partial : IsRead twoFiles none defaultFile partialText := by
  have hstart : twoFiles.workingTrail = .ok [] := rfl
  have hentry : Node.find? defaultFile
      [(defaultFile, partialNode), ("wrong.toml", wrongNode)] = some partialNode := rfl
  have htrail : twoFiles.trail defaultFile = .ok [(defaultFile, partialNode)] :=
    FileSystem.trail_name hstart rfl (by decide) (by decide) (by decide) hentry
      (fun _ h => nomatch h)
  exact .of_trail rfl htrail rfl (by simp [partialText])

theorem isRead_wrong : IsRead twoFiles (some "/wrong.toml") "/wrong.toml" wrongText := by
  have hjoin : "/wrong.toml" = Path.join "/" "wrong.toml" := by
    decide
  have htrail : twoFiles.trail "/wrong.toml" = .ok [("wrong.toml", wrongNode)] := by
    rw [hjoin]
    exact FileSystem.trail_join (FileSystem.trail_root rfl) rfl (by decide) (by decide)
      (by decide) rfl (fun _ h => nomatch h)
  exact .of_trail rfl htrail rfl (by simp [wrongText])

theorem isTableOf_partial : Toml.IsTableOf partialText partialEntries where
  document_eq := by cbv
  numbers_fit := by decide

theorem isTableOf_shuffled : Toml.IsTableOf shuffledText shuffledEntries where
  document_eq := by cbv
  numbers_fit := by decide

theorem isTableOf_wrong : Toml.IsTableOf wrongText wrongEntries where
  document_eq := by cbv
  numbers_fit := by decide

theorem sectionsAreTables_of_forall
    {entries : Toml.Entries}
    (h : ∀ entry ∈ entries, ∃ origin inner, entry.2 = .table origin inner) :
    SectionsAreTables entries :=
  fun _ _ hmem => h _ hmem

theorem gives_partial_iff
    {setting : Setting}
    {value : Toml} :
    Gives partialEntries setting value ↔ setting = .scripts ∧ value = .bool false := by
  rw [← found?_eq_some_iff (Toml.areDistinct_of_document? isTableOf_partial.document_eq)]
  cases setting <;> simp [found?, sectionOf, partialEntries, Setting.sectionKey, Setting.key,
    List.lookup_cons, eq_comm]

theorem gives_shuffled_iff
    {setting : Setting}
    {value : Toml} :
    Gives shuffledEntries setting value ↔ setting = .scripts ∧ value = .bool false := by
  rw [← found?_eq_some_iff (Toml.areDistinct_of_document? isTableOf_shuffled.document_eq)]
  cases setting <;> simp [found?, sectionOf, shuffledEntries, Setting.sectionKey, Setting.key,
    List.lookup_cons, eq_comm]

/-- The settings of the default file, of another order of it, of a wrong file and of none. -/
theorem load_overridden_files :
    load twoFiles none = .ok { checks := { scripts := false } } ∧
    load twoFiles (some "/wrong.toml") = .error (.configInvalid "/wrong.toml") ∧
    ofText? partialText = ofText? shuffledText ∧
    load noFiles none = .ok {} ∧
    load twoFiles (some "/none.toml") = .error (.configNotFound "/none.toml") := by
  have hpartial : SectionsAreTables partialEntries :=
    sectionsAreTables_of_forall (by simp [partialEntries])
  have hshuffled : SectionsAreTables shuffledEntries :=
    sectionsAreTables_of_forall (by simp [shuffledEntries])
  have hwrong : SectionsAreTables wrongEntries :=
    sectionsAreTables_of_forall (by simp [wrongEntries])
  have hnone : noFiles.pathExists defaultFile = false := by
    have hstart : noFiles.workingTrail = .ok [] := rfl
    have htrail : noFiles.trail defaultFile = .error .notFound :=
      FileSystem.trail_name_of_absent hstart rfl (by decide) (by decide) (by decide) rfl
    rw [FileSystem.pathExists, htrail]
    rfl
  have hmissing : twoFiles.pathExists "/none.toml" = false := by
    have hjoin : "/none.toml" = Path.join "/" "none.toml" := by
      decide
    have htrail : twoFiles.trail "/none.toml" = .error .notFound := by
      rw [hjoin]
      exact FileSystem.trail_join_of_absent (FileSystem.trail_root rfl) rfl (by decide) (by decide)
        (by decide) rfl
    rw [FileSystem.pathExists, htrail]
    rfl
  obtain ⟨hread, hsame, -, hdefaults, -, hknown, habsent⟩ := load_overrides_defaults
  obtain ⟨hloads, hvalues, -⟩ :=
    hread _ _ _ _ _ isRead_partial isTableOf_partial.document_eq hpartial
  obtain ⟨-, -, hrefused⟩ := hread _ _ _ _ _ isRead_wrong isTableOf_wrong.document_eq hwrong
  obtain ⟨config, hconfig⟩ := hloads isTableOf_partial.numbers_fit fun setting value hgives => by
    obtain ⟨rfl, rfl⟩ := gives_partial_iff.1 hgives
    exact ⟨false, rfl⟩
  have hexact : config = { checks := { scripts := false } } := hknown _ _ fun setting => by
    by_cases hscripts : setting = .scripts
    · rw [hscripts]
      exact (hvalues config hconfig .scripts).1 _ (gives_partial_iff.2 ⟨rfl, rfl⟩)
    · have hnone : ∀ value, ¬ Gives partialEntries setting value :=
        fun _ hgives => hscripts (gives_partial_iff.1 hgives).1
      rw [(hvalues config hconfig setting).2 hnone]
      cases setting with
      | scripts => exact absurd rfl hscripts
      | _ => rfl
  refine ⟨by rw [hconfig, hexact], ?_, ?_, hdefaults _ hnone, habsent _ _ hmissing⟩
  · refine hrefused ⟨.scripts, .string "no", ?_, ?_⟩
    · exact ⟨_, _, List.mem_singleton_self _, List.mem_singleton_self _⟩
    · rintro ⟨on, hon⟩
      cases hon
  · refine hsame _ _ _ _ isTableOf_partial isTableOf_shuffled hpartial hshuffled ?_
    intro setting value
    rw [gives_partial_iff, gives_shuffled_iff]

end Overrides

end Config
end SkillAudit

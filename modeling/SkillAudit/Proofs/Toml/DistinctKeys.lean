import Mathlib.Data.List.Nodup
import SkillAudit.Toml.Document

/-!
# The keys of a document

No table of a document has a key twice, however deep it stands in it.  A document is built from
nothing by three kinds of statements, and nested values are built by the same means, so it is enough
that each change of a table keeps this.  A value may then be looked up by its key or found among the
entries, which comes to the same.

* `AreDistinct.changeAt`: a change at the end of a path, by induction on the path.
* `hasDistinctKeys_of_value?`: the values that are read, by induction on the steps of the reader.
* `areDistinct_of_document?`: the entries of a document.
* `AreDistinct.lookup_eq_some_iff`: look-up and membership.
-/

namespace SkillAudit
namespace Toml

/-- No table in the value has a key twice. -/
inductive HasDistinctKeys : Toml → Prop
  | string (value : String) : HasDistinctKeys (.string value)
  | bool (value : Bool) : HasDistinctKeys (.bool value)
  | integer (value : Int) : HasDistinctKeys (.integer value)
  | decimal (value : Decimal) : HasDistinctKeys (.decimal value)
  | special : HasDistinctKeys .special
  | unreadable : HasDistinctKeys .unreadable
  | moment : HasDistinctKeys .moment
  | list
      {items : List Toml}
      (hitems : ∀ item ∈ items, HasDistinctKeys item) :
      HasDistinctKeys (.list items)
  | tables
      {items : List Entries}
      (hkeys : ∀ entries ∈ items, (entries.map (·.1)).Nodup)
      (hvalues : ∀ entries ∈ items, ∀ entry ∈ entries, HasDistinctKeys entry.2) :
      HasDistinctKeys (.tables items)
  | table
      {origin : TableOrigin}
      {entries : Entries}
      (hkeys : (entries.map (·.1)).Nodup)
      (hvalues : ∀ entry ∈ entries, HasDistinctKeys entry.2) :
      HasDistinctKeys (.table origin entries)

/-- No key comes twice among the entries of a table, and neither in any table among its values. -/
structure AreDistinct (entries : Entries) : Prop where
  keys_nodup : (entries.map (·.1)).Nodup
  values : ∀ entry ∈ entries, HasDistinctKeys entry.2

section Entries

variable {entries : Entries}
variable {key : String}
variable {value : Toml}

theorem areDistinct_nil : AreDistinct [] where
  keys_nodup := List.nodup_nil
  values := List.forall_mem_nil _

theorem hasDistinctKeys_table_iff
    {origin : TableOrigin} :
    HasDistinctKeys (.table origin entries) ↔ AreDistinct entries := by
  constructor
  · intro h
    cases h with
    | table hkeys hvalues => exact ⟨hkeys, hvalues⟩
  · rintro ⟨hkeys, hvalues⟩
    exact .table hkeys hvalues

theorem hasDistinctKeys_tables_iff
    {items : List Entries} :
    HasDistinctKeys (.tables items) ↔ ∀ entries ∈ items, AreDistinct entries := by
  constructor
  · intro h
    cases h with
    | tables hkeys hvalues =>
        exact fun entries hentries => ⟨hkeys entries hentries, hvalues entries hentries⟩
  · intro h
    exact .tables (fun entries hentries => (h entries hentries).keys_nodup)
      fun entries hentries => (h entries hentries).values

theorem mem_of_lookup_eq_some
    (h : entries.lookup key = some value) :
    (key, value) ∈ entries := by
  obtain ⟨before, after, rfl, -⟩ := List.lookup_eq_some_iff.1 h
  exact List.mem_append_right _ List.mem_cons_self

theorem not_mem_of_lookup_eq_none
    (h : entries.lookup key = none) :
    key ∉ entries.map (·.1) := by
  rw [List.lookup_eq_none_iff] at h
  intro hmem
  obtain ⟨entry, hentry, rfl⟩ := List.mem_map.1 hmem
  exact absurd (h entry hentry) (by simp)

/-- A value is found under its key exactly if it is among the entries under it. -/
theorem AreDistinct.lookup_eq_some_iff
    (h : AreDistinct entries) :
    entries.lookup key = some value ↔ (key, value) ∈ entries := by
  refine ⟨mem_of_lookup_eq_some, fun hmem => ?_⟩
  cases hlookup : entries.lookup key with
  | none =>
      exact absurd (List.mem_map.2 ⟨_, hmem, rfl⟩) (not_mem_of_lookup_eq_none hlookup)
  | some found =>
      have hfound := mem_of_lookup_eq_some hlookup
      have hsame := List.inj_on_of_nodup_map h.keys_nodup hfound hmem rfl
      exact congrArg some (Prod.ext_iff.1 hsame).2

theorem AreDistinct.of_lookup
    (h : AreDistinct entries)
    (hlookup : entries.lookup key = some value) :
    HasDistinctKeys value :=
  h.values _ (mem_of_lookup_eq_some hlookup)

/-- An entry under a new key may be added. -/
theorem AreDistinct.append
    (h : AreDistinct entries)
    (hkey : entries.lookup key = none)
    (hvalue : HasDistinctKeys value) :
    AreDistinct (entries ++ [(key, value)]) where
  keys_nodup := by
    rw [List.map_append, List.nodup_append]
    refine ⟨h.keys_nodup, List.nodup_singleton _, ?_⟩
    intro other hother k hk
    rw [List.mem_singleton.1 hk]
    exact ne_of_mem_of_not_mem hother (not_mem_of_lookup_eq_none hkey)
  values := by
    intro entry hentry
    rcases List.mem_append.1 hentry with hentry | hentry
    · exact h.values entry hentry
    · rw [List.mem_singleton.1 hentry]
      exact hvalue

theorem keys_replace
    (key : String)
    (value : Toml)
    (entries : Entries) :
    (replace key value entries).map (·.1) = entries.map (·.1) := by
  induction entries with
  | nil =>
      rfl
  | cons entry rest ih =>
      obtain ⟨k, old⟩ := entry
      unfold replace
      split
      · next h =>
          rw [List.map_cons, List.map_cons, h]
      · rw [List.map_cons, List.map_cons, ih]

theorem eq_or_mem_of_mem_replace
    {entry : String × Toml}
    (h : entry ∈ replace key value entries) :
    entry = (key, value) ∨ entry ∈ entries := by
  induction entries with
  | nil =>
      cases h
  | cons first rest ih =>
      obtain ⟨k, old⟩ := first
      unfold replace at h
      split at h
      · exact (List.mem_cons.1 h).imp id (List.mem_cons_of_mem _)
      · rcases List.mem_cons.1 h with rfl | h
        · exact Or.inr List.mem_cons_self
        · exact (ih h).imp id (List.mem_cons_of_mem _)

/-- The value of a key may be replaced. -/
theorem AreDistinct.replace
    (h : AreDistinct entries)
    (key : String)
    (hvalue : HasDistinctKeys value) :
    AreDistinct (replace key value entries) where
  keys_nodup := by
    rw [keys_replace]
    exact h.keys_nodup
  values := by
    intro entry hentry
    rcases eq_or_mem_of_mem_replace hentry with rfl | hentry
    · exact hvalue
    · exact h.values entry hentry

end Entries

section Changes

/-- A change of the entries of a table after which no key comes twice, if none did before. -/
def KeepsDistinct (change : TableOrigin → Entries → Option Entries) : Prop :=
  ∀ origin entries result,
    AreDistinct entries → change origin entries = some result → AreDistinct result

/-- A change at the end of a path keeps the keys of all tables on the way different. -/
theorem KeepsDistinct.changeAt
    {change : TableOrigin → Entries → Option Entries}
    (hchange : KeepsDistinct change)
    (byDots : Bool)
    (path : List String) :
    KeepsDistinct (changeAt byDots change path) := by
  induction path with
  | nil =>
      exact hchange
  | cons key path ih =>
      intro origin entries result h hresult
      rw [Toml.changeAt] at hresult
      split at hresult
      · next hlookup =>
          -- The table is missing and made.
          obtain ⟨inner, hinner, hadd⟩ := Option.bind_eq_some_iff.1 hresult
          cases hadd
          exact h.append hlookup
            (hasDistinctKeys_table_iff.2 (ih _ _ _ areDistinct_nil hinner))
      · next origin' old hlookup =>
          have hold := hasDistinctKeys_table_iff.1 (h.of_lookup hlookup)
          split at hresult
          · obtain ⟨inner, hinner, hreplace⟩ := Option.bind_eq_some_iff.1 hresult
            cases hreplace
            exact h.replace key (hasDistinctKeys_table_iff.2 (ih _ _ _ hold hinner))
          · cases hresult
      · next last before hlookup =>
          have hall := hasDistinctKeys_tables_iff.1 (h.of_lookup hlookup)
          obtain ⟨hlast, hbefore⟩ := List.forall_mem_cons.1 hall
          obtain ⟨inner, hinner, hreplace⟩ := Option.bind_eq_some_iff.1 hresult
          cases hreplace
          exact h.replace key (hasDistinctKeys_tables_iff.2
            (List.forall_mem_cons.2 ⟨ih _ _ _ hlast hinner, hbefore⟩))
      · cases hresult

theorem areDistinct_addNew
    {key : String}
    {value : Toml}
    {entries result : Entries}
    (hvalue : HasDistinctKeys value)
    (h : AreDistinct entries)
    (hresult : addNew key value entries = some result) :
    AreDistinct result := by
  unfold addNew at hresult
  split at hresult
  · next hlookup =>
      cases hresult
      exact h.append hlookup hvalue
  · cases hresult

theorem keepsDistinct_addPair
    {value : Toml}
    (hvalue : HasDistinctKeys value)
    (path : List String)
    (key : String) :
    KeepsDistinct (addPair path key value) := by
  refine KeepsDistinct.changeAt ?_ true path
  intro origin entries result h hresult
  beta_reduce at hresult
  split at hresult
  · exact areDistinct_addNew hvalue h hresult
  · cases hresult

theorem areDistinct_openTable
    {path : List String}
    {key : String}
    {entries result : Entries}
    (h : AreDistinct entries)
    (hresult : openTable path key entries = some result) :
    AreDistinct result := by
  refine KeepsDistinct.changeAt ?_ false path _ _ _ h hresult
  intro origin entries result h hresult
  beta_reduce at hresult
  split at hresult
  · next hlookup =>
      cases hresult
      exact h.append hlookup (hasDistinctKeys_table_iff.2 areDistinct_nil)
  · next inner hlookup =>
      cases hresult
      exact h.replace key (hasDistinctKeys_table_iff.2
        (hasDistinctKeys_table_iff.1 (h.of_lookup hlookup)))
  · cases hresult

theorem areDistinct_openRepeated
    {path : List String}
    {key : String}
    {entries result : Entries}
    (h : AreDistinct entries)
    (hresult : openRepeated path key entries = some result) :
    AreDistinct result := by
  refine KeepsDistinct.changeAt ?_ false path _ _ _ h hresult
  intro origin entries result h hresult
  beta_reduce at hresult
  split at hresult
  · next hlookup =>
      cases hresult
      exact h.append hlookup (hasDistinctKeys_tables_iff.2
        (List.forall_mem_singleton.2 areDistinct_nil))
  · next items hlookup =>
      cases hresult
      exact h.replace key (hasDistinctKeys_tables_iff.2 (List.forall_mem_cons.2
        ⟨areDistinct_nil, hasDistinctKeys_tables_iff.1 (h.of_lookup hlookup)⟩))
  · cases hresult

end Changes

section Reading

/-- A bare word is no list and no table. -/
theorem hasDistinctKeys_of_scalar?
    {word : List Char}
    {value : Toml}
    (h : scalar? word = some value) :
    HasDistinctKeys value := by
  have hloose : ∀ value, looseInteger? word = some value → HasDistinctKeys value := by
    intro value h
    simp only [looseInteger?, Option.ite_none_right_eq_some, Option.some.injEq] at h
    obtain ⟨-, rfl⟩ := h
    split
    · exact .integer _
    · exact .unreadable
  unfold scalar? at h
  split at h
  · cases h
    exact .bool _
  · cases h
    exact .bool _
  · split at h
    · cases h
      exact .special
    · split at h
      · cases h
        exact .moment
      · split at h
        · cases h
          exact .unreadable
        · rw [Option.or_eq_some_iff, Option.or_eq_some_iff, Option.map_eq_some_iff,
            Option.map_eq_some_iff] at h
          rcases h with ⟨n, -, rfl⟩ | ⟨-, ⟨d, -, rfl⟩ | ⟨-, h⟩⟩
          · exact .integer n
          · exact .decimal d
          · exact hloose value h

theorem hasDistinctKeys_of_simpleValue?
    {text rest : List Char}
    {value : Toml}
    (h : simpleValue? text = some (value, rest)) :
    HasDistinctKeys value := by
  have htext : ∀ read : Option (List Char × List Char),
      (read.map fun parts => (Toml.string (String.ofList parts.1), parts.2)) =
        some (value, rest) → HasDistinctKeys value := by
    intro read hread
    obtain ⟨parts, -, hparts⟩ := Option.map_eq_some_iff.1 hread
    cases hparts
    exact .string _
  unfold simpleValue? at h
  split at h
  · exact htext _ h
  · exact htext _ h
  · exact htext _ h
  · exact htext _ h
  · obtain ⟨found, hfound, hparts⟩ := Option.map_eq_some_iff.1 h
    cases hparts
    exact hasDistinctKeys_of_scalar? hfound

mutual

/-- No table in a value that is read has a key twice. -/
theorem hasDistinctKeys_of_value?
    {fuel depth : Nat}
    {text rest : List Char}
    {value : Toml}
    (h : value? fuel depth text = some (value, rest)) :
    HasDistinctKeys value := by
  cases fuel with
  | zero =>
      cases h
  | succ fuel =>
      unfold value? at h
      split at h
      · split at h
        · cases h
        · simp only [Option.bind_eq_bind, Option.bind_eq_some_iff] at h
          obtain ⟨start, -, parts, hitems, hvalue⟩ := h
          cases hvalue
          exact .list (hasDistinctKeys_of_items? hitems)
      · split at h
        · cases h
        · simp only [Option.bind_eq_bind, Option.bind_eq_some_iff] at h
          obtain ⟨start, -, parts, hpairs, hvalue⟩ := h
          cases hvalue
          exact hasDistinctKeys_table_iff.2 (areDistinct_of_pairs? areDistinct_nil hpairs)
      · exact hasDistinctKeys_of_simpleValue? h
termination_by fuel

theorem hasDistinctKeys_of_items?
    {fuel depth : Nat}
    {text rest : List Char}
    {items : List Toml}
    (h : items? fuel depth text = some (items, rest)) :
    ∀ item ∈ items, HasDistinctKeys item := by
  cases fuel with
  | zero =>
      cases h
  | succ fuel =>
      unfold items? at h
      split at h
      · cases h
        exact List.forall_mem_nil _
      · simp only [Option.bind_eq_bind, Option.bind_eq_some_iff] at h
        obtain ⟨first, hfirst, next, -, h⟩ := h
        have hitem := hasDistinctKeys_of_value? hfirst
        split at h
        · simp only [Option.bind_eq_some_iff] at h
          obtain ⟨start, -, parts, hmore, hitems⟩ := h
          cases hitems
          exact List.forall_mem_cons.2 ⟨hitem, hasDistinctKeys_of_items? hmore⟩
        · cases h
          exact List.forall_mem_singleton.2 hitem
        · cases h
termination_by fuel

theorem areDistinct_of_pairs?
    {fuel depth : Nat}
    {text rest : List Char}
    {entries result : Entries}
    (hentries : AreDistinct entries)
    (h : pairs? fuel depth entries text = some (result, rest)) :
    AreDistinct result := by
  cases fuel with
  | zero =>
      cases h
  | succ fuel =>
      unfold pairs? at h
      split at h
      · cases h
        exact hentries
      · simp only [Option.bind_eq_bind, Option.bind_eq_some_iff] at h
        obtain ⟨⟨⟨path, key⟩, afterKey⟩, -, next, -, h⟩ := h
        split at h
        · simp only [Option.bind_eq_some_iff] at h
          obtain ⟨start, -, ⟨value, afterValue⟩, hvalue, added, hadded, next', -, h⟩ := h
          have hvalue := hasDistinctKeys_of_value? hvalue
          have hadded := keepsDistinct_addPair hvalue path key _ _ _ hentries hadded
          split at h
          · simp only [Option.bind_eq_some_iff] at h
            obtain ⟨start', -, hmore⟩ := h
            exact areDistinct_of_pairs? hadded hmore
          · cases h
            exact hadded
          · cases h
        · cases h
termination_by fuel

end

/-- The value of a statement, if it gives one, has no table with a key twice. -/
def Statement.IsDistinct : Statement → Prop
  | .pair _ _ value => HasDistinctKeys value
  | .header _ _ => True
  | .repeated _ _ => True

theorem isDistinct_of_statement?
    {text rest : List Char}
    {statement : Statement}
    (h : statement? text = some (statement, rest)) :
    statement.IsDistinct := by
  unfold statement? at h
  split at h
  · simp only [Option.bind_eq_bind, Option.bind_eq_some_iff] at h
    obtain ⟨parts, -, first, -, second, -, hstatement⟩ := h
    cases hstatement
    trivial
  · simp only [Option.bind_eq_bind, Option.bind_eq_some_iff] at h
    obtain ⟨parts, -, first, -, hstatement⟩ := h
    cases hstatement
    trivial
  · simp only [Option.bind_eq_bind, Option.bind_eq_some_iff] at h
    obtain ⟨parts, -, start, -, ⟨value, after⟩, hvalue, hstatement⟩ := h
    cases hstatement
    exact hasDistinctKeys_of_value? hvalue

theorem isDistinct_of_statements?
    {fuel : Nat}
    {text : List Char}
    {statements : List Statement}
    (h : statements? fuel text = some statements) :
    ∀ statement ∈ statements, statement.IsDistinct := by
  induction fuel generalizing text statements with
  | zero =>
      cases h
  | succ fuel ih =>
      rw [statements?] at h
      simp only [Option.bind_eq_bind, Option.bind_eq_some_iff] at h
      obtain ⟨start, -, h⟩ := h
      split at h
      · cases h
        exact List.forall_mem_nil _
      · simp only [Option.bind_eq_some_iff] at h
        obtain ⟨⟨first, rest⟩, hfirst, next, -, more, hmore, hstatements⟩ := h
        cases hstatements
        exact List.forall_mem_cons.2 ⟨isDistinct_of_statement? hfirst, ih hmore⟩

end Reading

section Documents

/-- One statement keeps the keys of every table of a document different. -/
theorem areDistinct_add
    {draft result : Draft}
    {statement : Statement}
    (hstatement : statement.IsDistinct)
    (h : AreDistinct draft.entries)
    (hresult : draft.add statement = some result) :
    AreDistinct result.entries := by
  cases statement with
  | pair path key value =>
      obtain ⟨entries, hentries, hdraft⟩ := Option.bind_eq_some_iff.1 hresult
      cases hdraft
      exact (keepsDistinct_addPair hstatement path key).changeAt false draft.path _ _ _ h hentries
  | header path key =>
      obtain ⟨entries, hentries, hdraft⟩ := Option.bind_eq_some_iff.1 hresult
      cases hdraft
      exact areDistinct_openTable h hentries
  | repeated path key =>
      obtain ⟨entries, hentries, hdraft⟩ := Option.bind_eq_some_iff.1 hresult
      cases hdraft
      exact areDistinct_openRepeated h hentries

/-- All statements keep the keys of every table of a document different. -/
theorem areDistinct_foldlM_add
    {statements : List Statement}
    {draft result : Draft}
    (hstatements : ∀ statement ∈ statements, statement.IsDistinct)
    (h : AreDistinct draft.entries)
    (hresult : statements.foldlM Draft.add draft = some result) :
    AreDistinct result.entries := by
  induction statements generalizing draft with
  | nil =>
      cases hresult
      exact h
  | cons statement statements ih =>
      rw [List.foldlM_cons] at hresult
      obtain ⟨next, hnext, hresult⟩ := Option.bind_eq_some_iff.1 hresult
      obtain ⟨hstatement, hmore⟩ := List.forall_mem_cons.1 hstatements
      exact ih hmore (areDistinct_add hstatement h hnext) hresult

/-- No table of a document has a key twice. -/
theorem areDistinct_of_document?
    {text : String}
    {entries : Entries}
    (h : document? text = some entries) :
    AreDistinct entries := by
  simp only [document?, Option.bind_eq_bind, Option.bind_eq_some_iff] at h
  obtain ⟨statements, hstatements, draft, hdraft, hentries⟩ := h
  cases hentries
  exact areDistinct_foldlM_add (isDistinct_of_statements? hstatements) areDistinct_nil hdraft

end Documents

end Toml
end SkillAudit

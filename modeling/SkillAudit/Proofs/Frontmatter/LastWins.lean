import Mathlib.Data.Finset.Card
import SkillAudit.Proofs.Frontmatter.RoundTrip

/-!
# Headers as maps

A header has the keys of its insertions in the order in which each came first, and under each key
the field that was inserted last.  The header of a block is that of the insertions of its lines, so
a block behind another one overrides its fields and adds its new keys at the end.

* `keys_ofEntries`, `field?_ofEntries`: keys and fields of a sequence of insertions.
* `keys_ofEntries_append`, `field?_ofEntries_append`: two sequences, one after the other.
* `header_last_wins`: the header of a block.
-/

namespace SkillAudit

namespace Header

section LastWins

/-- The last field of a sequence of insertions under a key. -/
def lastInserted? (key : String) (entries : List (String × Field)) : Option Field :=
  ((entries.filter fun entry => entry.1 == key).getLast?).map (·.2)

theorem lastInserted?_append_singleton
    (key : String)
    (entries : List (String × Field))
    (entry : String × Field) :
    lastInserted? key (entries ++ [entry]) =
      if entry.1 = key then some entry.2 else lastInserted? key entries := by
  rw [lastInserted?, List.filter_append]
  split
  · next h =>
      simp [h]
  · next h =>
      simp [h, lastInserted?]

/-- The keys of a header are the inserted keys, in the order in which each came first. -/
theorem keys_ofEntries
    (entries : List (String × Field)) :
    (ofEntries entries).keys = (entries.map (·.1)).eraseDups := by
  induction entries using List.reverseRecOn with
  | nil =>
      rfl
  | append_singleton entries entry ih =>
      rw [ofEntries_append_singleton, keys_insert, ih, List.map_append, List.eraseDups_append]
      by_cases hkey : entry.1 ∈ entries.map (·.1)
      · rw [if_pos (List.mem_eraseDups.2 hkey)]
        simp [List.removeAll, hkey]
      · rw [if_neg (mt List.mem_eraseDups.1 hkey)]
        simp [List.removeAll, hkey, List.eraseDups_cons]

/-- The field of a key is the one that was inserted last under it. -/
theorem field?_ofEntries
    (entries : List (String × Field))
    (key : String) :
    (ofEntries entries).field? key = lastInserted? key entries := by
  induction entries using List.reverseRecOn with
  | nil =>
      rfl
  | append_singleton entries entry ih =>
      rw [ofEntries_append_singleton, lastInserted?_append_singleton]
      split
      · next h =>
          rw [← h, field?_insert_self]
      · next h =>
          rw [field?_insert_of_ne (Ne.symm h), ih]

theorem mem_keys_ofEntries
    {entries : List (String × Field)}
    {key : String} :
    key ∈ (ofEntries entries).keys ↔ key ∈ entries.map (·.1) := by
  rw [keys_ofEntries, List.mem_eraseDups]

/-- A header has as many keys as different ones were inserted. -/
theorem size_ofEntries
    (entries : List (String × Field)) :
    (ofEntries entries).size = (entries.map (·.1)).toFinset.card := by
  have hkeys : (ofEntries entries).keys.toFinset = (entries.map (·.1)).toFinset :=
    List.toFinset.ext fun key => mem_keys_ofEntries
  rw [← hkeys, List.toFinset_card_of_nodup (nodup_keys_ofEntries entries), keys, List.length_map,
    size]

theorem field?_eq_none_iff
    {header : Header}
    {key : String} :
    header.field? key = none ↔ key ∉ header.keys := by
  rw [field?, List.lookup_eq_none_iff, keys, List.mem_map]
  constructor
  · rintro h ⟨entry, hentry, rfl⟩
    exact absurd (h entry hentry) (by simp)
  · rintro h entry hentry
    rw [bne_iff_ne]
    rintro rfl
    exact h ⟨entry, hentry, rfl⟩

/-- A field is absent exactly if nothing was inserted under its key. -/
theorem field?_ofEntries_eq_none_iff
    {entries : List (String × Field)}
    {key : String} :
    (ofEntries entries).field? key = none ↔ key ∉ entries.map (·.1) := by
  rw [field?_eq_none_iff, mem_keys_ofEntries]

/-- Of two sequences of insertions the second one overrides the fields of the first. -/
theorem field?_ofEntries_append
    (entries more : List (String × Field))
    (key : String) :
    (ofEntries (entries ++ more)).field? key =
      ((ofEntries more).field? key).or ((ofEntries entries).field? key) := by
  simp only [field?_ofEntries, lastInserted?, List.filter_append, List.getLast?_append]
  cases (more.filter fun entry => entry.1 == key).getLast? <;> rfl

/-- The keys that the second of two sequences adds come behind those of the first. -/
theorem keys_ofEntries_append
    (entries more : List (String × Field)) :
    (ofEntries (entries ++ more)).keys =
      (ofEntries entries).keys ++
        (ofEntries more).keys.filter (· ∉ (ofEntries entries).keys) := by
  induction more using List.reverseRecOn with
  | nil =>
      simp [ofEntries, empty, keys]
  | append_singleton more entry ih =>
      rw [← List.append_assoc, ofEntries_append_singleton, ofEntries_append_singleton, keys_insert,
        keys_insert, ih]
      by_cases hfirst : entry.1 ∈ (ofEntries entries).keys
      · rw [if_pos (List.mem_append_left _ hfirst)]
        split
        · rfl
        · rw [List.filter_append, List.filter_cons_of_neg (by simpa using hfirst), List.filter_nil,
            List.append_nil]
      · by_cases hmore : entry.1 ∈ (ofEntries more).keys
        · rw [if_pos hmore, if_pos]
          simp [hmore, hfirst]
        · rw [if_neg hmore, if_neg (by simp [hmore, hfirst]), List.filter_append,
            List.filter_cons_of_pos (by simpa using hfirst), List.filter_nil, List.append_assoc]

end LastWins

end Header

namespace Frontmatter

section LastWins

/-- The lines of a text that ends with a line feed come before those of the text behind it. -/
theorem entries_append
    {front : List Char}
    (hfront : front = [] ∨ front.getLast? = some '\n')
    (back : List Char) :
    entries (front ++ back) = entries front ++ entries back := by
  rw [entries, Text.lines, Text.segments_append hfront, List.map_append, List.filterMap_append]
  rfl

/-- A line contributes nothing exactly if, trimmed, it is blank, a comment or without a colon. -/
theorem entryOf?_eq_none_iff
    {line : List Char} :
    entryOf? line = none ↔
      Text.trim line = [] ∨ (Text.trim line).head? = some '#' ∨ ':' ∉ Text.trim line := by
  constructor
  · intro h
    by_contra hother
    rw [not_or, not_or, not_not] at hother
    obtain ⟨-, hcomment, hcolon⟩ := hother
    obtain ⟨front, back, htext, hfirst⟩ := List.eq_append_cons_of_mem hcolon
    rw [entryOf?_eq_some_iff.2 ⟨front, back, hcomment, htext, hfirst, rfl, rfl⟩] at h
    cases h
  · intro h
    cases hentry : entryOf? line with
    | none => rfl
    | some entry =>
        obtain ⟨front, back, hcomment, htext, -⟩ := entryOf?_eq_some_iff.1 hentry
        rcases h with h | h | h
        · rw [htext] at h
          exact absurd h (by simp)
        · exact absurd h hcomment
        · rw [htext] at h
          exact absurd h (by simp)

/--
The header of a sequence of insertions has each inserted key once, in the order in which they came
first, each with the field that was inserted last; its size is the number of different keys, and an
empty value counts as none.  The header of a block is that of the insertions of its lines: a line
that, trimmed, is not blank, not a comment and has a colon inserts what stands before its first
colon and what stands behind it, both trimmed, and any other line nothing.  So a block that stands
behind another one overrides its fields and adds its own new keys behind the others.
-/
theorem header_last_wins :
    (∀ entries : List (String × Field),
      (Header.ofEntries entries).keys.Nodup ∧
      (Header.ofEntries entries).keys = (entries.map (·.1)).eraseDups ∧
      (Header.ofEntries entries).size = (entries.map (·.1)).toFinset.card ∧
      ∀ key,
        (Header.ofEntries entries).field? key = Header.lastInserted? key entries ∧
        ((Header.ofEntries entries).field? key = none ↔ key ∉ entries.map (·.1)) ∧
        (Header.ofEntries entries).get? key = (Header.lastInserted? key entries).map (·.value) ∧
        ∀ value, (Header.ofEntries entries).nonEmpty? key = some value ↔
          (Header.ofEntries entries).get? key = some value ∧ value ≠ "") ∧
    (∀ block, header block = Header.ofEntries ((Text.lines block).filterMap entryOf?)) ∧
    (∀ line key field, entryOf? line = some (key, field) ↔
      Text.trim line ≠ [] ∧ (Text.trim line).head? ≠ some '#' ∧
      ∃ front back,
        Text.trim line = front ++ ':' :: back ∧ ':' ∉ front ∧
        key = String.ofList (Text.trim front) ∧
        field.raw = String.ofList (Text.trim back) ∧
        field.value = String.ofList (unquote (Text.trim back))) ∧
    (∀ line, entryOf? line = none ↔
      Text.trim line = [] ∨ (Text.trim line).head? = some '#' ∨ ':' ∉ Text.trim line) ∧
    (∀ front back, front = [] ∨ front.getLast? = some '\n' →
      (∀ key, (header (front ++ back)).field? key =
        ((header back).field? key).or ((header front).field? key)) ∧
      (header (front ++ back)).keys =
        (header front).keys ++ (header back).keys.filter (· ∉ (header front).keys)) := by
  refine ⟨?_, fun _ => rfl, ?_, fun _ => entryOf?_eq_none_iff, ?_⟩
  · intro entries
    refine ⟨Header.nodup_keys_ofEntries entries, Header.keys_ofEntries entries,
      Header.size_ofEntries entries, fun key => ⟨Header.field?_ofEntries entries key,
        Header.field?_ofEntries_eq_none_iff, ?_, fun value => ?_⟩⟩
    · rw [Header.get?, Header.field?_ofEntries]
    · rw [Header.nonEmpty?, Option.filter_eq_some_iff, bne_iff_ne]
  · intro line key field
    rw [entryOf?_eq_some_iff]
    constructor
    · rintro ⟨front, back, hcomment, htext, hcolon, rfl, rfl⟩
      exact ⟨by simp [htext], hcomment, front, back, htext, hcolon, rfl, rfl, rfl⟩
    · rintro ⟨-, hcomment, front, back, htext, hcolon, rfl, hraw, hvalue⟩
      obtain ⟨raw, value⟩ := field
      cases hraw
      cases hvalue
      exact ⟨front, back, hcomment, htext, hcolon, rfl, rfl⟩
  · intro front back hfront
    have hentries := entries_append hfront back
    refine ⟨fun key => ?_, ?_⟩
    · rw [header, hentries, Header.field?_ofEntries_append]
      rfl
    · rw [header, hentries, Header.keys_ofEntries_append]
      rfl

/-- A block behind another one overrides the field of one key and adds another key. -/
theorem header_last_wins_two_blocks :
    (header "a: 1\nb: 2\n".toList).keys = ["a", "b"] ∧
    (header ("a: 1\nb: 2\n".toList ++ "c: 3\n# b: 4\na: '5'".toList)).keys = ["a", "b", "c"] ∧
    (header ("a: 1\nb: 2\n".toList ++ "c: 3\n# b: 4\na: '5'".toList)).field? "a" =
      some ⟨"'5'", "5"⟩ := by
  obtain ⟨hfields, hkeys⟩ :=
    header_last_wins.2.2.2.2 "a: 1\nb: 2\n".toList "c: 3\n# b: 4\na: '5'".toList
      (Or.inr (by decide))
  refine ⟨by decide, ?_, ?_⟩
  · rw [hkeys]
    decide
  · rw [hfields]
    decide

end LastWins

end Frontmatter
end SkillAudit

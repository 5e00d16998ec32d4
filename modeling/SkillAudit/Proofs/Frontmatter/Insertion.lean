import Mathlib.Data.List.Induction
import Mathlib.Data.List.Nodup
import SkillAudit.Frontmatter.Header

/-!
# Headers as results of insertions

The header of a sequence of insertions has each key once, and every field in it was inserted under
its key.  When no key comes twice, the header is the sequence.

The proofs follow the sequence from its end: the last insertion acts on the header of the others.
-/

namespace SkillAudit
namespace Header

section Insertion

/-- The last insertion acts on the header of the insertions before it. -/
theorem ofEntries_append_singleton
    (entries : List (String × Field))
    (key : String)
    (field : Field) :
    ofEntries (entries ++ [(key, field)]) = (ofEntries entries).insert key field := by
  simp [ofEntries, List.foldl_append]

theorem fields_insert_of_not_mem
    {header : Header}
    {key : String}
    (hkey : key ∉ header.keys)
    (field : Field) :
    (header.insert key field).fields = header.fields ++ [(key, field)] := by
  obtain ⟨fields⟩ := header
  simp only [insert, keys] at hkey ⊢
  induction fields with
  | nil =>
      rfl
  | cons entry rest ih =>
      obtain ⟨k, old⟩ := entry
      rw [List.map_cons, List.mem_cons, not_or] at hkey
      rw [insertField, if_neg (Ne.symm hkey.1), ih hkey.2, List.cons_append]

theorem eq_or_mem_of_mem_fields_insert
    {header : Header}
    {key : String}
    {field : Field}
    {entry : String × Field}
    (h : entry ∈ (header.insert key field).fields) :
    entry = (key, field) ∨ entry ∈ header.fields := by
  obtain ⟨fields⟩ := header
  simp only [insert] at h ⊢
  induction fields with
  | nil =>
      exact Or.inl (List.mem_singleton.1 h)
  | cons first rest ih =>
      obtain ⟨k, old⟩ := first
      unfold insertField at h
      split at h
      · exact (List.mem_cons.1 h).imp id (List.mem_cons_of_mem _)
      · rcases List.mem_cons.1 h with rfl | h
        · exact Or.inr List.mem_cons_self
        · exact (ih h).imp id (List.mem_cons_of_mem _)

theorem nodup_keys_insert
    {header : Header}
    (h : header.keys.Nodup)
    (key : String)
    (field : Field) :
    (header.insert key field).keys.Nodup := by
  rw [keys_insert]
  split
  · exact h
  · next hkey =>
      refine List.nodup_append.2 ⟨h, List.nodup_singleton key, ?_⟩
      intro other hother k hk
      rw [List.mem_singleton.1 hk]
      exact ne_of_mem_of_not_mem hother hkey

/-- The keys of a header are different. -/
theorem nodup_keys_ofEntries
    (entries : List (String × Field)) :
    (ofEntries entries).keys.Nodup := by
  induction entries using List.reverseRecOn with
  | nil =>
      exact List.nodup_nil
  | append_singleton entries entry ih =>
      rw [ofEntries_append_singleton]
      exact nodup_keys_insert ih entry.1 entry.2

theorem mem_of_mem_fields_ofEntries
    {entries : List (String × Field)}
    {entry : String × Field}
    (h : entry ∈ (ofEntries entries).fields) :
    entry ∈ entries := by
  induction entries using List.reverseRecOn with
  | nil =>
      cases h
  | append_singleton entries last ih =>
      rw [ofEntries_append_singleton] at h
      rw [List.mem_append, List.mem_singleton]
      exact (eq_or_mem_of_mem_fields_insert h).symm.imp ih id

/-- Insertions under different keys are all in the header, in their order. -/
theorem fields_ofEntries_of_nodup
    {entries : List (String × Field)}
    (h : (entries.map (·.1)).Nodup) :
    (ofEntries entries).fields = entries := by
  induction entries using List.reverseRecOn with
  | nil =>
      rfl
  | append_singleton entries entry ih =>
      rw [List.map_append, List.nodup_append] at h
      obtain ⟨hfront, -, hdisjoint⟩ := h
      have hfields := ih hfront
      have hkey : entry.1 ∉ (ofEntries entries).keys := by
        rw [keys, hfields]
        intro hmem
        exact hdisjoint _ hmem _ (List.mem_singleton.2 rfl) rfl
      rw [ofEntries_append_singleton, fields_insert_of_not_mem hkey, hfields]

end Insertion

end Header
end SkillAudit

import Mathlib.Tactic.SplitIfs
import SkillAudit.Text.Utf8

/-!
# The order of texts and of their bytes

Texts are compared character by character.  The bytes of a greater character are greater, at the
first byte where they differ, so that the texts stand in the order of their bytes.

* `utf8EncodeChar_append_lt`: one character, whatever follows it.
* `flatMap_utf8EncodeChar_lt`: characters, by induction on those that both start with.
* `encode_lt_encode`: a text.
-/

namespace SkillAudit
namespace Text
namespace Utf8

section ByteOrder

theorem loop_toList_eq
    (bytes : ByteArray)
    (start : Nat)
    (before : List UInt8) :
    ByteArray.toList.loop bytes start before = before.reverse ++ bytes.data.toList.drop start := by
  fun_induction ByteArray.toList.loop bytes start before with
  | case1 start before hstart ih =>
      have hlength : start < bytes.data.toList.length := by
        simpa using hstart
      rw [ih, List.drop_eq_getElem_cons hlength]
      simp [ByteArray.get!, hstart]
  | case2 start before hstart =>
      have hlength : bytes.data.toList.length ≤ start := by
        simpa using hstart
      rw [List.drop_eq_nil_of_le hlength, List.append_nil]

/-- The bytes of a text are those of its characters, one after another. -/
theorem encode_eq_flatMap
    (text : String) :
    encode text = text.toList.flatMap String.utf8EncodeChar := by
  rw [encode, String.toUTF8_eq_toByteArray, ByteArray.toList, loop_toList_eq, List.reverse_nil,
    List.nil_append, List.drop_zero, ← String.utf8Encode_toList, List.utf8Encode,
    List.toList_data_toByteArray]

theorem ofNat_cons_lt_ofNat_cons_iff
    {a b : Nat}
    (ha : a < 256)
    (hb : b < 256)
    {xs ys : List UInt8} :
    UInt8.ofNat a :: xs < UInt8.ofNat b :: ys ↔ a < b ∨ (a = b ∧ xs < ys) := by
  rw [List.cons_lt_cons_iff, UInt8.lt_iff_toNat_lt, ← UInt8.toNat_inj,
    UInt8.toNat_ofNat_of_lt' ha, UInt8.toNat_ofNat_of_lt' hb]

/-- Of two numbers that are written with four bytes the greater one has the greater bytes. -/
theorem fourBytes_lt
    {m n : Nat}
    (hlt : m < n)
    (hbound : n < 0x110000) :
    m / 262144 % 8 + 240 < n / 262144 % 8 + 240 ∨
      (m / 262144 % 8 + 240 = n / 262144 % 8 + 240 ∧
        (m / 4096 % 64 + 128 < n / 4096 % 64 + 128 ∨
          (m / 4096 % 64 + 128 = n / 4096 % 64 + 128 ∧
            (m / 64 % 64 + 128 < n / 64 % 64 + 128 ∨
              (m / 64 % 64 + 128 = n / 64 % 64 + 128 ∧ m % 64 + 128 < n % 64 + 128))))) := by
  have hfirst : m / 262144 ≤ n / 262144 := Nat.div_le_div_right (Nat.le_of_lt hlt)
  have hsecond : m / 4096 ≤ n / 4096 := Nat.div_le_div_right (Nat.le_of_lt hlt)
  have hthird : m / 64 ≤ n / 64 := Nat.div_le_div_right (Nat.le_of_lt hlt)
  rcases Nat.lt_or_eq_of_le hfirst with hfirst | hfirst
  · left
    omega
  · refine Or.inr ⟨by rw [hfirst], ?_⟩
    rcases Nat.lt_or_eq_of_le hsecond with hsecond | hsecond
    · left
      omega
    · refine Or.inr ⟨by rw [hsecond], ?_⟩
      omega

/-- The bytes of a greater character are greater, whatever follows. -/
theorem utf8EncodeChar_append_lt
    {c d : Char}
    (h : c < d)
    (xs ys : List UInt8) :
    String.utf8EncodeChar c ++ xs < String.utf8EncodeChar d ++ ys := by
  have hlt : c.val.toNat < d.val.toNat := h
  have hbound : d.val.toNat < 0x110000 := by
    rcases d.valid with hvalid | hvalid <;> omega
  unfold String.utf8EncodeChar
  generalize c.val.toNat = m at hlt
  generalize d.val.toNat = n at hlt hbound
  dsimp only
  by_cases hm : m ≤ 65535
  · -- An encoding of more bytes starts with a greater byte.
    split_ifs <;>
      simp (disch := omega) only [List.cons_append, List.nil_append,
        ofNat_cons_lt_ofNat_cons_iff] <;>
      omega
  · rw [if_neg (show ¬ m ≤ 127 by omega), if_neg (show ¬ m ≤ 2047 by omega), if_neg hm,
      if_neg (show ¬ n ≤ 127 by omega), if_neg (show ¬ n ≤ 2047 by omega),
      if_neg (show ¬ n ≤ 65535 by omega)]
    simp (disch := omega) only [List.cons_append, List.nil_append, ofNat_cons_lt_ofNat_cons_iff]
    exact (fourBytes_lt hlt hbound).imp_right <| And.imp_right <| Or.imp_right <|
      And.imp_right <| Or.imp_right <| And.imp_right Or.inl

theorem flatMap_utf8EncodeChar_lt
    {cs ds : List Char}
    (h : cs < ds) :
    cs.flatMap String.utf8EncodeChar < ds.flatMap String.utf8EncodeChar := by
  induction h with
  | @nil d ds =>
      rw [List.flatMap_nil, List.flatMap_cons]
      cases hbytes : String.utf8EncodeChar d with
      | nil => exact absurd hbytes String.utf8EncodeChar_ne_nil
      | cons byte bytes => exact List.nil_lt_cons _ _
  | cons _ ih =>
      rw [List.flatMap_cons, List.flatMap_cons]
      exact List.append_left_lt ih
  | rel hchar =>
      rw [List.flatMap_cons, List.flatMap_cons]
      exact utf8EncodeChar_append_lt hchar _ _

/-- The bytes of a greater text are greater. -/
theorem encode_lt_encode
    {a b : String}
    (h : a < b) :
    encode a < encode b := by
  rw [encode_eq_flatMap, encode_eq_flatMap]
  exact flatMap_utf8EncodeChar_lt (String.lt_iff.1 h)

end ByteOrder

end Utf8
end Text
end SkillAudit

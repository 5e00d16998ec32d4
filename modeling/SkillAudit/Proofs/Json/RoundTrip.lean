import SkillAudit.Json.Printer
import SkillAudit.Json.Reader

/-!
# Reading what was written

The reader takes back every value from its written form, whatever characters its texts hold.  Each
part of the written form is read on its own, in front of any text that may follow it; only a number
has to be followed by something that is not a digit.

* `readText_escaped`: a text inside its quotes, by induction on its characters.
* `readNumber_toDigits`: a number.
* `readValue_write`: a value, its items and its fields, by recursion on the value.
* `ofText?_render`, `ofText?_render_append`: a whole text.
-/

namespace SkillAudit
namespace Json

section Texts

variable {rest : List Char}

/-- Put a character in front of a text that was read. -/
def consRead
    (c : Char)
    (read : List Char × List Char) :
    List Char × List Char :=
  (c :: read.1, read.2)

/-- A character is written by a letter after a backslash, by its number, or as it is. -/
theorem escapeChar_cases
    (c : Char) :
    (∃ letter, escapeChar c = ['\\', letter] ∧ charOfLetter? letter = some c) ∨
    (c.toNat < 0x20 ∧
      escapeChar c = ['\\', 'u', '0', '0', hexDigit (c.toNat / 16), hexDigit (c.toNat % 16)]) ∨
    (c ≠ '"' ∧ c ≠ '\\' ∧ ¬ c.toNat < 0x20 ∧ escapeChar c = [c]) := by
  by_cases hnamed : c ∈ ['"', '\\', '\n', '\r', '\t', '\x08', '\x0c']
  · left
    simp only [List.mem_cons, List.not_mem_nil, or_false] at hnamed
    rcases hnamed with rfl | rfl | rfl | rfl | rfl | rfl | rfl
    · exact ⟨'"', rfl, rfl⟩
    · exact ⟨'\\', rfl, rfl⟩
    · exact ⟨'n', rfl, rfl⟩
    · exact ⟨'r', rfl, rfl⟩
    · exact ⟨'t', rfl, rfl⟩
    · exact ⟨'b', rfl, rfl⟩
    · exact ⟨'f', rfl, rfl⟩
  · simp only [List.mem_cons, List.not_mem_nil, or_false, not_or] at hnamed
    obtain ⟨hquote, hbackslash, hn, hr, ht, hb, hf⟩ := hnamed
    by_cases hcontrol : c.toNat < 0x20
    · refine Or.inr (Or.inl ⟨hcontrol, ?_⟩)
      simp only [escapeChar, hquote, hbackslash, hn, hr, ht, hb, hf, hcontrol, if_false, if_true]
    · refine Or.inr (Or.inr ⟨hquote, hbackslash, hcontrol, ?_⟩)
      simp only [escapeChar, hquote, hbackslash, hn, hr, ht, hb, hf, hcontrol, if_false]

theorem hexValue?_hexDigit
    {n : Nat}
    (hn : n < 16) :
    hexValue? (hexDigit n) = some n := by
  have hall : ∀ n < 16, hexValue? (hexDigit n) = some n := by
    decide
  exact hall n hn

theorem charOfHex?_control
    {c : Char}
    (hc : c.toNat < 0x20) :
    charOfHex? '0' '0' (hexDigit (c.toNat / 16)) (hexDigit (c.toNat % 16)) = some c := by
  have hhigh := hexValue?_hexDigit (n := c.toNat / 16) (by omega)
  have hlow := hexValue?_hexDigit (n := c.toNat % 16) (by omega)
  have hzero : hexValue? '0' = some 0 := by
    decide
  have hvalue : (0 * 16 + 0) * 256 + c.toNat / 16 * 16 + c.toNat % 16 = c.toNat := by
    omega
  have hvalid : c.toNat.isValidChar := c.valid
  simp only [charOfHex?, hzero, hhigh, hlow, Option.bind_eq_bind, Option.bind_some, hvalue]
  rw [if_pos hvalid, Char.ofNat_toNat]

theorem readText_letter
    {letter c : Char}
    (hletter : charOfLetter? letter = some c) :
    readText ('\\' :: letter :: rest) = (readText rest).map (consRead c) := by
  have hu : letter ≠ 'u' := by
    rintro rfl
    cases hletter
  rw [readText, hletter]
  · cases readText rest <;> rfl
  · intro _ _ _ _ _ h
    exact absurd h hu

theorem readText_control
    {c : Char}
    (hc : c.toNat < 0x20) :
    readText ('\\' :: 'u' :: '0' :: '0' :: hexDigit (c.toNat / 16) :: hexDigit (c.toNat % 16) ::
      rest) = (readText rest).map (consRead c) := by
  rw [readText, charOfHex?_control hc]
  cases readText rest <;> rfl

theorem readText_plain
    {c : Char}
    (hquote : c ≠ '"')
    (hbackslash : c ≠ '\\')
    (hcontrol : ¬ c.toNat < 0x20) :
    readText (c :: rest) = (readText rest).map (consRead c) := by
  rw [readText]
  · rw [if_neg (by simp [hbackslash, hcontrol])]
    rfl
  · exact hquote
  · intro _ _ _ _ _ h
    exact absurd h hbackslash
  · intro _ _ h
    exact absurd h hbackslash

/-- A character is read back from the way it is written, whatever follows. -/
theorem readText_escapeChar
    (c : Char) :
    readText (escapeChar c ++ rest) = (readText rest).map (consRead c) := by
  rcases escapeChar_cases c with ⟨letter, hwritten, hletter⟩ | ⟨hcontrol, hwritten⟩ | hplain
  · rw [hwritten]
    exact readText_letter hletter
  · rw [hwritten]
    exact readText_control hcontrol
  · obtain ⟨hquote, hbackslash, hcontrol, hwritten⟩ := hplain
    rw [hwritten]
    exact readText_plain hquote hbackslash hcontrol

/-- The characters of a text are read back up to the quote that closes it. -/
theorem readText_escaped
    (text : List Char) :
    readText (text.flatMap escapeChar ++ '"' :: rest) = some (text, rest) := by
  induction text with
  | nil =>
      rfl
  | cons c text ih =>
      rw [List.flatMap_cons, List.append_assoc, readText_escapeChar, ih]
      rfl

theorem readText_quote
    (text : String) :
    readText ((quote text).tail ++ rest) = some (text.toList, rest) := by
  rw [quote, List.cons_append, List.tail_cons, List.append_assoc]
  exact readText_escaped text.toList

end Texts

section Numbers

variable {rest : List Char}

/-- The text after a number does not go on with a digit. -/
def EndsNumber (rest : List Char) : Prop :=
  ∀ c, rest.head? = some c → c.isDigit = false

/-- The digits of a number do not start with a zero, unless it is the only digit. -/
theorem head?_toDigits_ne_zero
    {n : Nat}
    (hn : 0 < n) :
    (Nat.toDigits 10 n).head? ≠ some '0' := by
  induction n using Nat.strongRecOn with
  | ind n ih =>
      by_cases hsmall : n < 10
      · rw [Nat.toDigits_of_lt_base hsmall]
        simp [Nat.ne_of_gt hn]
      · have hfront := ih (n / 10) (by omega) (by omega)
        obtain ⟨c, digits, hdigits⟩ :=
          List.exists_cons_of_ne_nil (Nat.toDigits_ne_nil (n := n / 10) (b := 10))
        rw [Nat.toDigits_of_base_le (by omega) (by omega), hdigits]
        rw [hdigits] at hfront
        exact hfront

theorem numberOf_toDigits
    (n : Nat) :
    numberOf (Nat.toDigits 10 n) = n := by
  have hfold : numberOf (Nat.toDigits 10 n) = Nat.ofDigitChars 10 (Nat.toDigits 10 n) 0 := by
    simp only [numberOf, Nat.ofDigitChars_eq_foldl, Nat.mul_comm]
  rw [hfold, Nat.ofDigitChars_ten_toDigits]

theorem takeWhile_isDigit
    {digits : List Char}
    (hdigits : ∀ c ∈ digits, c.isDigit = true)
    (hrest : EndsNumber rest) :
    (digits ++ rest).takeWhile Char.isDigit = digits ∧
      (digits ++ rest).dropWhile Char.isDigit = rest := by
  rw [List.takeWhile_append_of_pos hdigits, List.dropWhile_append_of_pos hdigits]
  cases rest with
  | nil =>
      simp
  | cons c rest =>
      have hc := hrest c rfl
      simp [hc]

theorem readNumber_toDigits
    (n : Nat)
    (hrest : EndsNumber rest) :
    readNumber (Nat.toDigits 10 n ++ rest) = some (n, rest) := by
  have hdigits : ∀ c ∈ Nat.toDigits 10 n, c.isDigit = true :=
    fun c hc => Nat.isDigit_of_mem_toDigits (by decide) (by decide) hc
  obtain ⟨htake, hdrop⟩ := takeWhile_isDigit hdigits hrest
  rw [readNumber, htake, hdrop]
  split
  · next hnil =>
      exact absurd hnil Nat.toDigits_ne_nil
  · next c more hzero =>
      -- A zero with more digits behind it is neither zero nor a written number.
      have hpositive : ¬ 0 < n := fun hn => head?_toDigits_ne_zero hn (by rw [hzero]; rfl)
      rw [Nat.eq_zero_of_not_pos hpositive, Nat.toDigits_zero] at hzero
      simp at hzero
  · rw [numberOf_toDigits]

end Numbers

section Spaces

variable {text rest : List Char}

theorem skipSpaces_newLine
    (level : Nat)
    (text : List Char) :
    skipSpaces (newLine level ++ text) = skipSpaces text := by
  have hspaces : ∀ c ∈ newLine level, isSpace c = true := by
    intro c hc
    rcases List.mem_cons.1 hc with rfl | hc
    · rfl
    · rw [List.eq_of_mem_replicate hc]
      rfl
  rw [skipSpaces, List.dropWhile_append_of_pos hspaces]
  rfl

theorem skipSpaces_cons
    {c : Char}
    (hc : isSpace c = false) :
    skipSpaces (c :: rest) = c :: rest := by
  rw [skipSpaces, List.dropWhile_cons, hc]
  rfl

theorem readValue_congr
    (fuel : Nat)
    (hsame : skipSpaces text = skipSpaces rest) :
    readValue fuel text = readValue fuel rest := by
  cases fuel with
  | zero => rfl
  | succ fuel => simp only [readValue, hsame]

theorem readField_congr
    (fuel : Nat)
    (hsame : skipSpaces text = skipSpaces rest) :
    readField fuel text = readField fuel rest := by
  cases fuel with
  | zero => rfl
  | succ fuel => simp only [readField, hsame]

end Spaces

section Parts

variable {fuel level : Nat}
variable {text between rest : List Char}

/-- The text starts with a part of a value, not with a space or the end of a list or an object. -/
def StartsPart (text : List Char) : Prop :=
  ∃ c tail, text = c :: tail ∧ isSpace c = false ∧ c ≠ ']' ∧ c ≠ '}'

theorem StartsPart.skipSpaces_eq
    (hstart : StartsPart text) :
    skipSpaces text = text := by
  obtain ⟨c, tail, rfl, hc, -, -⟩ := hstart
  exact skipSpaces_cons hc

theorem readValue_quote
    (value : String) :
    readValue (fuel + 1) (quote value ++ rest) = some (.text value, rest) := by
  have hquote : quote value ++ rest = '"' :: ((quote value).tail ++ rest) := by
    rfl
  rw [hquote, readValue, skipSpaces_cons (by decide)]
  simp only [readText_quote, Option.map_some, String.ofList_toList]

theorem ne_of_isDigit
    {c d : Char}
    (hc : c.isDigit = true)
    (hd : d.isDigit = false) :
    c ≠ d := by
  rintro rfl
  exact Bool.false_ne_true (hd.symm.trans hc)

theorem exists_toDigits_eq_cons
    (n : Nat) :
    ∃ c digits, Nat.toDigits 10 n = c :: digits ∧ c.isDigit = true ∧ isSpace c = false := by
  obtain ⟨c, digits, hdigits⟩ :=
    List.exists_cons_of_ne_nil (Nat.toDigits_ne_nil (n := n) (b := 10))
  have hc : c.isDigit = true :=
    Nat.isDigit_of_mem_toDigits (b := 10) (by decide) (by decide)
      (hdigits ▸ List.mem_cons_self)
  have hspace : isSpace c = false := by
    simp [isSpace, ne_of_isDigit hc (d := ' ') rfl, ne_of_isDigit hc (d := '\n') rfl,
      ne_of_isDigit hc (d := '\r') rfl, ne_of_isDigit hc (d := '\t') rfl]
  exact ⟨c, digits, hdigits, hc, hspace⟩

theorem readValue_toDigits
    (n : Nat)
    (hrest : EndsNumber rest) :
    readValue (fuel + 1) (Nat.toDigits 10 n ++ rest) = some (.number n, rest) := by
  obtain ⟨c, digits, hdigits, hc, hspace⟩ := exists_toDigits_eq_cons n
  have hnumber := readNumber_toDigits n hrest
  rw [hdigits, List.cons_append] at hnumber ⊢
  rw [readValue, skipSpaces_cons hspace]
  -- A digit starts none of the other values.
  have hother {d : Char} {tail : List Char} (h : c :: (digits ++ rest) = d :: tail)
      (hd : d.isDigit = false) : False :=
    ne_of_isDigit hc hd (List.cons.inj h).1
  split
  · next h => exact (hother h rfl).elim
  · next h => exact (hother h rfl).elim
  · next h => exact (hother h rfl).elim
  · next h => exact (hother h rfl).elim
  · next h => exact (hother h rfl).elim
  · next h => exact (hother h rfl).elim
  · rw [hnumber]
    rfl

theorem readValue_list
    {item : Json}
    {items : List Json}
    (hstart : StartsPart text)
    (hitem : readValue fuel text = some (item, between))
    (hitems : readItems fuel between = some (items, rest)) :
    readValue (fuel + 1) ('[' :: (newLine level ++ text)) =
      some (.list (item :: items), rest) := by
  rw [readValue, skipSpaces_cons (by decide)]
  simp only [skipSpaces_newLine, hstart.skipSpaces_eq]
  obtain ⟨c, tail, rfl, hc, hbracket, -⟩ := hstart
  split
  · next h =>
      exact absurd (List.cons.inj h).1 hbracket
  · rw [hitem]
    simp only [Option.bind_eq_bind, Option.bind_some, hitems]
    rfl

theorem readItems_next
    {item : Json}
    {items : List Json}
    (hitem : readValue fuel text = some (item, between))
    (hitems : readItems fuel between = some (items, rest)) :
    readItems (fuel + 1) (',' :: (newLine level ++ text)) = some (item :: items, rest) := by
  rw [readItems, skipSpaces_cons (by decide)]
  simp only [readValue_congr fuel (skipSpaces_newLine level text), hitem, Option.bind_eq_bind,
    Option.bind_some, hitems]
  rfl

theorem readItems_end :
    readItems (fuel + 1) (newLine level ++ ']' :: rest) = some ([], rest) := by
  rw [readItems, skipSpaces_newLine, skipSpaces_cons (by decide)]
  rfl

theorem readField_quote
    {key : String}
    {value : Json}
    (hvalue : readValue fuel text = some (value, rest)) :
    readField (fuel + 1) (quote key ++ ':' :: ' ' :: text) = some ((key, value), rest) := by
  have hquote : quote key ++ ':' :: ' ' :: text =
      '"' :: ((quote key).tail ++ ':' :: ' ' :: text) := by
    rfl
  have hcolon : skipSpaces (':' :: ' ' :: text) = ':' :: ' ' :: text :=
    skipSpaces_cons (by decide)
  have hblank : skipSpaces (' ' :: text) = skipSpaces text := by
    rfl
  rw [hquote, readField, skipSpaces_cons (by decide)]
  simp only [readText_quote, Option.bind_eq_bind, Option.bind_some, hcolon,
    readValue_congr fuel hblank, hvalue, String.ofList_toList]
  rfl

theorem readValue_object
    {field : String × Json}
    {fields : List (String × Json)}
    (hstart : StartsPart text)
    (hfield : readField fuel text = some (field, between))
    (hfields : readFields fuel between = some (fields, rest)) :
    readValue (fuel + 1) ('{' :: (newLine level ++ text)) =
      some (.object (field :: fields), rest) := by
  rw [readValue, skipSpaces_cons (by decide)]
  simp only [skipSpaces_newLine, hstart.skipSpaces_eq]
  obtain ⟨c, tail, rfl, hc, -, hbrace⟩ := hstart
  split
  · next h =>
      exact absurd (List.cons.inj h).1 hbrace
  · rw [hfield]
    simp only [Option.bind_eq_bind, Option.bind_some, hfields]
    rfl

theorem readFields_next
    {field : String × Json}
    {fields : List (String × Json)}
    (hfield : readField fuel text = some (field, between))
    (hfields : readFields fuel between = some (fields, rest)) :
    readFields (fuel + 1) (',' :: (newLine level ++ text)) = some (field :: fields, rest) := by
  rw [readFields, skipSpaces_cons (by decide)]
  simp only [readField_congr fuel (skipSpaces_newLine level text), hfield, Option.bind_eq_bind,
    Option.bind_some, hfields]
  rfl

theorem readFields_end :
    readFields (fuel + 1) (newLine level ++ '}' :: rest) = some ([], rest) := by
  rw [readFields, skipSpaces_newLine, skipSpaces_cons (by decide)]
  rfl

end Parts

section Values

theorem startsPart_write
    (level : Nat)
    (value : Json)
    (rest : List Char) :
    StartsPart (write level value ++ rest) := by
  cases value with
  | null => exact ⟨'n', _, rfl, by decide⟩
  | bool value =>
      cases value with
      | true => exact ⟨'t', _, rfl, by decide⟩
      | false => exact ⟨'f', _, rfl, by decide⟩
  | number n =>
      obtain ⟨c, digits, hdigits, hc, hspace⟩ := exists_toDigits_eq_cons n
      refine ⟨c, digits ++ rest, ?_, hspace, ne_of_isDigit hc rfl, ne_of_isDigit hc rfl⟩
      rw [write, Nat.toString_eq_ofList_toDigits, String.toList_ofList, hdigits, List.cons_append]
  | text value => exact ⟨'"', _, by rw [write, quote]; rfl, by decide⟩
  | list items =>
      cases items with
      | nil => exact ⟨'[', _, by rw [write]; rfl, by decide⟩
      | cons item items => exact ⟨'[', _, by rw [write]; rfl, by decide⟩
  | object fields =>
      cases fields with
      | nil => exact ⟨'{', _, by rw [write]; rfl, by decide⟩
      | cons field fields => exact ⟨'{', _, by rw [write]; rfl, by decide⟩

theorem startsPart_quote
    (text : String)
    (rest : List Char) :
    StartsPart (quote text ++ rest) :=
  ⟨'"', _, rfl, by decide⟩

theorem endsNumber_cons
    {c : Char}
    (hc : c.isDigit = false)
    (rest : List Char) :
    EndsNumber (c :: rest) := by
  intro d hd
  rw [List.head?_cons, Option.some.injEq] at hd
  rw [← hd, hc]

theorem endsNumber_writeItems
    (level : Nat)
    (items : List Json)
    (rest : List Char) :
    EndsNumber (writeItems level items ++ rest) := by
  cases items with
  | nil =>
      rw [writeItems]
      exact endsNumber_cons rfl _
  | cons item items =>
      rw [writeItems]
      exact endsNumber_cons rfl _

theorem endsNumber_writeFields
    (level : Nat)
    (fields : List (String × Json))
    (rest : List Char) :
    EndsNumber (writeFields level fields ++ rest) := by
  cases fields with
  | nil =>
      rw [writeFields]
      exact endsNumber_cons rfl _
  | cons field fields =>
      rw [writeFields]
      exact endsNumber_cons rfl _

theorem length_newLine
    (level : Nat) :
    (newLine level).length = 2 * level + 1 := by
  simp [newLine]

theorem two_le_length_quote
    (text : String) :
    2 ≤ (quote text).length := by
  simp [quote]

mutual

/-- A value is read back from its written form, and what follows it is left.  Every call that the
reader makes inside takes at least one character more, so the length of the text is fuel enough. -/
theorem readValue_write
    (level fuel : Nat)
    (rest : List Char)
    (hrest : EndsNumber rest) :
    (value : Json) →
      (write level value).length ≤ fuel + 1 →
        readValue (fuel + 1) (write level value ++ rest) = some (value, rest)
  | .null, _ => by
      rfl
  | .bool true, _ => by
      rfl
  | .bool false, _ => by
      rfl
  | .number n, _ => by
      rw [write, Nat.toString_eq_ofList_toDigits, String.toList_ofList]
      exact readValue_toDigits n hrest
  | .text value, _ => by
      rw [write]
      exact readValue_quote value
  | .list [], _ => by
      rw [write]
      rfl
  | .list (item :: items), hfuel => by
      simp only [write, List.cons_append, List.append_assoc, List.length_cons,
        List.length_append, length_newLine] at hfuel ⊢
      obtain ⟨fuel, rfl⟩ : ∃ more, fuel = more + 1 := ⟨fuel - 1, by omega⟩
      have hitem := readValue_write (level + 1) fuel (writeItems level items ++ rest)
        (endsNumber_writeItems level items rest) item (by omega)
      have hitems := readItems_writeItems level fuel rest items (by omega)
      exact readValue_list (startsPart_write _ _ _) hitem hitems
  | .object [], _ => by
      rw [write]
      rfl
  | .object ((key, value) :: fields), hfuel => by
      have hkey := two_le_length_quote key
      simp only [write, List.cons_append, List.append_assoc, List.length_cons,
        List.length_append, length_newLine] at hfuel ⊢
      obtain ⟨fuel, rfl⟩ : ∃ more, fuel = more + 2 := ⟨fuel - 2, by omega⟩
      have hvalue := readValue_write (level + 1) fuel (writeFields level fields ++ rest)
        (endsNumber_writeFields level fields rest) value (by omega)
      have hfields := readFields_writeFields level (fuel + 1) rest fields (by omega)
      exact readValue_object (startsPart_quote _ _) (readField_quote hvalue) hfields

theorem readItems_writeItems
    (level fuel : Nat)
    (rest : List Char) :
    (items : List Json) →
      (writeItems level items).length ≤ fuel + 1 →
        readItems (fuel + 1) (writeItems level items ++ rest) = some (items, rest)
  | [], _ => by
      rw [writeItems, List.append_assoc]
      exact readItems_end
  | item :: items, hfuel => by
      simp only [writeItems, List.cons_append, List.append_assoc, List.length_cons,
        List.length_append, length_newLine] at hfuel ⊢
      obtain ⟨fuel, rfl⟩ : ∃ more, fuel = more + 1 := ⟨fuel - 1, by omega⟩
      have hitem := readValue_write (level + 1) fuel (writeItems level items ++ rest)
        (endsNumber_writeItems level items rest) item (by omega)
      have hitems := readItems_writeItems level fuel rest items (by omega)
      exact readItems_next hitem hitems

theorem readFields_writeFields
    (level fuel : Nat)
    (rest : List Char) :
    (fields : List (String × Json)) →
      (writeFields level fields).length ≤ fuel + 1 →
        readFields (fuel + 1) (writeFields level fields ++ rest) = some (fields, rest)
  | [], _ => by
      rw [writeFields, List.append_assoc]
      exact readFields_end
  | (key, value) :: fields, hfuel => by
      have hkey := two_le_length_quote key
      simp only [writeFields, List.cons_append, List.append_assoc, List.length_cons,
        List.length_append, length_newLine] at hfuel ⊢
      obtain ⟨fuel, rfl⟩ : ∃ more, fuel = more + 2 := ⟨fuel - 2, by omega⟩
      have hvalue := readValue_write (level + 1) fuel (writeFields level fields ++ rest)
        (endsNumber_writeFields level fields rest) value (by omega)
      have hfields := readFields_writeFields level (fuel + 1) rest fields (by omega)
      exact readFields_next (readField_quote hvalue) hfields

end

/-- The written form of a value is read back as that value, with or without blanks behind it. -/
theorem ofText?_render_append
    (value : Json)
    {blanks : String}
    (hends : EndsNumber blanks.toList)
    (hblanks : skipSpaces blanks.toList = []) :
    ofText? (value.render ++ blanks) = some value := by
  have hfuel : (write 0 value).length ≤
      2 * ((write 0 value).length + blanks.toList.length) + 1 := by
    omega
  have hread := readValue_write 0 _ blanks.toList hends value hfuel
  rw [ofText?, render, ← String.length_toList, String.toList_append, String.toList_ofList,
    List.length_append, hread]
  dsimp only
  rw [hblanks]
  rfl

theorem ofText?_render
    (value : Json) :
    ofText? value.render = some value := by
  have hread := @ofText?_render_append value "" (fun _ h => by cases h) rfl
  rwa [String.append_empty] at hread

end Values

end Json
end SkillAudit

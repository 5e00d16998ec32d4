import SkillAudit.Text.Utf8

/-!
# Texts of bytes

What programs read and print is bytes, not text.  A byte is written here as a character below 256,
so that bytes can be taken apart like any other text.
-/

namespace SkillAudit
namespace Text

/-- The characters of bytes. -/
def ofBytes (bytes : List UInt8) : List Char :=
  bytes.map fun b => Char.ofNat b.toNat

/-- The bytes of characters. -/
def toBytes (text : List Char) : List UInt8 :=
  text.map fun c => UInt8.ofNat c.toNat

/-- The text that bytes are shown as. -/
def shown (text : List Char) : String :=
  Utf8.decodeLenient (toBytes text)

/-- The bytes of a text. -/
def bytesOf (text : String) : List Char :=
  ofBytes (Utf8.encode text)

/-- A character below 256 keeps its number. -/
theorem toNat_ofNat_byte :
    ∀ n : Fin 256, (Char.ofNat n.val).toNat = n.val := by
  decide +kernel

/-- Bytes are the same after they were characters. -/
@[simp] theorem toBytes_ofBytes
    (bytes : List UInt8) :
    toBytes (ofBytes bytes) = bytes := by
  induction bytes with
  | nil =>
      rfl
  | cons b rest ih =>
      have same := toNat_ofNat_byte ⟨b.toNat, b.toNat_lt⟩
      simp only [toBytes, ofBytes, List.map_cons] at ih ⊢
      rw [ih, same, UInt8.ofNat_toNat]

section Ascii

variable {text : List Char}

/-- The bytes of characters below 128 are these characters, one by one. -/
theorem pieces_toBytes
    (h : ∀ c ∈ text, c.toNat < 0x80) :
    Utf8.pieces (toBytes text) = text.map .scalar := by
  have hbyte : ∀ c ∈ text, (UInt8.ofNat c.toNat).toNat = c.toNat := fun c hc =>
    UInt8.toNat_ofNat_of_lt' (Nat.lt_trans (h c hc) (by decide))
  have hascii : ∀ b ∈ toBytes text, b < 0x80 := by
    intro b hb
    obtain ⟨c, hc, rfl⟩ := List.mem_map.1 hb
    rw [UInt8.lt_iff_toNat_lt, hbyte c hc]
    exact h c hc
  rw [Utf8.pieces_of_ascii hascii, toBytes, List.map_map]
  exact List.map_congr_left fun c hc => by
    simp only [Function.comp_apply, hbyte c hc, Char.ofNat_toNat]

/-- Characters below 128 are shown as they are. -/
theorem shown_of_ascii
    (h : ∀ c ∈ text, c.toNat < 0x80) :
    shown text = String.ofList text := by
  rw [shown, Utf8.decodeLenient, pieces_toBytes h, List.map_map]
  exact congrArg String.ofList (List.map_id text)

/-- Characters below 128 are read as they are. -/
theorem decode?_of_ascii
    (h : ∀ c ∈ text, c.toNat < 0x80) :
    Utf8.decode? (toBytes text) = some (String.ofList text) := by
  have hwell : (text.map Utf8.Piece.scalar).contains .malformed = false := by
    simp
  rw [Utf8.decode?, pieces_toBytes h]
  simp only [hwell, List.filterMap_map]
  exact congrArg (fun chars => some (String.ofList chars)) (List.filterMap_some)

end Ascii

end Text
end SkillAudit

/-!
# Reading bytes as text

UTF-8 is read unit by unit.  A unit is a well-formed character, or a malformed run: the longest
start of a well-formed character that the bytes have at this place, and at least one byte.  Lenient
reading shows each malformed run as one replacement character; strict reading refuses them.
-/

namespace SkillAudit
namespace Text
namespace Utf8

/-- One step of reading: a character, or a malformed run. -/
inductive Piece where
  | scalar (c : Char)
  | malformed
  deriving DecidableEq, Repr

/-- A byte that continues a character. -/
def isContinuation (b : UInt8) : Bool :=
  0x80 ≤ b && b ≤ 0xBF

/-- How many bytes follow a leading byte, with the range allowed for the first of them. -/
structure Lead where
  following : Nat
  low : UInt8
  high : UInt8

/-- The leading bytes of the characters beyond ASCII. -/
def lead? (b : UInt8) : Option Lead :=
  if 0xC2 ≤ b && b ≤ 0xDF then some ⟨1, 0x80, 0xBF⟩
  else if b == 0xE0 then some ⟨2, 0xA0, 0xBF⟩
  else if b == 0xED then some ⟨2, 0x80, 0x9F⟩
  else if 0xE1 ≤ b && b ≤ 0xEF then some ⟨2, 0x80, 0xBF⟩
  else if b == 0xF0 then some ⟨3, 0x90, 0xBF⟩
  else if 0xF1 ≤ b && b ≤ 0xF3 then some ⟨3, 0x80, 0xBF⟩
  else if b == 0xF4 then some ⟨3, 0x80, 0x8F⟩
  else none

/-- The payload of a leading byte with the given number of following bytes. -/
def leadBits (following : Nat) (b : UInt8) : Nat :=
  match following with
  | 1 => b.toNat % 0x20
  | 2 => b.toNat % 0x10
  | _ => b.toNat % 0x08

/-- Read the continuation bytes that are still missing; the rest starts where reading stopped. -/
def readContinuation : Nat → Nat → List UInt8 → Piece × List UInt8
  | 0, value, bytes => (.scalar (Char.ofNat value), bytes)
  | _ + 1, _, [] => (.malformed, [])
  | missing + 1, value, b :: bytes =>
      if isContinuation b then
        readContinuation missing (value * 0x40 + b.toNat % 0x40) bytes
      else
        (.malformed, b :: bytes)

/-- The piece that starts with this byte, and the bytes after it. -/
def readPiece (b : UInt8) (bytes : List UInt8) : Piece × List UInt8 :=
  if b < 0x80 then
    (.scalar (Char.ofNat b.toNat), bytes)
  else
    match lead? b, bytes with
    | some lead, next :: rest =>
        if lead.low ≤ next && next ≤ lead.high then
          readContinuation (lead.following - 1)
            (leadBits lead.following b * 0x40 + next.toNat % 0x40) rest
        else
          (.malformed, bytes)
    | _, _ => (.malformed, bytes)

/-- Reading continuation bytes never adds any. -/
theorem length_readContinuation_le
    (missing value : Nat)
    (bytes : List UInt8) :
    (readContinuation missing value bytes).2.length ≤ bytes.length := by
  induction missing generalizing value bytes with
  | zero =>
      simp [readContinuation]
  | succ missing ih =>
      cases bytes with
      | nil =>
          simp [readContinuation]
      | cons b bytes =>
          unfold readContinuation
          split
          · exact Nat.le_succ_of_le (ih _ bytes)
          · simp

/-- A piece never adds bytes. -/
theorem length_readPiece_le
    (b : UInt8)
    (bytes : List UInt8) :
    (readPiece b bytes).2.length ≤ bytes.length := by
  unfold readPiece
  split
  · simp
  · split
    · split
      · exact Nat.le_succ_of_le (length_readContinuation_le _ _ _)
      · simp
    · simp

/-- The pieces of a byte sequence, in order. -/
def pieces : List UInt8 → List Piece
  | [] => []
  | b :: bytes =>
      (readPiece b bytes).1 :: pieces (readPiece b bytes).2
  termination_by bytes => bytes.length
  decreasing_by
    have := length_readPiece_le b bytes
    simp only [List.length_cons]
    omega

/-- Bytes below 128 are characters, one by one. -/
theorem pieces_of_ascii
    {bytes : List UInt8}
    (h : ∀ b ∈ bytes, b < 0x80) :
    pieces bytes = bytes.map fun b => .scalar (Char.ofNat b.toNat) := by
  induction bytes with
  | nil =>
      rw [pieces, List.map_nil]
  | cons b rest ih =>
      obtain ⟨hb, hrest⟩ := List.forall_mem_cons.1 h
      have hpiece : readPiece b rest = (.scalar (Char.ofNat b.toNat), rest) := by
        simp only [readPiece, hb, if_true]
      rw [pieces, hpiece, ih hrest, List.map_cons]

/-- Lenient reading: a malformed run becomes one replacement character. -/
def decodeLenient (bytes : List UInt8) : String :=
  String.ofList <| (pieces bytes).map fun
    | .scalar c => c
    | .malformed => Char.ofNat 0xFFFD

/-- Strict reading: nothing malformed is accepted. -/
def decode? (bytes : List UInt8) : Option String :=
  let read := pieces bytes
  if read.contains .malformed then
    none
  else
    some <| String.ofList <| read.filterMap fun
      | .scalar c => some c
      | .malformed => none

/-- The bytes of a text. -/
def encode (text : String) : List UInt8 :=
  text.toUTF8.toList

end Utf8
end Text
end SkillAudit

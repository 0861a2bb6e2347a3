import Dce.Lib.Text

/-!
# Texts and their bytes

Encoding a text in UTF-8, reading it back, and what a decoder says of bytes that
are no text. A byte sequence is invalid from the first byte that neither begins
nor continues a character.
-/

namespace Dce

namespace Text

/-- The bytes of a text. -/
def toBytes (text : Str) : ByteArray := (String.ofList text).toByteArray

/-- The text that the bytes encode. -/
def fromUtf8 (bytes : ByteArray) : Option Str := bytes.utf8Decode?.map Array.toList

/-- The ranges of the bytes that may follow the first byte of a character. -/
def tails (first : UInt8) : Option (List (UInt8 × UInt8)) :=
  if first ≤ 0x7F then some []
  else if 0xC2 ≤ first ∧ first ≤ 0xDF then some [(0x80, 0xBF)]
  else if first = 0xE0 then some [(0xA0, 0xBF), (0x80, 0xBF)]
  else if first = 0xED then some [(0x80, 0x9F), (0x80, 0xBF)]
  else if 0xE1 ≤ first ∧ first ≤ 0xEF then some [(0x80, 0xBF), (0x80, 0xBF)]
  else if first = 0xF0 then some [(0x90, 0xBF), (0x80, 0xBF), (0x80, 0xBF)]
  else if 0xF1 ≤ first ∧ first ≤ 0xF3 then some [(0x80, 0xBF), (0x80, 0xBF), (0x80, 0xBF)]
  else if first = 0xF4 then some [(0x80, 0x8F), (0x80, 0xBF), (0x80, 0xBF)]
  else none

/-- Where the valid bytes end, and how many bytes from there on are invalid; `none` where the
input ends inside a character. -/
structure Utf8Error where
  validUpTo : Nat
  errorLen : Option Nat
  deriving DecidableEq, Repr

/-- Read the rest of a character: the number of its bytes in `.ok`, or of the invalid ones. -/
def readTails : List (UInt8 × UInt8) → List UInt8 → Nat → Except (Option Nat) Nat
  | [], _, size => .ok size
  | _ :: _, [], _ => .error none
  | (low, high) :: ranges, byte :: bytes, size =>
      if low ≤ byte ∧ byte ≤ high then readTails ranges bytes (size + 1)
        else .error (some size)

/-- The first error of a byte sequence of at most `fuel` characters. -/
def utf8Error : Nat → List UInt8 → Nat → Utf8Error
  | fuel + 1, first :: bytes, position =>
      match (tails first).elim (.error (some 1)) (readTails · bytes 1) with
      | .ok size => utf8Error fuel (bytes.drop (size - 1)) (position + size)
      | .error errorLen => ⟨position, errorLen⟩
  | _, _, position => ⟨position, none⟩

def utf8ErrorOf (bytes : ByteArray) : Utf8Error := utf8Error bytes.size bytes.toList 0

def Utf8Error.message (error : Utf8Error) : Str :=
  match error.errorLen with
  | some errorLen =>
      "invalid utf-8 sequence of ".toList ++ (toString errorLen).toList ++
        " bytes from index ".toList ++ (toString error.validUpTo).toList
  | none =>
      "incomplete utf-8 byte sequence from index ".toList ++ (toString error.validUpTo).toList

/-- The text of the bytes, with a replacement character for each invalid sequence. -/
def fromUtf8Lossy : Nat → ByteArray → Str
  | 0, _ => []
  | fuel + 1, bytes =>
      match fromUtf8 bytes with
      | some text => text
      | none =>
          let error := utf8ErrorOf bytes
          let valid := (fromUtf8 (bytes.extract 0 error.validUpTo)).getD []
          let rest := error.errorLen.map (error.validUpTo + ·)
          valid ++ '\uFFFD' ::
            fromUtf8Lossy fuel (bytes.extract (rest.getD bytes.size) bytes.size)

theorem fromUtf8_toBytes (text : Str) : fromUtf8 (toBytes text) = some text := by
  simp [fromUtf8, toBytes, List.utf8Decode?_utf8Encode]

theorem toBytes_of_fromUtf8 {bytes : ByteArray} {text : Str} (read : fromUtf8 bytes = some text) :
    toBytes text = bytes := by
  rcases Option.map_eq_some_iff.mp read with ⟨chars, decoded, rfl⟩
  have isSome : bytes.utf8Decode?.isSome := by rw [decoded]; rfl
  have encoded := ByteArray.utf8Encode_get_utf8Decode? (b := bytes) (h := isSome)
  simpa [toBytes, decoded] using encoded

theorem toBytes_append (left right : Str) :
    toBytes (left ++ right) = toBytes left ++ toBytes right := by
  simp [toBytes]

theorem prefix_of_bytes {piece text : Str} {after : ByteArray}
    (eq : toBytes piece ++ after = toBytes text) : piece <+: text :=
  List.isPrefix_of_utf8Encode_append_eq_utf8Encode after eq

/-- The bytes of a piece stand only where the piece stands: its first byte does not continue a
character. -/
theorem infix_of_bytes {piece text : Str} {before after : ByteArray} (nonempty : piece ≠ [])
    (eq : before ++ (toBytes piece ++ after) = toBytes text) : piece <:+: text := by
  have valid : (String.Pos.Raw.mk before.size).IsValid (String.ofList text) := by
    cases piece with
    | nil => exact absurd rfl nonempty
    | cons c piece =>
        have encoded : toBytes (c :: piece) = [c].utf8Encode ++ toBytes piece := by
          simp [toBytes, ← List.utf8Encode_append]
        have size : (toBytes text).size =
            before.size + ((toBytes (c :: piece)).size + after.size) := by
          rw [← eq, ByteArray.size_append, ByteArray.size_append]
        have positive : 0 < [c].utf8Encode.size := by
          rw [List.utf8Encode_singleton]
          simp [c.utf8Size_pos]
        rw [encoded, ByteArray.size_append] at size
        have within : before.size < (toBytes text).size := by omega
        rw [String.Pos.Raw.isValid_iff_isUTF8FirstByte]
        refine .inr ⟨within, ?_⟩
        change (toBytes text)[before.size].IsUTF8FirstByte
        simp only [← eq, encoded, ByteArray.append_assoc]
        rw [ByteArray.getElem_append_right (Nat.le_refl _)]
        rw [ByteArray.getElem_append_left (by simpa using positive)]
        simp [List.isUTF8FirstByte_getElem_utf8Encode_singleton]
  rcases String.Pos.Raw.isValid_iff_exists_append.mp valid with ⟨left, right, joined, position⟩
  have bytes : before ++ (toBytes piece ++ after) = left.toByteArray ++ right.toByteArray := by
    rw [eq, toBytes, joined, String.toByteArray_append]
  have sizes : before.size = left.toByteArray.size := congrArg String.Pos.Raw.byteIdx position
  have same := ByteArray.append_inj_left bytes sizes
  rw [same, ByteArray.append_right_inj] at bytes
  have rest : toBytes piece ++ after = toBytes right.toList := by
    rw [bytes, toBytes, String.ofList_toList]
  have whole : text = left.toList ++ right.toList := by
    have chars := congrArg String.toList joined
    rwa [String.toList_ofList, String.toList_append] at chars
  rw [whole]
  exact (prefix_of_bytes rest).isInfix.trans (List.suffix_append _ _).isInfix

end Text

end Dce

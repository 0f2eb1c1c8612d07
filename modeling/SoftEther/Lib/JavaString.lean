import Mathlib.Data.List.DropRight

namespace SoftEther.Lib

/-!
# Strings of the Java platform

A string is a list of UTF-16 code units. Comparison is `compare` on these lists: unit by unit,
then by length.

* `JavaString.isWhitespace`, `JavaString.isDigit` — what Kotlin's functions on `Char` say;
* `JavaString.trim`, `JavaString.isBlank` — the ends of a string.
-/

/-- A `String`: any list of code units, unpaired surrogates included. -/
abbrev JavaString := List UInt16

instance : LawfulBEq JavaString := inferInstance

namespace JavaString

/-- A text of the Basic Multilingual Plane, such as a literal of the source. -/
def ofChars (cs : List Char) : JavaString := cs.map fun c => c.toNat.toUInt16

/-- `Char.isWhitespace`: the space separators and the white-space controls. -/
def isWhitespace (c : UInt16) : Bool :=
  (0x09 ≤ c && c ≤ 0x0D) || (0x1C ≤ c && c ≤ 0x20) || c == 0xA0 || c == 0x1680 ||
    (0x2000 ≤ c && c ≤ 0x200A) || c == 0x2028 || c == 0x2029 || c == 0x202F || c == 0x205F ||
    c == 0x3000

/-- The zeros of the decimal digits, ten in a row each. -/
def digitZeros : List UInt16 :=
  [0x0030, 0x0660, 0x06F0, 0x07C0, 0x0966, 0x09E6, 0x0A66, 0x0AE6, 0x0B66, 0x0BE6, 0x0C66, 0x0CE6,
   0x0D66, 0x0DE6, 0x0E50, 0x0ED0, 0x0F20, 0x1040, 0x1090, 0x17E0, 0x1810, 0x1946, 0x19D0, 0x1A80,
   0x1A90, 0x1B50, 0x1BB0, 0x1C40, 0x1C50, 0xA620, 0xA8D0, 0xA900, 0xA9D0, 0xA9F0, 0xAA50, 0xABF0,
   0xFF10]

/-- `Char.isDigit`. -/
def isDigit (c : UInt16) : Bool := digitZeros.any fun zero => zero ≤ c && c ≤ zero + 9

/-- `trim`. -/
def trim (s : JavaString) : JavaString := (s.dropWhile isWhitespace).rdropWhile isWhitespace

/-- `isBlank`. -/
def isBlank (s : JavaString) : Bool := s.all isWhitespace

/-- `isNullOrBlank`. -/
def isNullOrBlank : Option JavaString → Bool
  | none => true
  | some s => s.isBlank

end JavaString

end SoftEther.Lib

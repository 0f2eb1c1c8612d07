import SoftEther.Lib.Json

namespace SoftEther.Persistence

open Lib

/-!
# What the stores use of Gson and of the JVM

* `Jvm`, `Gson` — what the two decide of texts, and what is relied on;
* `intValue`, `longValue` — a number of a payload is kept as its literal, and narrowed to a machine
  integer when it is asked for;
* `Kind` — the types of the members, `Kind.read` and `Kind.write` — their type adapters;
* `Kind.read_of_holds` — a member is read as what it stands for.
-/

/-- A text, as its characters. -/
abbrev Text := List Char

/-! ### The libraries -/

/-- The exceptions that the stores catch, or do not. -/
inductive RuntimeException
  | jsonParse (message : Text)
  | numberFormat (message : Text)
  | nullPointer
  | other (message : Text)
  deriving DecidableEq

/-- `message`, as a template writes it. -/
def RuntimeException.message : RuntimeException → Text
  | .jsonParse m | .numberFormat m | .other m => m
  | .nullPointer => "null".toList

/-- **The JVM**, by its tables of characters. -/
structure Jvm where
  isWhitespace : Char → Bool
  uppercase : Text → Text
  /-- `Integer.parseInt`, whose digits are those of any script. -/
  parseInt : Text → Option Int32
  /-- `Long.parseLong`. -/
  parseLong : Text → Option Int64
  isWhitespace_upper : ∀ c, 65 ≤ c.toNat → c.toNat ≤ 90 → isWhitespace c = false
  uppercase_upper : ∀ s, (∀ c ∈ s, 65 ≤ c.toNat ∧ c.toNat ≤ 90) → uppercase s = s

/-- **Gson**, by what it reads and writes. -/
structure Gson where
  /-- `JsonParser.parseString`. -/
  parseString : Text → Except RuntimeException Json
  /-- The text that `toJson` writes for a tree. -/
  toJson : Json → Text
  /-- What `fromJson` says of a tree that does not fit. -/
  rejected : Json → Text
  /-- A tree of integers that is not nested deeper than the reader allows is read again. -/
  parse_toJson : ∀ e, Json.Within 255 e → parseString (toJson e) = .ok e

/-! ### Numbers -/

def fitsInt (z : ℤ) : Bool := -2147483648 ≤ z && z ≤ 2147483647

def fitsLong (z : ℤ) : Bool := -9223372036854775808 ≤ z && z ≤ 9223372036854775807

/-- `NumberLimits.parseBigDecimal`. -/
def asBigDecimal (literal : Text) : Option Decimal :=
  if 10000 < literal.length then none
  else (Decimal.parse literal).filter fun d => d.scale.natAbs < 10000

/-- `LazilyParsedNumber.intValue`: what is no `Int` is narrowed. -/
def intValue (literal : Text) : Option Int32 :=
  match (Decimal.integer literal).filter fitsInt with
  | some v => some (Int32.ofInt v)
  | none =>
    match (Decimal.integer literal).filter fitsLong with
    | some v => some (Int32.ofInt v)
    | none => (asBigDecimal literal).map fun d => Int32.ofInt d.truncate

/-- `LazilyParsedNumber.longValue`. -/
def longValue (literal : Text) : Option Int64 :=
  match (Decimal.integer literal).filter fitsLong with
  | some v => some (Int64.ofInt v)
  | none => (asBigDecimal literal).map fun d => Int64.ofInt d.truncate

/-- **The number of a payload is this integer.** -/
def Exactly (literal : Text) (n : ℤ) : Prop := ∃ d, Decimal.parse literal = some d ∧ d.Is n

theorem intValue_of_integer {literal : Text} {v : Int32}
    (h : Decimal.integer literal = some v.toInt) : intValue literal = some v := by
  have hlow := v.le_toInt
  have hhigh := v.toInt_lt
  have hfits : fitsInt v.toInt = true := by
    simp only [fitsInt, Bool.and_eq_true, decide_eq_true_eq]
    omega
  unfold intValue
  rw [h, Option.filter_some, if_pos hfits]
  simp only [Int32.ofInt_toInt]

theorem longValue_of_integer {literal : Text} {v : Int64}
    (h : Decimal.integer literal = some v.toInt) : longValue literal = some v := by
  have hlow := v.le_toInt
  have hhigh := v.toInt_lt
  have hfits : fitsLong v.toInt = true := by
    simp only [fitsLong, Bool.and_eq_true, decide_eq_true_eq]
    omega
  unfold longValue
  rw [h, Option.filter_some, if_pos hfits]
  simp only [Int64.ofInt_toInt]

/-! ### The members of a class -/

/-- The types of the members; a source of a port is a text that is never missing. -/
inductive Kind
  | int | long | text | source | flag
  deriving DecidableEq

namespace Kind

/-- The values of a property. -/
abbrev Value : Kind → Type
  | int => Int32
  | long => Int64
  | text => Option Text
  | source => Text
  | flag => Bool

/-- The values of a member of a class that Gson builds: it puts a null in a `String`, too. -/
abbrev Stored : Kind → Type
  | int => Int32
  | long => Int64
  | text => Option Text
  | source => Option Text
  | flag => Bool

/-- The type adapters. None is an exception; where the value is missing, a null has left the member
as it was. -/
def read (jvm : Jvm) : (k : Kind) → Json → Option (Option k.Stored)
  | int, .null => some none
  | int, .number literal => (intValue literal).map some
  | int, .string s => (jvm.parseInt s).map some
  | int, _ => none
  | long, .null => some none
  | long, .number literal => (longValue literal).map some
  | long, .string s => (jvm.parseLong s).map some
  | long, _ => none
  | text, e => readText e
  | source, e => readText e
  | flag, .null => some none
  | flag, .boolean b => some (some b)
  | flag, .string s => some (some (s.map Char.toUpper = "TRUE".toList))
  | flag, _ => none
where
  readText : Json → Option (Option (Option Text))
    | .null => some (some none)
    | .boolean b => some (some (some (if b then "true".toList else "false".toList)))
    | .number literal => some (some (some literal))
    | .string s => some (some (some s))
    | _ => none

/-- What is written of a member; a null is omitted. -/
def write : (k : Kind) → k.Stored → Option Json
  | int, v => some (.number (Decimal.text v.toInt))
  | long, v => some (.number (Decimal.text v.toInt))
  | text, v => v.map .string
  | source, v => v.map .string
  | flag, v => some (.boolean v)

/-- **What a member stands for**: an integer for the integer of its literal, a text for itself, a
null for no text. -/
def Holds : (k : Kind) → Json → k.Stored → Prop
  | int, .number literal, v => Decimal.integer literal = some v.toInt
  | long, .number literal, v => Decimal.integer literal = some v.toInt
  | text, .string s, v => v = some s
  | text, .null, v => v = none
  | source, .string s, v => v = some s
  | source, .null, v => v = none
  | flag, .boolean b, v => v = b
  | _, _, _ => False

variable {jvm : Jvm}

theorem read_of_holds {k : Kind} {e : Json} {v : k.Stored} (h : k.Holds e v) :
    k.read jvm e = some (some v) := by
  cases k with
  | int =>
    cases e with
    | number literal => exact congrArg (Option.map some) (intValue_of_integer h)
    | _ => exact h.elim
  | long =>
    cases e with
    | number literal => exact congrArg (Option.map some) (longValue_of_integer h)
    | _ => exact h.elim
  | text =>
    cases e with
    | string s => exact congrArg (some ∘ some) (Eq.symm h)
    | null => exact congrArg (some ∘ some) (Eq.symm h)
    | _ => exact h.elim
  | source =>
    cases e with
    | string s => exact congrArg (some ∘ some) (Eq.symm h)
    | null => exact congrArg (some ∘ some) (Eq.symm h)
    | _ => exact h.elim
  | flag =>
    cases e with
    | boolean b => exact congrArg (some ∘ some) (Eq.symm h)
    | _ => exact h.elim

/-- What is written of a value stands for it. -/
theorem holds_of_write {k : Kind} {v : k.Stored} {e : Json} (h : k.write v = some e) :
    k.Holds e v := by
  cases k with
  | int =>
    obtain rfl := Option.some.inj h
    exact Decimal.integer_text _
  | long =>
    obtain rfl := Option.some.inj h
    exact Decimal.integer_text _
  | text =>
    obtain ⟨s, hs, rfl⟩ := Option.map_eq_some_iff.mp h
    exact hs
  | source =>
    obtain ⟨s, hs, rfl⟩ := Option.map_eq_some_iff.mp h
    exact hs
  | flag =>
    obtain rfl := Option.some.inj h
    rfl

/-- What is written is no deeper than a number. -/
theorem within_of_write {k : Kind} {v : k.Stored} {e : Json} (h : k.write v = some e) (n : ℕ) :
    Json.Within n e := by
  cases k with
  | int =>
    obtain rfl := Option.some.inj h
    have hlong : ∃ z : Int64, Decimal.text v.toInt = Decimal.text z.toInt := by
      refine ⟨v.toInt64, by rw [Int32.toInt_toInt64]⟩
    cases n <;> exact hlong
  | long =>
    obtain rfl := Option.some.inj h
    cases n <;> exact ⟨v, rfl⟩
  | text =>
    obtain ⟨s, -, rfl⟩ := Option.map_eq_some_iff.mp h
    cases n <;> trivial
  | source =>
    obtain ⟨s, -, rfl⟩ := Option.map_eq_some_iff.mp h
    cases n <;> trivial
  | flag =>
    obtain rfl := Option.some.inj h
    cases n <;> trivial

end Kind

/-! ### Texts of ASCII, without blanks -/

theorem toUpper_upper {c : Char} (hlow : 65 ≤ c.toNat) (hhigh : c.toNat ≤ 90) : c.toUpper = c := by
  have hall : ∀ n < 91, 65 ≤ n → (Char.ofNat n).toUpper = Char.ofNat n := by decide
  have hc := hall c.toNat (by omega) hlow
  rwa [Char.ofNat_toNat] at hc

/-- The JVM on ASCII. -/
def Jvm.ascii : Jvm where
  isWhitespace c := (9 ≤ c.toNat && c.toNat ≤ 13) || (28 ≤ c.toNat && c.toNat ≤ 32)
  uppercase s := s.map Char.toUpper
  parseInt s := ((Decimal.integer s).filter fitsInt).map Int32.ofInt
  parseLong s := ((Decimal.integer s).filter fitsLong).map Int64.ofInt
  isWhitespace_upper c hlow hhigh := by
    simp only [Bool.or_eq_false_iff, Bool.and_eq_false_iff, decide_eq_false_iff_not]
    omega
  uppercase_upper s hs := by
    have hmap := List.map_congr_left fun c hc => toUpper_upper (hs c hc).1 (hs c hc).2
    exact hmap.trans (List.map_id'' (fun _ => rfl) s)

/-- Gson on texts without blanks. -/
def Gson.compact : Gson where
  parseString s :=
    match Json.parse s with
    | some e => .ok e
    | none => .error (.jsonParse [])
  toJson := Json.print
  rejected _ := []
  parse_toJson e h := by rw [Json.parse_print h]

end SoftEther.Persistence

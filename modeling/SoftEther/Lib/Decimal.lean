import Mathlib.Algebra.Order.Ring.Int
import Mathlib.Data.List.TakeWhile

namespace SoftEther.Lib

/-!
# Decimal numbers and their texts

* `Decimal.integer` — what an integer literal stands for; `Decimal.text` writes one;
* `integer_text` — it is read as it was written;
* `Decimal.parse` — a literal with a fraction and an exponent, as an integer and a scale;
* `Decimal.truncate`, `Decimal.Is` — its integral part, and that it is an integer exactly.
-/

/-- `unscaled` divided by ten to the power of `scale`. -/
structure Decimal where
  unscaled : ℤ
  scale : ℤ
  deriving DecidableEq

namespace Decimal

/-! ### Integers -/

/-- A non-empty run of digits. -/
def digits (s : List Char) : Option ℕ :=
  if s ≠ [] ∧ s.all Char.isDigit then some (Nat.ofDigitChars 10 s 0) else none

/-- Digits with a sign in front of them, perhaps. -/
def integer (s : List Char) : Option ℤ :=
  if s.head? = some '-' then (digits (s.drop 1)).map fun n : ℕ => -(n : ℤ)
  else if s.head? = some '+' then (digits (s.drop 1)).map Int.ofNat
  else (digits s).map Int.ofNat

/-- The literal of an integer. -/
def text (z : ℤ) : List Char :=
  if z < 0 then '-' :: Nat.toDigits 10 z.natAbs else Nat.toDigits 10 z.natAbs

theorem isDigit_of_mem {n : ℕ} {c : Char} (h : c ∈ Nat.toDigits 10 n) : c.isDigit = true :=
  Nat.isDigit_of_mem_toDigits (by decide) (by decide) h

theorem digits_toDigits (n : ℕ) : digits (Nat.toDigits 10 n) = some n := by
  have hall : (Nat.toDigits 10 n).all Char.isDigit = true :=
    List.all_eq_true.mpr fun c hc => isDigit_of_mem hc
  rw [digits, if_pos ⟨Nat.toDigits_ne_nil, hall⟩, Nat.ofDigitChars_ten_toDigits]

/-- The digits do not start with a sign. -/
theorem head?_toDigits_ne {n : ℕ} {c : Char} (h : c.isDigit = false) :
    (Nat.toDigits 10 n).head? ≠ some c := by
  intro hhead
  have hdigit := isDigit_of_mem (List.mem_of_head? hhead)
  rw [h] at hdigit
  exact absurd hdigit (by decide)

/-- **A literal stands for the integer that it was written for.** -/
theorem integer_text (z : ℤ) : integer (text z) = some z := by
  unfold text
  split_ifs with hz
  · rw [integer, if_pos (List.head?_cons ..)]
    show (digits (Nat.toDigits 10 z.natAbs)).map _ = _
    rw [digits_toDigits, Option.map_some]
    congr 1
    omega
  · rw [integer, if_neg (head?_toDigits_ne (by decide)), if_neg (head?_toDigits_ne (by decide)),
      digits_toDigits, Option.map_some]
    congr 1
    show ((z.natAbs : ℕ) : ℤ) = z
    omega

theorem text_ne_nil (z : ℤ) : text z ≠ [] := by
  unfold text
  split_ifs
  · exact List.cons_ne_nil _ _
  · exact Nat.toDigits_ne_nil

theorem of_mem_text {z : ℤ} {c : Char} (h : c ∈ text z) : c = '-' ∨ c.isDigit = true := by
  unfold text at h
  split_ifs at h
  · exact (List.mem_cons.mp h).imp_right isDigit_of_mem
  · exact Or.inr (isDigit_of_mem h)

/-! ### Fractions and exponents -/

/-- The mark of an exponent. -/
def isExponentMark (c : Char) : Bool := c = 'e' || c = 'E'

/-- A literal, of which the digits behind the point and the exponent are optional. -/
def parse (s : List Char) : Option Decimal :=
  let mantissa := s.takeWhile (!isExponentMark ·)
  let whole := mantissa.takeWhile (· ≠ '.')
  let fraction := (mantissa.dropWhile (· ≠ '.')).drop 1
  let mark := s.dropWhile (!isExponentMark ·)
  match integer (whole ++ fraction), if mark = [] then some 0 else integer (mark.drop 1) with
  | some unscaled, some exponent => some ⟨unscaled, fraction.length - exponent⟩
  | _, _ => none

/-- The integral part. -/
def truncate (d : Decimal) : ℤ :=
  if 0 ≤ d.scale then d.unscaled.tdiv (10 ^ d.scale.toNat)
  else d.unscaled * 10 ^ (-d.scale).toNat

/-- The number is this integer. -/
def Is (d : Decimal) (n : ℤ) : Prop :=
  d.unscaled * 10 ^ (-d.scale).toNat = n * 10 ^ d.scale.toNat

instance (d : Decimal) (n : ℤ) : Decidable (d.Is n) := by
  unfold Is
  infer_instance

end Decimal

end SoftEther.Lib

import Mathlib.Data.List.Basic
import Mathlib.Tactic.Ring

namespace SoftEther.Lib

/-!
# Big-endian fields

* `beBytes n v` — the low `n` bytes of `v`, most significant first;
* `beVal` — the number a list of bytes stands for;
* `takeBytes` — read a field of `n` bytes from the front of a buffer, or fail.

`beVal_beBytes` is the round trip and `takeBytes_append` reads back a field that was
written in front of a buffer.
-/

/-- The low `n` bytes of `v`, most significant first. -/
def beBytes : ℕ → ℕ → List UInt8
  | 0, _ => []
  | n + 1, v => UInt8.ofNat (v / 256 ^ n) :: beBytes n v

/-- The number a list of bytes stands for. -/
def beVal : List UInt8 → ℕ
  | [] => 0
  | b :: l => b.toNat * 256 ^ l.length + beVal l

@[simp] theorem beBytes_length (n v : ℕ) : (beBytes n v).length = n := by
  induction n with
  | zero => rfl
  | succ n ih => rw [beBytes, List.length_cons, ih]

/-- **Round trip**, up to the width of the field. -/
theorem beVal_beBytes (n v : ℕ) : beVal (beBytes n v) = v % 256 ^ n := by
  induction n with
  | zero => rw [pow_zero, Nat.mod_one, beBytes, beVal]
  | succ n ih =>
    have hbyte : (UInt8.ofNat (v / 256 ^ n)).toNat = v / 256 ^ n % 256 := by
      rw [UInt8.toNat_ofNat']
    rw [beBytes, beVal, hbyte, ih, beBytes_length, Nat.mod_pow_succ]
    ring

/-- A number that fits the field comes back. -/
theorem beVal_beBytes_of_lt {n v : ℕ} (h : v < 256 ^ n) : beVal (beBytes n v) = v := by
  rw [beVal_beBytes, Nat.mod_eq_of_lt h]

/-- The bytes of a field bound its value. -/
theorem beVal_lt (l : List UInt8) : beVal l < 256 ^ l.length := by
  induction l with
  | nil => exact Nat.zero_lt_one
  | cons b l ih =>
    have hb : b.toNat + 1 ≤ 256 := b.toNat_lt
    have hle := Nat.mul_le_mul_right (256 ^ l.length) hb
    rw [beVal, List.length_cons, pow_succ, Nat.mul_comm (256 ^ l.length)]
    rw [Nat.add_mul, Nat.one_mul] at hle
    omega

/-- Read `n` bytes from the front of a buffer. -/
def takeBytes (n : ℕ) (buf : List UInt8) : Option (List UInt8 × List UInt8) :=
  if buf.length < n then none else some (buf.take n, buf.drop n)

/-- A field written in front of a buffer is read back. -/
theorem takeBytes_append {n : ℕ} {field : List UInt8} (h : field.length = n)
    (rest : List UInt8) : takeBytes n (field ++ rest) = some (field, rest) := by
  subst h
  rw [takeBytes, if_neg (by rw [List.length_append]; omega), List.take_left, List.drop_left]

end SoftEther.Lib

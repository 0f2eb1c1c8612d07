import Mathlib.Data.List.Basic

namespace SoftEther.Crypto

/-!
# RC4 (`rc4_crypt`, `crypto/aes_wrapper.c`)

The cipher adds a key stream to the data that depends on the key only, so encrypting
twice gives the data back (`rc4Crypt_rc4Crypt`).
-/

/-- The permutation and the two indices, which are 8-bit in the source as well. -/
structure Rc4State where
  sbox : UInt8 → UInt8
  i : UInt8
  j : UInt8

/-- Exchange two entries. -/
def swapBox (sbox : UInt8 → UInt8) (i j : UInt8) : UInt8 → UInt8 :=
  fun k => if k = i then sbox j else if k = j then sbox i else sbox k

/-- One round of the key schedule. -/
def rc4Mix (key : List UInt8) (s : Rc4State) (n : ℕ) : Rc4State :=
  let i := UInt8.ofNat n
  let j := s.j + s.sbox i + key.getD (n % key.length) 0
  { sbox := swapBox s.sbox i j, i := i, j := j }

/-- The key schedule; the generator starts with both indices 0. -/
def rc4Schedule (key : List UInt8) : Rc4State :=
  let s := (List.range 256).foldl (rc4Mix key) { sbox := id, i := 0, j := 0 }
  { sbox := s.sbox, i := 0, j := 0 }

/-- One round of the generator: the next state and the byte of the key stream. -/
def rc4Next (s : Rc4State) : Rc4State × UInt8 :=
  let i := s.i + 1
  let j := s.j + s.sbox i
  let sbox := swapBox s.sbox i j
  ({ sbox := sbox, i := i, j := j }, sbox (sbox i + sbox j))

/-- Add the key stream to the data. -/
def rc4Loop : Rc4State → List UInt8 → List UInt8
  | _, [] => []
  | s, b :: data => (b ^^^ (rc4Next s).2) :: rc4Loop (rc4Next s).1 data

/-- `rc4_crypt`. -/
def rc4Crypt (key data : List UInt8) : List UInt8 :=
  if key.length = 0 then data else rc4Loop (rc4Schedule key) data

@[simp] theorem rc4Loop_length (s : Rc4State) (data : List UInt8) :
    (rc4Loop s data).length = data.length := by
  induction data generalizing s with
  | nil => rfl
  | cons b data ih => rw [rc4Loop, List.length_cons, List.length_cons, ih]

theorem rc4Loop_rc4Loop (s : Rc4State) (data : List UInt8) :
    rc4Loop s (rc4Loop s data) = data := by
  induction data generalizing s with
  | nil => rfl
  | cons b data ih =>
    rw [rc4Loop, rc4Loop, ih, UInt8.xor_assoc, UInt8.xor_self, UInt8.xor_zero]

@[simp] theorem rc4Crypt_length (key data : List UInt8) :
    (rc4Crypt key data).length = data.length := by
  unfold rc4Crypt
  split
  · rfl
  · exact rc4Loop_length _ _

/-- **Round trip.** -/
theorem rc4Crypt_rc4Crypt (key data : List UInt8) :
    rc4Crypt key (rc4Crypt key data) = data := by
  unfold rc4Crypt
  split
  · rfl
  · exact rc4Loop_rc4Loop _ _

end SoftEther.Crypto

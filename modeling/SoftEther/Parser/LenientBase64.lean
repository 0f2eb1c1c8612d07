import SoftEther.Lib.Base64
import SoftEther.Parser.EmergencyRow

namespace SoftEther.Parser.OpenVpnConfigParser

open Lib

/-!
# The lenient decoder of Base64 (`OpenVpnConfigParser.decodeBase64`)

The loop shifts six bits at a time into an `Int` that is never masked, and a shift to the right
brings its sign down. Only the low bits are written, and these are right. What can go wrong is the
list for the bytes: its capacity is computed as an `Int` as well.

* `KotlinString` — a text that a `String` can hold;
* `decodeBase64_eq_collect` — the loop collects the groups of its characters;
* `decodeBase64_encode` — what Base64 writes comes back;
* `decodeBase64OrNull_encode` — the result, for every text whose characters of the alphabet encode
  the bytes;
* `decodeBase64_returns_iff` — the bytes come back unless there are from 512 MiB to 1 GiB of them.
-/

/-- A text of a `String`, whose length is an `Int`. -/
abbrev KotlinString := { text : List Char // text.length < 2 ^ 31 }

/-! ### The loop -/

theorem toNat_shift_or (x : BitVec 32) {s : ℕ} (hs : s < 64) :
    ((x <<< 6) ||| BitVec.ofNat 32 s).toNat = (x.toNat * 64 + s) % 2 ^ 32 := by
  have hor : x.toNat <<< 6 ||| s = x.toNat * 64 + s := by
    rw [← Nat.shiftLeft_add_eq_or_of_lt (by omega), Nat.shiftLeft_eq]
  rw [BitVec.toNat_or, BitVec.toNat_shiftLeft, BitVec.toNat_ofNat, ← Nat.or_mod_two_pow, hor]

theorem toNat_byte (x : BitVec 32) {k : ℕ} (hk : k ≤ 24) :
    ((x.sshiftRight k).setWidth 8).toNat = x.toNat / 2 ^ k % 256 := by
  have hshift : (x.sshiftRight k).setWidth 8 = (x >>> k).setWidth 8 := by
    -- the sign fills bits above the byte
    ext i hi
    have hlow : k + i < 32 := by omega
    have hin : i < 32 := by omega
    simp [BitVec.getElem_sshiftRight, hlow, hin]
  rw [hshift, BitVec.toNat_setWidth, BitVec.toNat_ushiftRight, Nat.shiftRight_eq_div_pow]

/-- **The loop** collects the groups of its characters; of the buffer it knows the low bits. -/
theorem decodeBase64_eq_collect {cs : List Char} (hcs : ∀ c ∈ cs, c ∈ ALPHABET)
    (buffer : BitVec 32) (n bits : ℕ) (hbuffer : buffer.toNat = n % 2 ^ 32) (hbits : bits < 8) :
    decodeBase64 buffer bits cs = Base64.collect n bits (cs.map ALPHABET.idxOf) := by
  induction cs generalizing buffer n bits with
  | nil => rfl
  | cons c cs ih =>
    have hrest := ih fun c hc => hcs c (List.mem_cons_of_mem _ hc)
    have hgroup : ALPHABET.idxOf c < 64 := List.idxOf_lt_length_of_mem (hcs c List.mem_cons_self)
    have hnext := toNat_shift_or buffer hgroup
    rw [hbuffer] at hnext
    have hnext' : ((buffer <<< 6) ||| BitVec.ofNat 32 (ALPHABET.idxOf c)).toNat =
        (n * 64 + ALPHABET.idxOf c) % 2 ^ 32 := by
      omega
    rw [List.map_cons, decodeBase64, Base64.collect]
    split_ifs with hfull
    · rw [hrest _ _ _ hnext' (by omega)]
      congr 1
      apply UInt8.toNat_inj.mp
      have hbyte := toNat_byte ((buffer <<< 6) ||| BitVec.ofNat 32 (ALPHABET.idxOf c))
        (show bits + 6 - 8 ≤ 24 by omega)
      rw [UInt8.toNat_ofBitVec, hbyte, hnext', UInt8.toNat_ofNat']
      -- what the buffer lost lies above the byte
      obtain rfl | rfl | rfl | rfl | rfl | rfl : bits = 2 ∨ bits = 3 ∨ bits = 4 ∨ bits = 5 ∨
          bits = 6 ∨ bits = 7 := by omega
      all_goals omega
    · exact hrest _ _ _ hnext' (by omega)

/-- The groups come back from the characters. -/
theorem indices_encode (bytes : List UInt8) :
    ((Base64.encode bytes).filter (· ∈ ALPHABET)).map ALPHABET.idxOf = Base64.sextets bytes :=
  Base64.indices_encode bytes

/-- **What Base64 writes** comes back. -/
theorem decodeBase64_encode (bytes : List UInt8) :
    decodeBase64 0 0 ((Base64.encode bytes).filter (· ∈ ALPHABET)) = bytes := by
  have hmem : ∀ c ∈ (Base64.encode bytes).filter (· ∈ ALPHABET), c ∈ ALPHABET := fun c hc =>
    of_decide_eq_true (List.mem_filter.mp hc).2
  rw [decodeBase64_eq_collect hmem 0 0 0 rfl (by omega), indices_encode, Base64.collect_sextets]

/-! ### The whole function -/

theorem tdiv_four_neg_iff (r : ℤ) : r.tdiv 4 < 0 ↔ r ≤ -4 := by
  have hsign : Int.sign 4 = 1 := rfl
  rw [Int.tdiv_eq_ediv]
  split_ifs with h
  · omega
  · omega

/-- The product wraps at most once for a text of a `String`. -/
theorem capacity_neg_iff {n : ℕ} (hn : n < 2 ^ 31) :
    capacity n < 0 ↔ 715827883 ≤ n ∧ n ≤ 1431655764 := by
  have hmod : (2 ^ 32 : ℕ) = 4294967296 := by simp
  have hwraps : (n : ℤ) * 3 / 4294967296 = 0 ∨ (n : ℤ) * 3 / 4294967296 = 1 := by omega
  unfold capacity
  rw [tdiv_four_neg_iff, hmod]
  simp only [Int.bmod_def]
  rcases hwraps with hnone | honce
  · split_ifs with hlow
    · omega
    · omega
  · split_ifs with hlow
    · omega
    · omega

/-- **The result** for a text whose characters of the alphabet encode the bytes. -/
theorem decodeBase64OrNull_encode {bytes : List UInt8} {input : KotlinString}
    (h : Base64.Interspersed (· ∉ ALPHABET) (Base64.encode bytes) input.val) :
    decodeBase64OrNull input.val =
      if bytes.length < 2 ^ 29 ∨ 2 ^ 30 ≤ bytes.length then some bytes else none := by
  have hchars : input.val.filter (· ∈ ALPHABET) = (Base64.encode bytes).filter (· ∈ ALPHABET) :=
    h.filter_eq fun c hc => decide_eq_false hc
  have hlength : (input.val.filter (· ∈ ALPHABET)).length = (4 * bytes.length + 2) / 3 := by
    rw [hchars, ← Base64.length_sextets, ← indices_encode, List.length_map]
  have hshort : (input.val.filter (· ∈ ALPHABET)).length < 2 ^ 31 :=
    (List.length_filter_le _ _).trans_lt input.property
  have hneg := capacity_neg_iff hshort
  have hloop : decodeBase64 0 0 (input.val.filter (· ∈ ALPHABET)) = bytes := by
    rw [hchars, decodeBase64_encode]
  have hcase : capacity (input.val.filter (· ∈ ALPHABET)).length < 0 ↔
      ¬ (bytes.length < 2 ^ 29 ∨ 2 ^ 30 ≤ bytes.length) := by
    rw [hneg, hlength]
    omega
  rw [decodeBase64OrNull, hloop]
  by_cases hfits : bytes.length < 2 ^ 29 ∨ 2 ^ 30 ≤ bytes.length
  · rw [if_neg (fun h => hcase.mp h hfits), if_pos hfits]
  · rw [if_pos (hcase.mpr hfits), if_neg hfits]

/-- **The bytes come back** exactly when there are fewer than 512 MiB of them, or at least 1 GiB:
    in between the capacity is negative. -/
theorem decodeBase64_returns_iff (bytes : List UInt8) (input : KotlinString)
    (h : Base64.Interspersed (· ∉ ALPHABET) (Base64.encode bytes) input.val) :
    decodeBase64OrNull input.val = some bytes ↔ bytes.length < 2 ^ 29 ∨ 2 ^ 30 ≤ bytes.length := by
  rw [decodeBase64OrNull_encode h]
  split_ifs with hfits
  · exact iff_of_true rfl hfits
  · exact iff_of_false nofun hfits

/-- `"SGk="` with a line break in it. -/
theorem decodeBase64_returns_greeting :
    decodeBase64OrNull ['S', 'G', '\n', 'k', '='] = some [0x48, 0x69] :=
  (decodeBase64_returns_iff [0x48, 0x69] ⟨['S', 'G', '\n', 'k', '='], by decide⟩
    (.keep 'S' (.keep 'G' (.insert (by decide) (.keep 'k' (.keep '=' .nil)))))).mpr
    (Or.inl (by decide))

/-- 512 MiB of zeros. -/
def zeros : List UInt8 := List.replicate (2 ^ 29) 0

theorem length_zeros : zeros.length = 2 ^ 29 := List.length_replicate

/-- Their encoding is a text of a `String`. -/
theorem length_encode_zeros : (Base64.encode zeros).length < 2 ^ 31 := by
  have hlength := length_zeros
  rw [Base64.encode, List.length_append, List.length_map, Base64.length_sextets,
    List.length_replicate]
  omega

/-- **Bytes that do not come back.** -/
theorem decodeBase64_loses_bytes :
    ¬ ∀ (bytes : List UInt8) (input : KotlinString),
      Base64.Interspersed (· ∉ ALPHABET) (Base64.encode bytes) input.val →
        decodeBase64OrNull input.val = some bytes := by
  intro hall
  have hreturns := hall zeros ⟨Base64.encode zeros, length_encode_zeros⟩ (.refl _)
  have hlength := length_zeros
  rw [decodeBase64OrNull_encode (.refl _), if_neg (by omega)] at hreturns
  cases hreturns

end SoftEther.Parser.OpenVpnConfigParser

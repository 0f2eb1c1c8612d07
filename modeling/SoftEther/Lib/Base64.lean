import Mathlib.Algebra.Group.Nat.Defs
import Mathlib.Data.List.GetD
import Mathlib.Data.List.Nodup

namespace SoftEther.Lib.Base64

/-!
# Base64

Three bytes are four groups of six bits, and a group is written as a character. At the end the
missing bits are zeros, and `=` stands for a group that is missing.

* `alphabet`, `digit` — the characters of the groups;
* `sextets`, `encode` — the groups of a list of bytes, and what is written for them;
* `collect` — the bytes are shifted out of a buffer as soon as it holds eight bits;
* `collect_sextets` — the bytes come back, whatever the buffer held before;
* `indices_encode` — the groups come back from the characters;
* `Interspersed` — other characters between those of a text, which a filter takes out again.
-/

/-- The characters of the groups, in their order. -/
def alphabet : List Char :=
  "ABCDEFGHIJKLMNOPQRSTUVWXYZabcdefghijklmnopqrstuvwxyz0123456789+/".toList

/-- The character of a group. -/
def digit (n : ℕ) : Char := alphabet.getD n 'A'

/-- The groups of six bits. -/
def sextets : List UInt8 → List ℕ
  | a :: b :: c :: rest =>
    a.toNat / 4 :: (a.toNat % 4 * 16 + b.toNat / 16) :: (b.toNat % 16 * 4 + c.toNat / 64) ::
      c.toNat % 64 :: sextets rest
  | [a, b] => [a.toNat / 4, a.toNat % 4 * 16 + b.toNat / 16, b.toNat % 16 * 4]
  | [a] => [a.toNat / 4, a.toNat % 4 * 16]
  | [] => []

/-- The encoding of bytes. -/
def encode (bytes : List UInt8) : List Char :=
  (sextets bytes).map digit ++ List.replicate ((3 - bytes.length % 3) % 3) '='

/-- The bytes of groups; the buffer holds `bits` bits that are not written yet. -/
def collect (buffer bits : ℕ) : List ℕ → List UInt8
  | [] => []
  | s :: ss =>
    let buffer := buffer * 64 + s
    -- the bits that are left stay in the buffer, and so do those that were written
    if 8 ≤ bits + 6 then
      UInt8.ofNat (buffer / 2 ^ (bits + 6 - 8)) :: collect buffer (bits + 6 - 8) ss
    else collect buffer (bits + 6) ss

/-! ### Groups -/

theorem lt_of_mem_sextets (bytes : List UInt8) : ∀ s ∈ sextets bytes, s < 64 := by
  fun_induction sextets bytes with
  | case1 a b c rest ih =>
    have ha := a.toNat_lt
    have hb := b.toNat_lt
    have hc := c.toNat_lt
    intro s hs
    simp only [List.mem_cons] at hs
    rcases hs with rfl | rfl | rfl | rfl | hs
    · omega
    · omega
    · omega
    · omega
    · exact ih s hs
  | case2 a b =>
    have ha := a.toNat_lt
    have hb := b.toNat_lt
    intro s hs
    simp only [List.mem_cons, List.not_mem_nil, or_false] at hs
    omega
  | case3 a =>
    have ha := a.toNat_lt
    intro s hs
    simp only [List.mem_cons, List.not_mem_nil, or_false] at hs
    omega
  | case4 => simp

/-- There are four groups to three bytes, and no more than the rest of the bytes takes. -/
theorem length_sextets (bytes : List UInt8) :
    (sextets bytes).length = (4 * bytes.length + 2) / 3 := by
  fun_induction sextets bytes with
  | case1 a b c rest ih =>
    simp only [List.length_cons]
    omega
  | case2 a b => simp only [List.length_cons, List.length_nil]
  | case3 a => simp only [List.length_cons, List.length_nil]
  | case4 => rfl

/-- A byte is its low eight bits. -/
theorem ofNat_eq {n : ℕ} {a : UInt8} (h : n % 256 = a.toNat) : UInt8.ofNat n = a := by
  apply UInt8.toNat_inj.mp
  rw [UInt8.toNat_ofNat']
  exact h

section Steps

variable (buffer s : ℕ) (ss : List ℕ)

theorem collect_none : collect buffer 0 (s :: ss) = collect (buffer * 64 + s) 6 ss := rfl

theorem collect_six : collect buffer 6 (s :: ss) =
    UInt8.ofNat ((buffer * 64 + s) / 16) :: collect (buffer * 64 + s) 4 ss := rfl

theorem collect_four : collect buffer 4 (s :: ss) =
    UInt8.ofNat ((buffer * 64 + s) / 4) :: collect (buffer * 64 + s) 2 ss := rfl

theorem collect_two : collect buffer 2 (s :: ss) =
    UInt8.ofNat ((buffer * 64 + s) / 1) :: collect (buffer * 64 + s) 0 ss := rfl

end Steps

/-- **The bytes come back**: after four groups the buffer owes nothing, and what it held before
    lies above the bits that are read. -/
theorem collect_sextets (bytes : List UInt8) (buffer : ℕ) :
    collect buffer 0 (sextets bytes) = bytes := by
  fun_induction sextets bytes generalizing buffer with
  | case1 a b c rest ih =>
    have ha := a.toNat_lt
    have hb := b.toNat_lt
    have hc := c.toNat_lt
    rw [collect_none, collect_six, collect_four, collect_two, ih]
    congr 1
    · apply ofNat_eq
      omega
    · congr 1
      · apply ofNat_eq
        omega
      · congr 1
        apply ofNat_eq
        omega
  | case2 a b =>
    have ha := a.toNat_lt
    have hb := b.toNat_lt
    rw [collect_none, collect_six, collect_four, collect]
    congr 1
    · apply ofNat_eq
      omega
    · congr 1
      apply ofNat_eq
      omega
  | case3 a =>
    have ha := a.toNat_lt
    rw [collect_none, collect_six, collect]
    congr 1
    apply ofNat_eq
    omega
  | case4 => rfl

/-! ### Characters -/

theorem alphabet_nodup : alphabet.Nodup := by decide

theorem digit_mem {n : ℕ} (h : n < 64) : digit n ∈ alphabet := by
  have hlength : n < alphabet.length := h
  rw [digit, List.getD_eq_getElem _ _ hlength]
  exact List.getElem_mem hlength

theorem idxOf_digit {n : ℕ} (h : n < 64) : alphabet.idxOf (digit n) = n := by
  have hlength : n < alphabet.length := h
  rw [digit, List.getD_eq_getElem _ _ hlength]
  exact alphabet_nodup.idxOf_getElem n hlength

/-- **The groups come back** from the characters; the padding is none of them. -/
theorem indices_encode (bytes : List UInt8) :
    ((encode bytes).filter (· ∈ alphabet)).map alphabet.idxOf = sextets bytes := by
  have hdigits : ((sextets bytes).map digit).filter (· ∈ alphabet) =
      (sextets bytes).map digit := by
    refine List.filter_eq_self.mpr fun c hc => ?_
    obtain ⟨s, hs, rfl⟩ := List.mem_map.mp hc
    exact decide_eq_true (digit_mem (lt_of_mem_sextets bytes s hs))
  have hpadding : (List.replicate ((3 - bytes.length % 3) % 3) '=').filter (· ∈ alphabet) = [] := by
    refine List.filter_eq_nil_iff.mpr fun c hc => ?_
    rw [(List.mem_replicate.mp hc).2]
    decide
  rw [encode, List.filter_append, hdigits, hpadding, List.append_nil, List.map_map]
  calc (sextets bytes).map (alphabet.idxOf ∘ digit)
      = (sextets bytes).map id :=
        List.map_congr_left fun s hs => idxOf_digit (lt_of_mem_sextets bytes s hs)
    _ = sextets bytes := List.map_id _

/-! ### Characters between -/

section Between

variable {α : Type*} {other : α → Prop}

/-- `input` is `text` with other elements between. -/
inductive Interspersed (other : α → Prop) : List α → List α → Prop
  | nil : Interspersed other [] []
  | keep {text input : List α} (c : α) (h : Interspersed other text input) :
    Interspersed other (c :: text) (c :: input)
  | insert {text input : List α} {c : α} (hc : other c) (h : Interspersed other text input) :
    Interspersed other text (c :: input)

theorem Interspersed.refl (text : List α) : Interspersed other text text := by
  induction text with
  | nil => exact .nil
  | cons c text ih => exact .keep c ih

/-- A filter that passes over the other elements finds the same. -/
theorem Interspersed.filter_eq {text input : List α} (h : Interspersed other text input)
    {p : α → Bool} (hp : ∀ c, other c → p c = false) : input.filter p = text.filter p := by
  induction h with
  | nil => rfl
  | keep c h ih => rw [List.filter_cons, List.filter_cons, ih]
  | insert hc h ih => rw [List.filter_cons_of_neg (by simp [hp _ hc]), ih]

end Between

end SoftEther.Lib.Base64

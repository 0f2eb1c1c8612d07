import Mathlib.Data.List.TakeWhile
import Mathlib.Algebra.Group.Nat.Defs
import Mathlib.Tactic.Common

namespace SoftEther.Http

/-!
# Content-Length

`parse_content_length` reads a header value: blanks, decimal digits and a delimiter.  The value is
added up in an `unsigned long`, and the addition is guarded after every digit.

* `Ulong` — the widths of `unsigned long` on the shipped ABIs;
* `readDigits`, `parseContentLength` — the digit loop and the function;
* `HeaderValue`, `Blank` — the values it accepts, and those it takes for 0;
* `readDigits_eq` — the guard comes before any wrap;
* `parsesContentLength` — it returns the value of a header value, 0 for a blank one, and else -1.
-/

/-- `N11_MAX_CONTENT_LENGTH`, 64 MiB. -/
abbrev N11_MAX_CONTENT_LENGTH : ℕ := 64 * 1024 * 1024

/-- The widths of `unsigned long`. -/
inductive Ulong
  | u32
  | u64

abbrev Ulong.bits : Ulong → ℕ
  | .u32 => 32
  | .u64 => 64

/-! ### The function -/

/-- Space or tab. -/
def isBlank (c : UInt8) : Bool := c = 32 ∨ c = 9

/-- `'0'` to `'9'`. -/
def isDigit (c : UInt8) : Bool := 48 ≤ c ∧ c ≤ 57

/-- CR, LF, space or tab; the end of the string also delimits. -/
def isDelimiter (c : UInt8) : Bool := c = 13 ∨ c = 10 ∨ c = 32 ∨ c = 9

/-- The digit loop, from the value `v` on: the value and what follows the digits, or `none` beyond
    the maximum. -/
def readDigits (w : Ulong) : List UInt8 → ℕ → Option (ℕ × List UInt8)
  | [], v => some (v, [])
  | c :: s, v =>
    if isDigit c then
      let v := (v * 10 + (c.toNat - 48)) % 2 ^ w.bits
      if v > N11_MAX_CONTENT_LENGTH then none else readDigits w s v
    else some (v, c :: s)

/-- `parse_content_length` on a C string, `none` for `NULL`. -/
def parseContentLength (w : Ulong) : Option (List UInt8) → ℤ
  | none => 0
  | some s =>
    match s.dropWhile isBlank with
    | [] => 0
    | c :: s =>
      if !isDigit c then -1
      else
        match readDigits w (c :: s) 0 with
        | none => -1
        | some (v, []) => v
        | some (v, c :: _) => if !isDelimiter c then -1 else v

/-! ### Header values -/

/-- The number that decimal digits stand for, behind the digits of `v`. -/
def decimalFrom (v : ℕ) (digits : List UInt8) : ℕ :=
  digits.foldl (fun v c => v * 10 + (c.toNat - 48)) v

/-- A header value: blanks, digits and a delimiter, of at most 64 MiB. -/
def HeaderValue (s : List UInt8) (v : ℕ) : Prop :=
  ∃ blanks digits rest, s = blanks ++ digits ++ rest ∧ (∀ c ∈ blanks, isBlank c) ∧ digits ≠ [] ∧
    (∀ c ∈ digits, isDigit c) ∧ (∀ c ∈ rest.head?, isDelimiter c) ∧ decimalFrom 0 digits = v ∧
    v ≤ N11_MAX_CONTENT_LENGTH

/-- Nothing but blanks, or no string. -/
def Blank (s : Option (List UInt8)) : Prop := ∀ t ∈ s, ∀ c ∈ t, isBlank c

/-- **What is wanted of the parse.** It returns the value of a header value and 0 for a blank one;
    in all other cases it returns -1. -/
structure ParsesContentLength (w : Ulong) (s : Option (List UInt8)) : Prop where
  value : ∀ v : ℕ, parseContentLength w s = v ↔
    (∃ t ∈ s, HeaderValue t v) ∨ (Blank s ∧ v = 0)
  other : (∀ v : ℕ, parseContentLength w s ≠ v) → parseContentLength w s = -1

/-! ### The digits -/

theorem le_decimalFrom (v : ℕ) (digits : List UInt8) : v ≤ decimalFrom v digits := by
  induction digits generalizing v with
  | nil => exact le_refl v
  | cons c digits ih =>
    have hstep := ih (v * 10 + (c.toNat - 48))
    rw [decimalFrom, List.foldl_cons, ← decimalFrom]
    omega

/-- **No wrap.** The loop reads the number that the digits stand for; beyond the maximum it stops
    before the sum leaves the `unsigned long`. -/
theorem readDigits_eq (w : Ulong) {v : ℕ} (hv : v ≤ N11_MAX_CONTENT_LENGTH) (s : List UInt8) :
    readDigits w s v =
      if decimalFrom v (s.takeWhile isDigit) > N11_MAX_CONTENT_LENGTH then none
      else some (decimalFrom v (s.takeWhile isDigit), s.dropWhile isDigit) := by
  induction s generalizing v with
  | nil =>
    rw [readDigits, List.takeWhile_nil, List.dropWhile_nil, decimalFrom, List.foldl_nil,
      if_neg (Nat.not_lt.mpr hv)]
  | cons c s ih =>
    by_cases hc : isDigit c = true
    · have hdigit : c.toNat ≤ 57 := by
        simp only [isDigit, decide_eq_true_eq] at hc
        exact hc.2
      have hsmall : v * 10 + (c.toNat - 48) < 2 ^ w.bits := by
        have hbits : 2 ^ 32 ≤ 2 ^ w.bits := by cases w <;> decide
        simp only [N11_MAX_CONTENT_LENGTH] at hv
        omega
      rw [readDigits, if_pos hc, Nat.mod_eq_of_lt hsmall, List.takeWhile_cons_of_pos hc,
        List.dropWhile_cons_of_pos hc, decimalFrom, List.foldl_cons, ← decimalFrom]
      simp only []
      split
      · rename_i hbig
        have hle := le_decimalFrom (v * 10 + (c.toNat - 48)) (s.takeWhile isDigit)
        rw [if_pos (by omega)]
      · rename_i hfits
        exact ih (Nat.le_of_not_gt hfits)
    · rw [readDigits, if_neg hc, List.takeWhile_cons_of_neg hc, List.dropWhile_cons_of_neg hc,
        decimalFrom, List.foldl_nil, if_neg (Nat.not_lt.mpr hv)]

/-! ### The value -/

theorem not_blank_of_digit {c : UInt8} (h : isDigit c = true) : isBlank c = false := by
  simp only [isDigit, isBlank, decide_eq_true_eq, decide_eq_false_iff_not] at h ⊢
  rintro (rfl | rfl)
  · exact absurd h (by decide)
  · exact absurd h (by decide)

theorem not_digit_of_delimiter {c : UInt8} (h : isDelimiter c = true) : isDigit c = false := by
  simp only [isDigit, isDelimiter, decide_eq_true_eq, decide_eq_false_iff_not] at h ⊢
  rcases h with rfl | rfl | rfl | rfl <;> decide

/-- The parts of a header value are determined: the blanks in front, and the digits behind them. -/
theorem headerValue_iff (s : List UInt8) (v : ℕ) :
    HeaderValue s v ↔
      (s.dropWhile isBlank).takeWhile isDigit ≠ [] ∧
        (∀ c ∈ ((s.dropWhile isBlank).dropWhile isDigit).head?, isDelimiter c) ∧
        decimalFrom 0 ((s.dropWhile isBlank).takeWhile isDigit) = v ∧
        v ≤ N11_MAX_CONTENT_LENGTH := by
  constructor
  · rintro ⟨blanks, digits, rest, rfl, hblanks, hne, hdigits, hrest, hvalue, hmax⟩
    have hfront : (blanks ++ digits ++ rest).dropWhile isBlank = digits ++ rest := by
      rw [List.append_assoc, List.dropWhile_append_of_pos hblanks]
      cases digits with
      | nil => exact absurd rfl hne
      | cons c digits =>
        have hc := not_blank_of_digit (hdigits c List.mem_cons_self)
        rw [List.cons_append, List.dropWhile_cons_of_neg (by simp [hc])]
    have hstop : rest.takeWhile isDigit = [] ∧ rest.dropWhile isDigit = rest := by
      cases rest with
      | nil => exact ⟨rfl, rfl⟩
      | cons c rest =>
        have hc := not_digit_of_delimiter (hrest c rfl)
        exact ⟨List.takeWhile_cons_of_neg (by simp [hc]), List.dropWhile_cons_of_neg (by simp [hc])⟩
    rw [hfront, List.takeWhile_append_of_pos hdigits, List.dropWhile_append_of_pos hdigits,
      hstop.1, hstop.2, List.append_nil]
    exact ⟨hne, hrest, hvalue, hmax⟩
  · rintro ⟨hne, hrest, hvalue, hmax⟩
    refine ⟨s.takeWhile isBlank, (s.dropWhile isBlank).takeWhile isDigit,
      (s.dropWhile isBlank).dropWhile isDigit, ?_, ?_, hne, ?_, hrest, hvalue, hmax⟩
    · rw [List.append_assoc, List.takeWhile_append_dropWhile, List.takeWhile_append_dropWhile]
    · exact fun c hc => List.mem_takeWhile_imp hc
    · exact fun c hc => List.mem_takeWhile_imp hc

/-- What the function returns for a string that is not blank. -/
theorem parseContentLength_of_ne {w : Ulong} {s : List UInt8} (h : s.dropWhile isBlank ≠ []) :
    (∃ v : ℕ, HeaderValue s v ∧ parseContentLength w (some s) = v) ∨
      ((∀ v, ¬ HeaderValue s v) ∧ parseContentLength w (some s) = -1) := by
  rw [parseContentLength]
  simp only [headerValue_iff]
  cases hs : s.dropWhile isBlank with
  | nil => exact absurd hs h
  | cons c r =>
    by_cases hc : isDigit c = true
    · have hne : (c :: r).takeWhile isDigit ≠ [] := by simp [List.takeWhile_cons_of_pos hc]
      simp only [hc, Bool.not_true, Bool.false_eq_true, if_false]
      rw [readDigits_eq w (Nat.zero_le _)]
      by_cases hmax : decimalFrom 0 ((c :: r).takeWhile isDigit) > N11_MAX_CONTENT_LENGTH
      · rw [if_pos hmax]
        exact .inr ⟨fun v hv => by omega, rfl⟩
      · rw [if_neg hmax]
        cases hrest : (c :: r).dropWhile isDigit with
        | nil => exact .inl ⟨_, ⟨hne, by simp, rfl, Nat.le_of_not_gt hmax⟩, rfl⟩
        | cons d rest =>
          by_cases hd : isDelimiter d = true
          · simp only [hd, Bool.not_true, Bool.false_eq_true, if_false]
            exact .inl ⟨_, ⟨hne, by simp [hd], rfl, Nat.le_of_not_gt hmax⟩, rfl⟩
          · simp only [hd, Bool.not_false, if_true]
            exact .inr ⟨fun v hv => hd (hv.2.1 d rfl), trivial⟩
    · have hnone : (c :: r).takeWhile isDigit = [] := List.takeWhile_cons_of_neg hc
      simp only [hc, Bool.not_false, if_true]
      exact .inr ⟨fun v hv => hv.1 hnone, trivial⟩

theorem HeaderValue.unique {s : List UInt8} {v v' : ℕ} (h : HeaderValue s v)
    (h' : HeaderValue s v') : v = v' := by
  rw [headerValue_iff] at h h'
  exact h.2.2.1.symm.trans h'.2.2.1

/-- A header value is not blank. -/
theorem HeaderValue.not_blank {s : List UInt8} {v : ℕ} (h : HeaderValue s v) :
    ¬ Blank (some s) := by
  obtain ⟨blanks, digits, rest, rfl, -, hne, hdigits, -⟩ := h
  intro hblank
  obtain ⟨c, hc⟩ := List.exists_mem_of_ne_nil digits hne
  have hmem : c ∈ blanks ++ digits ++ rest := by simp [hc]
  have hboth := not_blank_of_digit (hdigits c hc)
  rw [hblank _ rfl c hmem] at hboth
  exact absurd hboth (by simp)

theorem blank_some_iff (s : List UInt8) : Blank (some s) ↔ s.dropWhile isBlank = [] := by
  rw [List.dropWhile_eq_nil_iff]
  exact ⟨fun h c hc => h s rfl c hc, fun h t ht c hc => h c (Option.some.inj ht ▸ hc)⟩

/-- **The parse.** On every string, or none, and for both widths of `unsigned long`. -/
theorem parsesContentLength (w : Ulong) (s : Option (List UInt8)) : ParsesContentLength w s := by
  by_cases hblank : Blank s
  · have hzero : parseContentLength w s = 0 := by
      cases s with
      | none => rfl
      | some s =>
        rw [blank_some_iff] at hblank
        rw [parseContentLength, hblank]
    have hno : ∀ v, ¬ ∃ t ∈ s, HeaderValue t v := by
      rintro v ⟨t, ht, hv⟩
      rw [Option.mem_def.mp ht] at hblank
      exact hv.not_blank hblank
    refine ⟨fun v => ?_, fun hother => absurd hzero (hother 0)⟩
    rw [hzero]
    constructor
    · intro hv
      exact .inr ⟨hblank, by omega⟩
    · rintro (hv | ⟨-, rfl⟩)
      · exact absurd hv (hno v)
      · rfl
  · cases s with
    | none => exact absurd (fun t ht => absurd ht (by simp)) hblank
    | some s =>
      have hne : s.dropWhile isBlank ≠ [] := fun hnil => hblank ((blank_some_iff s).mpr hnil)
      rcases parseContentLength_of_ne (w := w) hne with ⟨v, hv, heq⟩ | ⟨hno, heq⟩
      · refine ⟨fun v' => ?_, fun hother => absurd heq (hother v)⟩
        rw [heq]
        constructor
        · intro hvv
          obtain rfl : v = v' := by omega
          exact .inl ⟨s, rfl, hv⟩
        · rintro (⟨t, ht, hv'⟩ | ⟨hb, -⟩)
          · rw [← Option.some.inj ht] at hv'
            rw [hv.unique hv']
          · exact absurd hb hblank
      · refine ⟨fun v => ?_, fun _ => heq⟩
        rw [heq]
        constructor
        · intro hv
          omega
        · rintro (⟨t, ht, hv⟩ | ⟨hb, -⟩)
          · rw [← Option.some.inj ht] at hv
            exact absurd hv (hno v)
          · exact absurd hb hblank

end SoftEther.Http

import Mathlib.Algebra.Order.Ring.Nat
import SoftEther.Lib.Throwing
import SoftEther.Merger.Text

namespace SoftEther.Parser

open Lib
open SoftEther.Merger (withoutScheme)

/-!
# Texts of an untrusted file (`VpnUtil`)

The functions of `VpnUtil` as they meet any text: `validIp` throws at a number that no `Int`
holds, and which characters are digits, spaces or letters is decided by the runtime.

* `Platform` — the tables and the number formats of the runtime;
* `clean`, `toInt`, `toFloat`, `validIp`, `normalizeIp`, `normalizeHost` — the functions of the
  source;
* `Overflows`, `HostOverflows` — the texts at which they throw; `isValidIp`, `hostOf`, `ipOf` —
  what they return of all others;
* `validIp_returns`, `normalizeIp_returns`, `normalizeHost_returns` — that this is so;
* `plain` — the tables of ASCII.
-/

/-- `NumberFormatException`, with the digits that it is about. -/
structure NumberFormatException where
  digits : List Char
  deriving DecidableEq

/-- **What the runtime decides.** A character outside the basic plane is two units of a Kotlin
    text, of which none is a digit or a letter. -/
structure Platform where
  /-- `Char.isWhitespace`. -/
  isWhitespace : Char → Bool
  /-- `Char.isLetter`. -/
  isLetter : Char → Bool
  /-- `Character.digit(c, 10)`; `Char.isDigit` says that there is one. -/
  digit : Char → Option (Fin 10)
  /-- `\s` of a regular expression. -/
  regexSpace : Char → Bool
  /-- `\d` of a regular expression. -/
  regexDigit : Char → Bool
  /-- The characters that `\b` takes for parts of words. -/
  regexWord : Char → Bool
  lowercase : String → String
  uppercase : String → String
  /-- `toDoubleOrNull`; a double is its bit pattern. -/
  toDoubleOrNull : String → Option (BitVec 64)
  /-- The division of doubles. -/
  divide : BitVec 64 → BitVec 64 → BitVec 64
  /-- `String(bytes, Charsets.UTF_8)`. -/
  utf8 : List UInt8 → String

namespace Platform

variable (p : Platform)

/-! ### The functions of the source -/

/-- `isBlank`. -/
def isBlank (s : String) : Bool := s.toList.all p.isWhitespace

/-- `trim`. -/
def trim (s : String) : String :=
  String.ofList ((s.toList.dropWhile p.isWhitespace).rdropWhile p.isWhitespace)

/-- `replace(Regex("\\s+"), " ")`; `inRun` when the character before was such a space. -/
def collapseSpaces (inRun : Bool) : List Char → List Char
  | [] => []
  | c :: cs =>
    if p.regexSpace c then
      if inRun then collapseSpaces true cs else ' ' :: collapseSpaces true cs
    else c :: collapseSpaces false cs

/-- `clean`. -/
def clean (value : String) : String :=
  let s := (value.toList.map fun c =>
    if c.toNat = 0xA0 ∨ c = '\r' ∨ c = '\n' then ' ' else c).filter (·.toNat ≠ 0x200B)
  p.trim (String.ofList (p.collapseSpaces false s))

/-- `Char.isDigit`. -/
def isDigit (c : Char) : Bool := (p.digit c).isSome

/-- The number that digits write. -/
def number (digits : List Char) : ℕ :=
  digits.foldl (fun n c => 10 * n + ((p.digit c).map Fin.val).getD 0) 0

/-- `toInt` of digits. -/
def parseInt (digits : List Char) : Except NumberFormatException ℕ :=
  if 2147483647 < p.number digits then .error ⟨digits⟩ else .ok (p.number digits)

/-- The number of a text that has nothing but digits. -/
def readDigits (digits : List Char) : Option ℕ :=
  if digits ≠ [] ∧ digits.all p.isDigit then some (p.number digits) else none

/-- The `Int` that a sign and digits write. -/
def readSigned (readDigits : List Char → Option ℕ) (s : String) : Option ℤ :=
  let value : Option ℤ :=
    match s.toList with
    | '-' :: digits => (readDigits digits).map fun n => -(n : ℤ)
    | '+' :: digits => (readDigits digits).map fun n => (n : ℤ)
    | digits => (readDigits digits).map fun n => (n : ℤ)
  value.filter fun n => -2147483648 ≤ n ∧ n ≤ 2147483647

/-- `toIntOrNull`. -/
def toIntOrNull (s : String) : Option ℤ := readSigned p.readDigits s

/-- `Regex("-?\\d+").find`: the match, and the text behind it. -/
def findNumber : List Char → Option (List Char × List Char)
  | [] => none
  | c :: cs =>
    if p.regexDigit c then
      some ((c :: cs).takeWhile p.regexDigit, (c :: cs).dropWhile p.regexDigit)
    else if c = '-' && (cs.head?.any p.regexDigit) then
      some (c :: cs.takeWhile p.regexDigit, cs.dropWhile p.regexDigit)
    else findNumber cs

/-- A text without what groups its digits. -/
def ungrouped (value : String) : List Char :=
  (p.clean value).toList.filter fun c => c ≠ ',' && c ≠ ' '

/-- `toInt`. -/
def toInt (value : String) : ℤ :=
  match p.findNumber (p.ungrouped value) with
  | none => 0
  | some (digits, _) => (p.toIntOrNull (String.ofList digits)).getD 0

/-- `toFloat`; the bits of `0.0` are zeros. -/
def toFloat (value : String) : BitVec 64 :=
  match p.findNumber (p.ungrouped value) with
  | none => 0
  | some (digits, rest) =>
    -- `(?:\.\d+)?`
    let fraction :=
      match rest with
      | '.' :: rest =>
        if rest.head?.any p.regexDigit then '.' :: rest.takeWhile p.regexDigit else []
      | _ => []
    (p.toDoubleOrNull (String.ofList (digits ++ fraction))).getD 0

/-- `p.isNotEmpty() && p.all { it.isDigit() } && p.toInt() in 0..255`. -/
def octet (part : List Char) : Except NumberFormatException Bool :=
  if part.isEmpty || !part.all p.isDigit then .ok false
  else p.parseInt part >>= fun n => .ok (decide (n ≤ 255))

/-- `validIp`. -/
def validIp (ip : String) : Except NumberFormatException Bool :=
  let parts := ip.toList.splitOn '.'
  if parts.length ≠ 4 then .ok false else parts.allM p.octet

/-- `(?:\d{1,3}\.){dots}\d{1,3}\b` at the head of a text. -/
def ipAt (dots : ℕ) (s : List Char) : Option (List Char) :=
  let digits := s.takeWhile p.regexDigit
  let rest := s.dropWhile p.regexDigit
  if digits.length = 0 || 3 < digits.length then none
  else
    match dots, rest with
    | 0, [] => some digits
    | 0, c :: _ => if p.regexWord c then none else some digits
    | dots + 1, '.' :: rest => (ipAt dots rest).map fun ip => digits ++ '.' :: ip
    | _ + 1, _ => none

/-- The first address of a text; `inWord` when a character of a word stands before it. -/
def findIp (inWord : Bool) : List Char → Option (List Char)
  | [] => none
  | c :: cs =>
    match if inWord then none else p.ipAt 3 (c :: cs) with
    | some ip => some ip
    | none => findIp (p.regexWord c) cs

/-- `normalizeIp`. -/
def normalizeIp (value : String) : Except NumberFormatException String :=
  match p.findIp false (p.clean value).toList with
  | none => .ok ""
  | some ip =>
    p.validIp (String.ofList ip) >>= fun valid => .ok (if valid then String.ofList ip else "")

/-- The text of `normalizeHost` that may end with a port. -/
def hostText (value : String) : List Char :=
  withoutScheme ((p.lowercase (p.clean value)).toList.rdropWhile (· = '.'))

/-- `normalizeHost`. -/
def normalizeHost (value : String) : Except NumberFormatException String :=
  let s := p.hostText value
  if s.count ':' = 1 then
    p.validIp (String.ofList s) >>= fun valid =>
      .ok (String.ofList (if valid then s else s.takeWhile (· ≠ ':')))
  else .ok (String.ofList s)

/-! ### What they return -/

/-- A number of a byte. -/
def isOctet (part : List Char) : Bool :=
  !part.isEmpty && part.all p.isDigit && decide (p.number part ≤ 255)

/-- Digits of a number that no `Int` holds. -/
def Overlong (part : List Char) : Prop :=
  part ≠ [] ∧ part.all p.isDigit = true ∧ 2147483647 < p.number part

instance (part : List Char) : Decidable (p.Overlong part) := by
  unfold Overlong
  infer_instance

/-- **The texts at which `validIp` throws**: of its four parts the first that is no number of a
    byte is a number that no `Int` holds. -/
def Overflows (ip : String) : Prop :=
  (ip.toList.splitOn '.').length = 4 ∧
    ∃ part ∈ ((ip.toList.splitOn '.').dropWhile p.isOctet).head?, p.Overlong part

instance (ip : String) : Decidable (p.Overflows ip) := by
  unfold Overflows
  infer_instance

def isValidIp (ip : String) : Bool :=
  (ip.toList.splitOn '.').length = 4 && (ip.toList.splitOn '.').all p.isOctet

/-- The valid address that a text contains first. -/
def ipOf (value : String) : Option String :=
  ((p.findIp false (p.clean value).toList).map String.ofList).filter p.isValidIp

/-- **The texts at which `normalizeHost` throws.** -/
def HostOverflows (value : String) : Prop :=
  (p.hostText value).count ':' = 1 ∧ p.Overflows (String.ofList (p.hostText value))

instance (value : String) : Decidable (p.HostOverflows value) := by
  unfold HostOverflows
  infer_instance

/-- The host of a value, without a port. -/
def hostOf (value : String) : String :=
  let s := p.hostText value
  if s.count ':' = 1 && !p.isValidIp (String.ofList s) then String.ofList (s.takeWhile (· ≠ ':'))
  else String.ofList s

variable {p}

theorem octet_returns (part : List Char) :
    Returns (p.octet part) (p.Overlong part) (p.isOctet part) := by
  unfold octet isOctet Overlong
  by_cases hdigits : part.isEmpty || !part.all p.isDigit
  · rw [if_pos hdigits]
    have hnot : (!part.isEmpty && part.all p.isDigit) = false := by
      rw [← Bool.not_not (!part.isEmpty && _), Bool.not_and, Bool.not_not, hdigits]
      rfl
    rw [hnot, Bool.false_and]
    refine (Returns.ok false).mono (iff_false_intro ?_)
    rintro ⟨hne, hall, -⟩
    simp [hne, hall] at hnot
  · rw [if_neg hdigits]
    have hall : part ≠ [] ∧ part.all p.isDigit = true := by simpa using hdigits
    have hparse : Returns (p.parseInt part) (2147483647 < p.number part) (p.number part) := by
      unfold parseInt
      by_cases hlong : 2147483647 < p.number part
      · simpa [hlong] using Returns.error (ε := NumberFormatException) ⟨part⟩ (p.number part)
      · simpa [hlong] using Returns.ok (ε := NumberFormatException) (p.number part)
    refine (hparse.map _ ?_).mono ?_
    · simp [hall.1, hall.2]
    · simp [hall.1, hall.2]

/-- **`validIp`**: when it throws, and what it returns else. -/
theorem validIp_returns (ip : String) :
    Returns (p.validIp ip) (p.Overflows ip) (p.isValidIp ip) := by
  have hlong : ∀ part, p.Overlong part → p.isOctet part = false := by
    rintro part ⟨-, -, hlarge⟩
    have hnot : ¬ p.number part ≤ 255 := by omega
    simp [isOctet, hnot]
  unfold validIp Overflows isValidIp
  by_cases hfour : (ip.toList.splitOn '.').length = 4
  · simpa [hfour] using Returns.allM octet_returns hlong (ip.toList.splitOn '.')
  · simpa [hfour] using Returns.ok (ε := NumberFormatException) false

/-- A number of few digits is small. -/
theorem number_lt (digits : List Char) : p.number digits < 10 ^ digits.length := by
  induction digits using List.reverseRecOn with
  | nil => simp [number]
  | append_singleton digits c ih =>
    have hdigit : ((p.digit c).map Fin.val).getD 0 < 10 := by
      cases p.digit c with
      | none => simp
      | some d => exact d.isLt
    have hlast : p.number (digits ++ [c]) =
        10 * p.number digits + ((p.digit c).map Fin.val).getD 0 := by
      simp [number, List.foldl_append]
    rw [hlast, List.length_append, List.length_singleton, Nat.pow_succ]
    omega

theorem length_of_mem_splitOn {s part : List Char} (h : part ∈ s.splitOn '.') :
    part.length ≤ s.length := by
  induction s generalizing part with
  | nil =>
    have hnil : part = [] := by simpa using h
    rw [hnil]
  | cons c s ih =>
    rw [List.splitOn_cons_eq_if_modifyHead] at h
    split_ifs at h with hc
    · rcases List.mem_cons.mp h with rfl | h
      · simp
      · have hrest := ih h
        simp only [List.length_cons]
        omega
    · cases hparts : s.splitOn '.' with
      | nil => exact absurd hparts (List.splitOn_ne_nil _ _)
      | cons first rest =>
        rw [hparts, List.modifyHead_cons, List.mem_cons] at h
        rcases h with rfl | h
        · have hfirst := ih (hparts ▸ List.mem_cons_self)
          simpa using hfirst
        · have hrest := ih (hparts ▸ List.mem_cons_of_mem first h)
          simp only [List.length_cons]
          omega

/-- The parts of an address that is found have three digits at most. -/
theorem length_of_ipAt {dots : ℕ} {s ip : List Char} (h : p.ipAt dots s = some ip) :
    ∀ part ∈ ip.splitOn '.', part.length ≤ 3 := by
  induction dots generalizing s ip with
  | zero =>
    intro part hpart
    unfold ipAt at h
    dsimp only at h
    split at h
    · cases h
    · next hlength =>
      have hip : ip = s.takeWhile p.regexDigit := by
        split at h
        · exact (Option.some.inj h).symm
        · split_ifs at h
          exact (Option.some.inj h).symm
        · next heq _ => cases heq
        · next heq _ => cases heq
      have hle := length_of_mem_splitOn hpart
      rw [hip] at hle
      simp at hlength
      omega
  | succ dots ih =>
    intro part hpart
    unfold ipAt at h
    dsimp only at h
    split at h
    · cases h
    · next hlength =>
      split at h
      · next heq _ => cases heq
      · next heq _ => cases heq
      · next heq _ =>
        obtain rfl := Nat.succ.inj heq
        obtain ⟨tail, htail, rfl⟩ := Option.map_eq_some_iff.mp h
        rw [List.splitOn_append_cons_self, List.mem_append] at hpart
        rcases hpart with hfirst | hrest
        · have hle := length_of_mem_splitOn hfirst
          simp at hlength
          omega
        · exact ih htail part hrest
      · cases h

theorem not_overflows_of_findIp {inWord : Bool} {s ip : List Char}
    (h : p.findIp inWord s = some ip) : ¬ p.Overflows (String.ofList ip) := by
  induction s generalizing inWord with
  | nil => cases h
  | cons c s ih =>
    rw [findIp] at h
    split at h
    · next found hfound =>
      obtain rfl := Option.some.inj h
      split_ifs at hfound
      rintro ⟨-, part, hpart, -, -, hlarge⟩
      have hmem : part ∈ found.splitOn '.' := by
        have hsub := List.mem_of_mem_head? hpart
        rw [String.toList_ofList] at hsub
        exact (List.dropWhile_sublist _).subset hsub
      have hshort := length_of_ipAt hfound part hmem
      have hsmall := p.number_lt part
      have hpow : 10 ^ part.length ≤ 10 ^ 3 := Nat.pow_le_pow_right (by omega) hshort
      omega
    · exact ih h

/-- **`normalizeIp` does not throw**: what it looks for has few digits. -/
theorem normalizeIp_returns (value : String) :
    Returns (p.normalizeIp value) False ((p.ipOf value).getD "") := by
  unfold normalizeIp ipOf
  cases hfind : p.findIp false (p.clean value).toList with
  | none => exact Returns.ok ""
  | some ip =>
    refine ((validIp_returns (String.ofList ip)).map _ ?_).mono
      (iff_of_false id (not_overflows_of_findIp hfind))
    rw [Option.map_some, Option.filter_some]
    split_ifs
    · rfl
    · rfl

/-- What was normalized is checked without an exception. -/
theorem validIp_normalized (value : String) :
    Returns (p.validIp ((p.ipOf value).getD "")) False (p.ipOf value).isSome := by
  cases hip : p.ipOf value with
  | none => exact Returns.ok false
  | some ip =>
    obtain ⟨hfound, hvalid⟩ := Option.filter_eq_some_iff.mp hip
    obtain ⟨digits, hdigits, rfl⟩ := Option.map_eq_some_iff.mp hfound
    have hreturns := p.validIp_returns (String.ofList digits)
    rw [hvalid] at hreturns
    exact hreturns.mono (iff_of_false id (not_overflows_of_findIp hdigits))

/-- **`normalizeHost`**: when it throws, and what it returns else. -/
theorem normalizeHost_returns (value : String) :
    Returns (p.normalizeHost value) (p.HostOverflows value) (p.hostOf value) := by
  unfold normalizeHost HostOverflows hostOf
  by_cases hport : (p.hostText value).count ':' = 1
  · simp only [hport, true_and, if_true, decide_true, Bool.true_and]
    refine (validIp_returns (String.ofList (p.hostText value))).map _ ?_
    cases p.isValidIp (String.ofList (p.hostText value)) with
    | true => rfl
    | false => rfl
  · simpa [hport] using Returns.ok (ε := NumberFormatException) (String.ofList (p.hostText value))

/-! ### ASCII -/

/-- The tables of ASCII, for texts without doubles. -/
def plain : Platform where
  isWhitespace := Security.isWhitespace
  isLetter := Char.isAlpha
  digit c := if c.isDigit then some (Fin.ofNat 10 (c.toNat - 48)) else none
  regexSpace := Merger.isSpace
  regexDigit := Char.isDigit
  regexWord := Merger.isWord
  lowercase := Security.lowercase
  uppercase s := String.ofList (s.toList.map Char.toUpper)
  toDoubleOrNull _ := none
  divide x _ := x
  utf8 bytes := String.ofList (bytes.map fun b => Char.ofNat b.toNat)

end Platform

end SoftEther.Parser

import Mathlib.Data.Bool.AllAny
import Mathlib.Algebra.Order.Ring.Int
import SoftEther.Lib.Spacing
import SoftEther.Merger.Text

namespace SoftEther.Publisher

open Lib
open SoftEther.Merger (withoutScheme)

/-!
# Texts of the publisher (`emergency_csv_publisher.py`)

A text is a list of characters: bytes are decoded, and what is decoded has no surrogates. Which
characters are digits outside ASCII, and upper and lower case, are decided by the runtime.

* `Python` — the tables of the runtime;
* `cleanText`, `normalizeIp`, `normalizeHost`, `toIntOrNone`, `toPort`, `toBool` — the small
  helpers of the source;
* `Cleaned`, `cleanText_cleaned`, `Cleaned.cleanStr_eq` — what `clean_text` returns, and that it
  stays as it is;
* `DottedQuad.normalizeIp_eq`, `readInteger_integer`, `toPort_toDigits`, `toBool_text` — what a
  helper returns is read back.

An integer of any length is read; runtimes that refuse more than 4300 digits raise there.
-/

/-- A decoded text. -/
abbrev Text := List Char

instance : LawfulBEq Text := inferInstance

instance neZeroDigits : NeZero 10 := ⟨by decide⟩

/-- `str.isspace`, which is `\s` of a regular expression. -/
def isSpace (c : Char) : Bool :=
  (9 ≤ c.toNat && c.toNat ≤ 13) || (28 ≤ c.toNat && c.toNat ≤ 32) ||
    (0x2000 ≤ c.toNat && c.toNat ≤ 0x200A) ||
    [0x85, 0xA0, 0x1680, 0x2028, 0x2029, 0x202F, 0x205F, 0x3000].contains c.toNat

/-- A text of ASCII characters. -/
def IsAscii (s : Text) : Prop := ∀ c ∈ s, c.toNat < 128

instance (s : Text) : Decidable (IsAscii s) :=
  List.decidableBAll (fun c : Char => c.toNat < 128) s

/-- **What the runtime decides.** On ASCII it is fixed. -/
structure Python where
  /-- `\d`, and the value `int` gives to the digit. -/
  decimal : Char → Option (Fin 10)
  lower : Text → Text
  upper : Text → Text
  /-- `valid_base64` of a text that is not empty. -/
  decodesBase64 : Text → Bool
  /-- `decode_config_text`. -/
  decodeConfigText : Text → Text
  decimal_ascii : ∀ c : Char, c.toNat < 128 →
    decimal c = if c.isDigit then some (Fin.ofNat 10 (c.toNat - 48)) else none
  lower_ascii : ∀ s, IsAscii s → lower s = s.map Char.toLower
  upper_ascii : ∀ s, IsAscii s → upper s = s.map Char.toUpper

/-- A runtime that knows ASCII only and decodes no Base64. -/
def Python.ascii : Python where
  decimal c := if c.isDigit then some (Fin.ofNat 10 (c.toNat - 48)) else none
  lower s := s.map Char.toLower
  upper s := s.map Char.toUpper
  decodesBase64 _ := false
  decodeConfigText _ := []
  decimal_ascii _ _ := rfl
  lower_ascii _ _ := rfl
  upper_ascii _ _ := rfl

/-- A runtime that decodes whole groups of Base64 without padding. -/
def Python.groups : Python :=
  { Python.ascii with
    decodesBase64 := fun s =>
      s.all (fun c => c.isAlphanum || c = '+' || c = '/') && s.length % 4 == 0 }

/-! ### Values of a source -/

/-- What a source has for a column. -/
inductive Value
  | none
  | str (s : Text)
  | int (n : ℤ)
  | bool (b : Bool)

/-- An integer in decimal. -/
def integer : ℤ → Text
  | .ofNat n => Nat.toDigits 10 n
  | .negSucc n => '-' :: Nat.toDigits 10 (n + 1)

/-- A port, or `0` for none. -/
abbrev Port := Fin 65536

instance neZeroPorts : NeZero 65536 := ⟨by decide⟩

/-- `str(value)`. -/
def Value.toText : Value → Text
  | .none => []
  | .str s => s
  | .int n => integer n
  | .bool true => "True".toList
  | .bool false => "False".toList

/-- `clean_text` of a text. -/
def cleanStr (s : Text) : Text :=
  let s := s.map fun c => if c.toNat = 0xA0 then ' ' else c
  let s := s.filter (·.toNat ≠ 0x200B)
  let s := s.map fun c => if c = '\r' ∨ c = '\n' then ' ' else c
  strip isSpace (collapse isSpace ' ' false s)

/-- `clean_text`. -/
def cleanText (value : Value) : Text := cleanStr value.toText

/-! ### The small helpers -/

namespace Python

variable (py : Python)

/-- `\d`. -/
def isDecimal (c : Char) : Bool := (py.decimal c).isSome

/-- `int` of decimal digits. -/
def number (digits : Text) : ℕ :=
  digits.foldl (fun n c => 10 * n + ((py.decimal c).map Fin.val).getD 0) 0

/-- `\d{1,3}`. -/
def isOctetText (part : Text) : Bool :=
  1 ≤ part.length && part.length ≤ 3 && part.all py.isDecimal

/-- `normalize_ip` of a cleaned text. -/
def normalizeIpStr (s : Text) : Text :=
  let parts := s.splitOn '.'
  if ¬ (parts.length = 4 ∧ parts.all py.isOctetText) then []
  else if parts.any (fun part => 255 < py.number part) then []
  else ['.'].intercalate (parts.map fun part => Nat.toDigits 10 (py.number part))

/-- `normalize_ip`. -/
def normalizeIp (value : Value) : Text := py.normalizeIpStr (cleanText value)

/-- `normalize_host` of a cleaned text. -/
def normalizeHostStr (s : Text) : Text :=
  let s := withoutScheme ((py.lower s).rdropWhile (· = '.'))
  if s.count ':' = 1 then s.takeWhile (· ≠ ':') else s

/-- `normalize_host`. -/
def normalizeHost (value : Value) : Text := py.normalizeHostStr (cleanText value)

/-- `-?\d+` as a whole text, and its value. -/
def readInteger : Text → Option ℤ
  | '-' :: digits =>
    if digits ≠ [] ∧ digits.all py.isDecimal then some (-(py.number digits : ℤ)) else none
  | digits => if digits ≠ [] ∧ digits.all py.isDecimal then some (py.number digits : ℤ) else none

/-- `to_int_or_none`. -/
def toIntOrNone (value : Value) : Option ℤ :=
  py.readInteger ((cleanText value).filter (· ≠ ','))

theorem toNat_lt_port {n : ℤ} (h : 0 ≤ n ∧ n ≤ 65535) : n.toNat < 65536 := by
  omega

/-- `to_port`. -/
def toPort (value : Value) : Port :=
  match py.toIntOrNone value with
  | none => 0
  | some n => if h : 0 ≤ n ∧ n ≤ 65535 then ⟨n.toNat, toNat_lt_port h⟩ else 0

/-- `to_bool`. -/
def toBool (value : Value) : Bool :=
  py.lower (cleanText value) ∈ ["true".toList, "1".toList, "yes".toList]

/-- `valid_base64`. -/
def validBase64 (s : Text) : Bool := !s.isEmpty && py.decodesBase64 s

end Python

/-! ### Cleaned texts -/

/-- **What `clean_text` returns**: tidy, and without the zero-width space. -/
structure Cleaned (s : Text) : Prop where
  tidy : Tidy isSpace ' ' s
  visible : ∀ c ∈ s, c.toNat ≠ 0x200B

theorem cleanStr_cleaned (s : Text) : Cleaned (cleanStr s) where
  tidy := tidy_strip_collapse _
  visible := by
    intro c hc hzero
    have hmem : ∀ (l : Text) (inRun : Bool), c ∈ collapse isSpace ' ' inRun l → c ∈ l := by
      intro l
      induction l with
      | nil => exact fun _ hc => hc
      | cons x l ih =>
        intro inRun hc
        rw [collapse] at hc
        split_ifs at hc
        · exact List.mem_cons_of_mem x (ih _ hc)
        · rcases List.mem_cons.mp hc with rfl | hc
          · exact absurd hzero (by decide)
          · exact List.mem_cons_of_mem x (ih _ hc)
        · rcases List.mem_cons.mp hc with rfl | hc
          · exact List.mem_cons_self
          · exact List.mem_cons_of_mem x (ih _ hc)
    have hin := hmem _ _ ((strip_within _).subset hc)
    obtain ⟨x, hx, hxc⟩ := List.mem_map.mp hin
    have hkept := (List.mem_filter.mp hx).2
    split_ifs at hxc
    · rw [← hxc] at hzero
      exact absurd hzero (by decide)
    · rw [hxc] at hkept
      simp [hzero] at hkept

theorem cleanText_cleaned (value : Value) : Cleaned (cleanText value) := cleanStr_cleaned _

variable {s : Text} {c : Char}

/-- No character of a cleaned text is a space but the blank. -/
theorem Cleaned.eq_blank (h : Cleaned s) (hc : c ∈ s) (hspace : isSpace c = true) :
    c = ' ' := h.tidy.only c hc hspace

/-- **A cleaned text stays as it is.** -/
theorem Cleaned.cleanStr_eq (h : Cleaned s) : cleanStr s = s := by
  have hnbsp : (s.map fun c => if c.toNat = 0xA0 then ' ' else c) = s := by
    refine (List.map_congr_left fun c hc => ?_).trans (List.map_id s)
    split_ifs with hn
    · exact (h.eq_blank hc (by simp [isSpace, hn])).symm
    · rfl
  have hzero : s.filter (·.toNat ≠ 0x200B) = s := by
    rw [List.filter_eq_self]
    exact fun c hc => by simpa using h.visible c hc
  have hbreak : (s.map fun c => if c = '\r' ∨ c = '\n' then ' ' else c) = s := by
    refine (List.map_congr_left fun c hc => ?_).trans (List.map_id s)
    split_ifs with hn
    · refine (h.eq_blank hc ?_).symm
      rcases hn with rfl | rfl <;> decide
    · rfl
  unfold cleanStr
  dsimp only
  rw [hnbsp, hzero, hbreak, h.tidy.collapse_eq fun _ => id, h.tidy.strip_eq fun _ => id]

/-- A text of characters that are neither spaces nor zero-width. -/
theorem Cleaned.of_solid (h : ∀ c ∈ s, isSpace c = false ∧ c.toNat ≠ 0x200B) :
    Cleaned s := ⟨Tidy.of_no_space fun c hc => (h c hc).1, fun c hc => (h c hc).2⟩

theorem Cleaned.nil : Cleaned [] := ⟨Tidy.nil, by simp⟩

/-- The line breaks are spaces, so a cleaned text has none. -/
theorem Cleaned.no_break (h : Cleaned s) : '\n' ∉ s ∧ '\r' ∉ s :=
  ⟨fun hc => absurd (h.eq_blank hc (by decide)) (by decide),
    fun hc => absurd (h.eq_blank hc (by decide)) (by decide)⟩

theorem Cleaned.of_filter (h : Cleaned s) : Cleaned (s.filter (· ≠ ' ')) := by
  refine Cleaned.of_solid fun c hc => ?_
  obtain ⟨hmem, hne⟩ := List.mem_filter.mp hc
  refine ⟨?_, h.visible c hmem⟩
  by_contra hspace
  rw [Bool.not_eq_false] at hspace
  simp [h.eq_blank hmem hspace] at hne

/-! ### Digits -/

theorem isDigit_toNat (h : c.isDigit = true) : 48 ≤ c.toNat ∧ c.toNat ≤ 57 := by
  simp only [Char.isDigit, Bool.and_eq_true, decide_eq_true_eq] at h
  exact ⟨h.1, h.2⟩

/-- A digit of ASCII is neither a space nor zero-width. -/
theorem solid_of_isDigit (h : c.isDigit = true) : isSpace c = false ∧ c.toNat ≠ 0x200B := by
  obtain ⟨hlo, hhi⟩ := isDigit_toNat h
  constructor
  · simp [isSpace]
    omega
  · omega

theorem isDigit_of_mem {n : ℕ} (h : c ∈ Nat.toDigits 10 n) : c.isDigit = true :=
  Nat.isDigit_of_mem_toDigits (by decide) (by decide) h

/-- A runtime that knows the digits of ASCII reads a number back from its digits. -/
theorem foldl_toDigits {digit : Char → Option (Fin 10)}
    (h : ∀ c, c.isDigit = true → digit c = some (Fin.ofNat 10 (c.toNat - 48))) (n : ℕ) :
    (Nat.toDigits 10 n).foldl (fun m c => 10 * m + ((digit c).map Fin.val).getD 0) 0 = n := by
  have hfold : (Nat.toDigits 10 n).foldl (fun m c => 10 * m + ((digit c).map Fin.val).getD 0) 0 =
      Nat.ofDigitChars 10 (Nat.toDigits 10 n) 0 := by
    unfold Nat.ofDigitChars
    refine List.foldl_ext _ _ _ fun m c hc => ?_
    have hdigit := isDigit_toNat (isDigit_of_mem hc)
    rw [h c (isDigit_of_mem hc)]
    show 10 * m + (c.toNat - 48) % 10 = 10 * m + (c.toNat - 48)
    omega
  rw [hfold, Nat.ofDigitChars_ten_toDigits]

namespace Python

variable {py : Python}

theorem decimal_of_isDigit {c : Char} (h : c.isDigit = true) :
    py.decimal c = some (Fin.ofNat 10 (c.toNat - 48)) := by
  have hhi := (isDigit_toNat h).2
  rw [py.decimal_ascii c (by omega), if_pos h]

theorem isDecimal_of_isDigit {c : Char} (h : c.isDigit = true) : py.isDecimal c = true := by
  rw [isDecimal, decimal_of_isDigit h]
  rfl

theorem all_isDecimal_toDigits (n : ℕ) : (Nat.toDigits 10 n).all py.isDecimal = true :=
  List.all_eq_true.mpr fun _ hc => isDecimal_of_isDigit (isDigit_of_mem hc)

/-- **The digits of a number are read back.** -/
@[simp] theorem number_toDigits (n : ℕ) : py.number (Nat.toDigits 10 n) = n :=
  foldl_toDigits (fun _ => decimal_of_isDigit) n

/-! ### What the helpers return is read back -/

theorem integer_solid (n : ℤ) : ∀ c ∈ integer n, isSpace c = false ∧ c.toNat ≠ 0x200B := by
  intro c hc
  cases n with
  | ofNat n => exact solid_of_isDigit (isDigit_of_mem hc)
  | negSucc n =>
    rcases List.mem_cons.mp hc with rfl | hc
    · decide
    · exact solid_of_isDigit (isDigit_of_mem hc)

theorem integer_cleaned (n : ℤ) : Cleaned (integer n) := Cleaned.of_solid (integer_solid n)

/-- **An integer is read back.** -/
theorem readInteger_integer (n : ℤ) : py.readInteger (integer n) = some n := by
  cases n with
  | ofNat n =>
    have hne : Nat.toDigits 10 n ≠ [] := Nat.toDigits_ne_nil
    have hread : py.readInteger (Nat.toDigits 10 n) =
        some ((py.number (Nat.toDigits 10 n) : ℕ) : ℤ) := by
      unfold readInteger
      split
      · next digits heq =>
        have hminus : '-' ∈ Nat.toDigits 10 n := by rw [heq]; exact List.mem_cons_self
        exact absurd (isDigit_of_mem hminus) (by decide)
      · rw [if_pos ⟨hne, all_isDecimal_toDigits n⟩]
    show py.readInteger (Nat.toDigits 10 n) = _
    rw [hread, number_toDigits]
    rfl
  | negSucc n =>
    have hne : Nat.toDigits 10 (n + 1) ≠ [] := Nat.toDigits_ne_nil
    show (if _ then _ else _) = _
    rw [if_pos ⟨hne, all_isDecimal_toDigits (n + 1)⟩, number_toDigits]
    rfl

/-- The column of an integer, empty when there is none. -/
def optInteger (n : Option ℤ) : Text := n.elim [] integer

theorem toIntOrNone_optInteger (n : Option ℤ) :
    py.toIntOrNone (.str (optInteger n)) = n := by
  unfold toIntOrNone cleanText Value.toText
  cases n with
  | none => simp [optInteger, cleanStr, collapse, strip, readInteger]
  | some n =>
    have hcomma : (integer n).filter (· ≠ ',') = integer n := by
      rw [List.filter_eq_self]
      intro c hc
      rw [decide_eq_true_eq]
      rintro rfl
      cases n with
      | ofNat n => exact absurd (isDigit_of_mem hc) (by decide)
      | negSucc n =>
        rcases List.mem_cons.mp hc with hc | hc
        · exact absurd hc (by decide)
        · exact absurd (isDigit_of_mem hc) (by decide)
    show py.readInteger ((cleanStr (integer n)).filter _) = some n
    rw [(integer_cleaned n).cleanStr_eq, hcomma, readInteger_integer]

theorem toPort_toDigits (port : Port) : py.toPort (.str (Nat.toDigits 10 port.val)) = port := by
  have hread : py.toIntOrNone (.str (Nat.toDigits 10 port.val)) = some (port.val : ℤ) :=
    toIntOrNone_optInteger (some (port.val : ℤ))
  unfold toPort
  rw [hread]
  dsimp only
  rw [dif_pos ⟨by omega, by omega⟩]
  rfl

theorem toBool_text (b : Bool) :
    py.toBool (.str (if b then "true".toList else "false".toList)) = b := by
  have hclean : ∀ s ∈ ["true".toList, "false".toList],
      cleanStr s = s ∧ s.map Char.toLower = s ∧ IsAscii s := by decide
  have hlower : ∀ s ∈ ["true".toList, "false".toList], py.lower (cleanText (.str s)) = s := by
    intro s hs
    obtain ⟨hc, hl, ha⟩ := hclean s hs
    show py.lower (cleanStr s) = s
    rw [hc, py.lower_ascii s ha, hl]
  unfold toBool
  cases b with
  | true => rw [if_pos rfl, hlower _ List.mem_cons_self]; decide
  | false => rw [if_neg (by simp), hlower _ (by simp)]; decide

/-! ### Addresses -/

/-- An address as `normalize_ip` writes it. -/
def DottedQuad (ip : Text) : Prop :=
  ∃ octets : List ℕ, octets.length = 4 ∧ (∀ o ∈ octets, o ≤ 255) ∧
    ip = ['.'].intercalate (octets.map (Nat.toDigits 10))

theorem mem_intercalate {c sep : Char} {parts : List Text}
    (h : c ∈ [sep].intercalate parts) : c = sep ∨ ∃ part ∈ parts, c ∈ part := by
  induction parts with
  | nil => exact absurd h List.not_mem_nil
  | cons part parts ih =>
    cases parts with
    | nil =>
      rw [List.intercalate_singleton] at h
      exact Or.inr ⟨part, List.mem_cons_self, h⟩
    | cons next parts =>
      rw [List.intercalate_cons_cons, List.mem_append, List.mem_append] at h
      rcases h with (h | h) | h
      · exact Or.inr ⟨part, List.mem_cons_self, h⟩
      · exact Or.inl (List.mem_singleton.mp h)
      · rcases ih h with h | ⟨part', hpart, hc⟩
        · exact Or.inl h
        · exact Or.inr ⟨part', List.mem_cons_of_mem part hpart, hc⟩

variable {ip : Text}

/-- The characters of an address. -/
theorem DottedQuad.mem (h : DottedQuad ip) {c : Char} (hc : c ∈ ip) :
    c = '.' ∨ c.isDigit = true := by
  obtain ⟨octets, -, -, rfl⟩ := h
  rcases mem_intercalate hc with hc | ⟨part, hpart, hc⟩
  · exact Or.inl hc
  · obtain ⟨o, -, rfl⟩ := List.mem_map.mp hpart
    exact Or.inr (isDigit_of_mem hc)

theorem DottedQuad.cleaned (h : DottedQuad ip) : Cleaned ip := by
  refine Cleaned.of_solid fun c hc => ?_
  rcases h.mem hc with rfl | hdigit
  · decide
  · exact solid_of_isDigit hdigit

/-- Numbers without points are what stands between the points. -/
theorem splitOn_dottedQuad {octets : List ℕ} (h : octets.length = 4) :
    (['.'].intercalate (octets.map (Nat.toDigits 10))).splitOn '.' =
      octets.map (Nat.toDigits 10) := by
  apply List.splitOn_intercalate
  · intro part hpart hdot
    obtain ⟨o, -, rfl⟩ := List.mem_map.mp hpart
    exact absurd (isDigit_of_mem hdot) (by decide)
  · intro hnil
    rw [List.map_eq_nil_iff] at hnil
    rw [hnil] at h
    cases h

/-- The digits of a number of a byte. -/
theorem isOctetText_toDigits {o : ℕ} (h : o ≤ 255) :
    py.isOctetText (Nat.toDigits 10 o) = true := by
  have hpos : 1 ≤ (Nat.toDigits 10 o).length := Nat.length_toDigits_pos
  have hlen : (Nat.toDigits 10 o).length ≤ 3 :=
    (Nat.length_toDigits_le_iff (by decide) (by decide)).mpr (by omega)
  simp only [isOctetText, Bool.and_eq_true, decide_eq_true_eq]
  exact ⟨⟨hpos, hlen⟩, all_isDecimal_toDigits o⟩

/-- **What `normalize_ip` returns** is an address or nothing. -/
theorem normalizeIp_dottedQuad {value : Value} (h : py.normalizeIp value ≠ []) :
    DottedQuad (py.normalizeIp value) := by
  unfold normalizeIp normalizeIpStr at h ⊢
  dsimp only at h ⊢
  split_ifs at h ⊢ with hparts hlarge
  · exact absurd rfl h
  · refine ⟨((cleanText value).splitOn '.').map py.number, by simpa using hparts.1, ?_,
      by rw [List.map_map]; rfl⟩
    intro o ho
    obtain ⟨part, hpart, rfl⟩ := List.mem_map.mp ho
    by_contra hover
    exact hlarge (List.any_eq_true.mpr ⟨part, hpart, by simpa using hover⟩)
  · exact absurd rfl h

/-- **An address is read back.** -/
theorem DottedQuad.normalizeIp_eq (h : DottedQuad ip) : py.normalizeIp (.str ip) = ip := by
  have hclean : cleanText (.str ip) = ip := h.cleaned.cleanStr_eq
  obtain ⟨octets, hlen, hle, rfl⟩ := h
  have hall : (octets.map (Nat.toDigits 10)).all py.isOctetText = true := by
    refine List.all_eq_true.mpr fun part hpart => ?_
    obtain ⟨o, ho, rfl⟩ := List.mem_map.mp hpart
    exact isOctetText_toDigits (hle o ho)
  have hsmall : ¬ (octets.map (Nat.toDigits 10)).any (fun part => 255 < py.number part) = true := by
    rw [List.any_eq_true]
    rintro ⟨part, hpart, hover⟩
    obtain ⟨o, ho, rfl⟩ := List.mem_map.mp hpart
    have hle := hle o ho
    simp at hover
    omega
  unfold normalizeIp normalizeIpStr
  dsimp only
  rw [hclean, splitOn_dottedQuad hlen, if_neg (not_not.mpr ⟨by simpa using hlen, hall⟩),
    if_neg hsmall, List.map_map]
  simp [Function.comp_def]

end Python

end SoftEther.Publisher

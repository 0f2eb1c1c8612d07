import Mathlib.Data.List.TakeWhile
import SoftEther.Pack.Writer

namespace SoftEther.Pack

open Lib

/-!
# The PACK reader

`pack_get_*` walks over the elements from the front: it reads an element's header, stops at the
first one with the wanted name and type and otherwise skips its values.  A cursor is the bytes
from it to the end of the body, so a read past the end fails.

* `packReadUint32Safe`, …, `packSkipValueSafe` — the bounds-checked primitives;
* `packMatchElement` — one element: malformed, wanted, or skipped;
* `packGet` — the loop the four readers share, and `packGetInt`, `packGetInt64`, `packGetStr`,
  `packGetData`;
* `firstAdded` — what a lookup is for: the first value added under a name;
* `pack_get_first` — the readers return it from the bytes the writer produced.
-/

abbrev PACK_MAX_ELEMENTS : ℕ := 4096
abbrev PACK_MAX_VALUES : ℕ := 65535

/-! ### Primitives -/

/-- The bytes from the cursor to the end of the body. -/
abbrev Cursor := List UInt8

/-- `pack_read_uint32_safe`. -/
def packReadUint32Safe (p : Cursor) : Option (ℕ × Cursor) :=
  (takeBytes 4 p).map fun read => (beVal read.1, read.2)

/-- `pack_read_uint64_safe`. -/
def packReadUint64Safe (p : Cursor) : Option (ℕ × Cursor) :=
  (takeBytes 8 p).map fun read => (beVal read.1, read.2)

/-- `pack_skip_bytes_safe`. -/
def packSkipBytesSafe (p : Cursor) (len : ℕ) : Option Cursor :=
  (takeBytes len p).map Prod.snd

/-- The C string at the start of some bytes. -/
def cString (bytes : List UInt8) : List UInt8 := bytes.takeWhile (· ≠ 0)

/-- `pack_read_string_safe`: the string left in an output buffer of `outSize` bytes. -/
def packReadStringSafe (p : Cursor) (outSize : ℕ) : Option (List UInt8 × Cursor) := do
  let (len, p) ← packReadUint32Safe p
  let (bytes, p) ← takeBytes len p
  let copyLen := if len < outSize - 1 then len else outSize - 1
  return (cString (bytes.take copyLen), p)

/-- `pack_skip_value_safe`. -/
def packSkipValueSafe (p : Cursor) (type : ℕ) : Option Cursor :=
  if type = PACK_TYPE_INT then packSkipBytesSafe p 4
  else if type = PACK_TYPE_INT64 then packSkipBytesSafe p 8
  else if type = PACK_TYPE_STR ∨ type = PACK_TYPE_UNISTR ∨ type = PACK_TYPE_DATA then do
    let (len, p) ← packReadUint32Safe p
    packSkipBytesSafe p len
  else none

/-- The loop that skips the values of an element. -/
def packSkipValues (type : ℕ) : ℕ → Cursor → Option Cursor
  | 0, p => some p
  | n + 1, p =>
    match packSkipValueSafe p type with
    | none => none
    | some p => packSkipValues type n p

/-- `pack_match_element`: `none` for malformed data, `true` with the cursor at the first value
    on a match, `false` with the cursor behind the element otherwise. -/
def packMatchElement (p : Cursor) (fieldName : CStr) (type : ℕ) : Option (Bool × Cursor) := do
  let (nameLenPlus1, p) ← packReadUint32Safe p
  if nameLenPlus1 = 0 then none
  else
    let nameLen := nameLenPlus1 - 1
    let (name, p) ← takeBytes nameLen p
    -- `char elem[64] = {0}`: what lies beyond 63 bytes is not compared.
    let elem := cString (name.take (if nameLen < 63 then nameLen else 63))
    let (elemType, p) ← packReadUint32Safe p
    let (numValues, p) ← packReadUint32Safe p
    if numValues > PACK_MAX_VALUES then none
    else if elem = fieldName.bytes ∧ elemType = type ∧ numValues ≥ 1 then some (true, p)
    else (packSkipValues elemType numValues p).map fun p => (false, p)

/-! ### The readers -/

variable {α : Type*}

/-- The loop over the elements. -/
def packGetLoop (read : Cursor → Option α) (fieldName : CStr) (type : ℕ) : ℕ → Cursor → Option α
  | 0, _ => none
  | n + 1, p =>
    match packMatchElement p fieldName type with
    | none => none
    | some (true, p) => read p
    | some (false, p) => packGetLoop read fieldName type n p

/-- What the four readers have in common; `none` is the return value -1. -/
def packGet (read : Cursor → Option α) (body : List UInt8) (fieldName : CStr) (type : ℕ) :
    Option α :=
  if body.length < 4 then none
  else
    match packReadUint32Safe body with
    | none => none
    | some (numElements, p) =>
      if numElements > PACK_MAX_ELEMENTS then none
      else packGetLoop read fieldName type numElements p

/-- `pack_get_int`. -/
def packGetInt (body : List UInt8) (fieldName : CStr) : Option ℕ :=
  packGet (fun p => (packReadUint32Safe p).map Prod.fst) body fieldName PACK_TYPE_INT

/-- `pack_get_int64`. -/
def packGetInt64 (body : List UInt8) (fieldName : CStr) : Option ℕ :=
  packGet (fun p => (packReadUint64Safe p).map Prod.fst) body fieldName PACK_TYPE_INT64

/-- `pack_get_str` with an output buffer of `outSize` bytes. -/
def packGetStr (body : List UInt8) (fieldName : CStr) (outSize : ℕ) : Option (List UInt8) :=
  if outSize = 0 then none
  else packGet (fun p => (packReadStringSafe p outSize).map Prod.fst) body fieldName PACK_TYPE_STR

/-- What `pack_get_data` does with the value it found: the bytes copied, as many as `out_len`
    says. -/
def packReadDataVal (outSize : ℕ) (p : Cursor) : Option (List UInt8) := do
  let (dataLen, p) ← packReadUint32Safe p
  let (data, _) ← takeBytes dataLen p
  return data.take (if dataLen < outSize then dataLen else outSize)

/-- `pack_get_data` with an output buffer of `outSize` bytes. -/
def packGetData (body : List UInt8) (fieldName : CStr) (outSize : ℕ) : Option (List UInt8) :=
  if outSize = 0 then none
  else packGet (packReadDataVal outSize) body fieldName PACK_TYPE_DATA

/-! ### What a lookup is for -/

def Value.int? : Value → Option ℕ
  | .int val => some val.toNat
  | _ => none

def Value.int64? : Value → Option ℕ
  | .int64 val => some val.toNat
  | _ => none

def Value.str? : Value → Option (List UInt8)
  | .str val => some val.bytes
  | _ => none

def Value.data? : Value → Option (List UInt8)
  | .data bytes _ => some bytes
  | _ => none

/-- The first value added under `name` that `sel` selects. -/
def firstAdded (sel : Value → Option α) (adds : List Add) (name : CStr) : Option α :=
  adds.findSome? fun a => if a.name = name then sel a.value else none

/-- The four readers return the first value added under each name, with `strCut` and
    `dataCut` for what an output buffer of a given size keeps of a value. -/
structure Agrees (strCut dataCut : ℕ → List UInt8 → List UInt8) (body : List UInt8)
    (adds : List Add) : Prop where
  int : ∀ name, packGetInt body name = firstAdded Value.int? adds name
  int64 : ∀ name, packGetInt64 body name = firstAdded Value.int64? adds name
  str : ∀ name outSize, 0 < outSize →
    packGetStr body name outSize = (firstAdded Value.str? adds name).map (strCut outSize)
  data : ∀ name outSize, 0 < outSize →
    packGetData body name outSize = (firstAdded Value.data? adds name).map (dataCut outSize)

/-! ### One element -/

theorem packReadUint32Safe_append {v : ℕ} (h : v < 2 ^ 32) (rest : Cursor) :
    packReadUint32Safe (beBytes 4 v ++ rest) = some (v, rest) := by
  rw [packReadUint32Safe, takeBytes_append (beBytes_length 4 v), Option.map_some,
    beVal_beBytes_of_lt (by omega)]

theorem packReadUint64Safe_append {v : ℕ} (h : v < 2 ^ 64) (rest : Cursor) :
    packReadUint64Safe (beBytes 8 v ++ rest) = some (v, rest) := by
  rw [packReadUint64Safe, takeBytes_append (beBytes_length 8 v), Option.map_some,
    beVal_beBytes_of_lt (by omega)]

/-- A string without NUL is the C string of its bytes. -/
theorem cString_of_nulFree {bytes : List UInt8} (h : 0 ∉ bytes) : cString bytes = bytes := by
  rw [cString, List.takeWhile_eq_self_iff]
  intro b hb
  have hne : b ≠ 0 := fun h0 => h (h0 ▸ hb)
  simpa using hne

/-- The value of an element of any type is skipped to its end. -/
theorem packSkipValueSafe_append (v : Value) (hsize : (encodeValue v).length < 2 ^ 32)
    (rest : Cursor) : packSkipValueSafe (encodeValue v ++ rest) v.type = some rest := by
  have hskip : ∀ (field : List UInt8) (n : ℕ), field.length = n →
      packSkipBytesSafe (field ++ rest) n = some rest := by
    intro field n hn
    rw [packSkipBytesSafe, takeBytes_append hn, Option.map_some]
  cases v with
  | int val => exact hskip _ 4 (beBytes_length 4 _)
  | int64 val => exact hskip _ 8 (beBytes_length 8 _)
  | str val =>
    rw [encodeValue_str_length] at hsize
    simp only [packSkipValueSafe, encodeValue, Value.type, List.append_assoc]
    rw [packReadUint32Safe_append (by omega)]
    exact hskip _ _ rfl
  | data data dlen =>
    simp only [packSkipValueSafe, encodeValue, Value.type, List.append_assoc]
    rw [packReadUint32Safe_append (Nat.lt_of_le_of_lt dlen (by decide))]
    exact hskip _ _ rfl

/-- **One element.** The header is read back; the element is the wanted one when its name and
    type are, and skipped to its end otherwise. -/
theorem packMatchElement_append {a : Add} (hfits : a.Fits) (fieldName : CStr) (type : ℕ)
    (rest : Cursor) :
    packMatchElement (encodeElem a ++ rest) fieldName type =
      if a.name = fieldName ∧ a.value.type = type then
        some (true, encodeValue a.value ++ rest)
      else some (false, rest) := by
  obtain ⟨hname, hsize⟩ := hfits
  rw [encodeElem_length] at hsize
  have htype : a.value.type < 2 ^ 32 := by
    cases a.value <;> simp only [Value.type] <;> decide
  have hcopy : (if a.name.strlen < 63 then a.name.strlen else 63) = a.name.strlen := by
    split <;> omega
  have helem : cString (a.name.bytes.take a.name.strlen) = a.name.bytes := by
    rw [CStr.strlen, List.take_length, cString_of_nulFree a.name.nulFree]
  have hsame : a.name.bytes = fieldName.bytes ↔ a.name = fieldName :=
    ⟨CStr.ext, congrArg CStr.bytes⟩
  simp only [packMatchElement, encodeElem, List.append_assoc]
  rw [packReadUint32Safe_append (by omega)]
  simp only [Option.bind_eq_bind, Option.bind_some, Nat.add_eq_zero_iff, one_ne_zero, and_false,
    if_false, Nat.add_sub_cancel]
  rw [takeBytes_append (n := a.name.strlen) rfl]
  simp only [Option.bind_some]
  rw [packReadUint32Safe_append htype, Option.bind_some, packReadUint32Safe_append (by decide),
    Option.bind_some, hcopy, helem]
  -- One value, which is at most `PACK_MAX_VALUES`.
  have hone : ¬ 1 > PACK_MAX_VALUES := by decide
  simp only [hone, if_false, hsame, packSkipValues,
    packSkipValueSafe_append a.value (by omega) rest, le_refl, and_true, Option.map_some]

/-! ### The loop -/

/-- `read` is the reader of the values that `sel` selects, the values of type `type`, whatever
    follows them in the body. -/
structure Reads (read : Cursor → Option α) (sel : Value → Option α) (type : ℕ) : Prop where
  other : ∀ v : Value, v.type ≠ type → sel v = none
  value : ∀ v : Value, v.type = type → (encodeValue v).length < 2 ^ 32 → ∀ rest,
    read (encodeValue v ++ rest) = sel v
  some : ∀ v : Value, v.type = type → (sel v).isSome

/-- **The walk.** Over encoded elements the loop reads the first one whose name and type are
    wanted. -/
theorem packGetLoop_flatMap {read : Cursor → Option α} {sel : Value → Option α} {type : ℕ}
    (hreads : Reads read sel type) {adds : List Add} (hfits : ∀ a ∈ adds, a.Fits)
    (fieldName : CStr) :
    packGetLoop read fieldName type adds.length (adds.flatMap encodeElem) =
      firstAdded sel adds fieldName := by
  induction adds with
  | nil => rfl
  | cons a adds ih =>
    have hrest := ih (fun b hb => hfits b (List.mem_cons_of_mem _ hb))
    have hfit := hfits a List.mem_cons_self
    rw [List.length_cons, packGetLoop, List.flatMap_cons,
      packMatchElement_append hfit]
    by_cases hmatch : a.name = fieldName ∧ a.value.type = type
    · -- The wanted element: the value is read, the rest of the body is not looked at.
      obtain ⟨x, hx⟩ := Option.isSome_iff_exists.mp (hreads.some a.value hmatch.2)
      rw [if_pos hmatch]
      simp only [hreads.value a.value hmatch.2 hfit.value_length]
      rw [firstAdded, List.findSome?_cons, if_pos hmatch.1, hx]
    · have hnone : (if a.name = fieldName then sel a.value else none) = none := by
        split_ifs with hname
        · exact hreads.other _ fun htype => hmatch ⟨hname, htype⟩
        · rfl
      rw [if_neg hmatch]
      simp only [hrest]
      rw [firstAdded, firstAdded, List.findSome?_cons, hnone]

/-- There is no element in an empty rest. -/
theorem packGetLoop_nil (read : Cursor → Option α) (fieldName : CStr) (type n : ℕ) :
    packGetLoop read fieldName type n [] = none := by
  cases n with
  | zero => rfl
  | succ n => rfl

/-- **A reader on the writer's bytes.** -/
theorem packGet_holds {read : Cursor → Option α} {sel : Value → Option α} {type : ℕ}
    (hreads : Reads read sel type) {p : SoftetherPack} {adds : List Add} (hp : Holds p adds)
    (hcount : adds.length ≤ PACK_MAX_ELEMENTS) (hfits : ∀ a ∈ adds, a.Fits) (fieldName : CStr) :
    packGet read p.bytes fieldName type = firstAdded sel adds fieldName := by
  have hbytes : p.bytes = p.data := by
    rw [SoftetherPack.bytes, hp.len, List.take_length]
  have hlen : ¬ p.data.length < 4 := by
    have := hp.header
    rw [hp.len] at this
    omega
  rw [hbytes, packGet, if_neg hlen]
  by_cases hempty : adds = []
  · -- Nothing was added: the count may be anything, there is no element to read.
    subst hempty
    have hnil : p.data.drop 4 = [] := hp.body
    have hread : packReadUint32Safe p.data = some (beVal (p.data.take 4), []) := by
      rw [packReadUint32Safe, takeBytes, if_neg hlen, hnil, Option.map_some]
    simp only [hread]
    split_ifs
    · rfl
    · exact packGetLoop_nil read fieldName type _
  · have hsplit : p.data = beBytes 4 adds.length ++ adds.flatMap encodeElem := by
      rw [← hp.patched hempty, ← hp.body, List.take_append_drop]
    have hcount32 : adds.length < 2 ^ 32 := Nat.lt_of_le_of_lt hcount (by decide)
    rw [hsplit, packReadUint32Safe_append hcount32]
    simp only [gt_iff_lt, Nat.not_lt.mpr hcount, if_false]
    exact packGetLoop_flatMap hreads hfits fieldName

/-! ### Agreement of writer and reader -/

/-- A call whose element is part of a body shorter than `2 ^ 32` fits on its own. -/
theorem fits_of_total {adds : List (Add × Bool)} (hnames : ∀ c ∈ adds, c.1.name.strlen ≤ 63)
    (htotal : 4 + ((adds.map Prod.fst).flatMap encodeElem).length < 2 ^ 32) :
    ∀ c ∈ adds, c.1.Fits := by
  intro c hc
  refine ⟨hnames c hc, ?_⟩
  have hmem : encodeElem c.1 ∈ (adds.map Prod.fst).map encodeElem :=
    List.mem_map_of_mem (List.mem_map_of_mem hc)
  have hsub := (List.sublist_flatten_of_mem hmem).length_le
  rw [← List.flatMap_def] at hsub
  omega

/-- What is read of a string value, with the output buffer's terminating NUL set aside. -/
theorem packReadStringSafe_append {val : CStr} (h : val.strlen < 2 ^ 32) (outSize : ℕ)
    (rest : Cursor) :
    packReadStringSafe (encodeValue (.str val) ++ rest) outSize =
      some (val.bytes.take (outSize - 1), rest) := by
  have htake : val.bytes.take (if val.strlen < outSize - 1 then val.strlen else outSize - 1) =
      val.bytes.take (outSize - 1) := by
    split_ifs with hshort
    · rw [CStr.strlen, List.take_length, List.take_of_length_le (le_of_lt hshort)]
    · rfl
  have hnul : 0 ∉ val.bytes.take (outSize - 1) := fun h0 =>
    val.nulFree (List.mem_of_mem_take h0)
  simp only [packReadStringSafe, encodeValue, List.append_assoc]
  rw [packReadUint32Safe_append h]
  simp only [Option.bind_eq_bind, Option.bind_some]
  rw [takeBytes_append (n := val.strlen) rfl]
  simp only [Option.bind_some, htake, cString_of_nulFree hnul]
  rfl

theorem reads_int :
    Reads (fun p => (packReadUint32Safe p).map Prod.fst) Value.int? PACK_TYPE_INT where
  other v hv := by
    cases v <;> first | rfl | exact absurd rfl hv
  value v hv _ rest := by
    cases v with
    | int val => rw [encodeValue, packReadUint32Safe_append val.toNat_lt]; rfl
    | _ => simp [Value.type] at hv
  some v hv := by
    cases v with
    | int val => rfl
    | _ => simp [Value.type] at hv

theorem reads_int64 :
    Reads (fun p => (packReadUint64Safe p).map Prod.fst) Value.int64? PACK_TYPE_INT64 where
  other v hv := by
    cases v <;> first | rfl | exact absurd rfl hv
  value v hv _ rest := by
    cases v with
    | int64 val => rw [encodeValue, packReadUint64Safe_append val.toNat_lt]; rfl
    | _ => simp [Value.type] at hv
  some v hv := by
    cases v with
    | int64 val => rfl
    | _ => simp [Value.type] at hv

theorem reads_str (outSize : ℕ) :
    Reads (fun p => (packReadStringSafe p outSize).map Prod.fst)
      (fun v => v.str?.map fun s => s.take (outSize - 1)) PACK_TYPE_STR where
  other v hv := by
    cases v <;> first | rfl | exact absurd rfl hv
  value v hv hlen rest := by
    cases v with
    | str val =>
      rw [encodeValue_str_length] at hlen
      rw [packReadStringSafe_append (by omega)]
      rfl
    | _ => simp [Value.type] at hv
  some v hv := by
    cases v with
    | str val => rfl
    | _ => simp [Value.type] at hv

theorem reads_data (outSize : ℕ) :
    Reads (packReadDataVal outSize) (fun v => v.data?.map fun d => d.take outSize)
      PACK_TYPE_DATA where
  other v hv := by
    cases v <;> first | rfl | exact absurd rfl hv
  value v hv _ rest := by
    cases v with
    | data bytes dlen =>
      have hcut : bytes.take (if bytes.length < outSize then bytes.length else outSize) =
          bytes.take outSize := by
        split_ifs with hshort
        · rw [List.take_length, List.take_of_length_le (le_of_lt hshort)]
        · rfl
      simp only [packReadDataVal, encodeValue, List.append_assoc]
      rw [packReadUint32Safe_append (Nat.lt_of_le_of_lt dlen (by decide))]
      simp only [Option.bind_eq_bind, Option.bind_some]
      rw [takeBytes_append rfl]
      simp only [Option.bind_some, hcut]
      rfl
    | _ => simp [Value.type] at hv
  some v hv := by
    cases v with
    | data bytes dlen => rfl
    | _ => simp [Value.type] at hv

/-- A reader that cuts a selected value finds the first one cut. -/
theorem firstAdded_map {β : Type*} (sel : Value → Option α) (f : α → β) (adds : List Add)
    (name : CStr) :
    firstAdded (fun v => (sel v).map f) adds name = (firstAdded sel adds name).map f := by
  induction adds with
  | nil => rfl
  | cons a adds ih =>
    simp only [firstAdded, List.findSome?_cons] at ih ⊢
    by_cases hname : a.name = name
    · rw [if_pos hname, if_pos hname]
      cases sel a.value with
      | none => exact ih
      | some x => rfl
    · rw [if_neg hname, if_neg hname]
      exact ih

/-- **Codec agreement.** After at most 4096 successful calls with names of at most 63 bytes,
    in a body shorter than `2 ^ 32`, each reader returns the first value added under the exact
    name with its type, and -1 when there is none; of a string or data value it returns what
    the output buffer holds. -/
theorem pack_get_first (placeholder : List UInt8) (hplaceholder : placeholder.length = 4)
    (adds : List (Add × Bool)) (hcount : adds.length ≤ 4096)
    (hnames : ∀ c ∈ adds, c.1.name.strlen ≤ 63)
    (htotal : 4 + ((adds.map Prod.fst).flatMap encodeElem).length < 2 ^ 32)
    (p : SoftetherPack) (hadds : packAddAll (packNew placeholder) adds = some p) :
    Agrees (fun outSize s => s.take (outSize - 1)) (fun outSize d => d.take outSize) p.bytes
      (adds.map Prod.fst) := by
  have hfits := fits_of_total hnames htotal
  have hfits' : ∀ a ∈ adds.map Prod.fst, a.Fits := by
    intro a ha
    obtain ⟨c, hc, rfl⟩ := List.mem_map.mp ha
    exact hfits c hc
  have hlen : (adds.map Prod.fst).length ≤ PACK_MAX_ELEMENTS := by
    rw [List.length_map]
    exact hcount
  have hp : Holds p (adds.map Prod.fst) :=
    packAddAll_holds (holds_packNew hplaceholder) hfits
      (by rw [List.length_nil]; omega) hadds
  constructor
  · exact packGet_holds reads_int hp hlen hfits'
  · exact packGet_holds reads_int64 hp hlen hfits'
  · intro name outSize hout
    rw [packGetStr, if_neg (by omega), packGet_holds (reads_str outSize) hp hlen hfits',
      firstAdded_map]
  · intro name outSize hout
    rw [packGetData, if_neg (by omega), packGet_holds (reads_data outSize) hp hlen hfits',
      firstAdded_map]

/-- Two values under one name, of which the second is a string. -/
def sampleAdds : List (Add × Bool) :=
  [(⟨⟨[97], by decide⟩, .int 7⟩, true),
    (⟨⟨[97], by decide⟩, .str ⟨[120, 121, 122], by decide⟩⟩, true)]

theorem pack_get_first_sample :
    ∃ p, packAddAll (packNew [1, 2, 3, 4]) sampleAdds = some p ∧
      Agrees (fun outSize s => s.take (outSize - 1)) (fun outSize d => d.take outSize) p.bytes
        (sampleAdds.map Prod.fst) :=
  ⟨_, rfl, pack_get_first [1, 2, 3, 4] rfl sampleAdds (by decide) (by decide) (by decide) _ rfl⟩

/-- A string is cut to an output buffer that is too small for it. -/
theorem pack_get_first_fails :
    ¬ ∀ (placeholder : List UInt8), placeholder.length = 4 → ∀ adds : List (Add × Bool),
      adds.length ≤ 4096 → (∀ c ∈ adds, c.1.name.strlen ≤ 63) →
      4 + ((adds.map Prod.fst).flatMap encodeElem).length < 2 ^ 32 →
      ∀ p, packAddAll (packNew placeholder) adds = some p →
        Agrees (fun _ s => s) (fun _ d => d) p.bytes (adds.map Prod.fst) := by
  intro hall
  have hagrees := hall [1, 2, 3, 4] rfl sampleAdds (by decide) (by decide) (by decide) _ rfl
  have hstr := hagrees.str ⟨[97], by decide⟩ 2 (by decide)
  exact absurd hstr (by decide)

end SoftEther.Pack

import SoftEther.Lib.Scan
import SoftEther.Pack.Reader

namespace SoftEther.Pack.Bounds

open Lib

/-!
# The PACK readers on pointers

The readers of `softether_pack.c` and their copies in `softether_protocol.c`, with the pointer they
move.  Each check is `*p + len > end` with a length from the body, and the sum is a pointer.

* `packReadUint32Safe`, …, `packMatchElement` — the primitives, as walks;
* `packGetInt`, …, `parseServerHello` — the readers;
* `ParseCall` — a call of one of them;
* `InBoundsTerminating` — what is wanted of a call on a body at any address;
* `pack_parsing_iff` — a call has it exactly when no length it asks for wraps;
* `inBounds_of_room` — with 4 GiB of addresses behind the body none does.
-/

/-! ### Primitives -/

/-- `pack_read_uint32_safe`. -/
def packReadUint32Safe : Scan UInt32 :=
  .take true 4 4 fun bytes => .done (UInt32.ofNat (beVal bytes))

/-- `pack_read_uint64_safe`. -/
def packReadUint64Safe : Scan UInt64 :=
  .take true 8 8 fun bytes => .done (UInt64.ofNat (beVal bytes))

/-- `pack_skip_bytes_safe`. -/
def packSkipBytesSafe (len : UInt32) : Scan Unit := .take true len 0 fun _ => .done ()

/-- `pack_read_string_safe`: the string left in an output buffer of `outSize` bytes. -/
def packReadStringSafe (outSize : ℕ) : Scan (List UInt8) := do
  let len ← packReadUint32Safe
  .take false len (outSize - 1) fun bytes => .done (cString bytes)

/-- `pack_read_data_safe`: the bytes copied. -/
def packReadDataSafe (outSize : ℕ) : Scan (List UInt8) := do
  let dataLen ← packReadUint32Safe
  .take false dataLen outSize .done

/-- `pack_skip_value_safe`. -/
def packSkipValueSafe (type : UInt32) : Scan Unit :=
  if type.toNat = PACK_TYPE_INT then packSkipBytesSafe 4
  else if type.toNat = PACK_TYPE_INT64 then packSkipBytesSafe 8
  else if type.toNat = PACK_TYPE_STR ∨ type.toNat = PACK_TYPE_UNISTR ∨
      type.toNat = PACK_TYPE_DATA then do
    let len ← packReadUint32Safe
    packSkipBytesSafe len
  else .fail

/-- The loop that skips values. -/
def packSkipValues (type : UInt32) : ℕ → Scan Unit
  | 0 => .done ()
  | n + 1 => do
    packSkipValueSafe type
    packSkipValues type n

/-- The header of an element, the same lines in every reader: name, type, number of values. -/
def packReadElemHeader : Scan (List UInt8 × UInt32 × UInt32) := do
  let nameLenPlus1 ← packReadUint32Safe
  if nameLenPlus1 = 0 then .fail
  else
    -- `char elem[64] = {0}` takes 63 bytes of the name
    let name ← .take false (nameLenPlus1 - 1) 63 .done
    let elemType ← packReadUint32Safe
    let numValues ← packReadUint32Safe
    if numValues.toNat > PACK_MAX_VALUES then .fail
    else .done (cString name, elemType, numValues)

/-- `pack_match_element`. -/
def packMatchElement (fieldName : CStr) (type : ℕ) : Scan Bool := do
  let (elem, elemType, numValues) ← packReadElemHeader
  if elem = fieldName.bytes ∧ elemType.toNat = type ∧ numValues.toNat ≥ 1 then .done true
  else do
    packSkipValues elemType numValues.toNat
    .done false

/-! ### The readers -/

variable {α : Type}

/-- The loop over the elements. -/
def packGetLoop (read : Scan (Answer α)) (fieldName : CStr) (type : ℕ) : ℕ → Scan (Answer α)
  | 0 => .fail
  | n + 1 => do
    if ← packMatchElement fieldName type then read
    else packGetLoop read fieldName type n

/-- What the readers have in common, over a body of `bodyLen` bytes. -/
def packGet (read : Scan (Answer α)) (bodyLen : ℕ) (fieldName : CStr) (type : ℕ) :
    Scan (Answer α) :=
  if bodyLen < 4 then .fail
  else do
    let numElements ← packReadUint32Safe
    if numElements.toNat > PACK_MAX_ELEMENTS then .fail
    else packGetLoop read fieldName type numElements.toNat

def readInt : Scan (Answer ℕ) := do
  let val ← packReadUint32Safe
  .done (.value val.toNat)

def readInt64 : Scan (Answer ℕ) := do
  let val ← packReadUint64Safe
  .done (.value val.toNat)

def readStr (outSize : ℕ) : Scan (Answer (List UInt8)) := do
  let str ← packReadStringSafe outSize
  .done (.value str)

/-- `softether_protocol.c` copies the string and leaves the pointer at it. -/
def protocolReadStr (outSize : ℕ) : Scan (Answer (List UInt8)) := do
  let strLen ← packReadUint32Safe
  .done (.copy strLen (outSize - 1) cString)

def readData (outSize : ℕ) : Scan (Answer (List UInt8)) := do
  let dataLen ← packReadUint32Safe
  .done (.copy dataLen outSize id)

/-- `pack_get_int`. -/
def packGetInt (bodyLen : ℕ) (fieldName : CStr) : Scan (Answer ℕ) :=
  packGet readInt bodyLen fieldName PACK_TYPE_INT

/-- `pack_get_int64`. -/
def packGetInt64 (bodyLen : ℕ) (fieldName : CStr) : Scan (Answer ℕ) :=
  packGet readInt64 bodyLen fieldName PACK_TYPE_INT64

/-- `pack_get_str`. -/
def packGetStr (bodyLen : ℕ) (fieldName : CStr) (outSize : ℕ) : Scan (Answer (List UInt8)) :=
  if outSize = 0 then .fail
  else packGet (readStr outSize) bodyLen fieldName PACK_TYPE_STR

/-- `pack_get_data`. -/
def packGetData (bodyLen : ℕ) (fieldName : CStr) (outSize : ℕ) : Scan (Answer (List UInt8)) :=
  if outSize = 0 then .fail
  else packGet (readData outSize) bodyLen fieldName PACK_TYPE_DATA

/-- `pack_get_int` of `softether_protocol.c`. -/
def protocolPackGetInt (bodyLen : ℕ) (fieldName : CStr) : Scan (Answer ℕ) :=
  packGet readInt bodyLen fieldName PACK_TYPE_INT

/-- `pack_get_str` of `softether_protocol.c`. -/
def protocolPackGetStr (bodyLen : ℕ) (fieldName : CStr) (outSize : ℕ) :
    Scan (Answer (List UInt8)) :=
  if outSize = 0 then .fail
  else packGet (protocolReadStr outSize) bodyLen fieldName PACK_TYPE_STR

/-- `pack_get_data` of `softether_protocol.c`. -/
def protocolPackGetData (bodyLen : ℕ) (fieldName : CStr) (outSize : ℕ) :
    Scan (Answer (List UInt8)) :=
  if outSize = 0 then .fail
  else packGet (readData outSize) bodyLen fieldName PACK_TYPE_DATA

/-! ### The server's Hello -/

abbrev SHA1_SIZE : ℕ := 20

/-- `server_hello_info_t`. -/
structure ServerHelloInfo where
  version : UInt32
  build : UInt32
  random : List UInt8
  helloString : List UInt8
  hasHello : Bool
  hasVersion : Bool
  hasRandom : Bool

/-- The info after `memset`. -/
def ServerHelloInfo.zero : ServerHelloInfo where
  version := 0
  build := 0
  random := List.replicate SHA1_SIZE 0
  helloString := []
  hasHello := false
  hasVersion := false
  hasRandom := false

/-- The bytes of an ASCII literal. -/
def ascii (s : String) : List UInt8 := s.toList.map fun c => UInt8.ofNat c.toNat

/-- One element of the Hello: the first value is read, the others are skipped. -/
def helloElement (info : ServerHelloInfo) : Scan ServerHelloInfo := do
  let (elementName, type, numValues) ← packReadElemHeader
  if numValues.toNat > 0 then
    if elementName = ascii "hello" ∧ type.toNat = PACK_TYPE_STR then do
      let hello ← packReadStringSafe 64
      packSkipValues type (numValues.toNat - 1)
      .done { info with helloString := hello, hasHello := true }
    else if elementName = ascii "version" ∧ type.toNat = PACK_TYPE_INT then do
      let version ← packReadUint32Safe
      packSkipValues type (numValues.toNat - 1)
      .done { info with version := version, hasVersion := true }
    else if elementName = ascii "random" ∧ type.toNat = PACK_TYPE_DATA then do
      let random ← packReadDataSafe SHA1_SIZE
      packSkipValues type (numValues.toNat - 1)
      -- a shorter value leaves the rest as it was
      .done { info with random := random ++ info.random.drop random.length, hasRandom := true }
    else do
      packSkipValues type numValues.toNat
      .done info
  else .done info

/-- The elements of the hello. -/
def helloLoop : ℕ → ServerHelloInfo → Scan (Answer ServerHelloInfo)
  | 0, info => .done (.value info)
  | n + 1, info => do
    let info ← helloElement info
    helloLoop n info

/-- `parse_server_hello`. -/
def parseServerHello (bodyLen : ℕ) : Scan (Answer ServerHelloInfo) :=
  if bodyLen < 4 then .fail
  else do
    let numElements ← packReadUint32Safe
    if numElements.toNat > 4096 then .fail
    else helloLoop numElements.toNat .zero

/-! ### Calls -/

/-- A call of one of the parsing functions. -/
inductive ParseCall
  | packGetInt (fieldName : CStr)
  | packGetInt64 (fieldName : CStr)
  | packGetStr (fieldName : CStr) (outSize : ℕ)
  | packGetData (fieldName : CStr) (outSize : ℕ)
  | protocolPackGetInt (fieldName : CStr)
  | protocolPackGetStr (fieldName : CStr) (outSize : ℕ)
  | protocolPackGetData (fieldName : CStr) (outSize : ℕ)
  | parseServerHello

/-- What a call returns. -/
abbrev ParseCall.Result : ParseCall → Type
  | .packGetInt _ | .packGetInt64 _ | .protocolPackGetInt _ => ℕ
  | .packGetStr _ _ | .packGetData _ _ | .protocolPackGetStr _ _ | .protocolPackGetData _ _ =>
    List UInt8
  | .parseServerHello => ServerHelloInfo

/-- The walk of a call over a body of `bodyLen` bytes. -/
def ParseCall.walk (bodyLen : ℕ) : (call : ParseCall) → Scan (Answer call.Result)
  | .packGetInt fieldName => Bounds.packGetInt bodyLen fieldName
  | .packGetInt64 fieldName => Bounds.packGetInt64 bodyLen fieldName
  | .packGetStr fieldName outSize => Bounds.packGetStr bodyLen fieldName outSize
  | .packGetData fieldName outSize => Bounds.packGetData bodyLen fieldName outSize
  | .protocolPackGetInt fieldName => Bounds.protocolPackGetInt bodyLen fieldName
  | .protocolPackGetStr fieldName outSize => Bounds.protocolPackGetStr bodyLen fieldName outSize
  | .protocolPackGetData fieldName outSize => Bounds.protocolPackGetData bodyLen fieldName outSize
  | .parseServerHello => Bounds.parseServerHello bodyLen

/-- The pointer widths of the shipped ABIs. -/
inductive PtrWidth
  | w32
  | w64

abbrev PtrWidth.bits : PtrWidth → ℕ
  | .w32 => 32
  | .w64 => 64

theorem PtrWidth.le_bits (width : PtrWidth) : 32 ≤ width.bits := by
  cases width <;> decide

variable {bits : ℕ}

/-- A call on the body `b`. -/
def ParseCall.parse (call : ParseCall) (b : Block bits) : Trace call.Result :=
  (call.walk b.len).machine b b.base

/-- The lengths a call asks for in a body with these bytes. -/
def ParseCall.demands (call : ParseCall) (body : List UInt8) : List Demand :=
  (call.walk body.length).demands 0 body

/-! ### The number of accesses -/

/-- A bound on the accesses of a call: the counts of elements and values are bounded. -/
abbrev MAX_ACCESSES : ℕ := 1 + (PACK_MAX_ELEMENTS * (4 + 2 * PACK_MAX_VALUES) + 2) + 1

theorem packReadUint32Safe_atMost : packReadUint32Safe.AtMost 1 := fun _ => trivial

theorem packReadUint64Safe_atMost : packReadUint64Safe.AtMost 1 := fun _ => trivial

theorem packSkipBytesSafe_atMost (len : UInt32) : (packSkipBytesSafe len).AtMost 1 :=
  fun _ => trivial

theorem packReadStringSafe_atMost (outSize : ℕ) : (packReadStringSafe outSize).AtMost 2 :=
  packReadUint32Safe_atMost.bind (n := 1) fun _ _ => trivial

theorem packReadDataSafe_atMost (outSize : ℕ) : (packReadDataSafe outSize).AtMost 2 :=
  packReadUint32Safe_atMost.bind (n := 1) fun _ _ => trivial

theorem packSkipValueSafe_atMost (type : UInt32) : (packSkipValueSafe type).AtMost 2 := by
  unfold packSkipValueSafe
  split_ifs
  · exact (packSkipBytesSafe_atMost 4).mono (by decide)
  · exact (packSkipBytesSafe_atMost 8).mono (by decide)
  · exact packReadUint32Safe_atMost.bind packSkipBytesSafe_atMost
  · exact Scan.atMost_fail 2

theorem packSkipValues_atMost (type : UInt32) (n : ℕ) : (packSkipValues type n).AtMost (2 * n) := by
  induction n with
  | zero => exact trivial
  | succ n ih =>
    have hstep := (packSkipValueSafe_atMost type).bind fun _ => ih
    exact hstep.mono (by omega)

/-- The header of an element takes four steps, and allows only so many values. -/
theorem packReadElemHeader_atMost {n : ℕ} {f : List UInt8 × UInt32 × UInt32 → Scan α}
    (hf : ∀ r, r.2.2.toNat ≤ PACK_MAX_VALUES → (f r).AtMost n) :
    (packReadElemHeader >>= f).AtMost (n + 4) := by
  rw [packReadElemHeader, packReadUint32Safe]
  simp only [Scan.take_bind, Scan.done_bind]
  intro nameLen
  beta_reduce
  by_cases hzero : UInt32.ofNat (beVal nameLen) = 0
  · rw [if_pos hzero]
    exact Scan.atMost_fail _
  · rw [if_neg hzero]
    simp only [Scan.take_bind]
    intro name elemType numValues
    beta_reduce
    by_cases hmax : (UInt32.ofNat (beVal numValues)).toNat > PACK_MAX_VALUES
    · rw [if_pos hmax]
      exact Scan.atMost_fail _
    · rw [if_neg hmax]
      exact hf _ (Nat.le_of_not_gt hmax)

theorem packMatchElement_atMost (fieldName : CStr) (type : ℕ) :
    (packMatchElement fieldName type).AtMost (4 + 2 * PACK_MAX_VALUES) := by
  rw [Nat.add_comm]
  refine packReadElemHeader_atMost fun r hcount => ?_
  simp only []
  split
  · exact Scan.atMost_done _ _
  · have hskip := (packSkipValues_atMost r.2.1 r.2.2.toNat).bind (n := 0) fun _ =>
      Scan.atMost_done 0 false
    exact hskip.mono (by omega)

theorem packGetLoop_atMost {read : Scan (Answer α)} (hread : read.AtMost 2) (fieldName : CStr)
    (type n : ℕ) :
    (packGetLoop read fieldName type n).AtMost (n * (4 + 2 * PACK_MAX_VALUES) + 2) := by
  induction n with
  | zero => exact Scan.atMost_fail _
  | succ n ih =>
    have hstep := (packMatchElement_atMost fieldName type).bind
      (f := fun found => if found then read else packGetLoop read fieldName type n)
      (n := n * (4 + 2 * PACK_MAX_VALUES) + 2) (by
        intro found
        cases found
        · exact ih
        · exact hread.mono (by omega))
    exact hstep.mono (by rw [Nat.add_one_mul n]; omega)

/-- A loop over at most `max` elements of `k` steps, behind their count. -/
theorem elements_atMost {loop : ℕ → Scan (Answer α)} {k max bodyLen : ℕ}
    (hloop : ∀ n, (loop n).AtMost (n * k + 2)) :
    Scan.AtMost (1 + (max * k + 2))
      (if bodyLen < 4 then .fail
      else do
        let numElements ← packReadUint32Safe
        if numElements.toNat > max then .fail else loop numElements.toNat) := by
  split
  · exact Scan.atMost_fail _
  · refine packReadUint32Safe_atMost.bind fun numElements => ?_
    split
    · exact Scan.atMost_fail _
    · rename_i hcount
      have hmul := Nat.mul_le_mul_right k (Nat.le_of_not_gt hcount)
      exact (hloop _).mono (by omega)

theorem helloElement_atMost (info : ServerHelloInfo) :
    (helloElement info).AtMost (4 + 2 * PACK_MAX_VALUES) := by
  rw [Nat.add_comm]
  refine packReadElemHeader_atMost fun r hcount => ?_
  -- a value that is read takes no more steps than one that is skipped
  have hread : ∀ {γ : Type} {read : Scan γ} {f : γ → ServerHelloInfo}, read.AtMost 2 →
      0 < r.2.2.toNat → Scan.AtMost (2 * PACK_MAX_VALUES) (do
        let value ← read
        packSkipValues r.2.1 (r.2.2.toNat - 1)
        Scan.done (f value)) := by
    intro γ read f h hpos
    have hrest := fun value : γ => (packSkipValues_atMost r.2.1 (r.2.2.toNat - 1)).bind (n := 0)
      fun _ => Scan.atMost_done 0 (f value)
    exact (h.bind hrest).mono (by omega)
  simp only []
  split_ifs with hpos hhello hversion hrandom
  · exact hread (packReadStringSafe_atMost 64) hpos
  · exact hread (packReadUint32Safe_atMost.mono (by decide)) hpos
  · exact hread (packReadDataSafe_atMost SHA1_SIZE) hpos
  · have hskip := (packSkipValues_atMost r.2.1 r.2.2.toNat).bind (n := 0) fun _ =>
      Scan.atMost_done 0 info
    exact hskip.mono (by omega)
  · exact Scan.atMost_done _ _

theorem helloLoop_atMost (n : ℕ) (info : ServerHelloInfo) :
    (helloLoop n info).AtMost (n * (4 + 2 * PACK_MAX_VALUES) + 2) := by
  induction n generalizing info with
  | zero => exact Scan.atMost_done _ _
  | succ n ih => exact ((helloElement_atMost info).bind ih).mono (by rw [Nat.add_one_mul n]; omega)

theorem packGet_atMost {read : Scan (Answer α)} (hread : read.AtMost 2) (bodyLen : ℕ)
    (fieldName : CStr) (type : ℕ) :
    (packGet read bodyLen fieldName type).AtMost
      (1 + (PACK_MAX_ELEMENTS * (4 + 2 * PACK_MAX_VALUES) + 2)) :=
  elements_atMost (packGetLoop_atMost hread fieldName type)

theorem walk_atMost (bodyLen : ℕ) (call : ParseCall) :
    (call.walk bodyLen).AtMost (1 + (PACK_MAX_ELEMENTS * (4 + 2 * PACK_MAX_VALUES) + 2)) := by
  have hint : readInt.AtMost 2 :=
    packReadUint32Safe_atMost.bind (n := 1) fun _ => Scan.atMost_done 1 _
  have hint64 : readInt64.AtMost 2 :=
    packReadUint64Safe_atMost.bind (n := 1) fun _ => Scan.atMost_done 1 _
  have hstr : ∀ outSize, (readStr outSize).AtMost 2 := fun outSize =>
    (packReadStringSafe_atMost outSize).bind (n := 0) fun _ => Scan.atMost_done 0 _
  have hcopyStr : ∀ outSize, (protocolReadStr outSize).AtMost 2 := fun outSize =>
    packReadUint32Safe_atMost.bind (n := 1) fun _ => Scan.atMost_done 1 _
  have hdata : ∀ outSize, (readData outSize).AtMost 2 := fun outSize =>
    packReadUint32Safe_atMost.bind (n := 1) fun _ => Scan.atMost_done 1 _
  have hsized : ∀ {read : Scan (Answer (List UInt8))} (outSize : ℕ) (fieldName : CStr) (type : ℕ),
      read.AtMost 2 → Scan.AtMost (1 + (PACK_MAX_ELEMENTS * (4 + 2 * PACK_MAX_VALUES) + 2))
        (if outSize = 0 then .fail else packGet read bodyLen fieldName type) := by
    intro read outSize fieldName type hread
    split
    · exact Scan.atMost_fail _
    · exact packGet_atMost hread bodyLen fieldName type
  cases call with
  | packGetInt fieldName => exact packGet_atMost hint bodyLen fieldName _
  | packGetInt64 fieldName => exact packGet_atMost hint64 bodyLen fieldName _
  | packGetStr fieldName outSize => exact hsized outSize fieldName _ (hstr outSize)
  | packGetData fieldName outSize => exact hsized outSize fieldName _ (hdata outSize)
  | protocolPackGetInt fieldName => exact packGet_atMost hint bodyLen fieldName _
  | protocolPackGetStr fieldName outSize => exact hsized outSize fieldName _ (hcopyStr outSize)
  | protocolPackGetData fieldName outSize => exact hsized outSize fieldName _ (hdata outSize)
  | parseServerHello => exact elements_atMost (helloLoop_atMost · .zero)

/-! ### When a call is in bounds -/

/-- Every read of a call is inside the body, its pointer never moves backwards, and it ends with a
    value or an error after a bounded number of reads. -/
structure InBoundsTerminating (b : Block bits) (call : ParseCall) : Prop where
  inBounds : InBounds b (call.parse b)
  terminating : (call.parse b).accesses.length ≤ MAX_ACCESSES

theorem parse_terminating (b : Block bits) (call : ParseCall) :
    (call.parse b).accesses.length ≤ MAX_ACCESSES :=
  Scan.accesses_le b (walk_atMost b.len call) b.base

theorem demands_bytes (b : Block bits) (call : ParseCall) :
    call.demands b.bytes = (call.walk b.len).demands 0 b.bytes := by
  rw [ParseCall.demands, b.bytes_length]

/-- **PACK parsing in bounds.** For both pointer widths, every body at every address and every
    call: all reads are inside the body, the pointer only moves forward and the call ends, if and
    only if the end of every length the call asks for is an address; the copy at the end of
    `pack_get_data` and of `pack_get_str` in `softether_protocol.c`, which does not move the
    pointer, may also be one that stays inside the body. -/
theorem pack_parsing_iff (width : PtrWidth) (b : Block width.bits) (call : ParseCall) :
    InBoundsTerminating b call ↔ ∀ d ∈ call.demands b.bytes, d.Fits b := by
  rw [demands_bytes]
  have hwalk := Scan.inBounds_iff width.le_bits b (call.walk b.len) (Nat.zero_le _)
  rw [Nat.add_zero, List.drop_zero] at hwalk
  constructor
  · intro h
    exact hwalk.mp h.inBounds
  · intro h
    exact ⟨hwalk.mpr h, parse_terminating b call⟩

/-- **Room behind the body.** With 4 GiB of addresses behind the body no length wraps: every call
    is in bounds and returns what the walk over the bytes does. -/
theorem inBounds_of_room (width : PtrWidth) (b : Block width.bits)
    (hroom : b.stop + 2 ^ 32 ≤ 2 ^ width.bits) (call : ParseCall) :
    InBoundsTerminating b call ∧
      (call.parse b).result = (call.walk b.len).evalAnswer b.bytes := by
  have hdemands := Scan.demands_of_room b hroom (call.walk b.len)
  have hwalk := Scan.inBounds_iff width.le_bits b (call.walk b.len) (Nat.zero_le _)
  have hresult := Scan.machine_eq_eval b (call.walk b.len) (Nat.zero_le _) hdemands
  rw [Nat.add_zero, List.drop_zero] at hwalk hresult
  exact ⟨⟨hwalk.mpr fun d hd => .inl (hdemands d hd), parse_terminating b call⟩, hresult⟩

/-- One element `a` of the value 5. -/
theorem inBounds_of_room_sample :
    let body : List UInt8 := [0, 0, 0, 1, 0, 0, 0, 2, 97, 0, 0, 0, 0, 0, 0, 0, 1, 0, 0, 0, 5]
    let b : Block PtrWidth.w64.bits :=
      ⟨fun addr => body.getD (addr - 4096) 0, 4096, 21, by decide, by decide⟩
    let call : ParseCall := .packGetInt ⟨[97], by decide⟩
    InBoundsTerminating b call ∧ (call.parse b).result = some 5 := by
  intro body b call
  obtain ⟨hbounds, hresult⟩ := inBounds_of_room .w64 b (by decide) call
  exact ⟨hbounds, hresult.trans (by decide)⟩

/-! ### A name of 512 MiB -/

/-- One element whose name has `0x20000000` bytes, in a body of 12 bytes. -/
def hugeName : List UInt8 := [0, 0, 0, 1, 0x20, 0, 0, 1, 0, 0, 0, 0]

/-- The body at `0xf0000000` of a 32-bit address space. -/
def hugeNameBody : Block PtrWidth.w32.bits where
  mem := fun addr => hugeName.getD (addr - 0xf0000000) 0
  base := 0xf0000000
  len := 12
  base_pos := by decide
  fits := by decide

/-- The sum with the pointer is `0x10000008`, before the body; the check lets it pass. -/
theorem hugeName_moves_back :
    ¬ ∀ (width : PtrWidth) (b : Block width.bits) (call : ParseCall),
      InBoundsTerminating b call := by
  intro h
  have hforward := (h .w32 hugeNameBody (.packGetInt ⟨[101], by decide⟩)).inBounds.forward
  have hmem : (⟨0xf0000008, 63, 0x10000008⟩ : Access) ∈
      (ParseCall.parse (.packGetInt ⟨[101], by decide⟩) hugeNameBody).accesses := by
    decide
  exact absurd (hforward _ hmem) (by decide)

end SoftEther.Pack.Bounds

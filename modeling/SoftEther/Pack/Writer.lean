import SoftEther.Lib.BigEndian

namespace SoftEther.Pack

open Lib

/-!
# The PACK writer

`softether_pack_t` is a growable buffer: a `uint32` element count, patched after every
element, then the elements.  An element is its name, its type, a value count of one and the
value; every number is big-endian.

* `CStr`, `Value`, `Add` — a C string, a value of each type, one `pack_add_*` call;
* `SoftetherPack`, `packNew`, `packReserve`, `packCommitElement` — the buffer;
* `packAddInt`, `packAddInt64`, `packAddStr`, `packAddData` — the calls, each an instance of
  `packAddElem`;
* `encodeElem` — the bytes of an element;
* `packAddAll_holds` — after any calls that succeed, the buffer is the count and the encoded
  elements in the order of the calls.

Arguments are not `NULL`; a `NULL` makes the call fail before it touches the buffer.
-/

/-! ### Values -/

/-- A C string: bytes before the terminating NUL. -/
@[ext] structure CStr where
  bytes : List UInt8
  nulFree : 0 ∉ bytes
  deriving DecidableEq

def CStr.strlen (s : CStr) : ℕ := s.bytes.length

abbrev PACK_TYPE_INT : ℕ := 0
abbrev PACK_TYPE_DATA : ℕ := 1
abbrev PACK_TYPE_STR : ℕ := 2
abbrev PACK_TYPE_UNISTR : ℕ := 3
abbrev PACK_TYPE_INT64 : ℕ := 4

abbrev UINT32_MAX : ℕ := 2 ^ 32 - 1
abbrev PACK_INITIAL_CAP : ℕ := 256

/-- A value as the caller passes it; `dlen` is a `uint32_t`. -/
inductive Value
  | int (val : UInt32)
  | int64 (val : UInt64)
  | str (val : CStr)
  | data (data : List UInt8) (dlen : data.length ≤ UINT32_MAX)

/-- The number of a type. -/
def Value.type : Value → ℕ
  | .int _ => PACK_TYPE_INT
  | .int64 _ => PACK_TYPE_INT64
  | .str _ => PACK_TYPE_STR
  | .data _ _ => PACK_TYPE_DATA

/-- One `pack_add_*` call. -/
structure Add where
  name : CStr
  value : Value

/-! ### The buffer -/

/-- `softether_pack_t`; `data` is what has been written, from the start of the buffer. -/
structure SoftetherPack where
  data : List UInt8
  len : ℕ
  cap : ℕ
  numElements : ℕ

/-- `pack_new`.  The four bytes of the count are left as `malloc` returned them. -/
def packNew (placeholder : List UInt8) : SoftetherPack :=
  { data := placeholder, len := 4, cap := PACK_INITIAL_CAP, numElements := 0 }

/-- `pack_write_uint32`. -/
def packWriteUint32 (buf : List UInt8) (val : ℕ) : List UInt8 := buf ++ beBytes 4 val

/-- `pack_write_uint64`. -/
def packWriteUint64 (buf : List UInt8) (val : ℕ) : List UInt8 := buf ++ beBytes 8 val

/-- The name, after its length plus one; `len` is `(uint32_t)strlen(name)`. -/
def packWriteElemName (buf : List UInt8) (name : CStr) : List UInt8 :=
  let len := name.strlen % 2 ^ 32
  packWriteUint32 buf (len + 1) ++ name.bytes.take len

/-- `pack_write_str_val`. -/
def packWriteStrVal (buf : List UInt8) (str : CStr) : List UInt8 :=
  let len := str.strlen % 2 ^ 32
  packWriteUint32 buf len ++ str.bytes.take len

/-- `pack_write_data_val`. -/
def packWriteDataVal (buf data : List UInt8) : List UInt8 :=
  packWriteUint32 buf data.length ++ data

/-- The doubling loop of `pack_reserve`. -/
def growCap (need newCap : ℕ) (hpos : 0 < newCap) : ℕ :=
  if newCap < need then
    if newCap > UINT32_MAX / 2 then need
    else growCap need (newCap * 2) (by omega)
  else newCap
termination_by need - newCap

/-- `pack_reserve`; `realloc` is whether the allocator answers, if it is asked. -/
def packReserve (realloc : Bool) (p : SoftetherPack) (add : ℕ) : Option SoftetherPack :=
  if add > UINT32_MAX - p.len then none
  else if p.len + add ≤ p.cap then some p
  else if realloc then
    if hcap : p.cap = 0 then
      some { p with cap := growCap (p.len + add) PACK_INITIAL_CAP (by decide) }
    else some { p with cap := growCap (p.len + add) p.cap (Nat.pos_of_ne_zero hcap) }
  else none

/-- Bump the count and patch it at offset 0. -/
def packCommitElement (p : SoftetherPack) (elemSize : ℕ) : SoftetherPack :=
  let numElements := (p.numElements + 1) % 2 ^ 32
  { p with
    len := p.len + elemSize
    numElements := numElements
    data := beBytes 4 numElements ++ p.data.drop 4 }

/-- `PACK_ELEM_HDR_SZ(n)`, on `uint32_t`. -/
def packElemHdrSz (name : CStr) : ℕ := (4 + name.strlen % 2 ^ 32 + 8) % 2 ^ 32

/-- What the four `pack_add_*` have in common: reserve, write the header and the value,
    commit. -/
def packAddElem (realloc : Bool) (p : SoftetherPack) (name : CStr) (elemSize type : ℕ)
    (writeVal : List UInt8 → List UInt8) : Option SoftetherPack :=
  match packReserve realloc p elemSize with
  | none => none
  | some p =>
    let buf := packWriteElemName (p.data.take p.len) name
    let buf := packWriteUint32 buf type
    let buf := packWriteUint32 buf 1
    some (packCommitElement { p with data := writeVal buf } elemSize)

/-- `pack_add_int`. -/
def packAddInt (realloc : Bool) (p : SoftetherPack) (name : CStr) (val : UInt32) :
    Option SoftetherPack :=
  packAddElem realloc p name ((packElemHdrSz name + 4) % 2 ^ 32) PACK_TYPE_INT
    fun buf => packWriteUint32 buf val.toNat

/-- `pack_add_int64`. -/
def packAddInt64 (realloc : Bool) (p : SoftetherPack) (name : CStr) (val : UInt64) :
    Option SoftetherPack :=
  packAddElem realloc p name ((packElemHdrSz name + 8) % 2 ^ 32) PACK_TYPE_INT64
    fun buf => packWriteUint64 buf val.toNat

/-- `pack_add_str`. -/
def packAddStr (realloc : Bool) (p : SoftetherPack) (name val : CStr) : Option SoftetherPack :=
  packAddElem realloc p name ((packElemHdrSz name + 4 + val.strlen % 2 ^ 32) % 2 ^ 32) PACK_TYPE_STR
    fun buf => packWriteStrVal buf val

/-- `pack_add_data`. -/
def packAddData (realloc : Bool) (p : SoftetherPack) (name : CStr) (data : List UInt8) :
    Option SoftetherPack :=
  packAddElem realloc p name ((packElemHdrSz name + 4 + data.length) % 2 ^ 32) PACK_TYPE_DATA
    fun buf => packWriteDataVal buf data

/-- The call that adds `a`. -/
def packAdd (realloc : Bool) (p : SoftetherPack) (a : Add) : Option SoftetherPack :=
  match a.value with
  | .int val => packAddInt realloc p a.name val
  | .int64 val => packAddInt64 realloc p a.name val
  | .str val => packAddStr realloc p a.name val
  | .data data _ => packAddData realloc p a.name data

/-- A sequence of calls, each with the answer of the allocator; `none` when one fails. -/
def packAddAll : SoftetherPack → List (Add × Bool) → Option SoftetherPack
  | p, [] => some p
  | p, (a, realloc) :: adds =>
    match packAdd realloc p a with
    | none => none
    | some p => packAddAll p adds

/-- The bytes a reader is given: `pack_data`, `pack_length`. -/
def SoftetherPack.bytes (p : SoftetherPack) : List UInt8 := p.data.take p.len

/-! ### The bytes of an element -/

/-- A value as it is written. -/
def encodeValue : Value → List UInt8
  | .int val => beBytes 4 val.toNat
  | .int64 val => beBytes 8 val.toNat
  | .str val => beBytes 4 val.strlen ++ val.bytes
  | .data data _ => beBytes 4 data.length ++ data

/-- An element: name, type, one value. -/
def encodeElem (a : Add) : List UInt8 :=
  beBytes 4 (a.name.strlen + 1) ++ a.name.bytes ++ beBytes 4 a.value.type ++ beBytes 4 1 ++
    encodeValue a.value

theorem encodeElem_length (a : Add) :
    (encodeElem a).length = 12 + a.name.strlen + (encodeValue a.value).length := by
  simp only [encodeElem, List.length_append, beBytes_length, CStr.strlen]
  omega

/-- The buffer holds the elements of `adds`, in this order, behind the count. -/
structure Holds (p : SoftetherPack) (adds : List Add) : Prop where
  len : p.len = p.data.length
  header : 4 ≤ p.len
  body : p.data.drop 4 = adds.flatMap encodeElem
  count : p.numElements = adds.length
  patched : adds ≠ [] → p.data.take 4 = beBytes 4 adds.length

theorem holds_packNew {placeholder : List UInt8} (h : placeholder.length = 4) :
    Holds (packNew placeholder) [] where
  len := h.symm
  header := le_refl _
  body := List.drop_eq_nil_of_le (by rw [packNew, h])
  count := rfl
  patched := fun hne => absurd rfl hne

variable {p p' : SoftetherPack} {realloc : Bool} {a : Add}

/-- `pack_reserve` leaves the contents alone. -/
theorem packReserve_eq {add : ℕ} (h : packReserve realloc p add = some p') :
    ∃ cap, p' = { p with cap := cap } := by
  unfold packReserve at h
  split_ifs at h with hmax hfits hrealloc hcap
  · exact ⟨p.cap, (Option.some.inj h).symm⟩
  · exact ⟨_, (Option.some.inj h).symm⟩
  · exact ⟨_, (Option.some.inj h).symm⟩

/-- **One element.** When the written bytes are the encoded element, an element more is
    held. -/
theorem packAddElem_holds {adds : List Add} {elemSize type : ℕ} {writeVal : List UInt8 → List UInt8}
    (hp : Holds p adds) (hname : a.name.strlen < 2 ^ 32) (hcount : adds.length + 1 < 2 ^ 32)
    (htype : type = a.value.type) (hsize : elemSize = (encodeElem a).length)
    (hval : ∀ buf, writeVal buf = buf ++ encodeValue a.value)
    (h : packAddElem realloc p a.name elemSize type writeVal = some p') :
    Holds p' (adds ++ [a]) := by
  unfold packAddElem at h
  split at h
  · exact absurd h nofun
  · rename_i p₁ hreserve
    obtain ⟨cap, rfl⟩ := packReserve_eq hreserve
    obtain rfl := Option.some.inj h
    have hstrlen : a.name.strlen % 2 ^ 32 = a.name.strlen := Nat.mod_eq_of_lt hname
    have hwritten : writeVal (packWriteUint32 (packWriteUint32 (packWriteElemName
        (p.data.take p.len) a.name) type) 1) = p.data ++ encodeElem a := by
      rw [hval, hp.len, List.take_length]
      simp only [packWriteUint32, packWriteElemName, hstrlen, htype, encodeElem,
        List.append_assoc]
      rw [CStr.strlen, List.take_length]
    have hdata : 4 ≤ p.data.length := hp.len ▸ hp.header
    have hnum : (p.numElements + 1) % 2 ^ 32 = adds.length + 1 := by
      rw [hp.count, Nat.mod_eq_of_lt hcount]
    constructor
    · simp only [packCommitElement, hwritten]
      rw [List.length_append, beBytes_length, List.length_drop, List.length_append, hsize, hp.len]
      omega
    · exact le_trans hp.header (Nat.le_add_right _ _)
    · simp only [packCommitElement, hwritten]
      rw [List.drop_append_of_le_length hdata, List.drop_left' (beBytes_length 4 _), hp.body,
        List.flatMap_append, List.flatMap_singleton]
    · simp only [packCommitElement, hnum, List.length_append, List.length_singleton]
    · intro _
      simp only [packCommitElement, hnum]
      rw [List.take_left' (beBytes_length 4 _), List.length_append, List.length_singleton]

/-! ### Whole sequences of calls -/

/-- What a call may ask for: a short name, and an element that fits a `uint32_t`. -/
structure Add.Fits (a : Add) : Prop where
  name : a.name.strlen ≤ 63
  size : (encodeElem a).length < 2 ^ 32

theorem Add.Fits.value_length (h : a.Fits) : (encodeValue a.value).length < 2 ^ 32 := by
  have := h.size
  rw [encodeElem_length] at this
  omega

theorem encodeValue_str_length (val : CStr) :
    (encodeValue (.str val)).length = 4 + val.strlen := by
  rw [encodeValue, List.length_append, beBytes_length, CStr.strlen]

/-- The header size on `uint32_t` is the true one for a short name. -/
theorem packElemHdrSz_eq {name : CStr} (h : name.strlen ≤ 63) :
    packElemHdrSz name = 12 + name.strlen := by
  unfold packElemHdrSz
  omega

/-- **One call.** -/
theorem packAdd_holds {adds : List Add} (hp : Holds p adds) (hfits : a.Fits)
    (hcount : adds.length + 1 < 2 ^ 32) (h : packAdd realloc p a = some p') :
    Holds p' (adds ++ [a]) := by
  obtain ⟨name, value⟩ := a
  obtain ⟨hname, hsize⟩ := hfits
  have hlen := encodeElem_length ⟨name, value⟩
  have hname32 : name.strlen < 2 ^ 32 := by
    have : name.strlen ≤ 63 := hname
    omega
  have hhdr := packElemHdrSz_eq hname
  dsimp only at hlen hhdr
  cases value with
  | int val =>
    refine packAddElem_holds hp hname32 hcount rfl ?_ (fun buf => rfl) h
    rw [hlen, encodeValue, beBytes_length] at hsize ⊢
    rw [hhdr, Nat.mod_eq_of_lt hsize]
  | int64 val =>
    refine packAddElem_holds hp hname32 hcount rfl ?_ (fun buf => rfl) h
    rw [hlen, encodeValue, beBytes_length] at hsize ⊢
    rw [hhdr, Nat.mod_eq_of_lt hsize]
  | str val =>
    simp only [packAdd, packAddStr] at h
    rw [hlen, encodeValue_str_length] at hsize
    have hval : val.strlen % 2 ^ 32 = val.strlen := Nat.mod_eq_of_lt (by omega)
    refine packAddElem_holds hp hname32 hcount rfl ?_ ?_ h
    · rw [hlen, encodeValue_str_length, hhdr, hval, Nat.mod_eq_of_lt (by omega), Nat.add_assoc]
    · intro buf
      simp only [packWriteStrVal, hval, packWriteUint32, encodeValue, List.append_assoc]
      rw [CStr.strlen, List.take_length]
  | data data dlen =>
    simp only [packAdd, packAddData] at h
    have hdata : (encodeValue (.data data dlen)).length = 4 + data.length := by
      rw [encodeValue, List.length_append, beBytes_length]
    rw [hlen, hdata] at hsize
    refine packAddElem_holds hp hname32 hcount rfl ?_ ?_ h
    · rw [hlen, hdata, hhdr, Nat.mod_eq_of_lt (by omega), Nat.add_assoc]
    · intro buf
      simp only [packWriteDataVal, packWriteUint32, encodeValue, List.append_assoc]

/-- **A sequence of calls.** The buffer holds the elements in the order of the calls. -/
theorem packAddAll_holds {done : List Add} {adds : List (Add × Bool)} (hp : Holds p done)
    (hfits : ∀ c ∈ adds, c.1.Fits) (hcount : done.length + adds.length < 2 ^ 32)
    (h : packAddAll p adds = some p') : Holds p' (done ++ adds.map Prod.fst) := by
  induction adds generalizing p done with
  | nil =>
    obtain rfl := Option.some.inj h
    rw [List.map_nil, List.append_nil]
    exact hp
  | cons c adds ih =>
    obtain ⟨a, realloc⟩ := c
    rw [List.length_cons] at hcount
    rw [packAddAll] at h
    split at h
    · exact absurd h nofun
    · rename_i p₁ hadd
      have hp₁ := packAdd_holds hp (hfits _ List.mem_cons_self) (by omega) hadd
      have hlen : (done ++ [a]).length + adds.length < 2 ^ 32 := by
        rw [List.length_append, List.length_singleton]
        omega
      have hrest := ih hp₁ (fun c hc => hfits c (List.mem_cons_of_mem _ hc)) hlen h
      rw [List.append_assoc] at hrest
      exact hrest

end SoftEther.Pack

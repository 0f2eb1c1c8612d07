import SoftEther.Lib.RingBuffer
import SoftEther.Pack.Writer

namespace SoftEther.Pack.Memory

open Lib

/-!
# The PACK writer in memory

`pack_add_*` computes the size of the element on `uint32_t`, reserves so many bytes and then
copies name and value with their own lengths.  Here the buffer is a block of memory and every
store of a call is recorded.

* `PackBuf` — the block, with what holds of it between calls;
* `Writing` — the store of a call so far: the memory, the write pointer and the record;
* `packAddCall` — the four `pack_add_*`, an element each;
* `trueSize` — the size of the element before it is reduced to `uint32_t`;
* `call_bounded`, `call_overruns` — the stores are inside the block, or one is not;
* `call_refines` — the bytes are those of the calls on lists;
* `bounded_atomic_iff` — a call is bounded and atomic exactly when the size of its element does
  not wrap, or the reduced size is refused.
-/

/-! ### The block -/

/-- `softether_pack_t` with its block of `cap` bytes, the first `len` of them written. -/
structure PackBuf where
  mem : ℕ → UInt8
  len : ℕ
  cap : ℕ
  numElements : ℕ
  header : 4 ≤ len
  len_le : len ≤ cap
  cap_le : cap ≤ UINT32_MAX

/-- `pack_new`, on memory as `malloc` returned it. -/
def packNew (mem : ℕ → UInt8) : PackBuf where
  mem := mem
  len := 4
  cap := PACK_INITIAL_CAP
  numElements := 0
  header := by decide
  len_le := by decide
  cap_le := by decide

theorem growCap_ge (need newCap : ℕ) (hpos : 0 < newCap) : need ≤ growCap need newCap hpos := by
  induction newCap, hpos using growCap.induct need with
  | case1 newCap hpos hless hbig => rw [growCap, if_pos hless, if_pos hbig]
  | case2 newCap hpos hless hsmall ih =>
    rw [growCap, if_pos hless, if_neg hsmall]
    exact ih
  | case3 newCap hpos hfits =>
    rw [growCap, if_neg hfits]
    omega

theorem growCap_le {need newCap : ℕ} (hpos : 0 < newCap) (hneed : need ≤ UINT32_MAX)
    (hcap : newCap ≤ UINT32_MAX) : growCap need newCap hpos ≤ UINT32_MAX := by
  induction newCap, hpos using growCap.induct need with
  | case1 newCap hpos hless hbig =>
    rw [growCap, if_pos hless, if_pos hbig]
    exact hneed
  | case2 newCap hpos hless hsmall ih =>
    rw [growCap, if_pos hless, if_neg hsmall]
    exact ih (by omega)
  | case3 newCap hpos hfits =>
    rw [growCap, if_neg hfits]
    exact hcap

/-- `pack_reserve` with its return value; `realloc` is whether the allocator answers, if it is
    asked.  The capacity is positive, so the doubling starts from it. -/
def packReserve (realloc : Bool) (p : PackBuf) (add : ℕ) : ℤ × PackBuf :=
  if hmax : add > UINT32_MAX - p.len then (-1, p)
  else if p.len + add ≤ p.cap then (0, p)
  else if realloc then
    have hpos : 0 < p.cap := Nat.lt_of_lt_of_le (by decide) (Nat.le_trans p.header p.len_le)
    have hneed : p.len + add ≤ UINT32_MAX := by
      have hlen := Nat.le_trans p.len_le p.cap_le
      omega
    (0, { p with
      cap := growCap (p.len + add) p.cap hpos
      len_le := Nat.le_trans (Nat.le_add_right _ _) (growCap_ge _ _ hpos)
      cap_le := growCap_le hpos hneed p.cap_le })
  else (-1, p)

/-! ### The stores -/

/-- The write pointer and what has been stored: offset and length of every store. -/
structure Writing where
  mem : ℕ → UInt8
  buf : ℕ
  stores : List (ℕ × ℕ)

/-- Store bytes at the pointer and advance it. -/
def Writing.put (w : Writing) (bytes : List UInt8) : Writing where
  mem := memcpy w.mem w.buf bytes
  buf := w.buf + bytes.length
  stores := w.stores ++ [(w.buf, bytes.length)]

/-- `pack_write_uint32`. -/
def packWriteUint32 (w : Writing) (val : ℕ) : Writing := w.put (beBytes 4 val)

/-- `pack_write_uint64`. -/
def packWriteUint64 (w : Writing) (val : ℕ) : Writing := w.put (beBytes 8 val)

/-- `pack_write_elem_name`. -/
def packWriteElemName (w : Writing) (name : CStr) : Writing :=
  let len := name.strlen % 2 ^ 32
  (packWriteUint32 w (len + 1)).put (name.bytes.take len)

/-- `pack_write_str_val`. -/
def packWriteStrVal (w : Writing) (str : CStr) : Writing :=
  let len := str.strlen % 2 ^ 32
  (packWriteUint32 w len).put (str.bytes.take len)

/-- `pack_write_data_val`. -/
def packWriteDataVal (w : Writing) (data : List UInt8) : Writing :=
  let w := packWriteUint32 w data.length
  if data.length > 0 then w.put data else w

/-- The writer of a value. -/
def packWriteValue (w : Writing) : Value → Writing
  | .int val => packWriteUint32 w val.toNat
  | .int64 val => packWriteUint64 w val.toNat
  | .str val => packWriteStrVal w val
  | .data data _ => packWriteDataVal w data

/-! ### The calls -/

/-- `PACK_INT_SZ`, `PACK_INT64_SZ`, `PACK_STR_SZ`, `PACK_DATA_SZ`, on `uint32_t`. -/
def elemSize (a : Add) : ℕ :=
  match a.value with
  | .int _ => (packElemHdrSz a.name + 4) % 2 ^ 32
  | .int64 _ => (packElemHdrSz a.name + 8) % 2 ^ 32
  | .str val => (packElemHdrSz a.name + 4 + val.strlen % 2 ^ 32) % 2 ^ 32
  | .data data _ => (packElemHdrSz a.name + 4 + data.length) % 2 ^ 32

/-- What a call leaves behind: its return value, the pack and the stores it has made. -/
structure Called where
  rc : ℤ
  pack : PackBuf
  stores : List (ℕ × ℕ)

/-- The header of an element and its value, from the end of the pack on. -/
def packWriteElem (p : PackBuf) (a : Add) : Writing :=
  let w : Writing := ⟨p.mem, p.len, []⟩
  packWriteValue (packWriteUint32 (packWriteUint32 (packWriteElemName w a.name) a.value.type) 1)
    a.value

variable {p : PackBuf} {realloc : Bool} {a : Add}

theorem reserved_le {add : ℕ} (h : (packReserve realloc p add).1 = 0) :
    p.len + add ≤ (packReserve realloc p add).2.cap ∧
      (packReserve realloc p add).2.len = p.len ∧ (packReserve realloc p add).2.mem = p.mem ∧
      (packReserve realloc p add).2.numElements = p.numElements := by
  unfold packReserve at h ⊢
  split_ifs at h ⊢ with hmax hfits hrealloc
  · exact absurd h (by simp)
  · exact ⟨hfits, rfl, rfl, rfl⟩
  · exact ⟨growCap_ge _ _ _, rfl, rfl, rfl⟩
  · exact absurd h (by simp)

/-- A `pack_add_*` call on arguments that are not `NULL`. -/
def packAddCall (realloc : Bool) (p : PackBuf) (a : Add) : Called :=
  let r := packReserve realloc p (elemSize a)
  if h : r.1 = 0 then
    let w := packWriteElem r.2 a
    -- `pack_commit_element`
    let numElements := (r.2.numElements + 1) % 2 ^ 32
    let pack : PackBuf :=
      { r.2 with
        mem := memcpy w.mem 0 (beBytes 4 numElements)
        len := r.2.len + elemSize a
        numElements := numElements
        header := Nat.le_trans r.2.header (Nat.le_add_right _ _)
        len_le := by
          obtain ⟨hle, hlen, -⟩ := reserved_le h
          rw [hlen]
          exact hle }
    ⟨0, pack, w.stores ++ [(0, 4)]⟩
  else ⟨-1, r.2, []⟩

/-! ### What a call promises -/

/-- **Bounded and atomic.** A call that succeeds has stored inside the block; one that fails
    returns -1 and has stored nothing, and pack and count are as they were. -/
structure BoundedAtomic (before : PackBuf) (r : Called) : Prop where
  bounded : r.rc = 0 → ∀ s ∈ r.stores, s.1 + s.2 ≤ r.pack.cap
  atomic : r.rc ≠ 0 → r.rc = -1 ∧ r.stores = [] ∧ r.pack = before

/-- The size of the value that is written. -/
def valueSize : Value → ℕ
  | .int _ => 4
  | .int64 _ => 8
  | .str val => 4 + val.strlen % 2 ^ 32
  | .data data _ => 4 + data.length

/-- The size of the element that is written: what the macros add up, without a wrap. -/
def trueSize (a : Add) : ℕ := 12 + a.name.strlen % 2 ^ 32 + valueSize a.value

/-- `pack_reserve` refuses the size: the pack would grow beyond `UINT32_MAX`, or there is no
    memory for it. -/
def Refused (realloc : Bool) (p : PackBuf) (size : ℕ) : Prop :=
  size > UINT32_MAX - p.len ∨ (p.cap < p.len + size ∧ realloc = false)

theorem elemSize_eq (a : Add) : elemSize a = trueSize a % 2 ^ 32 := by
  obtain ⟨name, value⟩ := a
  cases value <;> simp only [elemSize, trueSize, valueSize, packElemHdrSz] <;> omega

theorem reserve_refused_iff (realloc : Bool) (p : PackBuf) (size : ℕ) :
    (packReserve realloc p size).1 ≠ 0 ↔ Refused realloc p size := by
  unfold packReserve Refused
  by_cases hmax : size > UINT32_MAX - p.len
  · simp [hmax]
  · by_cases hfits : p.len + size ≤ p.cap
    · simp [hmax, hfits]
    · cases realloc <;> simp [hmax, hfits, Nat.lt_of_not_le hfits]

theorem reserve_refused {size : ℕ} (h : (packReserve realloc p size).1 ≠ 0) :
    (packReserve realloc p size).2 = p := by
  unfold packReserve at h ⊢
  split_ifs at h ⊢ with hmax hfits hrealloc
  · rfl
  · rfl
  · exact absurd rfl h
  · rfl

/-! ### Where the stores are -/

/-- All stores of `w` lie between `lo` and `hi`, where its pointer stands, and the last byte
    before `hi` has been stored. -/
structure Filled (lo hi : ℕ) (w : Writing) : Prop where
  buf : w.buf = hi
  inside : ∀ s ∈ w.stores, lo ≤ s.1 ∧ s.1 + s.2 ≤ hi
  reaches : ∃ s ∈ w.stores, s.1 + s.2 = hi

theorem Filled.put {lo hi n : ℕ} {w : Writing} (h : Filled lo hi w) (hle : lo ≤ hi)
    {bytes : List UInt8} (hn : bytes.length = n) : Filled lo (hi + n) (w.put bytes) where
  buf := by rw [Writing.put, h.buf, hn]
  inside := by
    intro s hs
    rcases List.mem_append.mp hs with hold | hnew
    · have := h.inside s hold
      omega
    · rw [List.mem_singleton.mp hnew, h.buf, hn]
      exact ⟨hle, Nat.le_refl _⟩
  reaches := ⟨(w.buf, bytes.length), List.mem_append_right _ (List.mem_singleton.mpr rfl), by
    rw [h.buf, hn]⟩

theorem take_u32_length (s : CStr) :
    (s.bytes.take (s.strlen % 2 ^ 32)).length = s.strlen % 2 ^ 32 := by
  rw [List.length_take]
  exact Nat.min_eq_left (Nat.mod_le _ _)

theorem packWriteValue_filled {lo hi : ℕ} {w : Writing} (h : Filled lo hi w) (hle : lo ≤ hi)
    (v : Value) : Filled lo (hi + valueSize v) (packWriteValue w v) := by
  cases v with
  | int val => exact h.put hle (beBytes_length 4 _)
  | int64 val => exact h.put hle (beBytes_length 8 _)
  | str val =>
    have hlen := h.put hle (beBytes_length 4 (val.strlen % 2 ^ 32))
    have hval := hlen.put (by omega) (take_u32_length val)
    rw [Nat.add_assoc] at hval
    exact hval
  | data data dlen =>
    have hlen := h.put hle (beBytes_length 4 data.length)
    simp only [packWriteValue, packWriteDataVal, valueSize]
    split
    · have hval := hlen.put (by omega) (rfl : data.length = data.length)
      rw [Nat.add_assoc] at hval
      exact hval
    · have hzero : data.length = 0 := by omega
      rw [hzero] at hlen ⊢
      exact hlen

/-- **The stores of an element** lie behind the end of the pack, and reach as far as the true
    size of the element. -/
theorem packWriteElem_filled (p : PackBuf) (a : Add) :
    Filled p.len (p.len + trueSize a) (packWriteElem p a) := by
  -- the length of the name is the first store
  have hfirst : Filled p.len (p.len + 4) (packWriteUint32 ⟨p.mem, p.len, []⟩
      (a.name.strlen % 2 ^ 32 + 1)) := by
    refine ⟨by simp [packWriteUint32, Writing.put], ?_, ?_⟩
    · simp [packWriteUint32, Writing.put]
    · exact ⟨(p.len, 4), by simp [packWriteUint32, Writing.put], rfl⟩
  have hname := hfirst.put (by omega) (take_u32_length a.name)
  have htype := hname.put (by omega) (beBytes_length 4 a.value.type)
  have hcount := htype.put (by omega) (beBytes_length 4 1)
  have hvalue := packWriteValue_filled hcount (by omega) a.value
  have hsum : p.len + 4 + a.name.strlen % 2 ^ 32 + 4 + 4 + valueSize a.value =
      p.len + trueSize a := by
    rw [trueSize]
    omega
  rw [hsum] at hvalue
  exact hvalue

/-! ### When a call is bounded and atomic -/

theorem packAddCall_refused (h : Refused realloc p (elemSize a)) :
    packAddCall realloc p a = ⟨-1, p, []⟩ := by
  have hrefused := (reserve_refused_iff realloc p (elemSize a)).mpr h
  unfold packAddCall
  rw [dif_neg hrefused, reserve_refused hrefused]

/-- What a call that is not refused returns. -/
theorem packAddCall_granted (h : ¬ Refused realloc p (elemSize a)) :
    (packAddCall realloc p a).rc = 0 ∧
      p.len + elemSize a ≤ (packAddCall realloc p a).pack.cap ∧
      ∃ q : PackBuf, q.len = p.len ∧
        (packAddCall realloc p a).stores = (packWriteElem q a).stores ++ [(0, 4)] := by
  have hgranted : (packReserve realloc p (elemSize a)).1 = 0 := by
    by_contra hne
    exact h ((reserve_refused_iff realloc p (elemSize a)).mp hne)
  obtain ⟨hcap, hlen, -, -⟩ := reserved_le hgranted
  unfold packAddCall
  rw [dif_pos hgranted]
  exact ⟨rfl, hcap, _, hlen, rfl⟩

/-- **Without a wrap** all stores are inside the block. -/
theorem call_bounded (hsize : trueSize a < 2 ^ 32) (h : ¬ Refused realloc p (elemSize a)) :
    ∀ s ∈ (packAddCall realloc p a).stores, s.1 + s.2 ≤ (packAddCall realloc p a).pack.cap := by
  obtain ⟨-, hcap, q, hlen, hstores⟩ := packAddCall_granted h
  rw [elemSize_eq, Nat.mod_eq_of_lt hsize] at hcap
  have hheader := p.header
  intro s hs
  rw [hstores] at hs
  rcases List.mem_append.mp hs with hmem | hmem
  · have hinside := (packWriteElem_filled q a).inside s hmem
    omega
  · rw [List.mem_singleton.mp hmem]
    omega

/-- **With a wrap** a store lies beyond the block: it is smaller than `2 ^ 32` bytes, and the
    element is not. -/
theorem call_overruns (hsize : 2 ^ 32 ≤ trueSize a) (h : ¬ Refused realloc p (elemSize a)) :
    ∃ s ∈ (packAddCall realloc p a).stores, (packAddCall realloc p a).pack.cap < s.1 + s.2 := by
  obtain ⟨-, -, q, -, hstores⟩ := packAddCall_granted h
  obtain ⟨s, hs, hend⟩ := (packWriteElem_filled q a).reaches
  refine ⟨s, ?_, ?_⟩
  · rw [hstores]
    exact List.mem_append_left _ hs
  · have hcap := (packAddCall realloc p a).pack.cap_le
    have hmax : UINT32_MAX < 2 ^ 32 := by decide
    omega

/-- **Bounded and atomic calls.** For every pack, name, value and answer of the allocator: a
    `pack_add_*` call stores inside the block or fails without a change if and only if the size
    of its element does not wrap, or `pack_reserve` refuses the wrapped size. -/
theorem bounded_atomic_iff (realloc : Bool) (p : PackBuf) (a : Add) :
    BoundedAtomic p (packAddCall realloc p a) ↔
      trueSize a < 2 ^ 32 ∨ Refused realloc p (trueSize a % 2 ^ 32) := by
  rw [← elemSize_eq]
  constructor
  · intro h
    by_contra hno
    rw [not_or, Nat.not_lt] at hno
    obtain ⟨s, hs, hover⟩ := call_overruns hno.1 hno.2
    have hinside := h.bounded (packAddCall_granted hno.2).1 s hs
    omega
  · intro h
    by_cases hrefused : Refused realloc p (elemSize a)
    · rw [packAddCall_refused hrefused]
      exact ⟨fun hrc => absurd hrc (by simp), fun _ => ⟨rfl, rfl, rfl⟩⟩
    · have hsize := h.resolve_right hrefused
      exact ⟨fun _ => call_bounded hsize hrefused,
        fun hne => absurd (packAddCall_granted hrefused).1 hne⟩

/-! ### The calls on lists -/

/-- The pack with the bytes it holds. -/
def PackBuf.toPack (p : PackBuf) : SoftetherPack where
  data := memRead p.mem 0 p.len
  len := p.len
  cap := p.cap
  numElements := p.numElements

/-- What lies before the write pointer. -/
def Writing.written (w : Writing) : List UInt8 := memRead w.mem 0 w.buf

/-- Bytes stored at the pointer stand behind those before it. -/
theorem Writing.written_put (w : Writing) (bytes : List UInt8) :
    (w.put bytes).written = w.written ++ bytes := by
  have happend := memRead_memcpy_append w.mem 0 w.buf bytes
  rw [Nat.zero_add] at happend
  exact happend

/-- Bytes stored over the start of a block replace as many. -/
theorem memRead_patched (mem : ℕ → UInt8) (bytes : List UInt8) {n : ℕ} (h : bytes.length ≤ n) :
    memRead (memcpy mem 0 bytes) 0 n = bytes ++ (memRead mem 0 n).drop bytes.length := by
  apply List.ext_getElem
  · rw [memRead_length, List.length_append, List.length_drop, memRead_length]
    omega
  · intro i h1 h2
    rw [memRead_getElem, List.getElem_append]
    split
    · rename_i hi
      exact memcpy_inside _ _ _ hi
    · rename_i hi
      rw [List.getElem_drop, memRead_getElem, memcpy_outside _ _ _ (.inr (by omega))]
      congr 1
      omega

/-- The writer of a value on lists. -/
def writeVal (buf : List UInt8) : Value → List UInt8
  | .int val => Pack.packWriteUint32 buf val.toNat
  | .int64 val => Pack.packWriteUint64 buf val.toNat
  | .str val => Pack.packWriteStrVal buf val
  | .data data _ => Pack.packWriteDataVal buf data

theorem packWriteValue_written (w : Writing) (v : Value) :
    (packWriteValue w v).written = writeVal w.written v := by
  cases v with
  | int val => exact w.written_put _
  | int64 val => exact w.written_put _
  | str val =>
    simp only [packWriteValue, packWriteStrVal, writeVal, Pack.packWriteStrVal,
      packWriteUint32, Pack.packWriteUint32, Writing.written_put]
  | data data dlen =>
    simp only [packWriteValue, packWriteDataVal, writeVal, Pack.packWriteDataVal, packWriteUint32,
      Pack.packWriteUint32]
    split
    · simp only [Writing.written_put]
    · have hnil : data = [] := List.eq_nil_of_length_eq_zero (by omega)
      simp only [hnil, Writing.written_put, List.append_nil]

/-- The element in memory is the element on lists. -/
theorem packWriteElem_written (p : PackBuf) (a : Add) :
    (packWriteElem p a).written =
      writeVal (Pack.packWriteUint32 (Pack.packWriteUint32
        (Pack.packWriteElemName (memRead p.mem 0 p.len) a.name) a.value.type) 1) a.value := by
  rw [packWriteElem, packWriteValue_written]
  simp only [packWriteElemName, packWriteUint32, Writing.written_put, Pack.packWriteElemName,
    Pack.packWriteUint32]
  rfl

/-- The four calls on lists are one with the size and the writer of their value. -/
theorem packAdd_eq (realloc : Bool) (p : SoftetherPack) (a : Add) :
    packAdd realloc p a =
      packAddElem realloc p a.name (elemSize a) a.value.type fun buf => writeVal buf a.value := by
  obtain ⟨name, value⟩ := a
  cases value <;> rfl

theorem packReserve_toPack (realloc : Bool) (p : PackBuf) (add : ℕ) :
    Pack.packReserve realloc p.toPack add =
      if (packReserve realloc p add).1 = 0 then some (packReserve realloc p add).2.toPack
      else none := by
  have hcap : p.cap ≠ 0 := by
    have := p.header
    have := p.len_le
    omega
  unfold Pack.packReserve packReserve
  by_cases hmax : add > UINT32_MAX - p.len
  · simp [PackBuf.toPack, hmax]
  · by_cases hfits : p.len + add ≤ p.cap
    · simp [PackBuf.toPack, hmax, hfits]
    · cases realloc <;> simp [PackBuf.toPack, hmax, hfits, hcap]

/-- **The calls on lists.** A call whose size does not wrap leaves the bytes that the call on
    lists leaves, and fails where it fails. -/
theorem call_refines (realloc : Bool) (p : PackBuf) (a : Add) (hsize : trueSize a < 2 ^ 32) :
    packAdd realloc p.toPack a =
      if (packAddCall realloc p a).rc = 0 then some (packAddCall realloc p a).pack.toPack
      else none := by
  rw [packAdd_eq, packAddElem, packReserve_toPack]
  by_cases hgranted : (packReserve realloc p (elemSize a)).1 = 0
  · obtain ⟨-, hlen, hmem, hcount⟩ := reserved_le hgranted
    -- the element ends where the count of bytes says
    have hend : (packWriteElem (packReserve realloc p (elemSize a)).2 a).buf =
        p.len + elemSize a := by
      rw [(packWriteElem_filled _ a).buf, hlen, elemSize_eq, Nat.mod_eq_of_lt hsize]
    have hwritten := packWriteElem_written (packReserve realloc p (elemSize a)).2 a
    have htake : (memRead p.mem 0 p.len).take p.len = memRead p.mem 0 p.len :=
      List.take_of_length_le (Nat.le_of_eq (memRead_length _ _ _))
    have hheader := p.header
    unfold packAddCall
    rw [if_pos hgranted, dif_pos hgranted, if_pos rfl]
    simp only [PackBuf.toPack, packCommitElement, hlen, hmem, hcount, htake] at hwritten ⊢
    rw [← hwritten, Writing.written, hend, memRead_patched _ _ (by rw [beBytes_length]; omega),
      beBytes_length]
  · unfold packAddCall
    rw [if_neg hgranted, dif_neg hgranted, if_neg (by simp)]

theorem call_refines_sample :
    packAdd true (packNew fun _ => 0).toPack ⟨⟨[97], by decide⟩, .int 5⟩ =
      some (packAddCall true (packNew fun _ => 0) ⟨⟨[97], by decide⟩, .int 5⟩).pack.toPack :=
  (call_refines true (packNew fun _ => 0) ⟨⟨[97], by decide⟩, .int 5⟩ (by decide)).trans
    (if_pos (by decide))

/-! ### Data of almost 4 GiB -/

/-- Data of `2 ^ 32 - 17` bytes under a name of one byte: the element has `2 ^ 32` bytes, so the
    size that is reserved is 0 and the call succeeds on a new pack of 256 bytes. -/
theorem huge_data_granted {data : List UInt8} (hdata : data.length = 2 ^ 32 - 17)
    (dlen : data.length ≤ UINT32_MAX) :
    ¬ BoundedAtomic (packNew fun _ => 0)
      (packAddCall true (packNew fun _ => 0) ⟨⟨[97], by decide⟩, .data data dlen⟩) := by
  have hsize : trueSize ⟨⟨[97], by decide⟩, .data data dlen⟩ = 2 ^ 32 := by
    simp only [trueSize, valueSize, hdata, CStr.strlen, List.length_singleton]
    decide
  have hgranted : ¬ Refused true (packNew fun _ => 0)
      (elemSize ⟨⟨[97], by decide⟩, .data data dlen⟩) := by
    rw [elemSize_eq, hsize]
    rintro (hmax | ⟨hroom, -⟩)
    · exact absurd hmax (by decide)
    · exact absurd hroom (by decide)
  intro h
  obtain ⟨s, hs, hover⟩ := call_overruns (Nat.le_of_eq hsize.symm) hgranted
  have hinside := h.bounded (packAddCall_granted hgranted).1 s hs
  exact absurd hinside (Nat.not_le.mpr hover)

theorem huge_data_overruns :
    ¬ ∀ (realloc : Bool) (p : PackBuf) (a : Add), BoundedAtomic p (packAddCall realloc p a) := by
  intro h
  have hdata : (List.replicate (2 ^ 32 - 17) (0 : UInt8)).length = 2 ^ 32 - 17 :=
    List.length_replicate
  have hmax : 2 ^ 32 - 17 ≤ UINT32_MAX := by decide
  exact huge_data_granted hdata (Nat.le_trans (Nat.le_of_eq hdata) hmax) (h true _ _)

end SoftEther.Pack.Memory

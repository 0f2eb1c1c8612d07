import Mathlib.Data.List.Basic
import Mathlib.Data.Nat.ModEq

namespace SoftEther.Lib

/-!
# Bounded ring buffers

A byte FIFO kept in a fixed block of memory: `head` is the position of the oldest
element, `size` the number of elements, and positions wrap around at `cap`.  The
memory is a function of the address, so a large buffer costs nothing to write down.

* `memcpy` / `memRead` — block copies into and out of a memory;
* `RingBuffer.write` copies in at most two pieces, before and after the wrap;
* `RingBuffer.contents` is the queue a ring stands for.  `write_eq_some`,
  `peek_eq_take` and `contents_advance` say that the three operations are append,
  take and drop on that queue.
-/

variable {α : Type*}

/-! ### Block copies -/

/-- Copy the elements of `src` to the addresses from `off` on. -/
def memcpy (mem : ℕ → α) (off : ℕ) (src : List α) : ℕ → α :=
  fun i => if off ≤ i then (src[i - off]?).getD (mem i) else mem i

/-- The `n` elements from address `off` on. -/
def memRead (mem : ℕ → α) (off n : ℕ) : List α :=
  (List.range n).map (fun i => mem (off + i))

/-- Inside the copied block the memory holds the source. -/
theorem memcpy_inside (mem : ℕ → α) (off : ℕ) (src : List α) {i : ℕ}
    (h : i < src.length) : memcpy mem off src (off + i) = src[i] := by
  simp [memcpy, h]

/-- Outside the copied block the memory is unchanged. -/
theorem memcpy_outside (mem : ℕ → α) (off : ℕ) (src : List α) {j : ℕ}
    (h : j < off ∨ off + src.length ≤ j) : memcpy mem off src j = mem j := by
  unfold memcpy
  split
  · have hlen : src.length ≤ j - off := by omega
    rw [List.getElem?_eq_none hlen]
    rfl
  · rfl

@[simp] theorem memRead_length (mem : ℕ → α) (off n : ℕ) : (memRead mem off n).length = n := by
  simp [memRead]

theorem memRead_getElem (mem : ℕ → α) (off n : ℕ) {i : ℕ} (h : i < (memRead mem off n).length) :
    (memRead mem off n)[i] = mem (off + i) := by
  simp [memRead]

theorem memRead_add (mem : ℕ → α) (off m n : ℕ) :
    memRead mem off (m + n) = memRead mem off m ++ memRead mem (off + m) n := by
  simp only [memRead, List.range_add, List.map_append, List.map_map, Nat.add_assoc]
  rfl

/-- A copy does not show where it was not made. -/
theorem memRead_memcpy_before (mem : ℕ → α) (off : ℕ) (src : List α) {start n : ℕ}
    (h : start + n ≤ off) : memRead (memcpy mem off src) start n = memRead mem start n := by
  apply List.map_congr_left
  intro i hi
  rw [List.mem_range] at hi
  exact memcpy_outside mem off src (.inl (by omega))

theorem memRead_memcpy (mem : ℕ → α) (off : ℕ) (src : List α) :
    memRead (memcpy mem off src) off src.length = src := by
  apply List.ext_getElem
  · exact memRead_length _ _ _
  · intro i h1 h2
    rw [memRead_getElem]
    exact memcpy_inside mem off src h2

/-- A copy right behind what is read is read after it. -/
theorem memRead_memcpy_append (mem : ℕ → α) (off n : ℕ) (src : List α) :
    memRead (memcpy mem (off + n) src) off (n + src.length) = memRead mem off n ++ src := by
  rw [memRead_add, memRead_memcpy_before mem _ src (le_refl _), memRead_memcpy]

/-! ### The ring -/

/-- A ring buffer over a memory block of `cap` cells. -/
structure RingBuffer (α : Type*) where
  buf : ℕ → α
  cap : ℕ
  head : ℕ
  size : ℕ
  head_lt : head < cap
  size_le : size ≤ cap

namespace RingBuffer

/-- The empty ring over a block of `cap` cells holding `x`. -/
def empty (x : α) (cap : ℕ) (h : 0 < cap) : RingBuffer α where
  buf := fun _ => x
  cap := cap
  head := 0
  size := 0
  head_lt := h
  size_le := Nat.zero_le _

/-- Free space. -/
def avail (r : RingBuffer α) : ℕ := r.cap - r.size

/-- The memory after copying `data` in behind the last element, in two pieces when
    the block's end is crossed. -/
def storeAt (r : RingBuffer α) (data : List α) : ℕ → α :=
  let off := (r.head + r.size) % r.cap
  let n1 := min (r.cap - off) data.length
  let mem := memcpy r.buf off (data.take n1)
  if data.length > n1 then memcpy mem 0 (data.drop n1) else mem

/-- Append `data`, or fail without a change when it does not fit. -/
def write (r : RingBuffer α) (data : List α) : Option (RingBuffer α) :=
  if h : data.length > r.avail then none
  else some
    { buf := r.storeAt data
      cap := r.cap
      head := r.head
      size := r.size + data.length
      head_lt := r.head_lt
      size_le := by have := r.size_le; unfold avail at h; omega }

/-- Read up to `len` elements from the front, in two pieces when the block's end is
    crossed. -/
def peek (r : RingBuffer α) (len : ℕ) : List α :=
  let len := min len r.size
  let n1 := min (r.cap - r.head) len
  memRead r.buf r.head n1 ++ (if len > n1 then memRead r.buf 0 (len - n1) else [])

/-- Drop up to `len` elements from the front. -/
def advance (r : RingBuffer α) (len : ℕ) : RingBuffer α :=
  let len := min len r.size
  { buf := r.buf
    cap := r.cap
    head := (r.head + len) % r.cap
    size := r.size - len
    head_lt := Nat.mod_lt _ (Nat.lt_of_le_of_lt (Nat.zero_le _) r.head_lt)
    size_le := le_trans (Nat.sub_le _ _) r.size_le }

/-- The queue the ring stands for, oldest element first. -/
def contents (r : RingBuffer α) : List α :=
  (List.range r.size).map (fun i => r.buf ((r.head + i) % r.cap))

/-! ### Positions and lengths -/

@[simp] theorem contents_length (r : RingBuffer α) : r.contents.length = r.size := by
  simp [contents]

@[simp] theorem contents_empty (x : α) (cap : ℕ) (h : 0 < cap) :
    (empty x cap h).contents = [] := by
  simp [contents, empty]

theorem avail_add_size (r : RingBuffer α) : r.avail + r.size = r.cap := by
  have := r.size_le
  unfold avail
  omega

/-- The `i`-th element of the queue. -/
theorem contents_getElem (r : RingBuffer α) {i : ℕ} (h : i < r.contents.length) :
    r.contents[i] = r.buf ((r.head + i) % r.cap) := by
  simp [contents]

/-- A position at most one block behind the head wraps at most once. -/
theorem wrap_eq (r : RingBuffer α) {i : ℕ} (h : i ≤ r.cap) :
    (r.head + i) % r.cap = if r.head + i < r.cap then r.head + i else r.head + i - r.cap := by
  have hh := r.head_lt
  split
  · exact Nat.mod_eq_of_lt ‹_›
  · rw [Nat.mod_eq_sub_mod (by omega), Nat.mod_eq_of_lt (by omega)]

/-! ### `write` is append -/

/-- The memory after a write whose free space does not cross the block's end at its
    start: the first piece goes behind the last element, the second one to address 0. -/
private theorem storeAt_low (r : RingBuffer α) (data : List α) (hw : r.head + r.size < r.cap) :
    r.storeAt data =
      (let n1 := min (r.cap - (r.head + r.size)) data.length
       let mem := memcpy r.buf (r.head + r.size) (data.take n1)
       if data.length > n1 then memcpy mem 0 (data.drop n1) else mem) := by
  simp only [storeAt, Nat.mod_eq_of_lt hw]

/-- The memory after a write that starts behind the block's end: one piece. -/
private theorem storeAt_high (r : RingBuffer α) (data : List α) (hw : ¬ r.head + r.size < r.cap)
    (hfit : data.length ≤ r.avail) :
    r.storeAt data = memcpy r.buf (r.head + r.size - r.cap) data := by
  have hh := r.head_lt
  have hs := r.avail_add_size
  have hoff : (r.head + r.size) % r.cap = r.head + r.size - r.cap := by
    rw [r.wrap_eq r.size_le, if_neg hw]
  have hn1 : min (r.cap - (r.head + r.size - r.cap)) data.length = data.length := by omega
  simp only [storeAt, hoff, hn1, gt_iff_lt, lt_irrefl, if_false, List.take_length]

/-- The cell that the `k`-th element of `data` goes to. -/
theorem storeAt_new (r : RingBuffer α) (data : List α) (hfit : data.length ≤ r.avail) {k : ℕ}
    (hk : k < data.length) :
    r.storeAt data ((r.head + (r.size + k)) % r.cap) = data[k] := by
  have hh := r.head_lt
  have hs := r.avail_add_size
  rw [r.wrap_eq (show r.size + k ≤ r.cap by omega)]
  by_cases hw : r.head + r.size < r.cap
  · rw [storeAt_low r data hw]
    dsimp only
    set n1 := min (r.cap - (r.head + r.size)) data.length with hn1
    by_cases hlow : r.head + (r.size + k) < r.cap
    · -- the element is in the first piece
      rw [if_pos hlow]
      have hk1 : k < (data.take n1).length := by rw [List.length_take]; omega
      have hfirst : memcpy r.buf (r.head + r.size) (data.take n1) (r.head + (r.size + k))
          = data[k] := by
        rw [show r.head + (r.size + k) = r.head + r.size + k by omega,
          memcpy_inside _ _ _ hk1, List.getElem_take]
      split
      · rw [memcpy_outside _ _ _ (by right; rw [List.length_drop]; omega)]
        exact hfirst
      · exact hfirst
    · -- the element is in the second piece
      rw [if_neg hlow, if_pos (show data.length > n1 by omega)]
      have hk2 : k - n1 < (data.drop n1).length := by rw [List.length_drop]; omega
      have h := memcpy_inside (memcpy r.buf (r.head + r.size) (data.take n1)) 0 (data.drop n1) hk2
      rw [show r.head + (r.size + k) - r.cap = 0 + (k - n1) by omega, h, List.getElem_drop]
      congr 1
      omega
  · rw [storeAt_high r data hw hfit, if_neg (by omega),
      show r.head + (r.size + k) - r.cap = r.head + r.size - r.cap + k by omega]
    exact memcpy_inside _ _ _ hk

/-- The cells of the elements already queued are not touched. -/
theorem storeAt_old (r : RingBuffer α) (data : List α) (hfit : data.length ≤ r.avail) {i : ℕ}
    (hi : i < r.size) :
    r.storeAt data ((r.head + i) % r.cap) = r.buf ((r.head + i) % r.cap) := by
  have hh := r.head_lt
  have hs := r.avail_add_size
  rw [r.wrap_eq (show i ≤ r.cap by omega)]
  by_cases hw : r.head + r.size < r.cap
  · rw [storeAt_low r data hw, if_pos (show r.head + i < r.cap by omega)]
    dsimp only
    set n1 := min (r.cap - (r.head + r.size)) data.length with hn1
    split
    · rw [memcpy_outside _ _ _ (by right; rw [List.length_drop]; omega),
        memcpy_outside _ _ _ (by left; omega)]
    · rw [memcpy_outside _ _ _ (by left; omega)]
  · rw [storeAt_high r data hw hfit]
    split
    · rw [memcpy_outside _ _ _ (by right; omega)]
    · rw [memcpy_outside _ _ _ (by left; omega)]

/-- A write succeeds exactly when the data fits. -/
theorem write_eq_none_iff (r : RingBuffer α) (data : List α) :
    r.write data = none ↔ r.avail < data.length := by
  unfold write
  split <;> simp_all

/-- **Append.** A successful write appends to the queue and keeps the capacity. -/
theorem write_eq_some {r r' : RingBuffer α} {data : List α} (h : r.write data = some r') :
    r'.contents = r.contents ++ data ∧ r'.cap = r.cap ∧ data.length ≤ r.avail := by
  unfold write at h
  split at h
  · exact absurd h (by simp)
  · rename_i hfit
    rw [not_lt] at hfit
    rw [Option.some.injEq] at h
    subst h
    refine ⟨?_, rfl, hfit⟩
    apply List.ext_getElem
    · simp
    · intro i h1 h2
      rw [contents_getElem]
      simp only [contents_length] at h1
      by_cases hi : i < r.size
      · rw [List.getElem_append_left (by simpa using hi), contents_getElem]
        exact r.storeAt_old data hfit hi
      · rw [List.getElem_append_right (by simpa using hi)]
        simp only [contents_length]
        have hk : i - r.size < data.length := by omega
        have hn := r.storeAt_new data hfit hk
        rw [show r.size + (i - r.size) = i by omega] at hn
        exact hn

/-- A write that fits succeeds. -/
theorem write_fits (r : RingBuffer α) (data : List α) (h : data.length ≤ r.avail) :
    ∃ r', r.write data = some r' := by
  cases hw : r.write data with
  | none => rw [write_eq_none_iff] at hw; omega
  | some r' => exact ⟨r', rfl⟩

/-- The size after a write. -/
theorem write_size {r r' : RingBuffer α} {data : List α} (h : r.write data = some r') :
    r'.size = r.size + data.length := by
  have hc := (write_eq_some h).1
  rw [← contents_length, hc, List.length_append, contents_length]

/-! ### `peek` is take, `advance` is drop -/

/-- **Take.** -/
theorem peek_eq_take (r : RingBuffer α) (len : ℕ) : r.peek len = r.contents.take len := by
  have hh := r.head_lt
  have hs := r.size_le
  simp only [peek]
  set l := min len r.size with hl
  set n1 := min (r.cap - r.head) l with hn1
  by_cases hgt : l > n1
  · rw [if_pos hgt]
    apply List.ext_getElem
    · simp only [List.length_append, memRead_length, List.length_take, contents_length]
      omega
    · intro i h1 h2
      have hi : i < l := by
        rw [List.length_take, contents_length] at h2
        exact h2
      rw [List.getElem_take, contents_getElem, r.wrap_eq (show i ≤ r.cap by omega)]
      by_cases hlow : i < n1
      · rw [List.getElem_append_left (by simpa using hlow), memRead_getElem, if_pos (by omega)]
      · rw [List.getElem_append_right (by simpa using hlow), memRead_getElem, if_neg (by omega)]
        congr 1
        rw [memRead_length]
        omega
  · rw [if_neg hgt, List.append_nil]
    apply List.ext_getElem
    · simp only [memRead_length, List.length_take, contents_length]
      omega
    · intro i h1 h2
      rw [memRead_length] at h1
      rw [List.getElem_take, contents_getElem, memRead_getElem,
        r.wrap_eq (show i ≤ r.cap by omega), if_pos (by omega)]

@[simp] theorem advance_size (r : RingBuffer α) (len : ℕ) :
    (r.advance len).size = r.size - min len r.size := rfl

/-- **Drop.** -/
theorem contents_advance (r : RingBuffer α) (len : ℕ) :
    (r.advance len).contents = r.contents.drop len := by
  apply List.ext_getElem
  · simp; omega
  · intro i h1 h2
    rw [contents_getElem, List.getElem_drop, contents_getElem]
    simp only [contents_length, advance_size] at h1
    have hle : min len r.size = len := by omega
    show r.buf (((r.head + min len r.size) % r.cap + i) % r.cap) = _
    rw [hle, Nat.mod_add_mod, Nat.add_assoc]

end RingBuffer

end SoftEther.Lib

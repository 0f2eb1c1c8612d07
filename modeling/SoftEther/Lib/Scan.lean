import SoftEther.Lib.RingBuffer

namespace SoftEther.Lib

/-!
# Bounds-checked walks over a block of memory

A parser walks a pointer over a block.  Before it takes a field it compares the pointer plus the
length with the end of the block, and the sum is an address: it wraps at the pointer width.

* `Scan` — a walk: the next field depends on the bytes read so far;
* `Answer` — how a walk ends: with a value, or with a last copy that leaves the pointer alone;
* `Block` — a block of an address space of `bits` bits;
* `Scan.machine` — the walk with addresses; every access is recorded;
* `Scan.eval`, `Scan.demands` — the walk on the bytes alone, and the lengths it asks for;
* `inBounds_iff` — the accesses are inside the block and move forward exactly when no length the
  walk asks for carries the pointer around the address space;
* `machine_eq_eval` — then the walk is the walk on the bytes.
-/

variable {α β : Type}

/-! ### Walks -/

/-- A walk over a block.  `take` checks that `len` bytes lie before the end, reads at most `limit`
    of them and steps over all; with `nullCheck` a null pointer fails. -/
inductive Scan (α : Type)
  | done (result : α)
  | fail
  | take (nullCheck : Bool) (len : UInt32) (limit : ℕ) (next : List UInt8 → Scan α)

namespace Scan

/-- One reading after the other. -/
def bind : Scan α → (α → Scan β) → Scan β
  | done a, f => f a
  | fail, _ => fail
  | take nullCheck len limit next, f => take nullCheck len limit fun bytes => (next bytes).bind f

instance : Monad Scan where
  pure := done
  bind := bind

@[simp] theorem done_bind (a : α) (f : α → Scan β) : done a >>= f = f a := rfl

@[simp] theorem take_bind (nullCheck : Bool) (len : UInt32) (limit : ℕ)
    (next : List UInt8 → Scan α) (f : α → Scan β) :
    take nullCheck len limit next >>= f =
      take nullCheck len limit fun bytes => next bytes >>= f := rfl

end Scan

/-- How a walk ends.  `copy` checks `len` like a step, copies at most `limit` bytes and leaves the
    pointer where it is. -/
inductive Answer (α : Type)
  | value (result : α)
  | copy (len : UInt32) (limit : ℕ) (result : List UInt8 → α)

/-- The number of bytes a check of `len` bytes with a limit reads. -/
def readCount (len : UInt32) (limit : ℕ) : ℕ := min len.toNat limit

theorem readCount_le (len : UInt32) (limit : ℕ) : readCount len limit ≤ len.toNat :=
  Nat.min_le_left _ _

/-! ### The walk with addresses -/

/-- A block of an address space of `bits` bits; the address behind it is one. -/
structure Block (bits : ℕ) where
  mem : ℕ → UInt8
  base : ℕ
  len : ℕ
  base_pos : 0 < base
  fits : base + len < 2 ^ bits

namespace Block

variable {bits : ℕ}

/-- The first address behind the block. -/
def stop (b : Block bits) : ℕ := b.base + b.len

/-- The bytes of a block. -/
def bytes (b : Block bits) : List UInt8 := memRead b.mem b.base b.len

@[simp] theorem bytes_length (b : Block bits) : b.bytes.length = b.len := memRead_length _ _ _

/-- Read `n` bytes at an address, inside the block or not. -/
def read (b : Block bits) (p n : ℕ) : List UInt8 :=
  (List.range n).map fun i => b.mem ((p + i) % 2 ^ bits)

/-- Inside the block the bytes read are its own. -/
theorem read_eq (b : Block bits) {off n : ℕ} (h : off + n ≤ b.len) :
    b.read (b.base + off) n = (b.bytes.drop off).take n := by
  have hfits := b.fits
  apply List.ext_getElem
  · rw [read, List.length_map, List.length_range, List.length_take, List.length_drop,
      b.bytes_length]
    omega
  · intro i h1 h2
    rw [read, List.length_map, List.length_range] at h1
    simp only [read, List.getElem_map, List.getElem_range, List.getElem_take, List.getElem_drop,
      bytes, memRead_getElem]
    rw [Nat.mod_eq_of_lt (by omega), Nat.add_assoc]

end Block

/-- An access: `count` bytes read at `addr`, after which the pointer is `next`. -/
structure Access where
  addr : ℕ
  count : ℕ
  next : ℕ
  deriving DecidableEq

/-- The accesses of a walk, in order, and its result; `none` is an error. -/
structure Trace (α : Type) where
  accesses : List Access
  result : Option α

variable {bits : ℕ}

/-- The end of a walk at the pointer `p`. -/
def Answer.machine (b : Block bits) (p : ℕ) : Answer α → Trace α
  | .value a => ⟨[], some a⟩
  | .copy len limit result =>
    if (p + len.toNat) % 2 ^ bits > b.stop then ⟨[], none⟩
    else ⟨[⟨p, readCount len limit, p⟩], some (result (b.read p (readCount len limit)))⟩

/-- A walk from the pointer `p`. -/
def Scan.machine (b : Block bits) : Scan (Answer α) → ℕ → Trace α
  | .done answer, p => answer.machine b p
  | .fail, _ => ⟨[], none⟩
  | .take nullCheck len limit next, p =>
    if nullCheck ∧ p = 0 then ⟨[], none⟩
    else if (p + len.toNat) % 2 ^ bits > b.stop then ⟨[], none⟩
    else
      let rest := (next (b.read p (readCount len limit))).machine b ((p + len.toNat) % 2 ^ bits)
      ⟨⟨p, readCount len limit, (p + len.toNat) % 2 ^ bits⟩ :: rest.accesses, rest.result⟩

/-- Every read is inside the block and the pointer never moves backwards. -/
structure InBounds (b : Block bits) (t : Trace α) : Prop where
  inside : ∀ a ∈ t.accesses, a.count = 0 ∨ (b.base ≤ a.addr ∧ a.addr + a.count ≤ b.stop)
  forward : ∀ a ∈ t.accesses, a.addr ≤ a.next

theorem inBounds_nil (b : Block bits) (result : Option α) : InBounds b ⟨[], result⟩ :=
  ⟨fun _ h => absurd h List.not_mem_nil, fun _ h => absurd h List.not_mem_nil⟩

theorem inBounds_cons_iff (b : Block bits) (a : Access) (t : Trace α) :
    InBounds b ⟨a :: t.accesses, t.result⟩ ↔
      ((a.count = 0 ∨ (b.base ≤ a.addr ∧ a.addr + a.count ≤ b.stop)) ∧ a.addr ≤ a.next) ∧
        InBounds b t := by
  constructor
  · rintro ⟨hinside, hforward⟩
    rw [List.forall_mem_cons] at hinside hforward
    exact ⟨⟨hinside.1, hforward.1⟩, hinside.2, hforward.2⟩
  · rintro ⟨⟨hin, hfwd⟩, hinside, hforward⟩
    exact ⟨List.forall_mem_cons.mpr ⟨hin, hinside⟩, List.forall_mem_cons.mpr ⟨hfwd, hforward⟩⟩

/-! ### The walk on the bytes -/

/-- The end of a walk with `rest` behind the pointer. -/
def Answer.eval (rest : List UInt8) : Answer α → Option α
  | .value a => some a
  | .copy len limit result =>
    if rest.length < len.toNat then none else some (result (rest.take (readCount len limit)))

/-- A walk over `rest`, with what it leaves. -/
def Scan.eval : Scan α → List UInt8 → Option (α × List UInt8)
  | .done a, rest => some (a, rest)
  | .fail, _ => none
  | .take _ len limit next, rest =>
    if rest.length < len.toNat then none
    else (next (rest.take (readCount len limit))).eval (rest.drop len.toNat)

/-- A walk with its end. -/
def Scan.evalAnswer (c : Scan (Answer α)) (rest : List UInt8) : Option α :=
  (c.eval rest).bind fun r => r.1.eval r.2

/-- A length asked for at an offset: `len` bytes, of which `count` are read; `last` for the copy
    at the end of a walk. -/
structure Demand where
  off : ℕ
  len : ℕ
  count : ℕ
  last : Bool

/-- The length a walk asks for at its end. -/
def Answer.demands (off : ℕ) : Answer α → List Demand
  | .value _ => []
  | .copy len limit _ => [⟨off, len.toNat, readCount len limit, true⟩]

/-- The lengths a walk asks for over `rest`, which starts at `off`. -/
def Scan.demands : Scan (Answer α) → ℕ → List UInt8 → List Demand
  | .done answer, off, _ => answer.demands off
  | .fail, _, _ => []
  | .take _ len limit next, off, rest =>
    ⟨off, len.toNat, readCount len limit, false⟩ ::
      if rest.length < len.toNat then []
      else (next (rest.take (readCount len limit))).demands (off + len.toNat)
        (rest.drop len.toNat)

/-- The end of the demanded bytes is an address, or the copy at the end is inside the block as far
    as it is made. -/
def Demand.Fits (b : Block bits) (d : Demand) : Prop :=
  b.base + d.off + d.len < 2 ^ bits ∨ (d.last = true ∧ d.off + d.count ≤ b.len)

/-! ### When a walk is in bounds -/

theorem len_lt (hbits : 32 ≤ bits) (len : UInt32) : len.toNat < 2 ^ bits :=
  Nat.lt_of_lt_of_le len.toNat_lt (Nat.pow_le_pow_right (by decide) hbits)

/-- A sum that wraps is before the pointer, so the check lets it pass. -/
theorem wrapped_lt (hbits : 32 ≤ bits) {p : ℕ} {len : UInt32} (hp : p < 2 ^ bits)
    (hwrap : 2 ^ bits ≤ p + len.toNat) : (p + len.toNat) % 2 ^ bits < p := by
  have hlen := len_lt hbits len
  rw [Nat.mod_eq_sub_mod hwrap, Nat.mod_eq_of_lt (by omega)]
  omega

variable {off n : ℕ}

theorem Answer.inBounds_iff (hbits : 32 ≤ bits) (b : Block bits) (answer : Answer α)
    (hoff : off ≤ b.len) : InBounds b (answer.machine b (b.base + off)) ↔
      ∀ d ∈ answer.demands off, d.Fits b := by
  cases answer with
  | value a => exact iff_of_true (inBounds_nil b _) (by simp [Answer.demands])
  | copy len limit result =>
    have hfits := b.fits
    have hpos := b.base_pos
    have hcount := readCount_le len limit
    simp only [Answer.machine, Answer.demands, List.forall_mem_singleton, Demand.Fits, true_and]
    by_cases hwrap : b.base + off + len.toNat < 2 ^ bits
    · rw [Nat.mod_eq_of_lt hwrap]
      refine iff_of_true ?_ (.inl hwrap)
      split
      · exact inBounds_nil b _
      · rename_i hstop
        rw [Block.stop] at hstop
        have hin : b.base ≤ b.base + off ∧
            b.base + off + readCount len limit ≤ b.base + b.len := by omega
        exact (inBounds_cons_iff b _ ⟨[], _⟩).mpr ⟨⟨.inr hin, Nat.le_refl _⟩, inBounds_nil b _⟩
    · have hback := wrapped_lt hbits (by omega) (Nat.le_of_not_lt hwrap)
      rw [if_neg (by rw [Block.stop]; omega), inBounds_cons_iff b _ ⟨[], _⟩]
      simp only [Block.stop, hwrap, false_or, inBounds_nil, and_true]
      omega

/-- **Walks in bounds.** From any pointer in the block, the accesses of a walk are inside the block
    and move forward if and only if every length it asks for fits the address space. -/
theorem Scan.inBounds_iff (hbits : 32 ≤ bits) (b : Block bits) (c : Scan (Answer α))
    (hoff : off ≤ b.len) : InBounds b (c.machine b (b.base + off)) ↔
      ∀ d ∈ c.demands off (b.bytes.drop off), d.Fits b := by
  induction c generalizing off with
  | done answer => exact answer.inBounds_iff hbits b hoff
  | fail => exact iff_of_true (inBounds_nil b _) (by simp [Scan.demands])
  | take nullCheck len limit next ih =>
    have hfits := b.fits
    have hpos := b.base_pos
    have hcount := readCount_le len limit
    have hrest : (b.bytes.drop off).length = b.len - off := by simp
    simp only [Scan.machine, Scan.demands, List.forall_mem_cons, hrest]
    rw [if_neg (by omega)]
    by_cases hwrap : b.base + off + len.toNat < 2 ^ bits
    · have hhead : Demand.Fits b ⟨off, len.toNat, readCount len limit, false⟩ := .inl hwrap
      rw [Nat.mod_eq_of_lt hwrap]
      by_cases hstop : b.base + off + len.toNat > b.stop
      · rw [if_pos hstop, if_pos (by rw [Block.stop] at hstop; omega)]
        exact iff_of_true (inBounds_nil b _) ⟨hhead, by simp⟩
      · rw [Block.stop] at hstop
        rw [if_neg (by rw [Block.stop]; exact hstop), if_neg (by omega), inBounds_cons_iff,
          b.read_eq (by omega), Nat.add_assoc b.base, ih _ (by omega), List.drop_drop]
        simp only [hhead, true_and, Block.stop]
        exact and_iff_right ⟨.inr (by omega), by omega⟩
    · -- the pointer moves backwards, and the length is the one that does not fit
      have hback := wrapped_lt hbits (by omega) (Nat.le_of_not_lt hwrap)
      rw [if_neg (by rw [Block.stop]; omega), inBounds_cons_iff]
      refine iff_of_false ?_ ?_
      · rintro ⟨⟨-, hforward⟩, -⟩
        simp only [] at hforward
        omega
      · rintro ⟨hhead | ⟨hlast, -⟩, -⟩
        · exact hwrap hhead
        · exact absurd hlast (by simp)

theorem Answer.machine_eq_eval (b : Block bits) (answer : Answer α) (hoff : off ≤ b.len)
    (h : ∀ d ∈ answer.demands off, b.base + d.off + d.len < 2 ^ bits) :
    (answer.machine b (b.base + off)).result = answer.eval (b.bytes.drop off) := by
  cases answer with
  | value a => rfl
  | copy len limit result =>
    have hwrap : b.base + off + len.toNat < 2 ^ bits := h _ (List.mem_singleton.mpr rfl)
    have hcount := readCount_le len limit
    have hrest : (b.bytes.drop off).length = b.len - off := by simp
    simp only [Answer.machine, Answer.eval, Nat.mod_eq_of_lt hwrap, hrest, Block.stop]
    by_cases hstop : b.base + off + len.toNat > b.base + b.len
    · rw [if_pos hstop, if_pos (by omega)]
    · rw [if_neg hstop, if_neg (by omega), b.read_eq (by omega)]

/-- **Without a wrap** the walk with addresses is the walk on the bytes. -/
theorem Scan.machine_eq_eval (b : Block bits) (c : Scan (Answer α)) (hoff : off ≤ b.len)
    (h : ∀ d ∈ c.demands off (b.bytes.drop off), b.base + d.off + d.len < 2 ^ bits) :
    (c.machine b (b.base + off)).result = c.evalAnswer (b.bytes.drop off) := by
  induction c generalizing off with
  | done answer => exact answer.machine_eq_eval b hoff h
  | fail => rfl
  | take nullCheck len limit next ih =>
    have hpos := b.base_pos
    have hcount := readCount_le len limit
    have hrest : (b.bytes.drop off).length = b.len - off := by simp
    rw [Scan.demands, List.forall_mem_cons, hrest] at h
    obtain ⟨hwrap, htail⟩ := h
    simp only [] at hwrap
    simp only [Scan.machine, Scan.evalAnswer, Scan.eval, Nat.mod_eq_of_lt hwrap, hrest]
    rw [if_neg (by omega)]
    by_cases hstop : b.base + off + len.toNat > b.stop
    · rw [if_pos hstop, if_pos (by rw [Block.stop] at hstop; omega)]
      rfl
    · rw [Block.stop] at hstop
      rw [if_neg (by omega), List.drop_drop] at htail
      rw [if_neg (by rw [Block.stop]; exact hstop), if_neg (by omega), List.drop_drop,
        b.read_eq (by omega), Nat.add_assoc b.base]
      exact ih _ (by omega) htail

/-! ### The number of accesses -/

/-- A walk takes at most `n` steps. -/
def Scan.AtMost : ℕ → Scan α → Prop
  | _, .done _ => True
  | _, .fail => True
  | 0, .take .. => False
  | n + 1, .take _ _ _ next => ∀ bytes, (next bytes).AtMost n

theorem Scan.atMost_done (n : ℕ) (a : α) : (Scan.done a).AtMost n := by
  cases n <;> exact trivial

theorem Scan.atMost_fail (n : ℕ) : (Scan.fail : Scan α).AtMost n := by
  cases n <;> exact trivial

theorem Scan.AtMost.mono {m : ℕ} {c : Scan α} (h : c.AtMost m) (hmn : m ≤ n) : c.AtMost n := by
  induction c generalizing m n with
  | done a => exact Scan.atMost_done n a
  | fail => exact Scan.atMost_fail n
  | take nullCheck len limit next ih =>
    cases m with
    | zero => exact absurd h id
    | succ m =>
      cases n with
      | zero => omega
      | succ n => exact fun bytes => ih bytes (h bytes) (by omega)

theorem Scan.AtMost.bind {m : ℕ} {c : Scan α} {f : α → Scan β} (h : c.AtMost m)
    (hf : ∀ a, (f a).AtMost n) : (c >>= f).AtMost (m + n) := by
  induction c generalizing m with
  | done a => exact (hf a).mono (by omega)
  | fail => exact Scan.atMost_fail _
  | take nullCheck len limit next ih =>
    cases m with
    | zero => exact absurd h id
    | succ m =>
      rw [Scan.take_bind, Nat.add_right_comm]
      exact fun bytes => ih bytes (h bytes)

/-- A walk of at most `n` steps makes at most one access more, for its end. -/
theorem Scan.accesses_le (b : Block bits) {c : Scan (Answer α)} (h : c.AtMost n) (p : ℕ) :
    (c.machine b p).accesses.length ≤ n + 1 := by
  induction c generalizing n p with
  | done answer =>
    cases answer with
    | value a => simp [Scan.machine, Answer.machine]
    | copy len limit result =>
      simp only [Scan.machine, Answer.machine]
      split <;> simp
  | fail => simp [Scan.machine]
  | take nullCheck len limit next ih =>
    cases n with
    | zero => exact absurd h id
    | succ n =>
      simp only [Scan.machine]
      split_ifs
      · exact Nat.zero_le _
      · exact Nat.zero_le _
      · exact Nat.succ_le_succ (ih _ (h _) _)

/-! ### Blocks with room behind them -/

theorem Answer.demand_bounds {answer : Answer α} :
    ∀ d ∈ answer.demands off, d.off = off ∧ d.len < 2 ^ 32 := by
  intro d hd
  cases answer with
  | value a => exact absurd hd List.not_mem_nil
  | copy len limit result =>
    rw [List.mem_singleton.mp hd]
    exact ⟨rfl, len.toNat_lt⟩

theorem Scan.demand_bounds {c : Scan (Answer α)} {rest : List UInt8} :
    ∀ d ∈ c.demands off rest, d.off ≤ off + rest.length ∧ d.len < 2 ^ 32 := by
  induction c generalizing off rest with
  | done answer =>
    intro d hd
    have := Answer.demand_bounds d hd
    omega
  | fail => exact fun d hd => absurd hd List.not_mem_nil
  | take nullCheck len limit next ih =>
    rw [Scan.demands, List.forall_mem_cons]
    refine ⟨⟨Nat.le_add_right _ _, len.toNat_lt⟩, ?_⟩
    split
    · exact fun d hd => absurd hd List.not_mem_nil
    · intro d hd
      have hd := ih _ d hd
      rw [List.length_drop] at hd
      omega

/-- **Room behind the block.** When `2 ^ 32` bytes behind the block are addresses, nothing a walk
    asks for wraps. -/
theorem Scan.demands_of_room (b : Block bits) (hroom : b.stop + 2 ^ 32 ≤ 2 ^ bits)
    (c : Scan (Answer α)) :
    ∀ d ∈ c.demands 0 b.bytes, b.base + d.off + d.len < 2 ^ bits := by
  intro d hd
  have hd := Scan.demand_bounds d hd
  rw [b.bytes_length] at hd
  rw [Block.stop] at hroom
  omega

end SoftEther.Lib

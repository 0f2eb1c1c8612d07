import SoftEther.Links.Additional

namespace SoftEther.Links

/-!
# The link for the next packet (`softether_select_send_socket`)

Each call collects the links that may send, the primary one first and then the slots in their
order, and takes them in turn. The counter is an `int`: one that is negative or at its maximum
would read outside the list or overflow, which is no value here.

* `SendSide`, `SendSide.Sends` — what a call reads, and the links that may send;
* `candidates`, `selectSendSocket`, `selectMany` — one call, and calls one after the other;
* `Fair`, `TakesTurns` — every link that may send once, and no other, in any calls in a row;
* `selectMany_eq` — what calls in a row choose, from where the counter stands;
* `takesTurns_iff_counter` — the counters from which the calls take turns;
* `Reached`, `selectSendSocket_takes_turns` — the counter of every connection is one of these.
-/

/-! ### The function -/

/-- What is read of a `softether_tcp_sock_t`. -/
structure SendSlot where
  active : Bool
  direction : Int32

/-- What is read of a `softether_connection_t`; `ssl` is not `NULL`. -/
structure SendSide where
  socketFd : Int32
  ssl : Bool
  primaryDirection : Int32
  additional : SlotIndex → SendSlot
  sendRrIdx : Int32

/-- The direction allows the client to send. -/
def sends (direction : Int32) : Bool :=
  direction.toInt == tcpDirectionBoth || direction.toInt == tcpDirectionClientToServer

namespace SendSide

variable (c : SendSide)

/-- The primary link may send. -/
def primarySends : Bool := 0 ≤ c.socketFd.toInt && c.ssl && sends c.primaryDirection

/-- The link in a slot may send. -/
def slotSends (i : SlotIndex) : Bool := (c.additional i).active && sends (c.additional i).direction

/-- `candidates`: the number of the primary link is 0, that of a slot is one more than its index. -/
def candidates : List ℕ :=
  (if c.primarySends then [0] else []) ++
    ((List.finRange maxSeConnections).filter c.slotSends).map fun i => i.val + 1

/-- The links, with another counter. -/
def withIdx (idx : Int32) : SendSide := { c with sendRrIdx := idx }

@[simp] theorem withIdx_candidates (idx : Int32) : (c.withIdx idx).candidates = c.candidates := rfl

/-- A link that may send. -/
def Sends (link : ℕ) : Prop :=
  (link = 0 ∧ c.primarySends = true) ∨ ∃ i : SlotIndex, link = i.val + 1 ∧ c.slotSends i = true

end SendSide

/-- `softether_select_send_socket`. -/
def selectSendSocket (c : SendSide) : Option (ℕ × SendSide) :=
  let count := c.candidates.length
  if count = 0 then some (0, c)
  else if c.sendRrIdx = Int32.maxValue then none
  else
    let idx := c.sendRrIdx.toInt.tmod count
    let next := (c.sendRrIdx.toInt + 1).tmod count
    if idx < 0 then none
    else some (c.candidates.getD idx.toNat 0, c.withIdx (Int32.ofInt next))

/-- Calls one after the other, while the links stay as they are. -/
def selectMany : ℕ → SendSide → Option (List ℕ × SendSide)
  | 0, c => some ([], c)
  | k + 1, c =>
    (selectSendSocket c).bind fun r => (selectMany k r.2).map fun rs => (r.1 :: rs.1, rs.2)

/-! ### The property -/

/-- **Every link that may send is chosen once**, and no other link is chosen. -/
structure Fair (c : SendSide) (links : List ℕ) : Prop where
  once : ∀ link, c.Sends link → links.count link = 1
  only : ∀ link ∈ links, c.Sends link

/-- **The links take turns**: after any number of calls, as many calls as there are links that may
    send are fair. -/
def TakesTurns (c : SendSide) : Prop :=
  ∀ k, ∃ before c₁ links c₂, selectMany k c = some (before, c₁) ∧
    selectMany c.candidates.length c₁ = some (links, c₂) ∧ Fair c links

/-! ### The candidates -/

section Candidates

variable {c : SendSide}

theorem mem_candidates {link : ℕ} : link ∈ c.candidates ↔ c.Sends link := by
  rw [SendSide.candidates, List.mem_append, SendSide.Sends]
  refine or_congr ?_ ?_
  · split_ifs with hprimary
    · simp [hprimary]
    · simp [hprimary]
  · constructor
    · intro hslot
      obtain ⟨i, hi, hlink⟩ := List.mem_map.mp hslot
      exact ⟨i, hlink.symm, (List.mem_filter.mp hi).2⟩
    · rintro ⟨i, rfl, hi⟩
      exact List.mem_map.mpr ⟨i, List.mem_filter.mpr ⟨List.mem_finRange i, hi⟩, rfl⟩

theorem nodup_candidates (c : SendSide) : c.candidates.Nodup := by
  have hslots : (((List.finRange maxSeConnections).filter c.slotSends).map
      fun i => i.val + 1).Nodup := by
    refine ((List.nodup_finRange _).filter _).map ?_
    intro i j hij
    exact Fin.ext (Nat.succ.inj hij)
  rw [SendSide.candidates]
  refine List.nodup_append.mpr ⟨?_, hslots, ?_⟩
  · split_ifs
    · exact List.nodup_singleton 0
    · exact List.nodup_nil
  · -- no slot has the number of the primary link
    intro link hprimary other hslot hsame
    obtain ⟨i, -, rfl⟩ := List.mem_map.mp hslot
    split_ifs at hprimary
    · rw [List.mem_singleton] at hprimary
      omega
    · exact absurd hprimary List.not_mem_nil

theorem length_candidates_le (c : SendSide) : c.candidates.length ≤ 33 := by
  have hslots := List.length_filter_le c.slotSends (List.finRange maxSeConnections)
  rw [List.length_finRange] at hslots
  have hsize : maxSeConnections = 32 := rfl
  rw [SendSide.candidates, List.length_append, List.length_map]
  split_ifs
  · simp only [List.length_singleton]
    omega
  · simp only [List.length_nil]
    omega

/-- A list with the links of the candidates, in any order, is fair. -/
theorem fair_of_perm {links : List ℕ} (h : links.Perm c.candidates) : Fair c links where
  once link hlink := by
    rw [h.count_eq]
    exact List.count_eq_one_of_mem (nodup_candidates c) (mem_candidates.mpr hlink)
  only link hlink := mem_candidates.mp (h.mem_iff.mp hlink)

end Candidates

/-! ### Turns -/

section Turns

variable {α : Type*}

/-- The elements of a list in turn, from a position. -/
def turns (l : List α) (d : α) (x k : ℕ) : List α :=
  (List.range k).map fun j => l.getD ((x + j) % l.length) d

theorem turns_succ (l : List α) (d : α) (x k : ℕ) :
    turns l d x (k + 1) = l.getD (x % l.length) d :: turns l d (x + 1) k := by
  simp [turns, List.range_succ_eq_map, Function.comp_def, Nat.add_right_comm, Nat.add_assoc]

/-- Only the rest of the position matters. -/
theorem turns_congr (l : List α) (d : α) {x y : ℕ} (h : x % l.length = y % l.length) (k : ℕ) :
    turns l d x k = turns l d y k := by
  refine List.map_congr_left fun j _ => ?_
  rw [Nat.add_mod, h, ← Nat.add_mod]

/-- **A whole round** is the list, turned. -/
theorem turns_length (l : List α) (d : α) (x : ℕ) : turns l d x l.length = l.rotate x := by
  apply List.ext_getElem
  · simp [turns]
  · intro j hj hj'
    rw [List.getElem_rotate]
    have hlt : (x + j) % l.length < l.length :=
      Nat.mod_lt _ (by simp [turns] at hj; omega)
    simp [turns, hlt, Nat.add_comm j]

end Turns

/-! ### Calls in a row -/

section Calls

variable {c : SendSide}

/-- **One call** from a counter that is neither negative nor at its maximum. -/
theorem selectSendSocket_eq (hlinks : c.candidates ≠ []) {x : ℕ} (hx : c.sendRrIdx.toInt = x)
    (hmax : x < 2147483647) :
    selectSendSocket c = some (c.candidates.getD (x % c.candidates.length) 0,
      c.withIdx (Int32.ofInt ((x + 1) % c.candidates.length : ℕ))) := by
  have hcount : c.candidates.length ≠ 0 := fun h => hlinks (List.length_eq_zero_iff.mp h)
  have hbelow : c.sendRrIdx ≠ Int32.maxValue := by
    intro heq
    rw [heq] at hx
    have hvalue : Int32.maxValue.toInt = 2147483647 := rfl
    omega
  have hidx : (x : ℤ).tmod c.candidates.length = (x % c.candidates.length : ℕ) :=
    (Int.ofNat_tmod _ _).symm
  have hnext : ((x : ℤ) + 1).tmod c.candidates.length = ((x + 1) % c.candidates.length : ℕ) :=
    (Int.ofNat_tmod _ _).symm
  simp only [selectSendSocket, hcount, hbelow, hx, hidx, hnext, if_false]
  rw [if_neg (by omega), Int.toNat_natCast]

/-- The counter after a call. -/
theorem toInt_next {n : ℕ} (hn : n ≠ 0) (hle : n ≤ 33) (x : ℕ) :
    (Int32.ofInt (x % n : ℕ)).toInt = (x % n : ℕ) := by
  have hlt := Nat.mod_lt x (Nat.pos_of_ne_zero hn)
  exact Int32.toInt_ofInt_of_le (by omega) (by omega)

/-- **Calls in a row** choose the links in turn, from where the counter stands, and leave a counter
    from which the turns go on. -/
theorem selectMany_eq (hlinks : c.candidates ≠ []) (k : ℕ) {x : ℕ} (hx : c.sendRrIdx.toInt = x)
    (hmax : x < 2147483647) :
    ∃ idx, selectMany k c = some (turns c.candidates 0 x k, c.withIdx idx) ∧
      ∃ y : ℕ, idx.toInt = y ∧ y < 2147483647 := by
  induction k generalizing c x with
  | zero => exact ⟨c.sendRrIdx, rfl, x, hx, hmax⟩
  | succ k ih =>
    have hcount : c.candidates.length ≠ 0 := fun h => hlinks (List.length_eq_zero_iff.mp h)
    have hle := length_candidates_le c
    have hlt := Nat.mod_lt (x + 1) (Nat.pos_of_ne_zero hcount)
    -- the calls after the first one start at its remainder
    obtain ⟨idx, hmany, hidx⟩ := ih
      (c := c.withIdx (Int32.ofInt ((x + 1) % c.candidates.length : ℕ))) hlinks
      (toInt_next hcount hle (x + 1)) (by omega)
    refine ⟨idx, ?_, hidx⟩
    rw [selectMany, selectSendSocket_eq hlinks hx hmax, Option.bind_some]
    dsimp only
    rw [hmany, SendSide.withIdx_candidates, turns_succ,
      turns_congr _ _ (Nat.mod_mod (x + 1) c.candidates.length) k]
    rfl

/-- As many calls as there are links are fair. -/
theorem fair_round (hlinks : c.candidates ≠ []) {x : ℕ} (hx : c.sendRrIdx.toInt = x)
    (hmax : x < 2147483647) :
    ∃ links c', selectMany c.candidates.length c = some (links, c') ∧ Fair c links := by
  obtain ⟨idx, hmany, -⟩ := selectMany_eq hlinks c.candidates.length hx hmax
  refine ⟨_, _, hmany, fair_of_perm ?_⟩
  rw [turns_length]
  exact List.rotate_perm _ _

theorem takesTurns_of_nonneg (hlinks : c.candidates ≠ []) {x : ℕ} (hx : c.sendRrIdx.toInt = x)
    (hmax : x < 2147483647) : TakesTurns c := by
  intro k
  obtain ⟨idx, hmany, y, hy, hylt⟩ := selectMany_eq hlinks k hx hmax
  obtain ⟨links, c₂, hround, hfair⟩ := fair_round (c := c.withIdx idx) hlinks hy hylt
  exact ⟨_, _, links, c₂, hmany, hround, hfair.once, hfair.only⟩

/-! ### Counters that are negative or at the maximum -/

theorem selectSendSocket_nil (hlinks : c.candidates = []) : selectSendSocket c = some (0, c) := by
  simp [selectSendSocket, hlinks]

theorem selectMany_nil (hlinks : c.candidates = []) (k : ℕ) :
    selectMany k c = some (List.replicate k 0, c) := by
  induction k with
  | zero => rfl
  | succ k ih =>
    rw [selectMany, selectSendSocket_nil hlinks, Option.bind_some, ih]
    rfl

theorem selectSendSocket_max (hlinks : c.candidates ≠ []) (hmax : c.sendRrIdx = Int32.maxValue) :
    selectSendSocket c = none := by
  have hcount : c.candidates.length ≠ 0 := fun h => hlinks (List.length_eq_zero_iff.mp h)
  simp only [selectSendSocket, hcount, hmax, if_false, if_true]

/-- **A negative counter** reads outside the list, unless the count divides it. -/
theorem selectSendSocket_neg (hlinks : c.candidates ≠ []) {a : ℕ}
    (ha : c.sendRrIdx.toInt = -(a : ℤ)) (hpos : 0 < a) :
    selectSendSocket c =
      if a % c.candidates.length = 0 then
        some (c.candidates.getD 0 0,
          c.withIdx (Int32.ofInt (-((a - 1) % c.candidates.length : ℕ))))
      else none := by
  have hcount : c.candidates.length ≠ 0 := fun h => hlinks (List.length_eq_zero_iff.mp h)
  have hbelow : c.sendRrIdx ≠ Int32.maxValue := by
    intro heq
    rw [heq] at ha
    have hvalue : Int32.maxValue.toInt = 2147483647 := rfl
    omega
  have hidx : (-(a : ℤ)).tmod c.candidates.length = -(a % c.candidates.length : ℕ) := by
    rw [Int.neg_tmod, ← Int.ofNat_tmod]
  have hnext : (-(a : ℤ) + 1).tmod c.candidates.length = -((a - 1) % c.candidates.length : ℕ) := by
    have hpred : -(a : ℤ) + 1 = -((a - 1 : ℕ) : ℤ) := by omega
    rw [hpred, Int.neg_tmod, ← Int.ofNat_tmod]
  simp only [selectSendSocket, hcount, hbelow, ha, hidx, hnext, if_false]
  by_cases hdvd : a % c.candidates.length = 0
  · rw [if_pos hdvd, hdvd]
    rfl
  · rw [if_neg hdvd, if_pos (by omega)]

/-- Two links and a negative counter: the first call or the second one reads outside the list. -/
theorem selectMany_neg (htwo : 2 ≤ c.candidates.length) (hneg : c.sendRrIdx.toInt < 0) :
    selectMany c.candidates.length c = none := by
  have hlinks : c.candidates ≠ [] := fun h => by simp [h] at htwo
  obtain ⟨a, ha⟩ : ∃ a : ℕ, c.sendRrIdx.toInt = -(a : ℤ) :=
    ⟨c.sendRrIdx.toInt.natAbs, by omega⟩
  obtain ⟨n, hn⟩ : ∃ n, c.candidates.length = n + 2 := ⟨_, (Nat.sub_add_cancel htwo).symm⟩
  have hfirst := selectSendSocket_neg hlinks ha (by omega)
  rw [hn] at hfirst ⊢
  rw [selectMany, hfirst]
  split_ifs with hdvd
  · -- the counter after the first call is one less than the count below zero
    have hpred : (a - 1) % (n + 2) = n + 1 := by
      obtain ⟨q, rfl⟩ := Nat.dvd_of_mod_eq_zero hdvd
      obtain ⟨r, rfl⟩ : ∃ r, q = r + 1 := Nat.exists_eq_succ_of_ne_zero (by rintro rfl; omega)
      have hsplit : (n + 2) * (r + 1) - 1 = n + 1 + (n + 2) * r := by
        rw [Nat.mul_succ]
        omega
      rw [hsplit, Nat.add_mul_mod_self_left, Nat.mod_eq_of_lt (by omega)]
    have hle := length_candidates_le c
    obtain ⟨idx, hidx⟩ : ∃ idx, idx = Int32.ofInt (-((n + 1 : ℕ) : ℤ)) := ⟨_, rfl⟩
    have hvalue : idx.toInt = -((n + 1 : ℕ) : ℤ) := by
      rw [hidx]
      exact Int32.toInt_ofInt_of_le (by omega) (by omega)
    have hsecond : selectSendSocket (c.withIdx idx) = none := by
      rw [selectSendSocket_neg (c := c.withIdx idx) hlinks hvalue (Nat.succ_pos n),
        SendSide.withIdx_candidates, hn, Nat.mod_eq_of_lt (by omega), if_neg (by omega)]
    rw [hpred, ← hidx, Option.bind_some, selectMany]
    dsimp only
    rw [hsecond]
    rfl
  · rfl

/-- One link is always the next one. -/
theorem selectSendSocket_single (hone : c.candidates.length = 1)
    (hmax : c.sendRrIdx ≠ Int32.maxValue) :
    selectSendSocket c = some (c.candidates.getD 0 0, c.withIdx (Int32.ofInt 0)) := by
  simp [selectSendSocket, hone, hmax]

theorem takesTurns_single (hone : c.candidates.length = 1) (hmax : c.sendRrIdx ≠ Int32.maxValue) :
    TakesTurns c := by
  have hlinks : c.candidates ≠ [] := fun h => by simp [h] at hone
  have hfirst := selectSendSocket_single hone hmax
  have hzero : (Int32.ofInt 0).toInt = (0 : ℕ) := rfl
  intro k
  cases k with
  | zero =>
    have hround : selectMany 1 c = some ([c.candidates.getD 0 0], c.withIdx (Int32.ofInt 0)) := by
      rw [selectMany, hfirst]
      rfl
    refine ⟨[], c, _, _, rfl, hone ▸ hround, fair_of_perm ?_⟩
    obtain ⟨link, hlink⟩ := List.length_eq_one_iff.mp hone
    simp [hlink]
  | succ k =>
    obtain ⟨before, c₁, links, c₂, hbefore, hround, hfair⟩ :=
      takesTurns_of_nonneg (c := c.withIdx (Int32.ofInt 0)) hlinks hzero (by omega) k
    refine ⟨c.candidates.getD 0 0 :: before, c₁, links, c₂, ?_, hround, hfair.once, hfair.only⟩
    rw [selectMany, hfirst, Option.bind_some, hbefore]
    rfl

end Calls

/-! ### Connections -/

/-- **A connection**: `calloc` starts the counter at zero, links come and go, and only a selection
    moves the counter. -/
inductive Reached : SendSide → Prop
  | create (c : SendSide) (h : c.sendRrIdx = 0) : Reached c
  | relink {c : SendSide} (h : Reached c) (c' : SendSide) (hsame : c'.sendRrIdx = c.sendRrIdx) :
    Reached c'
  | select {c c' : SendSide} {link : ℕ} (h : Reached c)
    (hselect : selectSendSocket c = some (link, c')) : Reached c'

/-- The counter stays below the number of links that there can be. -/
theorem Reached.counter {c : SendSide} (h : Reached c) :
    ∃ x : ℕ, c.sendRrIdx.toInt = x ∧ x < 34 := by
  induction h with
  | create c h => exact ⟨0, by rw [h]; rfl, by omega⟩
  | relink h c' hsame ih => rwa [hsame]
  | @select c c' link h hselect ih =>
    obtain ⟨x, hx, hlt⟩ := ih
    by_cases hlinks : c.candidates = []
    · rw [selectSendSocket_nil hlinks, Option.some.injEq, Prod.mk.injEq] at hselect
      rw [← hselect.2]
      exact ⟨x, hx, hlt⟩
    · have hcount : c.candidates.length ≠ 0 := fun h => hlinks (List.length_eq_zero_iff.mp h)
      have hle := length_candidates_le c
      have hrest := Nat.mod_lt (x + 1) (Nat.pos_of_ne_zero hcount)
      rw [selectSendSocket_eq hlinks hx (by omega), Option.some.injEq, Prod.mk.injEq] at hselect
      rw [← hselect.2]
      exact ⟨_, toInt_next hcount hle (x + 1), by omega⟩

/-- **The links take turns** from exactly the counters that are not negative and not at their
    maximum; a single link from every other counter as well. -/
theorem takesTurns_iff_counter (c : SendSide) :
    TakesTurns c ↔ c.candidates = [] ∨
      c.sendRrIdx ≠ Int32.maxValue ∧ (c.candidates.length = 1 ∨ 0 ≤ c.sendRrIdx.toInt) := by
  by_cases hlinks : c.candidates = []
  · refine iff_of_true ?_ (Or.inl hlinks)
    intro k
    refine ⟨_, c, [], c, selectMany_nil hlinks k, ?_, fair_of_perm (hlinks ▸ List.Perm.nil)⟩
    rw [hlinks]
    rfl
  · rw [or_iff_right hlinks]
    have hcount : c.candidates.length ≠ 0 := fun h => hlinks (List.length_eq_zero_iff.mp h)
    constructor
    · intro hturns
      obtain ⟨before, c₁, links, c₂, hbefore, hround, -⟩ := hturns 0
      rw [selectMany, Option.some.injEq, Prod.mk.injEq] at hbefore
      rw [← hbefore.2] at hround
      refine ⟨?_, ?_⟩
      · intro hmax
        obtain ⟨n, hn⟩ := Nat.exists_eq_succ_of_ne_zero hcount
        rw [hn, selectMany, selectSendSocket_max hlinks hmax] at hround
        cases hround
      · by_contra hother
        rw [not_or, not_le] at hother
        rw [selectMany_neg (by omega) hother.2] at hround
        cases hround
    · rintro ⟨hmax, hone | hnonneg⟩
      · exact takesTurns_single hone hmax
      · obtain ⟨x, hx⟩ := Int.eq_ofNat_of_zero_le hnonneg
        refine takesTurns_of_nonneg hlinks hx ?_
        have hlt := c.sendRrIdx.toInt_lt
        have hne : c.sendRrIdx.toInt ≠ 2147483647 := fun h => hmax (Int32.toInt_inj.mp h)
        omega

/-- **A connection's links take turns.** -/
theorem Reached.takesTurns {c : SendSide} (h : Reached c) : TakesTurns c := by
  obtain ⟨x, hx, hlt⟩ := h.counter
  refine (takesTurns_iff_counter c).mpr ?_
  by_cases hlinks : c.candidates = []
  · exact Or.inl hlinks
  · refine Or.inr ⟨?_, Or.inr (by omega)⟩
    intro hmax
    rw [hmax] at hx
    have hvalue : Int32.maxValue.toInt = 2147483647 := rfl
    omega

/-- **Links that may send take turns** in every state that a connection reaches; and with any value
    in the counter at all, exactly when a call neither reads outside the list nor overflows. -/
theorem selectSendSocket_takes_turns (c : SendSide) :
    (Reached c → TakesTurns c) ∧
      (TakesTurns c ↔ c.candidates = [] ∨
        c.sendRrIdx ≠ Int32.maxValue ∧ (c.candidates.length = 1 ∨ 0 ≤ c.sendRrIdx.toInt)) :=
  ⟨Reached.takesTurns, takesTurns_iff_counter c⟩

/-- A primary link that only receives, and two slots that may send, with the counter at `idx`. -/
def halfConnection (idx : Int32) : SendSide where
  socketFd := 5
  ssl := true
  primaryDirection := 1
  additional := fun i =>
    if i.val = 3 then ⟨true, 2⟩ else if i.val = 7 then ⟨true, 0⟩ else ⟨false, 0⟩
  sendRrIdx := idx

theorem candidates_halfConnection (idx : Int32) : (halfConnection idx).candidates = [4, 8] := rfl

theorem halfConnection_takes_turns : TakesTurns (halfConnection 0) :=
  (selectSendSocket_takes_turns (halfConnection 0)).1 (.create _ rfl)

/-- **A counter from which they do not**, which no connection reaches. -/
theorem halfConnection_negative : ¬ ∀ c : SendSide, TakesTurns c := by
  intro hall
  rcases (takesTurns_iff_counter _).mp (hall (halfConnection (-1))) with hnone | ⟨-, hone | hnonneg⟩
  · rw [candidates_halfConnection] at hnone
    cases hnone
  · rw [candidates_halfConnection] at hone
    cases hone
  · exact absurd hnonneg (by decide)

end SoftEther.Links

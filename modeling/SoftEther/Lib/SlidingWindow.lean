import Mathlib.Order.Interval.Finset.Nat
import SoftEther.Lib.Transition

namespace SoftEther.Lib.SlidingWindow

open Relation

/-!
# Selective-repeat sliding windows

Two endpoints number what they send from 1 on, keep it until it is acknowledged
(one number at a time, or everything up to a number) and pass what they receive on in
order.  The network is the set of all packets ever sent: a packet can be received any
number of times, in any order, or never.

* `Step W P` — one step of an endpoint that may receive any packet of `P`;
* `SendOk`, `RecvOk` — what each half of an endpoint keeps;
* `Flow` — what holds between a sender and its receiver, over all packets in flight;
* `Net.flow_of_reachable` — the safety theorem: no number is released before the
  receiver has it, and what is passed on is an initial part of what was queued.
-/

variable {α : Type*}

/-! ### Endpoints -/

/-- A packet: at most one numbered payload, single acknowledgements and a number up to
    which everything is acknowledged. -/
structure Packet (α : Type*) where
  seq : ℕ
  payload : Option α
  acks : List ℕ
  maxAck : ℕ

/-- One endpoint: what it has queued so far (number `s` is at index `s - 1`), what is not
    acknowledged yet, what it has received and passed on, and every packet it has sent. -/
structure Endpoint (α : Type*) where
  queued : List α
  next : ℕ
  outstanding : List (ℕ × α)
  done : ℕ
  buffered : List (ℕ × α)
  acks : List ℕ
  delivered : List α
  sent : List (Packet α)

/-- The endpoint has number `s`: passed on already, or waiting in the buffer. -/
def Endpoint.Held (e : Endpoint α) (s : ℕ) : Prop :=
  s ≤ e.done ∨ s ∈ e.buffered.map Prod.fst

/-- Number `s` is kept for retransmission. -/
def Endpoint.Keeps (e : Endpoint α) (s : ℕ) : Prop :=
  s ∈ e.outstanding.map Prod.fst

/-- **One step.** `P` are the packets the endpoint may receive; `push` needs an open
    window of `W` numbers, `accept` a free number inside the receive window. -/
inductive Step (W : ℕ) (P : Packet α → Prop) : Endpoint α → Endpoint α → Prop
  | push (e : Endpoint α) (x : α) (hopen : ∀ p ∈ e.outstanding.head?, e.next < p.1 + W) :
      Step W P e { e with
        queued := e.queued ++ [x]
        next := e.next + 1
        outstanding := e.outstanding ++ [(e.next, x)] }
  | emit (e : Endpoint α) (p : Packet α) (hacks : ∀ s ∈ p.acks, s ∈ e.acks)
      (hmax : p.maxAck = e.done)
      (hpay : ∀ x, p.payload = some x → (p.seq, x) ∈ e.outstanding) :
      Step W P e { e with acks := [], sent := e.sent ++ [p] }
  | ackOne (e : Endpoint α) (p : Packet α) (s : ℕ) (hp : P p) (hs : s ∈ p.acks) :
      Step W P e { e with outstanding := e.outstanding.eraseP (fun q => q.1 == s) }
  | ackUpTo (e : Endpoint α) (p : Packet α) (hp : P p) :
      Step W P e { e with outstanding := e.outstanding.filter (fun q => p.maxAck < q.1) }
  | accept (e : Endpoint α) (p : Packet α) (x : α) (hp : P p) (hx : p.payload = some x)
      (hnew : e.done < p.seq) (hwin : p.seq ≤ e.done + W)
      (hfree : p.seq ∉ e.buffered.map Prod.fst) :
      Step W P e { e with buffered := e.buffered ++ [(p.seq, x)] }
  | note (e : Endpoint α) (s : ℕ) (hs : e.Held s) :
      Step W P e { e with acks := e.acks ++ [s] }
  | deliver (e : Endpoint α) (x : α) (rest : List (ℕ × α))
      (hfront : e.buffered = (e.done + 1, x) :: rest) :
      Step W P e { e with
        done := e.done + 1
        buffered := rest
        delivered := e.delivered ++ [x] }

/-! ### The sending half -/

/-- **The send queue.** Ascending numbers, each with the payload queued under it, and the
    next number inside the window that starts at the first one. -/
structure SendOk (W : ℕ) (e : Endpoint α) : Prop where
  next_eq : e.next = e.queued.length + 1
  ascending : (e.outstanding.map Prod.fst).Pairwise (· < ·)
  data : ∀ p ∈ e.outstanding, 1 ≤ p.1 ∧ e.queued[p.1 - 1]? = some p.2
  window : ∀ p ∈ e.outstanding.head?, e.next ≤ p.1 + W

variable {e e' a b : Endpoint α} {W s : ℕ} {P : Packet α → Prop} {q : List α}

/-- Every outstanding number is below the next one. -/
theorem SendOk.lt_next (h : SendOk W e) {p : ℕ × α} (hp : p ∈ e.outstanding) : p.1 < e.next := by
  obtain ⟨h1, hd⟩ := h.data p hp
  have hlt : p.1 - 1 < e.queued.length := (List.getElem?_eq_some_iff.mp hd).1
  have hn := h.next_eq
  omega

/-- The window bounds the outstanding numbers below. -/
theorem SendOk.window_all (h : SendOk W e) {p : ℕ × α} (hp : p ∈ e.outstanding) :
    e.next ≤ p.1 + W := by
  obtain ⟨hn, hasc, hdata, hwin⟩ := h
  cases hout : e.outstanding with
  | nil => rw [hout] at hp; exact absurd hp (List.not_mem_nil)
  | cons q rest =>
    have hq := hwin q (by rw [hout]; rfl)
    rw [hout] at hp hasc
    rw [List.map_cons, List.pairwise_cons] at hasc
    rcases List.mem_cons.mp hp with rfl | hrest
    · exact hq
    · have := hasc.1 p.1 (List.mem_map_of_mem hrest)
      omega

/-- Ascending numbers below a bound are at most as many as fit below it. -/
theorem length_le_of_ascending {l : List ℕ} (hasc : l.Pairwise (· < ·)) {lo hi : ℕ}
    (hlo : ∀ s ∈ l, lo ≤ s) (hhi : ∀ s ∈ l, s < hi) : l.length ≤ hi - lo := by
  induction l generalizing lo with
  | nil => exact Nat.zero_le _
  | cons s rest ih =>
    rw [List.pairwise_cons] at hasc
    have hs := hlo s List.mem_cons_self
    have hs' := hhi s List.mem_cons_self
    have hrest := @ih hasc.2 (s + 1) (fun r hr => hasc.1 r hr)
      (fun r hr => hhi r (List.mem_cons_of_mem s hr))
    rw [List.length_cons]
    omega

/-- The queue of an open window has room: fewer than `W` numbers are outstanding. -/
theorem SendOk.length_lt (h : SendOk W e) (hW : 1 ≤ W)
    (hopen : ∀ p ∈ e.outstanding.head?, e.next < p.1 + W) : e.outstanding.length < W := by
  cases hout : e.outstanding with
  | nil => exact hW
  | cons q rest =>
    have hq := hopen q (by rw [hout]; rfl)
    have hqn := h.lt_next (p := q) (by rw [hout]; exact List.mem_cons_self)
    have hlow : ∀ s ∈ e.outstanding.map Prod.fst, q.1 ≤ s := by
      have hasc := h.ascending
      rw [hout, List.map_cons, List.pairwise_cons] at hasc
      rw [hout, List.map_cons]
      intro s hs
      rcases List.mem_cons.mp hs with rfl | hs
      · exact Nat.le_refl _
      · exact Nat.le_of_lt (hasc.1 s hs)
    have hhigh : ∀ s ∈ e.outstanding.map Prod.fst, s < e.next := by
      intro s hs
      obtain ⟨p, hp, rfl⟩ := List.mem_map.mp hs
      exact h.lt_next hp
    have hlen := length_le_of_ascending h.ascending hlow hhigh
    rw [List.length_map, hout] at hlen
    omega

/-- A payload queued at a position stays there when more is queued. -/
theorem getElem?_append_some {l : List α} {i : ℕ} {x : α} (h : l[i]? = some x) (m : List α) :
    (l ++ m)[i]? = some x := by
  have hlt : i < l.length := (List.getElem?_eq_some_iff.mp h).1
  rw [List.getElem?_append_left hlt]
  exact h

/-- Removing numbers keeps the send queue: the first one left is not before the old
    first one. -/
private theorem SendOk.of_sublist (h : SendOk W e) {out : List (ℕ × α)}
    (hsub : out.Sublist e.outstanding) : SendOk W { e with outstanding := out } where
  next_eq := h.next_eq
  ascending := h.ascending.sublist (hsub.map Prod.fst)
  data := fun _ hp => h.data _ (hsub.subset hp)
  window := fun _ hp => h.window_all (hsub.subset (List.mem_of_mem_head? hp))

/-- **Step lemma for the sending half.** It needs no assumption on what is received. -/
theorem SendOk.step (hW : 1 ≤ W) (h : SendOk W e) (hs : Step W P e e') : SendOk W e' := by
  cases hs with
  | push x hopen =>
    refine ⟨?_, ?_, ?_, ?_⟩
    · show e.next + 1 = (e.queued ++ [x]).length + 1
      rw [List.length_append, h.next_eq]
      rfl
    · show ((e.outstanding ++ [(e.next, x)]).map Prod.fst).Pairwise (· < ·)
      rw [List.map_append, List.pairwise_append]
      refine ⟨h.ascending, List.pairwise_singleton _ _, ?_⟩
      intro s hs t ht
      obtain ⟨p, hp, rfl⟩ := List.mem_map.mp hs
      rw [List.map_singleton, List.mem_singleton] at ht
      subst ht
      exact h.lt_next hp
    · intro p hp
      rcases List.mem_append.mp hp with hp | hp
      · exact ⟨(h.data p hp).1, getElem?_append_some (h.data p hp).2 [x]⟩
      · rw [List.mem_singleton] at hp
        subst hp
        have hn := h.next_eq
        refine ⟨by show 1 ≤ e.next; omega, ?_⟩
        show (e.queued ++ [x])[e.next - 1]? = some x
        rw [hn, Nat.add_sub_cancel, List.getElem?_append_right (Nat.le_refl _), Nat.sub_self]
        rfl
    · intro p hp
      show e.next + 1 ≤ p.1 + W
      cases hout : e.outstanding with
      | nil =>
        -- the new number opens the window
        have hp' : p ∈ ((e.outstanding ++ [(e.next, x)]).head?) := hp
        rw [hout, List.nil_append, List.head?_cons, Option.mem_def, Option.some.injEq] at hp'
        subst hp'
        show e.next + 1 ≤ e.next + W
        omega
      | cons q rest =>
        have hp' : p ∈ ((e.outstanding ++ [(e.next, x)]).head?) := hp
        rw [hout, List.cons_append, List.head?_cons, Option.mem_def, Option.some.injEq] at hp'
        subst hp'
        have := hopen q (by rw [hout]; rfl)
        omega
  | emit p hacks hmax hpay => exact ⟨h.next_eq, h.ascending, h.data, h.window⟩
  | ackOne p s hp hs => exact h.of_sublist List.eraseP_sublist
  | ackUpTo p hp => exact h.of_sublist List.filter_sublist
  | accept p x hp hx hnew hwin hfree => exact ⟨h.next_eq, h.ascending, h.data, h.window⟩
  | note s hs => exact ⟨h.next_eq, h.ascending, h.data, h.window⟩
  | deliver x rest hfront => exact ⟨h.next_eq, h.ascending, h.data, h.window⟩

/-! ### The receiving half -/

/-- **The receive buffer.** Distinct numbers, above the cumulative one and inside the
    window that starts there. -/
structure BufferOk (W : ℕ) (e : Endpoint α) : Prop where
  above : ∀ p ∈ e.buffered, e.done < p.1
  within : ∀ p ∈ e.buffered, p.1 ≤ e.done + W
  nodup : (e.buffered.map Prod.fst).Nodup

/-- **Step lemma for the receive buffer.** It needs no assumption on what is received. -/
theorem BufferOk.step (h : BufferOk W e) (hs : Step W P e e') : BufferOk W e' := by
  -- only an accepted segment and a delivery touch the buffer
  cases hs with
  | push x hopen => exact ⟨h.above, h.within, h.nodup⟩
  | emit p hacks hmax hpay => exact ⟨h.above, h.within, h.nodup⟩
  | ackOne p s hp hs => exact ⟨h.above, h.within, h.nodup⟩
  | ackUpTo p hp => exact ⟨h.above, h.within, h.nodup⟩
  | note s hs => exact ⟨h.above, h.within, h.nodup⟩
  | accept p x hp hx hnew hwin hfree =>
    refine ⟨?_, ?_, ?_⟩
    · intro r hr
      rcases List.mem_append.mp hr with hr | hr
      · exact h.above r hr
      · rw [List.mem_singleton] at hr
        subst hr
        exact hnew
    · intro r hr
      rcases List.mem_append.mp hr with hr | hr
      · exact h.within r hr
      · rw [List.mem_singleton] at hr
        subst hr
        exact hwin
    · show ((e.buffered ++ [(p.seq, x)]).map Prod.fst).Nodup
      rw [List.map_append, List.nodup_append]
      refine ⟨h.nodup, List.nodup_singleton _, ?_⟩
      intro s hs t ht
      rw [List.map_singleton, List.mem_singleton] at ht
      subst ht
      rintro rfl
      exact hfree hs
  | deliver x rest hfront =>
    have hnodup := h.nodup
    rw [hfront, List.map_cons, List.nodup_cons] at hnodup
    refine ⟨?_, ?_, hnodup.2⟩
    · -- the numbers left are above the old cumulative number and not the one passed on
      intro r hr
      have hr1 := h.above r (by rw [hfront]; exact List.mem_cons_of_mem _ hr)
      have hne : e.done + 1 ≠ r.1 := by
        intro heq
        have hmem : r.1 ∈ rest.map Prod.fst := List.mem_map_of_mem hr
        rw [← heq] at hmem
        exact hnodup.1 hmem
      show e.done + 1 < r.1
      omega
    · intro r hr
      have hr1 := h.within r (by rw [hfront]; exact List.mem_cons_of_mem _ hr)
      show r.1 ≤ e.done + 1 + W
      omega

/-- The buffer has room for every number of the window that is not in it. -/
theorem BufferOk.length_lt (h : BufferOk W e) (hnew : e.done < s) (hwin : s ≤ e.done + W)
    (hfree : s ∉ e.buffered.map Prod.fst) : e.buffered.length < W := by
  have hnodup : (s :: e.buffered.map Prod.fst).Nodup := List.nodup_cons.mpr ⟨hfree, h.nodup⟩
  have hsub : (s :: e.buffered.map Prod.fst).toFinset ⊆ Finset.Ioc e.done (e.done + W) := by
    intro r hr
    rw [List.mem_toFinset, List.mem_cons] at hr
    rw [Finset.mem_Ioc]
    rcases hr with rfl | hr
    · exact ⟨hnew, hwin⟩
    · obtain ⟨p, hp, rfl⟩ := List.mem_map.mp hr
      exact ⟨h.above p hp, h.within p hp⟩
  have hcard := Finset.card_le_card hsub
  rw [List.toFinset_card_of_nodup hnodup, Nat.card_Ioc, List.length_cons, List.length_map] at hcard
  omega

/-- **The receiving half**, against the queue `q` of the peer: the buffer holds the peer's
    payloads; what is passed on is an initial part of `q`; and every acknowledgement,
    pending or sent, is of a number the endpoint has. -/
structure RecvOk (q : List α) (e : Endpoint α) : Prop where
  data : ∀ p ∈ e.buffered, q[p.1 - 1]? = some p.2
  delivered_eq : e.delivered = q.take e.done
  done_le : e.done ≤ q.length
  acks_held : ∀ s ∈ e.acks, e.Held s
  sent_held : ∀ p ∈ e.sent, (∀ s ∈ p.acks, e.Held s) ∧ p.maxAck ≤ e.done

/-- A packet whose payload is what `q` holds under its number. -/
def Packet.From (q : List α) (p : Packet α) : Prop :=
  ∀ x, p.payload = some x → 1 ≤ p.seq ∧ q[p.seq - 1]? = some x

theorem Packet.From.append {p : Packet α} (h : p.From q) (l : List α) : p.From (q ++ l) :=
  fun x hx => ⟨(h x hx).1, getElem?_append_some (h x hx).2 l⟩

/-- The receiving half does not notice that the peer queues more. -/
theorem RecvOk.append (h : RecvOk q e) (l : List α) : RecvOk (q ++ l) e where
  data := fun p hp => getElem?_append_some (h.data p hp) l
  delivered_eq := by
    rw [List.take_append_of_le_length h.done_le]
    exact h.delivered_eq
  done_le := by
    rw [List.length_append]
    exact Nat.le_add_right_of_le h.done_le
  acks_held := h.acks_held
  sent_held := h.sent_held

/-- A number the endpoint has stays with it. -/
theorem Held.step (hs : Step W P e e') (h : e.Held s) : e'.Held s := by
  cases hs with
  | push x hopen => exact h
  | emit p hacks hmax hpay => exact h
  | ackOne p t hp ht => exact h
  | ackUpTo p hp => exact h
  | accept p x hp hx hnew hwin hfree =>
    rcases h with h | h
    · exact Or.inl h
    · right
      show s ∈ (e.buffered ++ [(p.seq, x)]).map Prod.fst
      rw [List.map_append]
      exact List.mem_append_left _ h
  | note t ht => exact h
  | deliver x rest hfront =>
    rcases h with h | h
    · exact Or.inl (Nat.le_succ_of_le h)
    · rw [hfront, List.map_cons] at h
      rcases List.mem_cons.mp h with rfl | h
      · exact Or.inl (Nat.le_refl _)
      · exact Or.inr h

/-- **Step lemma for the receiving half**, when every packet it may receive is `From` the
    peer's queue. -/
theorem RecvOk.step (hP : ∀ p, P p → p.From q) (h : RecvOk q e) (hs : Step W P e e') :
    RecvOk q e' := by
  have hheld : ∀ s, e.Held s → e'.Held s := fun s => Held.step hs
  -- what is held stays held, so the acknowledgments stay true
  cases hs with
  | push x hopen => exact ⟨h.data, h.delivered_eq, h.done_le, h.acks_held, h.sent_held⟩
  | emit p hacks hmax hpay =>
    refine ⟨h.data, h.delivered_eq, h.done_le, ?_, ?_⟩
    · intro s hs
      exact absurd hs List.not_mem_nil
    · intro p' hp'
      rcases List.mem_append.mp hp' with hp' | hp'
      · exact h.sent_held p' hp'
      · rw [List.mem_singleton] at hp'
        subst hp'
        exact ⟨fun s hs => h.acks_held s (hacks s hs), Nat.le_of_eq hmax⟩
  | ackOne p s hp hs => exact ⟨h.data, h.delivered_eq, h.done_le, h.acks_held, h.sent_held⟩
  | ackUpTo p hp => exact ⟨h.data, h.delivered_eq, h.done_le, h.acks_held, h.sent_held⟩
  | accept p x hp hx hnew hwin hfree =>
    refine ⟨?_, h.delivered_eq, h.done_le, ?_, ?_⟩
    · intro r hr
      rcases List.mem_append.mp hr with hr | hr
      · exact h.data r hr
      · rw [List.mem_singleton] at hr
        subst hr
        exact (hP p hp x hx).2
    · exact fun s hs => hheld s (h.acks_held s hs)
    · exact fun r hr => ⟨fun s hs => hheld s ((h.sent_held r hr).1 s hs), (h.sent_held r hr).2⟩
  | note s hs =>
    refine ⟨h.data, h.delivered_eq, h.done_le, ?_, h.sent_held⟩
    intro t ht
    rcases List.mem_append.mp ht with ht | ht
    · exact h.acks_held t ht
    · rw [List.mem_singleton] at ht
      subst ht
      exact hs
  | deliver x rest hfront =>
    have hx : q[e.done]? = some x := by
      have := h.data (e.done + 1, x) (by rw [hfront]; exact List.mem_cons_self)
      simpa using this
    have hlt : e.done < q.length := (List.getElem?_eq_some_iff.mp hx).1
    refine ⟨?_, ?_, hlt, ?_, ?_⟩
    · exact fun r hr => h.data r (by rw [hfront]; exact List.mem_cons_of_mem _ hr)
    · show e.delivered ++ [x] = q.take (e.done + 1)
      rw [List.take_add_one, hx, ← h.delivered_eq]
      rfl
    · exact fun s hs => hheld s (h.acks_held s hs)
    · intro r hr
      exact ⟨fun s hs => hheld s ((h.sent_held r hr).1 s hs),
        Nat.le_succ_of_le (h.sent_held r hr).2⟩

/-! ### A sender and its receiver -/

/-- **One direction of the connection.** The sender's queue, the packets it has sent, the
    receiver, and: a number once used is kept by the sender or had by the
    receiver. -/
structure Flow (W : ℕ) (a b : Endpoint α) : Prop where
  send : SendOk W a
  sent : ∀ p ∈ a.sent, p.From a.queued
  recv : RecvOk a.queued b
  released : ∀ s, 1 ≤ s → s < a.next → a.Keeps s ∨ b.Held s

/-- What a step of the sender releases, an incoming packet acknowledges. -/
private theorem keeps_or_acked (hs : Step W P e e') (h : e.Keeps s) :
    e'.Keeps s ∨ ∃ p, P p ∧ (s ∈ p.acks ∨ s ≤ p.maxAck) := by
  obtain ⟨r, hr, rfl⟩ := List.mem_map.mp h
  cases hs with
  | push x hopen =>
    left
    show r.1 ∈ (e.outstanding ++ [(e.next, x)]).map Prod.fst
    rw [List.map_append]
    exact List.mem_append_left _ h
  | ackOne p t hp ht =>
    by_cases heq : r.1 = t
    · exact Or.inr ⟨p, hp, Or.inl (heq ▸ ht)⟩
    · left
      refine List.mem_map_of_mem ((List.mem_eraseP_of_neg ?_).mpr hr)
      rw [Bool.not_eq_true, beq_eq_false_iff_ne]
      exact heq
  | ackUpTo p hp =>
    by_cases hle : r.1 ≤ p.maxAck
    · exact Or.inr ⟨p, hp, Or.inr hle⟩
    · left
      exact List.mem_map_of_mem (List.mem_filter.mpr ⟨hr, decide_eq_true (Nat.lt_of_not_le hle)⟩)
  | emit p hacks hmax hpay => exact Or.inl h
  | accept p x hp hx hnew hwin hfree => exact Or.inl h
  | note t ht => exact Or.inl h
  | deliver x rest hfront => exact Or.inl h

/-- The queue only grows, and the number of a payload queued in a step is kept. -/
private theorem queued_step (hs : Step W P e e') :
    (∃ l, e'.queued = e.queued ++ l) ∧ ∀ s, e.next ≤ s → s < e'.next → e'.Keeps s := by
  cases hs with
  | push x hopen =>
    refine ⟨⟨[x], rfl⟩, ?_⟩
    intro s hs hs'
    have heq : s = e.next := Nat.le_antisymm (Nat.le_of_lt_succ hs') hs
    show s ∈ (e.outstanding ++ [(e.next, x)]).map Prod.fst
    rw [heq, List.map_append]
    exact List.mem_append_right _ List.mem_cons_self
  | _ => exact ⟨⟨[], (List.append_nil _).symm⟩, fun s hs hs' => absurd hs' (Nat.not_lt.mpr hs)⟩

/-- What is sent in a step carries a queued payload. -/
private theorem sent_step (h : SendOk W e) (hsent : ∀ p ∈ e.sent, p.From e.queued)
    (hs : Step W P e e') : ∀ p ∈ e'.sent, p.From e'.queued := by
  cases hs with
  | push x hopen => exact fun p hp => (hsent p hp).append [x]
  | emit p hacks hmax hpay =>
    intro r hr
    rcases List.mem_append.mp hr with hr | hr
    · exact hsent r hr
    · rw [List.mem_singleton] at hr
      subst hr
      exact fun x hx => h.data (r.seq, x) (hpay x hx)
  | _ => exact hsent

/-- **A step of the sender** keeps the flow. -/
theorem Flow.step_left (hW : 1 ≤ W) {a' : Endpoint α} (h : Flow W a b)
    (hs : Step W (· ∈ b.sent) a a') : Flow W a' b := by
  obtain ⟨⟨l, hl⟩, hfresh⟩ := queued_step hs
  refine ⟨h.send.step hW hs, sent_step h.send h.sent hs, ?_, ?_⟩
  · rw [hl]
    exact h.recv.append l
  · intro s h1 hlt
    by_cases hold : s < a.next
    · rcases h.released s h1 hold with hk | hb
      · rcases keeps_or_acked hs hk with hk' | ⟨p, hp, hack | hmax⟩
        · exact Or.inl hk'
        · -- released by a single acknowledgement, which the receiver sent
          exact Or.inr ((h.recv.sent_held p hp).1 s hack)
        · -- released by a cumulative one
          exact Or.inr (Or.inl (Nat.le_trans hmax (h.recv.sent_held p hp).2))
      · exact Or.inr hb
    · exact Or.inl (hfresh s (Nat.le_of_not_lt hold) hlt)

/-- **A step of the receiver** keeps the flow. -/
theorem Flow.step_right {b' : Endpoint α} (h : Flow W a b) (hs : Step W (· ∈ a.sent) b b') :
    Flow W a b' where
  send := h.send
  sent := h.sent
  recv := h.recv.step h.sent hs
  released := fun s h1 hlt => (h.released s h1 hlt).imp id (Held.step hs)

/-- What is passed on is an initial part of what was queued. -/
theorem Flow.delivered_prefix (h : Flow W a b) : b.delivered <+: a.queued := by
  rw [h.recv.delivered_eq]
  exact List.take_prefix _ _

/-! ### Two endpoints -/

/-- Two endpoints; the packets in flight are the ones in their `sent` lists. -/
structure Net (α : Type*) where
  left : Endpoint α
  right : Endpoint α

/-- One of the endpoints takes a step, receiving from the other. -/
inductive NetStep (W : ℕ) : Net α → Net α → Prop
  | left (n : Net α) (e : Endpoint α) (h : Step W (· ∈ n.right.sent) n.left e) :
      NetStep W n { n with left := e }
  | right (n : Net α) (e : Endpoint α) (h : Step W (· ∈ n.left.sent) n.right e) :
      NetStep W n { n with right := e }

/-- Several steps of the left endpoint are steps of the net. -/
theorem NetStep.lift_left (n : Net α) (h : ReflTransGen (Step W (· ∈ n.right.sent)) n.left e) :
    ReflTransGen (NetStep W) n { n with left := e } :=
  h.lift (fun l => ({ n with left := l } : Net α)) (fun _ l' hs => NetStep.left _ l' hs)

/-- Several steps of the right endpoint are steps of the net. -/
theorem NetStep.lift_right (n : Net α) (h : ReflTransGen (Step W (· ∈ n.left.sent)) n.right e) :
    ReflTransGen (NetStep W) n { n with right := e } :=
  h.lift (fun r => ({ n with right := r } : Net α)) (fun _ r' hs => NetStep.right _ r' hs)

/-- An endpoint that has done nothing yet. -/
structure Endpoint.Fresh (e : Endpoint α) : Prop where
  queued : e.queued = []
  next : e.next = 1
  outstanding : e.outstanding = []
  done : e.done = 0
  buffered : e.buffered = []
  acks : e.acks = []
  delivered : e.delivered = []
  sent : e.sent = []

/-- The buffer of a fresh endpoint. -/
theorem BufferOk.of_fresh (h : e.Fresh) : BufferOk W e where
  above := fun p hp => absurd (h.buffered ▸ hp) List.not_mem_nil
  within := fun p hp => absurd (h.buffered ▸ hp) List.not_mem_nil
  nodup := by
    rw [h.buffered]
    exact List.nodup_nil

/-- Two fresh endpoints are in the flow relation. -/
theorem Flow.of_fresh (ha : a.Fresh) (hb : b.Fresh) : Flow W a b where
  send := by
    refine ⟨?_, ?_, ?_, ?_⟩
    · rw [ha.next, ha.queued, List.length_nil]
    · rw [ha.outstanding]
      exact List.Pairwise.nil
    · intro p hp
      rw [ha.outstanding] at hp
      exact absurd hp List.not_mem_nil
    · intro p hp
      rw [ha.outstanding] at hp
      exact absurd hp (by simp)
  sent := fun p hp => absurd (ha.sent ▸ hp) List.not_mem_nil
  recv := by
    refine ⟨?_, ?_, ?_, ?_, ?_⟩
    · exact fun p hp => absurd (hb.buffered ▸ hp) List.not_mem_nil
    · rw [hb.delivered, hb.done, List.take_zero]
    · rw [hb.done]
      exact Nat.zero_le _
    · exact fun s hs => absurd (hb.acks ▸ hs) List.not_mem_nil
    · exact fun p hp => absurd (hb.sent ▸ hp) List.not_mem_nil
  released := fun s h1 hlt => by
    rw [ha.next] at hlt
    omega

/-- **Safety.** Both directions are kept by every step of the net. -/
theorem NetStep.flow (hW : 1 ≤ W) {n n' : Net α} (hs : NetStep W n n')
    (h : Flow W n.left n.right ∧ Flow W n.right n.left) :
    Flow W n'.left n'.right ∧ Flow W n'.right n'.left := by
  cases hs with
  | left e he => exact ⟨h.1.step_left hW he, h.2.step_right he⟩
  | right e he => exact ⟨h.1.step_right he, h.2.step_left hW he⟩

/-- Both directions hold in every state reachable from two fresh endpoints. -/
theorem Net.flow_of_reachable (hW : 1 ≤ W) {n n' : Net α} (hl : n.left.Fresh) (hr : n.right.Fresh)
    (hreach : ReflTransGen (NetStep W) n n') : Flow W n'.left n'.right ∧ Flow W n'.right n'.left :=
  reflTransGen_invariant (I := fun n => Flow W n.left n.right ∧ Flow W n.right n.left)
    (fun _ _ h hs => hs.flow hW h) hreach ⟨Flow.of_fresh hl hr, Flow.of_fresh hr hl⟩

end SoftEther.Lib.SlidingWindow

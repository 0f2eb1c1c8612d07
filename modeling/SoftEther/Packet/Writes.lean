import SoftEther.Packet.Transmit

namespace SoftEther.Packet

open Lib SoftEther.Links

/-!
# Writes in progress

The invariant of the links, the writes in progress and the logs, with one lemma for each way
a step changes them:

* `TxInv.frame`, `TxInv.opened` — links are given up, a link is opened;
* `TxInv.began`, `TxInv.advanced`, `TxInv.ended` — the life of a write;
* `TxInv.failed_retired` — the failover deals with the socket whose write failed.

The field `dead` says what the retirement is for.
-/

variable {ι : Type}

/-- The write is still going on. -/
def InProgress (s : TxState ι) (id : ℕ) : Prop :=
  ∃ w x, s.writing w = some x ∧ x.attempt.id = id

/-- The write was the failover's, to an additional socket that held link `l` when it was
    captured, and the socket has been looked at since. -/
structure Handled (s : TxState ι) (a : Attempt) (l : ℕ) : Prop where
  retires : a.retires = true
  captured : a.sock.link = l
  looked : ∀ b, s.failed = some b → b.id ≠ a.id

/-! ### The invariant -/

/-- A socket that holds the captured link is the captured socket, with its `ssl` and `fd`. -/
structure Attempt.Home (s : TxState ι) (a : Attempt) : Prop where
  old : a.sock.link < s.nextLink
  same : ∀ c k, s.held c = some k → k.link = a.sock.link →
    c = a.socket ∧ k.ssl = a.sock.ssl ∧ k.socketFd = a.sock.socketFd

/-- What holds of a write in progress. -/
structure WriteOk (s : TxState ι) (w : Option ι) (x : Writing) : Prop where
  id : x.attempt.id < s.nextWrite
  home : x.attempt.Home s
  block : IsBlock x.frame
  left : x.sent < x.frame.length
  sender : x.attempt.retires = true → w = none
  fresh : x.begun = none → x.sent = 0
  begun : ∀ l, x.begun = some l → 0 < x.sent ∧
    ∃ pre, s.log l = pre ++ [⟨x.frame, x.sent, x.attempt, 0⟩]

/-- What holds of the failover's write that failed. -/
structure FailedOk (s : TxState ι) (a : Attempt) : Prop where
  id : a.id < s.nextWrite
  home : a.Home s
  retires : a.retires = true
  sender : s.writing none = none
  apart : ∀ w x, s.writing w = some x → x.attempt.id ≠ a.id
  log : ∀ l, ∀ e ∈ s.log l, e.origin.attempt.id = a.id → e.origin.attempt = a

/-- The links that a failover has cut short and dealt with are on no socket. -/
def DeadLinks (s : TxState ι) : Prop :=
  ∀ l, ∀ e ∈ s.log l, e.truncated = true → ¬ InProgress s e.origin.attempt.id →
    Handled s e.origin.attempt l → ∀ c k, s.held c = some k → k.link ≠ l

/-- What holds of the links, the writes in progress and the logs before every step. -/
structure TxInv (s : TxState ι) : Prop where
  old : ∀ c k, s.held c = some k → k.link < s.nextLink
  distinct : ∀ c c' k k', s.held c = some k → s.held c' = some k' → k.link = k'.link → c = c'
  writes : ∀ w x, s.writing w = some x → WriteOk s w x
  apart : ∀ w w' x x', s.writing w = some x → s.writing w' = some x' →
    x.attempt.id = x'.attempt.id → w = w'
  failed : ∀ a, s.failed = some a → FailedOk s a
  future : ∀ l, s.nextLink ≤ l → s.log l = []
  ids : ∀ l, ∀ e ∈ s.log l, e.origin.attempt.id < s.nextWrite
  blocks : ∀ l, ∀ e ∈ s.log l, e.origin.start = 0 → IsBlock e.frame
  mid : ∀ l, ∀ e ∈ s.log l, ∀ w x, s.writing w = some x → x.attempt.id = e.origin.attempt.id →
    x.begun = some l ∧ e.origin.attempt = x.attempt
  dead : DeadLinks s

variable {s s' : TxState ι}

theorem TxState.initial_held (c : SendSocket) : (TxState.initial : TxState ι).held c = none := by
  cases c <;> rfl

theorem TxState.initial_inv : TxInv (TxState.initial : TxState ι) where
  old := fun c _ hk => absurd (hk.symm.trans (initial_held c)) nofun
  distinct := fun c _ _ _ hk => absurd (hk.symm.trans (initial_held c)) nofun
  writes := fun _ _ hx => absurd hx nofun
  apart := fun _ _ _ _ hx => absurd hx nofun
  failed := fun _ ha => absurd ha nofun
  future := fun _ _ => rfl
  ids := fun _ _ he => absurd he List.not_mem_nil
  blocks := fun _ _ he => absurd he List.not_mem_nil
  mid := fun _ _ he => absurd he List.not_mem_nil
  dead := fun _ _ he => absurd he List.not_mem_nil

/-! ### Links come and go -/

/-- The links of `s'` were links of `s`, on the same sockets with the same `ssl` and `fd`. -/
def KeepsLinks (s s' : TxState ι) : Prop :=
  ∀ c k', s'.held c = some k' → ∃ k, s.held c = some k ∧ k.link = k'.link ∧ k.ssl = k'.ssl ∧
    k.socketFd = k'.socketFd

theorem KeepsLinks.of_held (h : s'.held = s.held) : KeepsLinks s s' := by
  intro c k' hk'
  rw [h] at hk'
  exact ⟨k', hk', rfl, rfl, rfl⟩

theorem Attempt.Home.keeps {a : Attempt} (h : a.Home s) (hkeeps : KeepsLinks s s')
    (hnext : s'.nextLink = s.nextLink) : a.Home s' where
  old := by rw [hnext]; exact h.old
  same := by
    intro c k' hk' hlink
    obtain ⟨k, hk, hl, hssl, hfd⟩ := hkeeps c k' hk'
    obtain ⟨hc, hs, hf⟩ := h.same c k hk (by rw [hl, hlink])
    exact ⟨hc, by rw [← hssl, hs], by rw [← hfd, hf]⟩

/-- The log and the writes stay, and links are at most given up; the failed write that the
    failover has to look at may be another one. -/
theorem TxInv.frame_of_dead (h : TxInv s) (hkeeps : KeepsLinks s s')
    (hlink : s'.nextLink = s.nextLink)
    (hwrite : s'.nextWrite = s.nextWrite) (hwriting : s'.writing = s.writing)
    (hfailed : ∀ a, s'.failed = some a → FailedOk s a) (hlog : s'.log = s.log)
    (hdead : DeadLinks s') : TxInv s' where
  old := by
    intro c k' hk'
    obtain ⟨k, hk, hl, -⟩ := hkeeps c k' hk'
    rw [hlink, ← hl]
    exact h.old c k hk
  distinct := by
    intro c c' k₁ k₂ hk₁ hk₂ heq
    obtain ⟨j₁, hj₁, hl₁, -⟩ := hkeeps c k₁ hk₁
    obtain ⟨j₂, hj₂, hl₂, -⟩ := hkeeps c' k₂ hk₂
    exact h.distinct c c' j₁ j₂ hj₁ hj₂ (by rw [hl₁, hl₂, heq])
  writes := by
    intro w x hx
    rw [hwriting] at hx
    have hok := h.writes w x hx
    refine { hok with id := ?_, home := hok.home.keeps hkeeps hlink, begun := ?_ }
    · rw [hwrite]
      exact hok.id
    · rw [hlog]
      exact hok.begun
  apart := by rw [hwriting]; exact h.apart
  failed := by
    intro a ha
    have hok := hfailed a ha
    refine ⟨?_, hok.home.keeps hkeeps hlink, hok.retires, ?_, ?_, ?_⟩
    · rw [hwrite]
      exact hok.id
    · rw [hwriting]
      exact hok.sender
    · rw [hwriting]
      exact hok.apart
    · rw [hlog]
      exact hok.log
  future := by rw [hlink, hlog]; exact h.future
  ids := by rw [hlog, hwrite]; exact h.ids
  blocks := by rw [hlog]; exact h.blocks
  mid := by rw [hlog, hwriting]; exact h.mid
  dead := hdead

/-- The same, when no failed write has been looked at. -/
theorem TxInv.frame (h : TxInv s) (hkeeps : KeepsLinks s s')
    (hlink : s'.nextLink = s.nextLink) (hwrite : s'.nextWrite = s.nextWrite)
    (hwriting : s'.writing = s.writing) (hfailed : s'.failed = s.failed)
    (hlog : s'.log = s.log) : TxInv s' := by
  apply h.frame_of_dead hkeeps hlink hwrite hwriting (by rw [hfailed]; exact h.failed) hlog
  intro l e he hcut hidle hhandled c k' hk'
  rw [hlog] at he
  obtain ⟨k, hk, hl, -⟩ := hkeeps c k' hk'
  rw [← hl]
  refine h.dead l e he hcut ?_ ⟨hhandled.retires, hhandled.captured, ?_⟩ c k hk
  · rintro ⟨w, x, hx, hid⟩
    exact hidle ⟨w, x, by rw [hwriting]; exact hx, hid⟩
  · rw [← hfailed]
    exact hhandled.looked

/-- An empty socket gets a new link. -/
theorem TxInv.opened (h : TxInv s) (c : SendSocket) (hempty : s.held c = none)
    (hnew : ∀ k, s'.held c = some k → k.link = s.nextLink)
    (hother : ∀ c', c' ≠ c → s'.held c' = s.held c')
    (hlink : s'.nextLink = s.nextLink + 1) (hwrite : s'.nextWrite = s.nextWrite)
    (hwriting : s'.writing = s.writing) (hfailed : s'.failed = s.failed)
    (hlog : s'.log = s.log) : TxInv s' := by
  have hcase : ∀ c' k', s'.held c' = some k' →
      (c' = c ∧ k'.link = s.nextLink) ∨ s.held c' = some k' := by
    intro c' k' hk'
    by_cases hc : c' = c
    · subst hc
      exact .inl ⟨rfl, hnew k' hk'⟩
    · rw [hother c' hc] at hk'
      exact .inr hk'
  have hhome : ∀ {a : Attempt}, a.Home s → a.Home s' := by
    intro a ha
    refine ⟨by rw [hlink]; exact Nat.lt_succ_of_lt ha.old, ?_⟩
    intro c' k' hk' hl
    rcases hcase c' k' hk' with ⟨-, hfresh⟩ | hkept
    · have hlt := ha.old
      omega
    · exact ha.same c' k' hkept hl
  -- nothing has been written to the new link, so only its number has to be compared
  refine ⟨?_, ?_, ?_, ?_, ?_, ?_, ?_, ?_, ?_, ?_⟩
  · intro c' k' hk'
    rcases hcase c' k' hk' with ⟨-, hfresh⟩ | hkept
    · omega
    · have hlt := h.old c' k' hkept
      omega
  · intro c₁ c₂ k₁ k₂ hk₁ hk₂ heq
    rcases hcase c₁ k₁ hk₁ with ⟨hc₁, hf₁⟩ | hkept₁
    · rcases hcase c₂ k₂ hk₂ with ⟨hc₂, -⟩ | hkept₂
      · rw [hc₁, hc₂]
      · have hlt := h.old c₂ k₂ hkept₂
        omega
    · rcases hcase c₂ k₂ hk₂ with ⟨-, hf₂⟩ | hkept₂
      · have hlt := h.old c₁ k₁ hkept₁
        omega
      · exact h.distinct c₁ c₂ k₁ k₂ hkept₁ hkept₂ heq
  · intro w x hx
    rw [hwriting] at hx
    have hok := h.writes w x hx
    refine { hok with id := ?_, home := hhome hok.home, begun := ?_ }
    · rw [hwrite]
      exact hok.id
    · rw [hlog]
      exact hok.begun
  · rw [hwriting]; exact h.apart
  · intro a ha
    rw [hfailed] at ha
    have hok := h.failed a ha
    refine ⟨?_, hhome hok.home, hok.retires, ?_, ?_, ?_⟩
    · rw [hwrite]
      exact hok.id
    · rw [hwriting]
      exact hok.sender
    · rw [hwriting]
      exact hok.apart
    · rw [hlog]
      exact hok.log
  · intro l hl
    rw [hlog]
    exact h.future l (by omega)
  · rw [hlog, hwrite]; exact h.ids
  · rw [hlog]; exact h.blocks
  · rw [hlog, hwriting]; exact h.mid
  · intro l e he hcut hidle hhandled c' k' hk'
    rw [hlog] at he
    rcases hcase c' k' hk' with ⟨-, hfresh⟩ | hkept
    · -- nothing has been written to the new link
      rintro rfl
      rw [h.future k'.link (by omega)] at he
      cases he
    · refine h.dead l e he hcut ?_ ⟨hhandled.retires, hhandled.captured, ?_⟩ c' k' hkept
      · rintro ⟨w, x, hx, hid⟩
        exact hidle ⟨w, x, by rw [hwriting]; exact hx, hid⟩
      · rw [← hfailed]
        exact hhandled.looked

/-! ### Writes begin and end -/

theorem Attempt.Home.of_held {a : Attempt} (h : a.Home s) (hheld : s'.held = s.held)
    (hlink : s'.nextLink = s.nextLink) : a.Home s' :=
  h.keeps (.of_held hheld) hlink

/-- A write is untouched by what happens to the logs of other links. -/
theorem WriteOk.mono {w : Option ι} {x : Writing} (h : WriteOk s w x)
    (hheld : s'.held = s.held) (hlink : s'.nextLink = s.nextLink)
    (hwrite : s.nextWrite ≤ s'.nextWrite)
    (hlog : ∀ l, x.begun = some l → s'.log l = s.log l) : WriteOk s' w x :=
  { h with
    id := lt_of_lt_of_le h.id hwrite
    home := h.home.of_held hheld hlink
    begun := by
      intro l hl
      rw [hlog l hl]
      exact h.begun l hl }

section Threads

variable [DecidableEq ι]

variable {x : Writing} {w : Option ι} {y : Option Writing} {c : SendSocket} {k : Sock}

/-- Whose write a write is, after thread `w` has changed its own. -/
theorem writing_cases {f : Option ι → Option Writing} {w' : Option ι}
    (h : Function.update f w y w' = some x) : (w' = w ∧ y = some x) ∨ (w' ≠ w ∧ f w' = some x) := by
  by_cases hw : w' = w
  · subst hw
    rw [Function.update_self] at h
    exact .inl ⟨rfl, h⟩
  · rw [Function.update_of_ne hw] at h
    exact .inr ⟨hw, h⟩

/-- A thread that is not writing begins a block. -/
theorem TxInv.began (h : TxInv s) (hidle : s.writing w = none)
    (hfailed : w = none → s.failed = none) (path : WritePath) (hpath : path = .failover → w = none)
    (hheld : s.held c = some k) {frame : List UInt8} (hblock : IsBlock frame)
    (hs' : s'.held = s.held ∧ s'.nextLink = s.nextLink ∧ s'.nextWrite = s.nextWrite + 1 ∧
      s'.writing = Function.update s.writing w
        (some ⟨⟨s.nextWrite, path, c, k⟩, frame, 0, none⟩) ∧
      s'.failed = s.failed ∧ s'.log = s.log) : TxInv s' := by
  obtain ⟨hh, hlink, hwrite, hwriting, hfail, hlog⟩ := hs'
  have hmono : ∀ {w' x}, s.writing w' = some x → WriteOk s' w' x := fun hx =>
    (h.writes _ _ hx).mono hh hlink (by omega) (fun _ _ => by rw [hlog])
  -- the new write has a number above all others
  refine ⟨?_, ?_, ?_, ?_, ?_, ?_, ?_, ?_, ?_, ?_⟩
  · rw [hh, hlink]; exact h.old
  · rw [hh]; exact h.distinct
  · intro w' x hx
    rw [hwriting] at hx
    rcases writing_cases hx with ⟨rfl, hnew⟩ | ⟨-, hold⟩
    · cases hnew
      refine ⟨?_, ?_, hblock, hblock.length_pos, ?_, fun _ => rfl, nofun⟩
      · dsimp only
        omega
      · refine ⟨by rw [hlink]; exact h.old c k hheld, ?_⟩
        intro c' k' hk' heq
        rw [hh] at hk'
        have hc : c' = c := h.distinct c' c k' k hk' hheld heq
        subst hc
        rw [hheld] at hk'
        cases hk'
        exact ⟨rfl, rfl, rfl⟩
      · intro hretires
        simp only [Attempt.retires, Bool.and_eq_true, beq_iff_eq] at hretires
        exact hpath hretires.1
    · exact hmono hold
  · intro w₁ w₂ x₁ x₂ hx₁ hx₂ heq
    rw [hwriting] at hx₁ hx₂
    rcases writing_cases hx₁ with ⟨rfl, hnew₁⟩ | ⟨-, hold₁⟩
    · rcases writing_cases hx₂ with ⟨rfl, -⟩ | ⟨-, hold₂⟩
      · rfl
      · cases hnew₁
        have hlt := (h.writes w₂ x₂ hold₂).id
        dsimp only at heq
        omega
    · rcases writing_cases hx₂ with ⟨rfl, hnew₂⟩ | ⟨-, hold₂⟩
      · cases hnew₂
        have hlt := (h.writes w₁ x₁ hold₁).id
        dsimp only at heq
        omega
      · exact h.apart w₁ w₂ x₁ x₂ hold₁ hold₂ heq
  · intro a ha
    rw [hfail] at ha
    have hok := h.failed a ha
    have hw : w ≠ none := by
      intro hw
      rw [hfailed hw] at ha
      cases ha
    refine ⟨by rw [hwrite]; exact Nat.lt_succ_of_lt hok.id, hok.home.of_held hh hlink,
      hok.retires, ?_, ?_, ?_⟩
    · rw [hwriting, Function.update_of_ne hw.symm]
      exact hok.sender
    · intro w' x hx
      rw [hwriting] at hx
      rcases writing_cases hx with ⟨-, hnew⟩ | ⟨-, hold⟩
      · cases hnew
        have hlt := hok.id
        dsimp only
        omega
      · exact hok.apart w' x hold
    · rw [hlog]
      exact hok.log
  · rw [hlink, hlog]; exact h.future
  · intro l e he
    rw [hlog] at he
    rw [hwrite]
    exact Nat.lt_succ_of_lt (h.ids l e he)
  · rw [hlog]; exact h.blocks
  · intro l e he w' x hx hid
    rw [hlog] at he
    rw [hwriting] at hx
    rcases writing_cases hx with ⟨-, hnew⟩ | ⟨-, hold⟩
    · cases hnew
      have hlt := h.ids l e he
      dsimp only at hid
      omega
    · exact h.mid l e he w' x hold hid
  · intro l e he hcut hnot hhandled
    rw [hlog] at he
    rw [hh]
    refine h.dead l e he hcut ?_ ⟨hhandled.retires, hhandled.captured, ?_⟩
    · rintro ⟨w', x, hx, hid⟩
      refine hnot ⟨w', x, ?_, hid⟩
      rw [hwriting, Function.update_of_ne]
      · exact hx
      · rintro rfl
        rw [hidle] at hx
        cases hx
    · rw [← hfail]
      exact hhandled.looked

/-- A write ends, with what the failover has yet to look at noted: its own failure, if it may
    have left a part of a block. -/
theorem TxInv.ended (h : TxInv s) (hx : s.writing w = some x) (hh : s'.held = s.held)
    (hlink : s'.nextLink = s.nextLink) (hwrite : s'.nextWrite = s.nextWrite) (hlog : s'.log = s.log)
    (hwriting : s'.writing = Function.update s.writing w none)
    (hfail : ((x.attempt.retires = false ∨ x.begun = none) ∧ s'.failed = s.failed) ∨
      (x.attempt.retires = true ∧ s'.failed = some x.attempt)) : TxInv s' := by
  have hok := h.writes w x hx
  have hback : ∀ {w' y}, s'.writing w' = some y → w' ≠ w ∧ s.writing w' = some y := by
    intro w' y hy
    rw [hwriting] at hy
    rcases writing_cases hy with ⟨-, hnone⟩ | hold
    · cases hnone
    · exact hold
  refine ⟨?_, ?_, ?_, ?_, ?_, ?_, ?_, ?_, ?_, ?_⟩
  · rw [hh, hlink]; exact h.old
  · rw [hh]; exact h.distinct
  · intro w' y hy
    exact (h.writes w' y (hback hy).2).mono hh hlink hwrite.ge (fun _ _ => by rw [hlog])
  · intro w₁ w₂ x₁ x₂ hx₁ hx₂
    exact h.apart w₁ w₂ x₁ x₂ (hback hx₁).2 (hback hx₂).2
  · intro a ha
    have hsender : w = none → s'.writing none = none := by
      rintro rfl
      rw [hwriting, Function.update_self]
    rcases hfail with ⟨-, hsame⟩ | ⟨hretires, hnew⟩
    · rw [hsame] at ha
      have hfail := h.failed a ha
      refine ⟨by rw [hwrite]; exact hfail.id, hfail.home.of_held hh hlink, hfail.retires, ?_, ?_,
        by rw [hlog]; exact hfail.log⟩
      · by_cases hw : none = w
        · exact hsender hw.symm
        · rw [hwriting, Function.update_of_ne hw]
          exact hfail.sender
      · intro w' y hy
        exact hfail.apart w' y (hback hy).2
    · rw [hnew] at ha
      cases ha
      refine ⟨by rw [hwrite]; exact hok.id, hok.home.of_held hh hlink, hretires,
        hsender (hok.sender hretires), ?_, ?_⟩
      · intro w' y hy heq
        obtain ⟨hne, hold⟩ := hback hy
        exact hne (h.apart w' w y x hold hx heq)
      · intro l e he hid
        rw [hlog] at he
        exact (h.mid l e he w x hx hid.symm).2
  · rw [hlink, hlog]; exact h.future
  · rw [hlog, hwrite]; exact h.ids
  · rw [hlog]; exact h.blocks
  · intro l e he w' y hy
    rw [hlog] at he
    exact h.mid l e he w' y (hback hy).2
  · intro l e he hcut hnot hhandled
    rw [hlog] at he
    rw [hh]
    by_cases hid : x.attempt.id = e.origin.attempt.id
    · -- the write that has just failed: its socket has not been looked at
      exfalso
      obtain ⟨hbegun, hattempt⟩ := h.mid l e he w x hx hid
      rcases hfail with ⟨hkeeps | hfresh, -⟩ | ⟨-, hnew⟩
      · have hretires := hhandled.retires
        rw [hattempt, hkeeps] at hretires
        cases hretires
      · rw [hfresh] at hbegun
        cases hbegun
      · exact hhandled.looked x.attempt hnew hid
    · refine h.dead l e he hcut ?_ ⟨hhandled.retires, hhandled.captured, ?_⟩
      · rintro ⟨w', y, hy, hid'⟩
        apply hnot
        refine ⟨w', y, ?_, hid'⟩
        rw [hwriting, Function.update_of_ne]
        · exact hy
        · rintro rfl
          rw [hx] at hy
          cases hy
          exact hid hid'
      · intro b hb
        rcases hfail with ⟨-, hsame⟩ | ⟨hretires, -⟩
        · exact hhandled.looked b (by rw [hsame]; exact hb)
        · -- the failover does one write at a time
          have hsender := (h.failed b hb).sender
          rw [← hok.sender hretires, hx] at hsender
          cases hsender

omit [DecidableEq ι] in
/-- A slot that is retired holds nothing, and the other sockets what they held. -/
theorem keepsLinks_retireSlot {i : SlotIndex} (hprimary : s'.primary = s.primary)
    (hadditional : s'.additional = retireSlot s.additional i) : KeepsLinks s s' := by
  intro c k' hk'
  cases c with
  | primary =>
    change s'.primary = some k' at hk'
    rw [hprimary] at hk'
    exact ⟨k', hk', rfl, rfl, rfl⟩
  | additional j =>
    change (s'.additional j).sock = some k' at hk'
    rw [hadditional] at hk'
    by_cases hj : j = i
    · subst hj
      rw [retireSlot_self] at hk'
      cases hk'
    · rw [retireSlot_of_ne _ hj] at hk'
      exact ⟨k', hk', rfl, rfl, rfl⟩

omit [DecidableEq ι] in
/-- The failover looks at its socket: if it still holds the captured link, it is retired. -/
theorem TxInv.failed_retired (h : TxInv s) : TxInv (retireFailed s) := by
  -- a failed write that counts was on an additional link
  unfold retireFailed
  split
  · exact h
  · next a ha =>
    have hfail := h.failed a ha
    split
    · next hsocket =>
      have hretires := hfail.retires
      simp [Attempt.retires, hsocket] at hretires
    · next i hsocket =>
      have hdead : ∀ (s₁ : TxState ι), KeepsLinks s s₁ → s₁.log = s.log →
          s₁.writing = s.writing →
          (s.holds a (.additional i) = true → s₁.held (.additional i) = none) →
          DeadLinks s₁ := by
        intro s₁ hkeeps hlog hwriting hgone l e he hcut hnot hhandled c k' hk'
        rw [hlog] at he
        obtain ⟨k, hk, hl, -, -⟩ := hkeeps c k' hk'
        have hidle : ¬ InProgress s e.origin.attempt.id := by
          rintro ⟨w, x, hx, hid⟩
          exact hnot ⟨w, x, by rw [hwriting]; exact hx, hid⟩
        rw [← hl]
        by_cases hid : a.id = e.origin.attempt.id
        · -- the link is on no socket but the captured one, which has just been retired
          rintro rfl
          have hattempt := hfail.log k.link e he hid.symm
          have hlink : k.link = a.sock.link := by
            rw [← hattempt]
            exact hhandled.captured.symm
          obtain ⟨rfl, hssl, hfd⟩ := hfail.home.same c k hk hlink
          rw [hsocket] at hk hk'
          have hholds : s.holds a (.additional i) = true := by
            simp [TxState.holds, hk, hssl, hfd]
          rw [hgone hholds] at hk'
          cases hk'
        · refine h.dead l e he hcut hidle ⟨hhandled.retires, hhandled.captured, ?_⟩ c k hk
          intro b hb
          rw [ha] at hb
          cases hb
          exact hid
      split
      · refine h.frame_of_dead (keepsLinks_retireSlot rfl rfl) rfl rfl rfl
          (fun _ hb => absurd hb nofun) rfl ?_
        apply hdead
        · exact keepsLinks_retireSlot rfl rfl
        · rfl
        · rfl
        · intro _
          change (retireSlot s.additional i i).sock = none
          rw [retireSlot_self]
          rfl
      · next hlost =>
        exact h.frame_of_dead (.of_held rfl) rfl rfl rfl (fun _ hb => absurd hb nofun) rfl
          (hdead _ (.of_held rfl) rfl rfl fun hholds => absurd hholds hlost)

/-! ### Bytes are accepted -/

omit [DecidableEq ι] in
/-- The first bytes of a write. -/
theorem record_begin {log : LinkLog} (h : ∀ e ∈ log, e.origin.attempt.id ≠ x.attempt.id) (m : ℕ) :
    record log x m = log ++ [⟨x.frame.drop x.sent, m, x.attempt, x.sent⟩] := by
  unfold record
  cases hlast : log.getLast? with
  | none => rw [List.getLast?_eq_none_iff.mp hlast]; rfl
  | some e =>
    dsimp only
    rw [if_neg (h e (List.mem_of_getLast? hlast))]

omit [DecidableEq ι] in
/-- More bytes of the write that is last on the link. -/
theorem record_continue (pre : LinkLog) (x : Writing) (m : ℕ) :
    record (pre ++ [⟨x.frame, x.sent, x.attempt, 0⟩]) x m =
      pre ++ [⟨x.frame, x.sent + m, x.attempt, 0⟩] := by
  simp [record]

/-- The write `x` of thread `w` has got to `x.sent + m`, on link `k`, behind the entries `pre`;
    it goes on as `y`, or is complete. -/
structure Advances (s s' : TxState ι) (w : Option ι) (x : Writing) (k : Sock) (pre : LinkLog)
    (m : ℕ) (y : Option Writing) : Prop where
  log : (x.begun = none ∧ s.log k.link = pre) ∨
    (x.begun = some k.link ∧ s.log k.link = pre ++ [⟨x.frame, x.sent, x.attempt, 0⟩])
  whole : ∀ e ∈ pre, e.truncated = false
  more : 0 < m
  next : (y = none ∧ x.sent + m = x.frame.length) ∨
    (y = some { x with sent := x.sent + m, begun := some k.link } ∧ x.sent + m < x.frame.length)
  held' : s'.held = s.held
  nextLink' : s'.nextLink = s.nextLink
  nextWrite' : s'.nextWrite = s.nextWrite
  failed' : s'.failed = s.failed
  writing' : s'.writing = Function.update s.writing w y
  log' : s'.log = Function.update s.log k.link (pre ++ [⟨x.frame, x.sent + m, x.attempt, 0⟩])

namespace Advances

variable {w : Option ι} {x : Writing} {k : Sock} {pre : LinkLog} {m : ℕ} {y : Option Writing}

/-- The entries of a link: of before, or the one that has grown. -/
theorem mem_log (ha : Advances s s' w x k pre m y) {l : ℕ} {e : Write UInt8 Piece}
    (he : e ∈ s'.log l) : (e ∈ s.log l ∧ (l = k.link → e ∈ pre)) ∨
      (l = k.link ∧ e = ⟨x.frame, x.sent + m, x.attempt, 0⟩) := by
  rw [ha.log'] at he
  by_cases hl : l = k.link
  · subst hl
    rw [Function.update_self] at he
    rcases List.mem_append.mp he with hpre | hnew
    · refine .inl ⟨?_, fun _ => hpre⟩
      rcases ha.log with ⟨-, hlog⟩ | ⟨-, hlog⟩
      · rw [hlog]; exact hpre
      · rw [hlog]; exact List.mem_append_left _ hpre
    · exact .inr ⟨rfl, List.mem_singleton.mp hnew⟩
  · rw [Function.update_of_ne hl] at he
    exact .inl ⟨he, fun heq => absurd heq hl⟩

variable {w' : Option ι} {z : Writing}

/-- The writes in progress: of before, or the one that goes on. -/
theorem writing_cases (ha : Advances s s' w x k pre m y) (hz : s'.writing w' = some z) :
    (w' ≠ w ∧ s.writing w' = some z) ∨
      (w' = w ∧ z = { x with sent := x.sent + m, begun := some k.link } ∧
        x.sent + m < x.frame.length) := by
  rw [ha.writing'] at hz
  rcases Packet.writing_cases hz with ⟨rfl, hy⟩ | hold
  · rcases ha.next with ⟨hnone, -⟩ | ⟨hsome, hleft⟩
    · rw [hnone] at hy
      cases hy
    · rw [hsome] at hy
      cases hy
      exact .inr ⟨rfl, rfl, hleft⟩
  · exact .inl hold

/-- Every write in progress was one before, with its attempt. -/
theorem attempt (ha : Advances s s' w x k pre m y) (hx : s.writing w = some x)
    (hz : s'.writing w' = some z) : ∃ z₀, s.writing w' = some z₀ ∧ z₀.attempt = z.attempt := by
  rcases ha.writing_cases hz with ⟨-, hold⟩ | ⟨rfl, rfl, -⟩
  · exact ⟨z, hold, rfl⟩
  · exact ⟨x, hx, rfl⟩

/-- Another write is not on this link: it would have left its part of a block in front. -/
theorem elsewhere (ha : Advances s s' w x k pre m y) (h : TxInv s) (hx : s.writing w = some x)
    (hne : w' ≠ w) (hz : s.writing w' = some z) : z.begun ≠ some k.link := by
  intro hbegun
  have hok := h.writes w' z hz
  obtain ⟨hpos, pre', hlog'⟩ := hok.begun k.link hbegun
  have hleft := hok.left
  rcases ha.log with ⟨-, hlog⟩ | ⟨-, hlog⟩
  · have hlast : (⟨z.frame, z.sent, z.attempt, 0⟩ : Write UInt8 Piece) ∈ pre := by
      rw [← hlog, hlog']
      exact List.mem_append_right _ (List.mem_singleton_self _)
    have hwhole := ha.whole _ hlast
    simp [Write.truncated, hpos, hleft] at hwhole
  · rw [hlog] at hlog'
    have hsame := (List.append_inj' hlog' rfl).2
    simp only [List.cons.injEq, Write.mk.injEq, Piece.mk.injEq, and_true] at hsame
    exact hne (h.apart w' w z x hz hx (by rw [hsame.2.2]))

/-- The write that goes on. -/
theorem writeOk (ha : Advances s s' w x k pre m y) (hok : WriteOk s w x)
    (hleft : x.sent + m < x.frame.length) :
    WriteOk s' w { x with sent := x.sent + m, begun := some k.link } where
  id := by rw [ha.nextWrite']; exact hok.id
  home := hok.home.of_held ha.held' ha.nextLink'
  block := hok.block
  left := hleft
  sender := hok.sender
  fresh := fun hl => absurd hl nofun
  begun := by
    intro l hl
    cases hl
    refine ⟨Nat.lt_of_lt_of_le ha.more (Nat.le_add_left _ _), pre, ?_⟩
    rw [ha.log', Function.update_self]

/-- The failover's write that failed is not the one that has grown. -/
theorem failedOk (ha : Advances s s' w x k pre m y) (hx : s.writing w = some x) {a : Attempt}
    (hfail : FailedOk s a) : FailedOk s' a where
  id := by rw [ha.nextWrite']; exact hfail.id
  home := hfail.home.of_held ha.held' ha.nextLink'
  retires := hfail.retires
  sender := by
    rw [ha.writing', Function.update_of_ne]
    · exact hfail.sender
    · rintro rfl
      rw [hfail.sender] at hx
      cases hx
  apart := by
    intro w' z hz
    obtain ⟨z₀, hz₀, hza⟩ := ha.attempt hx hz
    rw [← hza]
    exact hfail.apart w' z₀ hz₀
  log := by
    intro l e he hid
    rcases ha.mem_log he with ⟨hold, -⟩ | ⟨-, rfl⟩
    · exact hfail.log l e hold hid
    · exact absurd hid (hfail.apart w x hx)

/-- No more links are dead. -/
theorem deadLinks (ha : Advances s s' w x k pre m y) (h : TxInv s)
    (hx : s.writing w = some x) : DeadLinks s' := by
  intro l e he hcut hnot hhandled
  rw [ha.held']
  rcases ha.mem_log he with ⟨hin, hpre⟩ | ⟨rfl, rfl⟩
  · refine h.dead l e hin hcut ?_ ⟨hhandled.retires, hhandled.captured, ?_⟩
    · rintro ⟨w', z, hz, hid⟩
      by_cases hw : w' = w
      · -- an entry of this write is on link `k`, and the entries in front of it are whole
        subst hw
        rw [hx] at hz
        cases hz
        have hbegun := (h.mid l e hin w' x hx hid).1
        rcases ha.log with ⟨hnone, -⟩ | ⟨hsome, -⟩
        · rw [hnone] at hbegun
          cases hbegun
        · rw [hsome] at hbegun
          have hwhole := ha.whole e (hpre (Option.some.inj hbegun).symm)
          rw [hcut] at hwhole
          cases hwhole
      · refine hnot ⟨w', z, ?_, hid⟩
        rw [ha.writing', Function.update_of_ne hw]
        exact hz
    · rw [← ha.failed']
      exact hhandled.looked
  · -- the write that has grown is in progress, unless it is complete
    exfalso
    rcases ha.next with ⟨-, hall⟩ | ⟨hsome, -⟩
    · simp [Write.truncated, hall] at hcut
    · refine hnot ⟨w, { x with sent := x.sent + m, begun := some k.link }, ?_, rfl⟩
      rw [ha.writing', Function.update_self, hsome]

end Advances

theorem TxInv.advanced (h : TxInv s) (hx : s.writing w = some x) (hheld : s.held c = some k)
    {pre : LinkLog} {m : ℕ} (ha : Advances s s' w x k pre m y) : TxInv s' := by
  have hok := h.writes w x hx
  have hlink : k.link < s.nextLink := h.old c k hheld
  -- the log of `k.link` grows at its end, the others stay
  constructor
  case old => rw [ha.held', ha.nextLink']; exact h.old
  case distinct => rw [ha.held']; exact h.distinct
  case writes =>
    intro w' z hz
    rcases ha.writing_cases hz with ⟨hne, hold⟩ | ⟨rfl, rfl, hleft⟩
    · refine (h.writes w' z hold).mono ha.held' ha.nextLink' ha.nextWrite'.ge ?_
      intro l hl
      rw [ha.log', Function.update_of_ne]
      rintro rfl
      exact ha.elsewhere h hx hne hold hl
    · exact ha.writeOk hok hleft
  case apart =>
    intro w₁ w₂ x₁ x₂ hx₁ hx₂ heq
    obtain ⟨z₁, hz₁, ha₁⟩ := ha.attempt hx hx₁
    obtain ⟨z₂, hz₂, ha₂⟩ := ha.attempt hx hx₂
    exact h.apart w₁ w₂ z₁ z₂ hz₁ hz₂ (by rw [ha₁, ha₂, heq])
  case failed =>
    intro a hfa
    rw [ha.failed'] at hfa
    exact ha.failedOk hx (h.failed a hfa)
  case future =>
    intro l hl
    rw [ha.nextLink'] at hl
    rw [ha.log', Function.update_of_ne (by omega)]
    exact h.future l hl
  case ids =>
    intro l e he
    rw [ha.nextWrite']
    rcases ha.mem_log he with ⟨hold, -⟩ | ⟨-, rfl⟩
    · exact h.ids l e hold
    · exact hok.id
  case blocks =>
    intro l e he hstart
    rcases ha.mem_log he with ⟨hold, -⟩ | ⟨-, rfl⟩
    · exact h.blocks l e hold hstart
    · exact hok.block
  case mid =>
    intro l e he w' z hz hid
    rcases ha.writing_cases hz with ⟨hne, hold⟩ | ⟨rfl, rfl, -⟩
    · rcases ha.mem_log he with ⟨hin, -⟩ | ⟨-, rfl⟩
      · exact h.mid l e hin w' z hold hid
      · exact absurd (h.apart w' w z x hold hx hid) hne
    · rcases ha.mem_log he with ⟨hin, hpre⟩ | ⟨rfl, rfl⟩
      · obtain ⟨hbegun, hsame⟩ := h.mid l e hin w' x hx hid
        refine ⟨?_, hsame⟩
        rcases ha.log with ⟨hnone, -⟩ | ⟨hsome, -⟩
        · rw [hnone] at hbegun
          cases hbegun
        · rw [← hbegun, hsome]
      · exact ⟨rfl, rfl⟩
  case dead => exact ha.deadLinks h hx

/-- A write that has got to `x.sent + m` fails, whole or not. -/
theorem TxInv.advanced_failed (h : TxInv s) (hx : s.writing w = some x) (hheld : s.held c = some k)
    {t : TxState ι} {pre : LinkLog} {m : ℕ} (ha : Advances s t w x k pre m y)
    (hh : s'.held = t.held) (hlink : s'.nextLink = t.nextLink) (hwrite : s'.nextWrite = t.nextWrite)
    (hlog : s'.log = t.log) (hwriting : s'.writing = Function.update t.writing w none)
    (hfail : (x.attempt.retires = false ∧ s'.failed = t.failed) ∨
      (x.attempt.retires = true ∧ s'.failed = some x.attempt)) : TxInv s' := by
  have hok := h.writes w x hx
  have ht := h.advanced hx hheld ha
  rcases ha.next with ⟨rfl, -⟩ | ⟨rfl, -⟩
  · -- the block is whole: the write has gone, and its failure is noted
    have hsame : s'.writing = t.writing := by
      rw [hwriting, ha.writing', Function.update_idem]
    rcases hfail with ⟨-, hfailed⟩ | ⟨hretires, hnew⟩
    · exact ht.frame (.of_held hh) hlink hwrite hsame hfailed hlog
    · obtain rfl := hok.sender hretires
      refine ht.frame_of_dead (.of_held hh) hlink hwrite hsame ?_ hlog ?_
      · intro a ha'
        rw [hnew] at ha'
        cases ha'
        refine ⟨by rw [ha.nextWrite']; exact hok.id, hok.home.of_held ha.held' ha.nextLink',
          hretires, by rw [ha.writing', Function.update_self], ?_, ?_⟩
        · intro w' z hz heq
          rcases ha.writing_cases hz with ⟨hne, hold⟩ | ⟨rfl, rfl, -⟩
          · exact hne (h.apart w' none z x hold hx heq)
          · rw [ha.writing', Function.update_self] at hz
            cases hz
        · intro l e he hid
          rcases ha.mem_log he with ⟨hold, -⟩ | ⟨-, rfl⟩
          · exact (h.mid l e hold none x hx hid.symm).2
          · rfl
      · intro l e he hcut hnot hhandled
        rw [hlog] at he
        rw [hh]
        refine ht.dead l e he hcut ?_ ⟨hhandled.retires, hhandled.captured, ?_⟩
        · rintro ⟨w', z, hz, hid⟩
          exact hnot ⟨w', z, by rw [hsame]; exact hz, hid⟩
        · intro b hb
          rw [ha.failed'] at hb
          have hsender := (h.failed b hb).sender
          rw [hx] at hsender
          cases hsender
  · refine ht.ended (x := { x with sent := x.sent + m, begun := some k.link }) ?_ hh hlink hwrite
      hlog hwriting ?_
    · rw [ha.writing', Function.update_self]
    · rcases hfail with ⟨hkeeps, hsame⟩ | hnew
      · exact .inl ⟨.inl hkeeps, hsame⟩
      · exact .inr hnew

/-- What the end of a write leaves. -/
theorem writeDone_spec (s : TxState ι) (w : Option ι) (x : Writing) :
    (writeDone s w x).held = s.held ∧ (writeDone s w x).nextLink = s.nextLink ∧
      (writeDone s w x).nextWrite = s.nextWrite ∧ (writeDone s w x).failed = s.failed ∧
      (writeDone s w x).writing = Function.update s.writing w none ∧
      (writeDone s w x).log = s.log := by
  unfold writeDone
  split
  · exact ⟨rfl, rfl, rfl, rfl, rfl, rfl⟩
  · exact ⟨rfl, rfl, rfl, rfl, rfl, rfl⟩

/-- What a failed write leaves. -/
theorem writeFailed_spec (s : TxState ι) (w : Option ι) (x : Writing) :
    (writeFailed s w x).held = s.held ∧ (writeFailed s w x).nextLink = s.nextLink ∧
      (writeFailed s w x).nextWrite = s.nextWrite ∧ (writeFailed s w x).log = s.log ∧
      (writeFailed s w x).writing = Function.update s.writing w none ∧
      ((x.attempt.retires = false ∧ (writeFailed s w x).failed = s.failed) ∨
        (x.attempt.retires = true ∧ (writeFailed s w x).failed = some x.attempt)) := by
  unfold writeFailed
  split
  · next hretires => exact ⟨rfl, rfl, rfl, rfl, rfl, .inr ⟨hretires, rfl⟩⟩
  · next hretires => exact ⟨rfl, rfl, rfl, rfl, rfl, .inl ⟨Bool.eq_false_iff.mpr hretires, rfl⟩⟩

omit [DecidableEq ι] in
/-- The bytes of a write go to the link of a socket. -/
theorem destination_held {cfg : TxConfig} (hdest : destination cfg s x = some k) :
    ∃ c, s.held c = some k := by
  obtain ⟨c, -, hheld⟩ := Option.bind_eq_some_iff.mp hdest
  exact ⟨c, hheld⟩

end Threads

end SoftEther.Packet

import SoftEther.Packet.Writes

namespace SoftEther.Packet

open Lib SoftEther.Links

/-!
# The framing of each link

* `LinksFramed` — every link has accepted whole blocks and at most one truncated block, and
  took nothing after it;
* `SparesCutLinks` — what a turn of a write loop must find on the link it writes to;
* `link_framing_iff` — the framing holds through a run exactly when every step meets the
  condition.

A block that the failover cuts short on an additional socket needs no condition once the socket
has been retired: see `SparesCutLink.whole`.
-/

variable {ι : Type}

/-! ### The framing and its condition -/

/-- What one link was given: the bytes it accepted, and the writes in their order. -/
structure LinkFramed (log : LinkLog) : Prop where
  framed : Framed IsBlock (accepted log)
  stops : StopsAtCut log
  starts : ∀ e ∈ log, e.origin.start = 0

/-- **The framing of every link.** -/
def LinksFramed (s : TxState ι) : Prop := ∀ l, LinkFramed (s.log l)

/-- What a write must find on link `k` when bytes of it are accepted there: before its first
    byte no write has left a part of a block, other than a failover that has dealt with its
    socket; and a block goes on where it was begun. -/
structure SparesCutLink (s : TxState ι) (x : Writing) (k : Sock) : Prop where
  cut : x.begun = none → ∀ e ∈ s.log k.link, e.truncated = true →
    ¬ InProgress s e.origin.attempt.id ∧ Handled s e.origin.attempt k.link
  same : ∀ l, x.begun = some l → l = k.link

/-- The condition of a step. With SSL, nothing of a write that failed waits in the SSL object
    to be taken for the start of this block. -/
def SparesCutLinks (cfg : TxConfig) (s : TxState ι) : TxAction ι → Prop
  | .send w (.accepted n) =>
    ∀ x k, s.writing w = some x → destination cfg s x = some k → cfg.useSslData = false →
      n ≠ 0 → SparesCutLink s x k
  | .sslWrite w answer =>
    ∀ x k r, s.writing w = some x → destination cfg s x = some k → cfg.useSslData = true →
      s.resume k.link = some r → 0 < answer.bytes (x.frame.length - r) →
        r = 0 ∧ SparesCutLink s x k
  | _ => True

/-! ### What the condition gives -/

variable {cfg : TxConfig} {s s' : TxState ι}

section Threads

variable [DecidableEq ι] {x : Writing} {k : Sock} {w : Option ι} {answer : SslAnswer}

omit [DecidableEq ι] in
/-- **What the condition gives.** Before the first byte of a write, every block on the link is
    whole: a block that the failover cut short is on no socket. -/
theorem SparesCutLink.whole (h : TxInv s) (hdest : destination cfg s x = some k)
    (hC : SparesCutLink s x k) (hbegun : x.begun = none) :
    ∀ e ∈ s.log k.link, e.truncated = false := by
  obtain ⟨c, hheld⟩ := destination_held hdest
  intro e he
  rw [Bool.eq_false_iff]
  intro hcut
  obtain ⟨hended, hhandled⟩ := hC.cut hbegun e he hcut
  exact h.dead k.link e he hcut hended hhandled c k hheld rfl

/-- A state between two steps: the invariant, the framing, and with SSL no block half written. -/
structure Good (cfg : TxConfig) (s : TxState ι) : Prop where
  inv : TxInv s
  framed : LinksFramed s
  ssl : cfg.useSslData = true → ∀ w x, s.writing w = some x → x.begun = none

/-- Whole blocks with the block of one write behind them. -/
theorem LinkFramed.grow {pre : LinkLog} (hpre : ∀ e ∈ pre, e.truncated = false)
    (hstarts : ∀ e ∈ pre, e.origin.start = 0) (hblocks : ∀ e ∈ pre, IsBlock e.frame)
    {e : Write UInt8 Piece} (hstart : e.origin.start = 0) (hblock : IsBlock e.frame) :
    LinkFramed (pre ++ [e]) := by
  have hstops : StopsAtCut (pre ++ [e]) := by
    refine List.pairwise_append.mpr ⟨?_, List.pairwise_singleton _ e, fun a ha _ _ => hpre a ha⟩
    exact List.pairwise_of_forall_mem_list fun a ha _ _ => hpre a ha
  refine ⟨hstops.framed ?_, hstops, ?_⟩
  · intro a ha
    rcases List.mem_append.mp ha with hin | hlast
    · exact hblocks a hin
    · rw [List.mem_singleton.mp hlast]
      exact hblock
  · intro a ha
    rcases List.mem_append.mp ha with hin | hlast
    · exact hstarts a hin
    · rw [List.mem_singleton.mp hlast]
      exact hstart

/-- **Bytes that are accepted on a link that the condition admits**: the block of the write grows
    behind whole blocks. -/
theorem Good.grown (h : Good cfg s) (s' : TxState ι) (hx : s.writing w = some x)
    (hdest : destination cfg s x = some k) (hC : SparesCutLink s x k) {m : ℕ} (hm : 0 < m)
    {y : Option Writing} (hnext : (y = none ∧ x.sent + m = x.frame.length) ∨
      (y = some { x with sent := x.sent + m, begun := some k.link } ∧
        x.sent + m < x.frame.length)) (hh : s'.held = s.held) (hlink : s'.nextLink = s.nextLink)
    (hwrite : s'.nextWrite = s.nextWrite) (hfailed : s'.failed = s.failed)
    (hwriting : s'.writing = Function.update s.writing w y)
    (hlog : s'.log = Function.update s.log k.link (record (s.log k.link) x m)) :
    (∃ pre, Advances s s' w x k pre m y) ∧ LinksFramed s' := by
  have hok := h.inv.writes w x hx
  have hframed := h.framed k.link
  -- what is in front of the block of this write
  obtain ⟨pre, hwas, hwhole, hrecord, hsub⟩ : ∃ pre,
      ((x.begun = none ∧ s.log k.link = pre) ∨
        (x.begun = some k.link ∧ s.log k.link = pre ++ [⟨x.frame, x.sent, x.attempt, 0⟩])) ∧
      (∀ e ∈ pre, e.truncated = false) ∧
      record (s.log k.link) x m = pre ++ [⟨x.frame, x.sent + m, x.attempt, 0⟩] ∧
      ∀ e ∈ pre, e ∈ s.log k.link := by
    cases hbegun : x.begun with
    | none =>
      refine ⟨s.log k.link, .inl ⟨rfl, rfl⟩, hC.whole h.inv hdest hbegun, ?_, fun _ => id⟩
      rw [record_begin]
      · rw [hok.fresh hbegun, List.drop_zero, Nat.zero_add]
      · intro e he hid
        have habs := (h.inv.mid k.link e he w x hx hid.symm).1
        rw [hbegun] at habs
        cases habs
    | some l =>
      have hl : l = k.link := hC.same l hbegun
      subst hl
      obtain ⟨-, pre, hpre⟩ := hok.begun k.link hbegun
      refine ⟨pre, .inr ⟨rfl, hpre⟩, ?_, ?_, ?_⟩
      · intro e he
        have hstops := hframed.stops
        rw [hpre] at hstops
        exact (List.pairwise_append.mp hstops).2.2 e he _ (List.mem_singleton_self _)
      · rw [hpre, record_continue]
      · intro e he
        rw [hpre]
        exact List.mem_append_left _ he
  rw [hrecord] at hlog
  refine ⟨⟨pre, hwas, hwhole, hm, hnext, hh, hlink, hwrite, hfailed, hwriting, hlog⟩, ?_⟩
  intro l
  rw [hlog]
  by_cases hl : l = k.link
  · subst hl
    rw [Function.update_self]
    refine LinkFramed.grow hwhole ?_ ?_ rfl hok.block
    · exact fun e he => hframed.starts e (hsub e he)
    · exact fun e he => h.inv.blocks k.link e (hsub e he) (hframed.starts e (hsub e he))
  · rw [Function.update_of_ne hl]
    exact h.framed l

/-- Bytes that `send` accepts on a link that the condition admits. -/
theorem acceptBytes_good (h : Good cfg s) (hx : s.writing w = some x)
    (hdest : destination cfg s x = some k) (hraw : cfg.useSslData = false) {n : ℕ} (hn : n ≠ 0)
    (hC : SparesCutLink s x k) : Good cfg (acceptBytes s w x k n) := by
  obtain ⟨c, hheld⟩ := destination_held hdest
  have hleft := (h.inv.writes w x hx).left
  have hssl : ∀ s' : TxState ι, cfg.useSslData = true → ∀ w x, s'.writing w = some x →
      x.begun = none := by
    intro s' hs
    rw [hraw] at hs
    cases hs
  unfold acceptBytes
  extract_lets m s'
  have hm : 0 < m := by omega
  split
  · next hall =>
    obtain ⟨hh, hlink, hwrite, hfailed, hwriting, hlog⟩ := writeDone_spec s' w x
    obtain ⟨⟨pre, hadv⟩, hframed⟩ :=
      h.grown _ hx hdest hC hm (.inl ⟨rfl, hall⟩) hh hlink hwrite hfailed hwriting hlog
    exact ⟨h.inv.advanced hx hheld hadv, hframed, hssl _⟩
  · obtain ⟨⟨pre, hadv⟩, hframed⟩ :=
      h.grown (s'.setWriting w (some { x with sent := x.sent + m, begun := some k.link }))
        hx hdest hC hm (.inr ⟨rfl, by omega⟩) rfl rfl rfl rfl rfl rfl
    exact ⟨h.inv.advanced hx hheld hadv, hframed, hssl _⟩

omit [DecidableEq ι] in
/-- Bytes that keep the framing have gone to a link that the condition admits. -/
theorem sparesCutLink_of_framed (h : Good cfg s) (hx : s.writing w = some x) {m : ℕ}
    (hafter : LinkFramed (record (s.log k.link) x m)) : SparesCutLink s x k := by
  have hother : x.begun ≠ some k.link →
      ∀ e ∈ s.log k.link, e.origin.attempt.id ≠ x.attempt.id := fun hne e he hid =>
    hne (h.inv.mid k.link e he w x hx hid.symm).1
  refine ⟨?_, ?_⟩
  · intro hbegun e he hcut
    rw [record_begin (hother (by rw [hbegun]; exact nofun))] at hafter
    have hwhole := (stopsAtCut_append (h.framed k.link).stops _).mp hafter.stops e he
    rw [hcut] at hwhole
    cases hwhole
  · intro l hbegun
    by_contra hne
    -- a block that goes on on another link starts there in its middle
    rw [record_begin (hother (by rw [hbegun]; exact fun heq => hne (Option.some.inj heq)))]
      at hafter
    have hzero := hafter.starts _ (List.mem_append_right _ (List.mem_singleton_self _))
    have hpos := ((h.inv.writes w x hx).begun l hbegun).1
    dsimp only at hzero
    omega

/-! ### Every step -/

omit [DecidableEq ι] in
/-- The logs stay, and every write in progress was one or has not begun. -/
theorem Good.of_log (h : Good cfg s) (hinv : TxInv s') (hlog : s'.log = s.log)
    (hwriting : ∀ w x, s'.writing w = some x → x.begun = none ∨ s.writing w = some x) :
    Good cfg s' := by
  refine ⟨hinv, ?_, ?_⟩
  · unfold LinksFramed
    rw [hlog]
    exact h.framed
  · intro hssl w x hx
    exact (hwriting w x hx).elim id (h.ssl hssl w x)

omit [DecidableEq ι] in
/-- Nothing changes that the invariant speaks about. -/
theorem Good.idle (h : Good cfg s) (hheld : s'.held = s.held) (hlink : s'.nextLink = s.nextLink)
    (hwrite : s'.nextWrite = s.nextWrite) (hwriting : s'.writing = s.writing)
    (hfailed : s'.failed = s.failed) (hlog : s'.log = s.log) : Good cfg s' :=
  h.of_log (h.inv.frame (.of_held hheld) hlink hwrite hwriting hfailed hlog) hlog
    fun _ _ hx => .inr (hwriting ▸ hx)

omit [DecidableEq ι] in
theorem held_of_usable {c : SendSocket} (h : s.usable c = some k) : s.held c = some k := by
  cases c with
  | primary => exact h
  | additional i =>
    simp only [TxState.usable] at h
    split at h
    · exact h
    · cases h

omit [DecidableEq ι] in
theorem held_of_keepAliveSocket {c : SendSocket} (h : keepAliveSocket s c = some k) :
    s.held c = some k := by
  unfold keepAliveSocket at h
  split at h
  · exact h
  · split at h
    · exact held_of_usable h
    · cases h

omit [DecidableEq ι] in
theorem openPrimary_good (h : Good cfg s) (ssl fd direction : ℕ) :
    Good cfg (openPrimary s ssl fd direction) := by
  unfold openPrimary
  split
  · next hnone =>
    refine h.of_log (h.inv.opened .primary hnone ?_ ?_ rfl rfl rfl rfl rfl) rfl fun _ _ => .inr
    · intro k hk
      cases hk
      rfl
    · intro c hc
      cases c with
      | primary => exact absurd rfl hc
      | additional i => rfl
  · exact h

omit [DecidableEq ι] in
theorem addLink_good (h : Good cfg s) (i : SlotIndex) (ssl fd direction : ℕ) :
    Good cfg (addLink s i ssl fd direction) := by
  unfold addLink
  split
  · next hempty =>
    refine h.of_log (h.inv.opened (.additional i) ?_ ?_ ?_ rfl rfl rfl rfl rfl) rfl fun _ _ => .inr
    · rw [TxState.held, hempty]
      rfl
    · intro k hk
      simp only [TxState.held, Function.update_self, Option.some.injEq] at hk
      rw [← hk]
    · intro c hc
      cases c with
      | primary => rfl
      | additional j =>
        have hne : j ≠ i := by
          rintro rfl
          exact hc rfl
        simp only [TxState.held, Function.update_of_ne hne]
  · exact h

omit [DecidableEq ι] in
theorem setPrimaryDirection_good (h : Good cfg s) (direction : ℕ) :
    Good cfg { s with primary := s.primary.map fun k => { k with direction := direction } } := by
  refine h.of_log (h.inv.frame ?_ rfl rfl rfl rfl rfl) rfl fun _ _ => .inr
  intro c k' hk'
  cases c with
  | primary =>
    obtain ⟨k, hk, rfl⟩ := Option.map_eq_some_iff.mp hk'
    exact ⟨k, hk, rfl, rfl, rfl⟩
  | additional i => exact ⟨k', hk', rfl, rfl, rfl⟩

omit [DecidableEq ι] in
theorem disconnect_good (h : Good cfg s) : Good cfg (disconnect s) := by
  unfold disconnect
  split
  · refine h.of_log (h.inv.frame ?_ rfl rfl rfl rfl rfl) rfl fun _ _ => .inr
    intro c k hk
    cases c <;> cases hk
  · exact h

omit [DecidableEq ι] in
theorem retireLink_good (h : Good cfg s) (i : SlotIndex) : Good cfg (retireLink s i) :=
  h.of_log (h.inv.frame (keepsLinks_retireSlot rfl rfl) rfl rfl rfl rfl rfl) rfl fun _ _ => .inr

omit [DecidableEq ι] in
theorem sendData_good (h : Good cfg s) (payload : List UInt8) :
    Good cfg (sendData cfg s payload) := by
  unfold sendData
  split
  · exact h.idle rfl rfl rfl rfl rfl rfl
  · exact h

/-- A write that begins has sent nothing. -/
theorem began_writing {a : Attempt} {frame : List UInt8} (w' : Option ι) (x : Writing)
    (hx : Function.update s.writing w (some ⟨a, frame, 0, none⟩) w' = some x) :
    x.begun = none ∨ s.writing w' = some x := by
  rcases writing_cases hx with ⟨-, hnew⟩ | ⟨-, hold⟩
  · cases hnew
    exact .inl rfl
  · exact .inr hold

theorem transmitNext_good (h : Good cfg s) : Good cfg (transmitNext s) := by
  unfold transmitNext
  split
  · next hfree =>
    obtain ⟨hfailed, hidle⟩ := hfree
    split
    · exact h
    · exact h.idle rfl rfl rfl rfl rfl rfl
    · next payload c rest _ =>
      split
      · exact h.idle rfl rfl rfl rfl rfl rfl
      · next k husable =>
        refine h.of_log (h.inv.began (Option.isNone_iff_eq_none.mp hidle) (fun _ => hfailed)
          .failover (fun _ => rfl) (held_of_usable husable) (.data payload) ?_) rfl
          began_writing
        exact ⟨rfl, rfl, rfl, rfl, rfl, rfl⟩
  · exact h

theorem softetherSendPacket_good (h : Good cfg s) (payload : List UInt8) :
    Good cfg (softetherSendPacket cfg s payload) := by
  unfold softetherSendPacket
  split
  · next hready =>
    obtain ⟨-, -, -, ⟨-, hfailed, hidle⟩, -⟩ := hready
    dsimp only
    split
    · exact h.idle rfl rfl rfl rfl rfl rfl
    · next k husable =>
      refine h.of_log (h.inv.began (Option.isNone_iff_eq_none.mp hidle) (fun _ => hfailed)
        .packet (fun hpath => absurd hpath nofun) (held_of_usable husable) (.data payload) ?_) rfl
        began_writing
      exact ⟨rfl, rfl, rfl, rfl, rfl, rfl⟩
  · exact h

theorem sendKeepalive_good (h : Good cfg s) (th : ι) (c : SendSocket) (data : List UInt8) :
    Good cfg (sendKeepalive s th c data) := by
  unfold sendKeepalive
  split
  · next hready =>
    split
    · exact h
    · next k hsocket =>
      refine h.of_log (h.inv.began (Option.isNone_iff_eq_none.mp hready.2.2.2)
        (fun habs => absurd habs nofun) .keepAlive (fun hpath => absurd hpath nofun)
        (held_of_keepAliveSocket hsocket) (.keepAlive data) ?_) rfl began_writing
      exact ⟨rfl, rfl, rfl, rfl, rfl, rfl⟩
  · exact h

/-- The writes that go on when one has ended. -/
theorem ended_writing {f : Option ι → Option Writing} (hf : f = Function.update s.writing w none)
    (w' : Option ι) (x : Writing) (hx : f w' = some x) :
    x.begun = none ∨ s.writing w' = some x := by
  rw [hf] at hx
  rcases writing_cases hx with ⟨-, hnew⟩ | ⟨-, hold⟩
  · cases hnew
  · exact .inr hold

theorem writeFailed_good (h : Good cfg s) (hx : s.writing w = some x) :
    Good cfg (writeFailed s w x) := by
  obtain ⟨hh, hlink, hwrite, hlog, hwriting, hfail⟩ := writeFailed_spec s w x
  refine h.of_log (h.inv.ended hx hh hlink hwrite hlog hwriting ?_) hlog (ended_writing hwriting)
  exact hfail.imp (And.imp_left .inl) id

/-- A turn of a loop without SSL, on a link that the condition admits. -/
theorem sendTurn_good (h : Good cfg s) {answer : SendAnswer}
    (hC : SparesCutLinks cfg s (.send w answer)) : Good cfg (sendTurn cfg s w answer) := by
  unfold sendTurn
  split
  · exact h
  · next x hx =>
    split
    · exact h
    · next hraw =>
      rw [Bool.not_eq_true] at hraw
      split
      · exact writeFailed_good h hx
      · next k hdest =>
        cases answer with
        | accepted n =>
          dsimp only
          split
          · exact writeFailed_good h hx
          · next hn => exact acceptBytes_good h hx hdest hraw hn (hC x k hx hdest hraw hn)
        | again => exact h
        | interrupted => exact writeFailed_good h hx
        | error => exact writeFailed_good h hx

/-- `SSL_write` of a block, on a link that the condition admits. -/
theorem sslWrite_good (h : Good cfg s) (hx : s.writing w = some x)
    (hdest : destination cfg s x = some k) (hssl : cfg.useSslData = true)
    (hC : SparesCutLinks cfg s (.sslWrite w answer)) : Good cfg (sslWrite s w x k answer) := by
  obtain ⟨c, hheld⟩ := destination_held hdest
  have hok := h.inv.writes w x hx
  have hbegun := h.ssl hssl w x hx
  have hleft := hok.left
  unfold sslWrite
  split
  · exact writeFailed_good h hx
  · next r hresume =>
    split
    · have hdead : Good cfg { s with resume := Function.update s.resume k.link none } :=
        h.idle rfl rfl rfl rfl rfl rfl
      exact writeFailed_good hdead hx
    · next hfits =>
      have hadmits := hC x k r hx hdest hssl hresume
      extract_lets m
      by_cases hm : m = 0
      · -- nothing of the block goes out: all of it is taken for written, or it fails
        have hgood : ∀ resume, Good cfg (sealBytes s x k r m resume) := fun resume =>
          h.idle rfl rfl rfl rfl rfl (if_pos hm)
        cases answer with
        | written =>
          obtain ⟨hh, hlink, hwrite, hfailed, hwriting, hlog⟩ :=
            writeDone_spec (sealBytes s x k r m 0) w x
          exact (hgood 0).of_log ((hgood 0).inv.ended hx hh hlink hwrite hlog hwriting
            (.inl ⟨.inr hbegun, hfailed⟩)) hlog (ended_writing hwriting)
        | failed n => exact writeFailed_good (hgood (r + m)) hx
      · obtain ⟨rfl, hspares⟩ := hadmits (Nat.pos_of_ne_zero hm)
        have hsent : { x with sent := 0 } = x := by rw [← hok.fresh hbegun]
        have hlog : ∀ resume, (sealBytes s x k 0 m resume).log =
            Function.update s.log k.link (record (s.log k.link) x m) := by
          intro resume
          rw [sealBytes, if_neg hm, hsent]
        have hsent0 := hok.fresh hbegun
        cases answer with
        | written =>
          obtain ⟨hh, hlink, hwrite, hfailed, hwriting, hlogs⟩ :=
            writeDone_spec (sealBytes s x k 0 m 0) w x
          have hall : x.sent + m = x.frame.length := by rw [hsent0, Nat.zero_add]; rfl
          obtain ⟨⟨pre, hadv⟩, hframed⟩ := h.grown _ hx hdest hspares (Nat.pos_of_ne_zero hm)
            (.inl ⟨rfl, hall⟩) hh hlink hwrite hfailed hwriting (hlogs.trans (hlog 0))
          refine ⟨h.inv.advanced hx hheld hadv, hframed, fun hs w' x' hx' => ?_⟩
          exact (ended_writing hwriting w' x' hx').elim id (h.ssl hs w' x')
        | failed n =>
          obtain ⟨hh, hlink, hwrite, hlogs, hwriting, hfail⟩ :=
            writeFailed_spec (sealBytes s x k 0 m (0 + m)) w x
          -- the state in which the bytes are accepted and the failure is not noted yet
          obtain ⟨y, hnext⟩ : ∃ y, (y = none ∧ x.sent + m = x.frame.length) ∨
              (y = some { x with sent := x.sent + m, begun := some k.link } ∧
                x.sent + m < x.frame.length) := by
            have hmin : m = min n (x.frame.length - 0) := rfl
            by_cases hall : x.sent + m = x.frame.length
            · exact ⟨none, .inl ⟨rfl, hall⟩⟩
            · exact ⟨_, .inr ⟨rfl, by omega⟩⟩
          obtain ⟨⟨pre, hadv⟩, hframed⟩ := h.grown ({ s.setWriting w y with
            log := Function.update s.log k.link (record (s.log k.link) x m) })
            hx hdest hspares (Nat.pos_of_ne_zero hm) hnext rfl rfl rfl rfl rfl rfl
          refine ⟨h.inv.advanced_failed hx hheld hadv hh hlink hwrite (hlogs.trans (hlog _)) ?_
            hfail, ?_, fun hs w' x' hx' => ?_⟩
          · rw [hwriting]
            exact (Function.update_idem ..).symm
          · unfold LinksFramed
            rw [hlogs, hlog]
            exact hframed
          · exact (ended_writing hwriting w' x' hx').elim id (h.ssl hs w' x')

/-- A block with SSL, on a link that the condition admits. -/
theorem sslTurn_good (h : Good cfg s) (hC : SparesCutLinks cfg s (.sslWrite w answer)) :
    Good cfg (sslTurn cfg s w answer) := by
  unfold sslTurn
  split
  · exact h
  · next x hx =>
    split
    · next hssl =>
      split
      · exact writeFailed_good h hx
      · next k hdest => exact sslWrite_good h hx hdest hssl hC
    · exact h


/-- **One step.** A step that meets the condition leads from good states to good states. -/
theorem txStep_good (h : Good cfg s) {a : TxAction ι} (hC : SparesCutLinks cfg s a) :
    Good cfg (txStep cfg s a) := by
  cases a with
  | setState state => exact h.idle rfl rfl rfl rfl rfl rfl
  | openPrimary ssl fd direction => exact openPrimary_good h ssl fd direction
  | setPrimaryDirection direction => exact setPrimaryDirection_good h direction
  | disconnect => exact disconnect_good h
  | addLink i ssl fd direction => exact addLink_good h i ssl fd direction
  | retireLink i => exact retireLink_good h i
  | sendData payload => exact sendData_good h payload
  | transmitNext => exact transmitNext_good h
  | retireFailed =>
    have hsame : (retireFailed s).log = s.log ∧ (retireFailed s).writing = s.writing := by
      unfold retireFailed
      split
      · exact ⟨rfl, rfl⟩
      · split
        · exact ⟨rfl, rfl⟩
        · split <;> exact ⟨rfl, rfl⟩
    refine h.of_log h.inv.failed_retired hsame.1 fun _ _ hx => .inr ?_
    rw [← hsame.2]
    exact hx
  | sendPacket payload => exact softetherSendPacket_good h payload
  | keepAlive th c data => exact sendKeepalive_good h th c data
  | send w answer => exact sendTurn_good h hC
  | sslWrite w answer => exact sslTurn_good h hC

/-- What `send` leaves on the link that accepts its bytes. -/
theorem acceptBytes_log (s : TxState ι) (w : Option ι) (x : Writing) (k : Sock) (n : ℕ) :
    (acceptBytes s w x k n).log k.link =
      record (s.log k.link) x (min n (x.frame.length - x.sent)) := by
  unfold acceptBytes
  extract_lets m s'
  have hlog : s'.log k.link = record (s.log k.link) x m := Function.update_self ..
  split
  · rw [(writeDone_spec s' w x).2.2.2.2.2, hlog]
  · exact hlog

/-- What `SSL_write` leaves on its link when bytes go out. -/
theorem sslWrite_log {r : ℕ} (hresume : s.resume k.link = some r) (hfits : ¬ x.frame.length < r)
    (hpos : 0 < answer.bytes (x.frame.length - r)) : (sslWrite s w x k answer).log k.link =
      record (s.log k.link) { x with sent := r } (answer.bytes (x.frame.length - r)) := by
  have hlog : ∀ resume, (sealBytes s x k r (answer.bytes (x.frame.length - r)) resume).log k.link =
      record (s.log k.link) { x with sent := r } (answer.bytes (x.frame.length - r)) := by
    intro resume
    rw [sealBytes, if_neg hpos.ne']
    exact Function.update_self ..
  simp only [sslWrite, hresume, if_neg hfits]
  cases answer with
  | written =>
    rw [← hlog 0]
    exact congrFun (writeDone_spec ..).2.2.2.2.2 _
  | failed n =>
    rw [← hlog]
    exact congrFun (writeFailed_spec ..).2.2.2.1 _

/-- A step that keeps the framing meets the condition. -/
theorem sparesCutLinks_of_framed (h : Good cfg s) {a : TxAction ι}
    (hafter : LinksFramed (txStep cfg s a)) : SparesCutLinks cfg s a := by
  cases a with
  | send w answer =>
    cases answer with
    | accepted n =>
      intro x k hx hdest hraw hn
      have hlink : LinkFramed ((sendTurn cfg s w (.accepted n)).log k.link) := hafter k.link
      simp only [sendTurn, hx, hraw, Bool.false_eq_true, if_false, hdest, if_neg hn] at hlink
      rw [acceptBytes_log] at hlink
      exact sparesCutLink_of_framed h hx hlink
    | _ => trivial
  | sslWrite w answer =>
    intro x k r hx hdest hssl hresume hpos
    have hbegun := h.ssl hssl w x hx
    have hlink : LinkFramed ((sslTurn cfg s w answer).log k.link) := hafter k.link
    simp only [sslTurn, hx, hssl, if_true, hdest] at hlink
    have hfits : ¬ x.frame.length < r := by
      intro hlt
      rw [Nat.sub_eq_zero_of_le hlt.le] at hpos
      cases answer <;> simp [SslAnswer.bytes] at hpos
    rw [sslWrite_log hresume hfits hpos] at hlink
    -- a block of which the first bytes are missing starts in its middle
    have hr : r = 0 := by
      rw [record_begin] at hlink
      · exact hlink.starts _ (List.mem_append_right _ (List.mem_singleton_self _))
      · intro e he hid
        have habs := (h.inv.mid k.link e he w x hx hid.symm).1
        rw [hbegun] at habs
        cases habs
    subst hr
    refine ⟨rfl, sparesCutLink_of_framed h hx (m := answer.bytes (x.frame.length - 0)) ?_⟩
    have hsent : { x with sent := 0 } = x := by rw [← (h.inv.writes w x hx).fresh hbegun]
    rw [hsent] at hlink
    exact hlink
  | _ => trivial

/-- **The framing of the links.** In every interleaving of the send paths, every link has
    accepted whole blocks and at most one truncated block, and took nothing after it,
    throughout, exactly when every accepted byte finds its link as the condition says. -/
theorem link_framing_iff (cfg : TxConfig) (as : List (TxAction ι)) :
    Always (txStep cfg) LinksFramed TxState.initial as ↔
      Along (txStep cfg) (SparesCutLinks cfg) TxState.initial as := by
  have hinit : LinksFramed (TxState.initial : TxState ι) := fun _ =>
    ⟨Framed.nil, stopsAtCut_nil, nofun⟩
  apply always_iff_along_of (A := fun _ _ => True) (I := Good cfg)
  · intro s a h _ _ hafter
    exact txStep_good h (sparesCutLinks_of_framed h hafter)
  · intro s a h _ _
    constructor
    · exact sparesCutLinks_of_framed h
    · exact fun hC => (txStep_good h hC).framed
  · exact ⟨TxState.initial_inv, hinit, fun _ _ _ hx => absurd hx nofun⟩
  · exact hinit
  · exact along_true _ _ _

end Threads

/-- A packet is cut short on the primary socket by an interrupted `send`; the next packet goes
    to the same socket. -/
def interruptedRun : List (TxAction Unit) :=
  [.openPrimary 7000 40 tcpDirectionBoth, .setState .connected,
    .sendPacket [1, 2], .send none (.accepted 5), .send none .interrupted,
    .sendPacket [3], .send none (.accepted 9)]

/-- The second packet follows the truncated first one on the stream. -/
theorem link_framing_fails :
    ¬ Always (txStep ⟨false, 2048⟩) LinksFramed TxState.initial interruptedRun := by
  intro h
  have hstops := (always_iff.mp h interruptedRun (List.prefix_refl _) 0).stops
  have hlog : (run (txStep ⟨false, 2048⟩) TxState.initial interruptedRun).log 0 =
      [⟨dataBlock [1, 2], 5, ⟨0, .packet, .primary, ⟨7000, 40, 0, 0⟩⟩, 0⟩,
        ⟨dataBlock [3], 9, ⟨1, .packet, .primary, ⟨7000, 40, 0, 0⟩⟩, 0⟩] := by
    rfl
  rw [hlog] at hstops
  have hcut := (List.pairwise_cons.mp hstops).1 _ (List.mem_singleton_self _)
  revert hcut
  decide

/-- With SSL: the record that a failed `SSL_write` has left is taken for the start of the next
    packet, of which the last byte alone goes out. -/
example : accepted ((run (txStep ⟨true, 2048⟩) (TxState.initial : TxState Unit)
    [.openPrimary 7000 40 tcpDirectionBoth, .setState .connected,
      .sendPacket [1, 2], .sslWrite none (.failed 10),
      .sendPacket [3, 4, 5], .sslWrite none .written]).log 0) = dataBlock [1, 2] ++ [5] := by
  rfl

end SoftEther.Packet

import SoftEther.Http.Response
import SoftEther.Links.Additional
import SoftEther.Pack.Reader

namespace SoftEther.Links

open Lib
open SoftEther.Http
open SoftEther.Pack (CStr packGetInt)

/-!
# What an additional connection has read before it is used

`softether_additional_connect` reads the answer to `connect.cgi`, sends its request and reads the
answer to that. Both answers go through an array of 4096 bytes. A body that does not fit there is
not read at all, and the connection is used all the same.

* `readFittingBody`, `readConnectCgi`, `readAuthResponse` — the two answers;
* `softetherAdditionalConnect` — the call, on the table of the connections;
* `TakesResponse`, `WholeBeforeActive` — a whole answer is taken from the stream, and what is wanted
  of a call;
* `Accepts` — the streams at which the call succeeds, with what it takes of them;
* `BodiesFit` — the bodies that it takes are those that the headers declare;
* `wholeBeforeActive_iff` — all calls on a stream are as wanted exactly when its bodies fit;
* `oversized_answer_admitted` — an answer of which the call reads the header only.
-/

/-! ### The two answers -/

/-- `sizeof(resp)` and `sizeof(auth_resp)`. -/
abbrev respSize : ℕ := 4096

/-- The body of an answer, when it fits behind the header: how much of it is in the array. -/
def readFittingBody (hdrLen contentLength : ℕ) (r : Reading) : Option ℕ × Reading :=
  if 0 < contentLength ∧ hdrLen + contentLength < respSize then
    match readBody hdrLen contentLength contentLength 0 r with
    | (false, r) => (none, r)
    | (true, r) => (some contentLength, r)
  else
    -- a body that does not fit is left in the stream, and no error is returned
    (some 0, r)

/-- The answer to `connect.cgi`. No NUL is stored behind the header, so `strstr` goes on into what
    the array held before. -/
def readConnectCgi (w : Ulong) (resp : ℕ → UInt8) (tls : Tls) : Bool × Tls :=
  match readHeader (respSize - 1) 0 ⟨resp, tls, []⟩ with
  | (none, r) => (false, r.tls)
  | (some hdrLen, r) =>
    match contentLength w (memRead r.buf 0 respSize) with
    | none => (false, r.tls)
    | some len =>
      match readFittingBody hdrLen len r with
      | (none, r) => (false, r.tls)
      | (some _, r) => (true, r.tls)

/-- `"error"`. -/
def errorName : CStr := ⟨ascii "error", by decide⟩

/-- `"direction"`. -/
def directionName : CStr := ⟨ascii "direction", by decide⟩

/-- The PACK of an answer has an error. -/
def carriesError (body : List UInt8) : Bool := (packGetInt body errorName).any (· ≠ 0)

/-- What is made of the PACK: the direction, or nothing when the server returned an error. -/
def parseAnswer (body : List UInt8) : Option ℕ :=
  if 4 ≤ body.length then
    if carriesError body then none
    -- where `pack_get_int` finds nothing, `server_direction` stays what it was
    else some ((packGetInt body directionName).getD tcpDirectionBoth)
  else some tcpDirectionBoth

/-- The answer to the request. -/
def readAuthResponse (w : Ulong) (authResp : ℕ → UInt8) (tls : Tls) : Option ℕ × Tls :=
  match readHeader (respSize - 1) 0 ⟨authResp, tls, []⟩ with
  | (none, r) => (none, r.tls)
  | (some hdrLen, r) =>
    -- `auth_resp[hdr_len] = '\0'`
    let r := r.store hdrLen 0
    match contentLength w (memRead r.buf 0 hdrLen) with
    | none => (none, r.tls)
    | some len =>
      match readFittingBody hdrLen len r with
      | (none, r) => (none, r.tls)
      | (some bodyLn, r) => (parseAnswer (memRead r.buf hdrLen bodyLn), r.tls)

/-! ### The call -/

/-- What a call meets: the two arrays before they are filled, whether the connection is opened and
    the request is sent, and what `ssl_create_client` and `socket_create` return. -/
structure Dial where
  resp : ℕ → UInt8
  authResp : ℕ → UInt8
  opened : Bool
  sent : Bool
  ssl : ℕ
  fd : ℕ

/-- What a call leaves; `requestAt` is the stream when the request is sent. -/
structure Connected (ι : Type) where
  rc : ℤ
  state : Additional ι
  requestAt : Option Tls
  tls : Tls

variable {ι : Type}

/-- `softether_additional_connect`, on a connection with the stream `tls`. -/
def softetherAdditionalConnect (w : Ulong) (d : Dial) (s : Additional ι) (tls : Tls) :
    Connected ι :=
  let s := connectPick s
  match s.connecting with
  | .picked _ =>
    if d.opened then
      match readConnectCgi w d.resp tls with
      | (false, tls) => ⟨-1, connectFail s, none, tls⟩
      | (true, mid) =>
        if d.sent then
          match readAuthResponse w d.authResp mid with
          | (none, tls) => ⟨-1, connectFail s, some mid, tls⟩
          | (some direction, tls) =>
            ⟨0, connectActivate (connectFill s d.ssl d.fd direction), some mid, tls⟩
        else ⟨-1, connectFail s, some mid, mid⟩
    else ⟨-1, connectFail s, none, tls⟩
  | _ => ⟨-1, s, none, tls⟩

/-! ### What is wanted of a call -/

/-- **A whole answer is taken**: the header, and the body of the length that it declares. -/
def TakesResponse (before after body : List UInt8) : Prop :=
  ∃ header, before = header ++ (body ++ after) ∧ IsHeader header ∧ Declares header body.length

/-- **A connection becomes active** only when both answers have been taken from the stream, each of
    them whole, and the second one has no error. What is left begins with the first block. -/
def WholeBeforeActive (s : Additional ι) (input : List UInt8) (res : Connected ι) : Prop :=
  ∀ i, (s.additional i).active = false → (res.state.additional i).active = true →
    ∃ mid body answer, res.requestAt = some mid ∧ TakesResponse input mid.input body ∧
      TakesResponse mid.input res.tls.input answer ∧ carriesError answer = false

/-! ### The condition -/

/-- How much is taken of a declared body. -/
def takenOf (hdrLen contentLength : ℕ) : ℕ :=
  if 0 < contentLength ∧ hdrLen + contentLength < respSize then contentLength else 0

/-- The array with the header of an answer, and behind it what was there before. -/
def arrayText (resp : ℕ → UInt8) (header : List UInt8) : List UInt8 :=
  header ++ memRead resp header.length (respSize - header.length)

/-- **What is taken of one answer**: a header that fits, and what is taken of a body of the length
    `n` that is found in `text`. -/
structure TakesPart (w : Ulong) (text header body : List UInt8) (n : ℕ) : Prop where
  isHeader : IsHeader header
  fits : header.length < respSize
  found : contentLength w text = some n
  taken : body.length = takenOf header.length n

/-- **A stream at which the call succeeds**: what is taken of the two answers, and no error is found
    in the second one. -/
structure Accepts (w : Ulong) (resp : ℕ → UInt8) (input header body : List UInt8) (n : ℕ)
    (header' body' : List UInt8) (n' : ℕ) (rest : List UInt8) : Prop where
  input : input = header ++ (body ++ (header' ++ (body' ++ rest)))
  connectCgi : TakesPart w (arrayText resp header) header body n
  auth : TakesPart w header' header' body' n'
  noError : carriesError body' = false

/-- No body is declared, or it fits in the array behind the header. -/
def Fits (header : List UInt8) (n : ℕ) : Prop := n = 0 ∨ header.length + n < respSize

/-- **The bodies fit**, wherever the call succeeds: for the first answer the array has the length
    that its header declares, or at least one that does not fit where the header declares no body;
    the second body fits behind its header. -/
def BodiesFit (w : Ulong) (resp : ℕ → UInt8) (input : List UInt8) : Prop :=
  ∀ header body n header' body' n' rest,
    Accepts w resp input header body n header' body' n' rest →
      (Fits header n → Declares header n) ∧ (¬ Fits header n → Declares header 0) ∧
        Fits header' n'

/-! ### What is taken of an answer -/

section Answers

variable {w : Ulong}

theorem parseAnswer_eq_none (body : List UInt8) :
    parseAnswer body = none ↔ carriesError body = true := by
  have hshort : ¬ 4 ≤ body.length → carriesError body = false := by
    intro hshort
    have hnone : packGetInt body errorName = none := by
      unfold packGetInt Pack.packGet
      exact if_pos (by omega)
    rw [carriesError, hnone]
    rfl
  unfold parseAnswer
  by_cases hlength : 4 ≤ body.length
  · rw [if_pos hlength]
    split_ifs with herror
    · exact iff_of_true rfl herror
    · exact iff_of_false (by simp) herror
  · rw [if_neg hlength, hshort hlength]
    simp

variable {r r' : Reading} {hdrLen n len : ℕ} {header rest body : List UInt8} {tls mid : Tls}

/-- What the body loop has taken. -/
theorem readFittingBody_taken {k : ℕ} (h : readFittingBody hdrLen n r = (some k, r')) :
    ∃ body : List UInt8, r.tls.input = body ++ r'.tls.input ∧ body.length = k ∧
      k = takenOf hdrLen n ∧ memRead r'.buf hdrLen k = body := by
  unfold readFittingBody at h
  unfold takenOf
  by_cases hfits : 0 < n ∧ hdrLen + n < respSize
  · rw [if_pos hfits] at h
    cases hbody : readBody hdrLen n n 0 r with
    | mk complete r₁ =>
      rw [hbody] at h
      cases complete with
      | false => exact absurd h (by simp)
      | true =>
        obtain ⟨rfl, rfl⟩ : n = k ∧ r₁ = r' := by simpa using h
        obtain ⟨body, hinput, hlength, -, hback⟩ := readBody_complete (Nat.zero_le _) hbody
        exact ⟨body, hinput, by omega, (if_pos hfits).symm, hback⟩
  · rw [if_neg hfits] at h
    obtain ⟨rfl, rfl⟩ : 0 = k ∧ r = r' := by simpa using h
    exact ⟨[], rfl, rfl, (if_neg hfits).symm, rfl⟩

/-- The loop over the header stores nothing behind what it has read. -/
theorem readHeader_beyond {room : ℕ} (h : readHeader room hdrLen r = (some len, r')) :
    hdrLen < len ∧ ∀ j, len ≤ j → r'.buf j = r.buf j := by
  induction room generalizing hdrLen r with
  | zero => exact absurd h (by simp [readHeader])
  | succ room ih =>
    rw [readHeader] at h
    cases hread : r.read hdrLen 1 with
    | mk k r₁ =>
      rw [hread] at h
      cases k with
      | none => exact absurd h (by simp)
      | some k =>
        obtain ⟨bytes, hlength, -, hone, -, -, hbuf, -⟩ := read_some hread
        have hstored : ∀ j, hdrLen + 1 ≤ j → r₁.buf j = r.buf j := by
          intro j hj
          rw [hbuf]
          exact memcpy_outside _ _ _ (.inr (by omega))
        simp only [] at h
        split at h
        · obtain ⟨rfl, rfl⟩ : hdrLen + 1 = len ∧ r₁ = r' := by simpa using h
          exact ⟨Nat.lt_succ_self hdrLen, hstored⟩
        · obtain ⟨hlt, hrest⟩ := ih h
          refine ⟨by omega, fun j hj => ?_⟩
          rw [hrest j hj, hstored j (by omega)]

/-- The array with a header that is found. -/
theorem readHeader_array {buf : ℕ → UInt8}
    (h : readHeader (respSize - 1) 0 ⟨buf, tls, []⟩ = (some len, r)) (hlength : header.length = len)
    (hfits : len < respSize) (hmem : memRead (r.store len 0).buf 0 len = header) :
    memRead r.buf 0 respSize = arrayText buf header := by
  have hfront : memRead r.buf 0 len = header := by
    rw [← hmem, Reading.store]
    exact (memRead_memcpy_before _ _ _ (by omega)).symm
  have hbeyond := (readHeader_beyond h).2
  have hsplit : respSize = len + (respSize - len) := by omega
  rw [arrayText, hlength]
  conv_lhs => rw [hsplit]
  rw [memRead_add, hfront, Nat.zero_add]
  exact congrArg (header ++ ·) (List.map_congr_left fun i _ => hbeyond (len + i) (by omega))

/-- **The answer to `connect.cgi`.** -/
theorem readConnectCgi_taken {resp : ℕ → UInt8} (h : readConnectCgi w resp tls = (true, mid)) :
    ∃ header body n, tls.input = header ++ (body ++ mid.input) ∧
      TakesPart w (arrayText resp header) header body n := by
  unfold readConnectCgi at h
  cases hhead : readHeader (respSize - 1) 0 ⟨resp, tls, []⟩ with
  | mk found r =>
    rw [hhead] at h
    cases found with
    | none => exact absurd h (by simp)
    | some len =>
      obtain ⟨header, hinput, -, hlength, hfits, hheader, hmem, -⟩ := header_found hhead
      have harray := readHeader_array hhead hlength hfits hmem
      simp only [harray] at h
      cases hn : contentLength w (arrayText resp header) with
      | none =>
        rw [hn] at h
        exact absurd h (by simp)
      | some n =>
        rw [hn] at h
        simp only [] at h
        cases hbody : readFittingBody len n r with
        | mk taken r' =>
          rw [hbody] at h
          cases taken with
          | none => exact absurd h (by simp)
          | some k =>
            obtain ⟨body, hrest, hk, htaken, -⟩ := readFittingBody_taken hbody
            obtain rfl : r'.tls = mid := by simpa using h
            refine ⟨header, body, n, by rw [hinput, hrest], hheader, by omega, hn, ?_⟩
            rw [hk, htaken, hlength]

/-- **The answer to the request.** -/
theorem readAuthResponse_taken {authResp : ℕ → UInt8} {direction : ℕ}
    (h : readAuthResponse w authResp mid = (some direction, tls)) :
    ∃ header body n, mid.input = header ++ (body ++ tls.input) ∧
      TakesPart w header header body n ∧ carriesError body = false := by
  unfold readAuthResponse at h
  cases hhead : readHeader (respSize - 1) 0 ⟨authResp, mid, []⟩ with
  | mk found r =>
    rw [hhead] at h
    cases found with
    | none => exact absurd h (by simp)
    | some len =>
      obtain ⟨header, hinput, -, hlength, hfits, hheader, hmem, -⟩ := header_found hhead
      simp only [hmem] at h
      cases hn : contentLength w header with
      | none =>
        rw [hn] at h
        exact absurd h (by simp)
      | some n =>
        rw [hn] at h
        simp only [] at h
        cases hbody : readFittingBody len n (r.store len 0) with
        | mk taken r' =>
          rw [hbody] at h
          cases taken with
          | none => exact absurd h (by simp)
          | some k =>
            obtain ⟨body, hrest, hk, htaken, hback⟩ := readFittingBody_taken hbody
            have hrest' : r.tls.input = body ++ r'.tls.input := hrest
            obtain ⟨hanswer, rfl⟩ := Prod.mk.inj h
            rw [hback] at hanswer
            refine ⟨header, body, n, by rw [hinput, hrest'], ⟨hheader, by omega, hn, ?_⟩, ?_⟩
            · rw [hk, htaken, hlength]
            · -- with an error there is no direction
              by_contra herror
              rw [Bool.not_eq_false, ← parseAnswer_eq_none] at herror
              rw [herror] at hanswer
              cases hanswer

/-! ### What is there is read -/

/-- The loop over the body gets a byte at least for each read. -/
theorem readBody_chunks {fuel k : ℕ} (h : readBody hdrLen len fuel k r = (true, r'))
    (hzero : 0 ∉ r.tls.chunks) : 0 ∉ r'.tls.chunks ∧ r.tls.chunks.length + r'.tls.input.length ≤
      r'.tls.chunks.length + r.tls.input.length := by
  induction fuel generalizing k r with
  | zero =>
    obtain rfl : r = r' := by simpa [readBody] using congrArg Prod.snd h
    exact ⟨hzero, le_refl _⟩
  | succ fuel ih =>
    rw [readBody] at h
    split at h
    · cases hread : r.read (hdrLen + k) (len - k) with
      | mk n r₁ =>
        rw [hread] at h
        cases n with
        | none => exact absurd h (by simp)
        | some n =>
          obtain ⟨bytes, hlength, hpos, -, hinput, hchunks, -, -⟩ := read_some hread
          obtain ⟨hgood, hcount⟩ := ih h (by
            rw [hchunks]
            exact fun h => hzero (List.mem_of_mem_tail h))
          rw [hchunks, List.length_tail] at hcount
          rw [hinput, List.length_append]
          exact ⟨hgood, by omega⟩
    · obtain rfl : r = r' := by simpa using h
      exact ⟨hzero, le_refl _⟩

/-- A body that is there is taken. -/
theorem readFittingBody_takes (hinput : r.tls.input = body ++ rest)
    (hbody : body.length = takenOf hdrLen n) (hzero : 0 ∉ r.tls.chunks)
    (hchunks : body.length ≤ r.tls.chunks.length) :
    ∃ r', readFittingBody hdrLen n r = (some body.length, r') ∧ r'.tls.input = rest ∧
      0 ∉ r'.tls.chunks ∧ r.tls.chunks.length ≤ r'.tls.chunks.length + body.length ∧
        memRead r'.buf hdrLen body.length = body := by
  have hlength := congrArg List.length hinput
  rw [List.length_append] at hlength
  unfold readFittingBody
  unfold takenOf at hbody
  by_cases hfits : 0 < n ∧ hdrLen + n < respSize
  · rw [if_pos hfits] at hbody ⊢
    obtain ⟨r', hcomplete⟩ :=
      readBody_completes hdrLen n n 0 r (by omega) (by omega) (by omega) hzero
    obtain ⟨more, hmore, hsum, -, hback⟩ := readBody_complete (Nat.zero_le _) hcomplete
    obtain ⟨hgood, hcount⟩ := readBody_chunks hcomplete hzero
    -- what is taken has the length of the body, so it is the body
    obtain ⟨rfl, hrest⟩ := List.append_inj (hmore.symm.trans hinput) (by omega)
    rw [hrest] at hcount
    refine ⟨r', ?_, hrest, hgood, by omega, ?_⟩
    · rw [hcomplete, hbody]
    · rw [hbody]
      exact hback
  · rw [if_neg hfits] at hbody ⊢
    obtain rfl := List.eq_nil_of_length_eq_zero hbody
    exact ⟨r, rfl, hinput, hzero, le_refl _, rfl⟩

/-- A header that is there is found. -/
theorem readHeader_finds (buf : ℕ → UInt8) (hinput : tls.input = header ++ rest)
    (hheader : IsHeader header) (hfits : header.length < respSize) (hzero : 0 ∉ tls.chunks)
    (hchunks : header.length ≤ tls.chunks.length) :
    ∃ r, readHeader (respSize - 1) 0 ⟨buf, tls, []⟩ = (some header.length, r) ∧
      r.tls.input = rest ∧ r.tls.chunks = tls.chunks.drop header.length ∧
        memRead (r.store header.length 0).buf 0 header.length = header := by
  cases hhead : readHeader (respSize - 1) 0 ⟨buf, tls, []⟩ with
  | mk found r =>
    cases found with
    | none => exact (header_not_missed hhead hinput hheader hfits hzero hchunks).elim
    | some len =>
      obtain ⟨header', hinput', hdrop, hlength, -, hheader', hmem, -⟩ := header_found hhead
      obtain rfl := hheader.unique hheader' (hinput.symm.trans hinput')
      subst hlength
      rw [hinput] at hinput'
      exact ⟨r, rfl, (List.append_cancel_left hinput').symm, hdrop, hmem⟩

theorem readConnectCgi_takes {resp : ℕ → UInt8} (hinput : tls.input = header ++ (body ++ rest))
    (h : TakesPart w (arrayText resp header) header body n) (hzero : 0 ∉ tls.chunks)
    (hchunks : header.length + body.length ≤ tls.chunks.length) :
    ∃ mid, readConnectCgi w resp tls = (true, mid) ∧ mid.input = rest ∧ 0 ∉ mid.chunks ∧
      tls.chunks.length ≤ mid.chunks.length + (header.length + body.length) := by
  obtain ⟨r, hhead, hrest, hdrop, hmem⟩ :=
    readHeader_finds resp hinput h.isHeader h.fits hzero (by omega)
  have hgood : 0 ∉ r.tls.chunks := by
    rw [hdrop]
    exact fun h => hzero (List.mem_of_mem_drop h)
  have hcount : r.tls.chunks.length = tls.chunks.length - header.length := by
    rw [hdrop, List.length_drop]
  obtain ⟨r', hbody, hend, hgood', hleft, -⟩ :=
    readFittingBody_takes hrest h.taken hgood (by omega)
  have harray := readHeader_array hhead rfl h.fits hmem
  refine ⟨r'.tls, ?_, hend, hgood', by omega⟩
  unfold readConnectCgi
  rw [hhead]
  simp only [harray, h.found]
  rw [hbody]

theorem readAuthResponse_takes (authResp : ℕ → UInt8)
    (hinput : mid.input = header ++ (body ++ rest)) (h : TakesPart w header header body n)
    (herror : carriesError body = false) (hzero : 0 ∉ mid.chunks)
    (hchunks : header.length + body.length ≤ mid.chunks.length) :
    ∃ direction tls, readAuthResponse w authResp mid = (some direction, tls) ∧
      tls.input = rest := by
  obtain ⟨r, hhead, hrest, hdrop, hmem⟩ :=
    readHeader_finds authResp hinput h.isHeader h.fits hzero (by omega)
  have hgood : 0 ∉ (r.store header.length 0).tls.chunks := by
    show 0 ∉ r.tls.chunks
    rw [hdrop]
    exact fun h => hzero (List.mem_of_mem_drop h)
  have hcount : (r.store header.length 0).tls.chunks.length =
      mid.chunks.length - header.length := by
    show r.tls.chunks.length = _
    rw [hdrop, List.length_drop]
  obtain ⟨r', hbody, hend, -, -, hback⟩ :=
    readFittingBody_takes (r := r.store header.length 0) hrest h.taken hgood (by omega)
  obtain ⟨direction, hdirection⟩ : ∃ direction, parseAnswer body = some direction := by
    cases hparse : parseAnswer body with
    | none =>
      rw [parseAnswer_eq_none, herror] at hparse
      cases hparse
    | some direction => exact ⟨direction, rfl⟩
  refine ⟨direction, r'.tls, ?_, hend⟩
  unfold readAuthResponse
  rw [hhead]
  simp only [hmem, h.found]
  rw [hbody]
  simp only [hback, hdirection]

end Answers

/-! ### The call -/

section Call

variable {w : Ulong} {d : Dial} {s : Additional ι} {tls : Tls}

theorem connectPick_additional (s : Additional ι) : (connectPick s).additional = s.additional := by
  unfold connectPick
  cases s.connecting with
  | started => cases firstFree TcpSock.active s.additional <;> rfl
  | idle => rfl
  | picked i => rfl
  | filled i => rfl

theorem connectFail_additional (s : Additional ι) : (connectFail s).additional = s.additional := by
  unfold connectFail
  cases s.connecting <;> rfl

/-- A call that makes a connection active has read both answers. -/
theorem answers_of_active {i : SlotIndex} (hbefore : (s.additional i).active = false)
    (hafter : ((softetherAdditionalConnect w d s tls).state.additional i).active = true) :
    ∃ mid direction left, readConnectCgi w d.resp tls = (true, mid) ∧
      readAuthResponse w d.authResp mid = (some direction, left) ∧
        (softetherAdditionalConnect w d s tls).requestAt = some mid ∧
          (softetherAdditionalConnect w d s tls).tls = left := by
  have hpick : ((connectPick s).additional i).active = false := by
    rw [connectPick_additional]
    exact hbefore
  have hfail : ((connectFail (connectPick s)).additional i).active = false := by
    rw [connectFail_additional]
    exact hpick
  unfold softetherAdditionalConnect at hafter ⊢
  dsimp only at hafter ⊢
  generalize connectPick s = s' at hpick hfail hafter
  -- every way out but one leaves the table as it was
  have hsame : ∀ {P : Prop} {s'' : Additional ι}, (s''.additional i).active = false →
      (s''.additional i).active = true → P := by
    intro P s'' hfalse htrue
    rw [hfalse] at htrue
    cases htrue
  cases hconnecting : s'.connecting with
  | idle =>
    rw [hconnecting] at hafter
    exact hsame hpick hafter
  | started =>
    rw [hconnecting] at hafter
    exact hsame hpick hafter
  | filled j =>
    rw [hconnecting] at hafter
    exact hsame hpick hafter
  | picked j =>
    rw [hconnecting] at hafter
    dsimp only at hafter ⊢
    by_cases hopened : d.opened = true
    · rw [if_pos hopened] at hafter
      rw [if_pos hopened]
      cases hfirst : readConnectCgi w d.resp tls with
      | mk ok mid =>
        rw [hfirst] at hafter
        cases ok with
        | false => exact hsame hfail hafter
        | true =>
          dsimp only at hafter ⊢
          by_cases hsent : d.sent = true
          · rw [if_pos hsent] at hafter
            rw [if_pos hsent]
            cases hsecond : readAuthResponse w d.authResp mid with
            | mk answer left =>
              rw [hsecond] at hafter
              cases answer with
              | none => exact hsame hfail hafter
              | some direction => exact ⟨mid, direction, left, rfl, hsecond, rfl, rfl⟩
          · rw [if_neg hsent] at hafter
            exact hsame hfail hafter
    · rw [if_neg hopened] at hafter
      exact hsame hfail hafter

/-- The connection that a call is about to open, on a table without one. -/
def starting : Additional Unit := { Additional.initial with connecting := .started }

/-- A connection that is opened, and whose request is sent. -/
def openDial (resp : ℕ → UInt8) : Dial := ⟨resp, fun _ => 0, true, true, 0, 0⟩

/-- A call on a stream that it accepts makes the first connection active. -/
theorem active_of_answers {mid left : Tls} {direction : ℕ} (hopened : d.opened = true)
    (hsent : d.sent = true) (hfirst : readConnectCgi w d.resp tls = (true, mid))
    (hsecond : readAuthResponse w d.authResp mid = (some direction, left)) :
    (starting.additional 0).active = false ∧
      ((softetherAdditionalConnect w d starting tls).state.additional 0).active = true ∧
        (softetherAdditionalConnect w d starting tls).requestAt = some mid ∧
          (softetherAdditionalConnect w d starting tls).tls = left := by
  have hpick : connectPick starting = { starting with connecting := .picked 0 } := rfl
  refine ⟨rfl, ?_⟩
  unfold softetherAdditionalConnect
  rw [hpick]
  dsimp only
  rw [if_pos hopened, hfirst]
  dsimp only
  rw [if_pos hsent, hsecond]
  exact ⟨rfl, rfl, rfl⟩

end Call

/-! ### Bodies that fit -/

section BodiesFit

variable {w : Ulong} {resp : ℕ → UInt8} {input : List UInt8}

variable {header : List UInt8}

/-- The length that a header declares is one. -/
theorem declares_unique {n m : ℕ} (hn : Declares header n) (hm : Declares header m) : n = m := by
  rw [← contentLength_iff .u64] at hn hm
  exact Option.some.inj (hn.symm.trans hm)

/-- What is taken, from the length that was found. -/
theorem takenOf_eq (header : List UInt8) (n : ℕ) :
    (Fits header n → takenOf header.length n = n) ∧
      (¬ Fits header n → takenOf header.length n = 0) := by
  unfold Fits takenOf
  constructor
  · intro h
    split_ifs with hfits
    · rfl
    · omega
  · intro h
    exact if_neg fun hfits => h (.inr hfits.2)

/-- A whole answer, whose header is the first one of the stream. -/
theorem TakesResponse.declares {before after body body' : List UInt8}
    (h : TakesResponse before after body') (hbefore : before = header ++ (body ++ after))
    (hheader : IsHeader header) : Declares header body.length := by
  obtain ⟨header', hinput, hheader', hdeclares⟩ := h
  obtain rfl := hheader.unique hheader' (hbefore.symm.trans hinput)
  have hbodies := List.append_cancel_left (hbefore.symm.trans hinput)
  rw [List.append_cancel_right hbodies]
  exact hdeclares

/-- **When all calls are as wanted, the bodies fit.** -/
theorem bodiesFit_of_whole (h : ∀ (s : Additional Unit) (d : Dial) (chunks : List ℕ),
      d.resp = resp →
        WholeBeforeActive s input (softetherAdditionalConnect w d s ⟨input, chunks⟩)) :
    BodiesFit w resp input := by
  intro header body n header' body' n' rest haccepts
  -- every read gets one byte
  obtain ⟨tls, htls⟩ : ∃ tls : Tls, tls = ⟨input, List.replicate input.length 1⟩ := ⟨_, rfl⟩
  have hinput : tls.input = header ++ (body ++ (header' ++ (body' ++ rest))) := by
    rw [htls]
    exact haccepts.input
  have hzero : 0 ∉ tls.chunks := by
    rw [htls]
    simp
  have hcount : tls.chunks.length = input.length := by
    rw [htls]
    exact List.length_replicate
  have hlength := congrArg List.length haccepts.input
  simp only [List.length_append] at hlength
  obtain ⟨mid, hfirst, hmid, hgood, hleft⟩ :=
    readConnectCgi_takes hinput haccepts.connectCgi hzero (by omega)
  obtain ⟨direction, left, hsecond, hrest⟩ :=
    readAuthResponse_takes (fun _ => 0) hmid haccepts.auth haccepts.noError hgood (by omega)
  have hactive := active_of_answers (d := openDial resp) rfl rfl hfirst hsecond
  obtain ⟨hfree, hafter, hrequest, hend⟩ := hactive
  have hcall := h starting (openDial resp) (List.replicate input.length 1) rfl
  rw [← htls] at hcall
  -- the call took both answers whole
  obtain ⟨mid', _, _, hrequest', hwhole, hwhole', -⟩ := hcall 0 hfree hafter
  obtain rfl := Option.some.inj (hrequest.symm.trans hrequest')
  rw [hend] at hwhole'
  have hbefore : input = header ++ (body ++ mid.input) := by
    rw [hmid]
    exact haccepts.input
  have hbefore' : mid.input = header' ++ (body' ++ left.input) := by
    rw [hrest]
    exact hmid
  have hdeclares := hwhole.declares hbefore haccepts.connectCgi.isHeader
  have hdeclares' := hwhole'.declares hbefore' haccepts.auth.isHeader
  rw [haccepts.connectCgi.taken] at hdeclares
  rw [haccepts.auth.taken] at hdeclares'
  have hfound := declares_unique ((contentLength_iff w _ _).mp haccepts.auth.found) hdeclares'
  refine ⟨fun hfits => ?_, fun hfits => ?_, ?_⟩
  · rwa [(takenOf_eq header n).1 hfits] at hdeclares
  · rwa [(takenOf_eq header n).2 hfits] at hdeclares
  · by_contra hfits
    rw [(takenOf_eq header' n').2 hfits] at hfound
    exact hfits (.inl hfound)

/-- **When the bodies fit, every call is as wanted.** -/
theorem wholeBeforeActive_of_bodiesFit (h : BodiesFit w resp input) (s : Additional ι) {d : Dial}
    (hresp : d.resp = resp) (chunks : List ℕ) :
    WholeBeforeActive s input (softetherAdditionalConnect w d s ⟨input, chunks⟩) := by
  intro i hbefore hafter
  obtain ⟨mid, direction, left, hfirst, hsecond, hrequest, hend⟩ :=
    answers_of_active hbefore hafter
  obtain ⟨header, body, n, hinput, hpart⟩ := readConnectCgi_taken hfirst
  obtain ⟨header', body', n', hinput', hpart', herror⟩ := readAuthResponse_taken hsecond
  rw [hresp] at hpart
  have haccepts : Accepts w resp input header body n header' body' n' left.input := by
    refine ⟨?_, hpart, hpart', herror⟩
    rw [← hinput', ← hinput]
  obtain ⟨hfits, hnot, hfits'⟩ := h _ _ _ _ _ _ _ haccepts
  -- what was taken of both bodies is what their headers declare
  refine ⟨mid, body, body', hrequest, ⟨header, hinput, hpart.isHeader, ?_⟩,
    ⟨header', by rw [hend]; exact hinput', hpart'.isHeader, ?_⟩, herror⟩
  · rw [hpart.taken]
    by_cases hfirstFits : Fits header n
    · rw [(takenOf_eq header n).1 hfirstFits]
      exact hfits hfirstFits
    · rw [(takenOf_eq header n).2 hfirstFits]
      exact hnot hfirstFits
  · rw [hpart'.taken, (takenOf_eq header' n').1 hfits']
    exact (contentLength_iff w _ _).mp hpart'.found

/-- **Both answers are read to their ends before the connection is active**, on every call on a
    stream, exactly when the bodies fit. -/
theorem wholeBeforeActive_iff (w : Ulong) (resp : ℕ → UInt8) (input : List UInt8) :
    (∀ (ι : Type) (s : Additional ι) (d : Dial) (chunks : List ℕ), d.resp = resp →
      WholeBeforeActive s input (softetherAdditionalConnect w d s ⟨input, chunks⟩)) ↔
      BodiesFit w resp input := by
  constructor
  · intro h
    exact bodiesFit_of_whole fun s d chunks hresp => h Unit s d chunks hresp
  · intro h ι s d chunks hresp
    exact wholeBeforeActive_of_bodiesFit h s hresp chunks

/-! ### A body that does not fit -/

/-- Behind a NUL nothing of the array counts. -/
theorem contentLength_arrayText (hnul : resp header.length = 0) (hfits : header.length < respSize) :
    contentLength w (arrayText resp header) = contentLength w header := by
  have hsplit : respSize - header.length = 1 + (respSize - header.length - 1) := by omega
  have hone : memRead resp header.length 1 = [0] := by
    rw [← hnul]
    rfl
  have htext : headerText (arrayText resp header) = headerText header := by
    rw [arrayText, hsplit, memRead_add, hone, headerText, List.takeWhile_append]
    split_ifs with hwhole
    · have hself : header.takeWhile (· ≠ 0) = header :=
        (List.takeWhile_prefix _).eq_of_length hwhole
      rw [headerText, hself]
      simp
    · rfl
  rw [contentLength, htext, contentLength]

/-- A header, from its front parts. -/
theorem isHeader_of_inits (hend : headerEnd <:+ header)
    (h : ∀ part ∈ header.inits, headerEnd <:+ part → part = header) : IsHeader header :=
  ⟨hend, fun part hpart => h part ((List.mem_inits part header).mpr hpart)⟩

/-- An answer to `connect.cgi` without a body. -/
def emptyAnswer : List UInt8 := ascii "HTTP/1.1 200 OK\r\n\r\n"

/-- The header of an answer to the request, with a body of 4096 bytes. -/
def oversizedHeader : List UInt8 := ascii "HTTP/1.1 200 OK\r\nContent-Length: 4096\r\n\r\n"

/-- A PACK with the error 8, and zeros up to 4096 bytes. -/
def errorBody : List UInt8 :=
  [0, 0, 0, 1, 0, 0, 0, 6] ++ ascii "error" ++ [0, 0, 0, 0, 0, 0, 0, 1, 0, 0, 0, 8] ++
    List.replicate 4071 0

/-- An answer without a body, then one that is longer than the buffer. -/
def oversizedStream : List UInt8 := emptyAnswer ++ (oversizedHeader ++ errorBody)

theorem not_fits_oversized : ¬ Fits oversizedHeader 4096 := by
  rintro (hnone | hsmall)
  · cases hnone
  · exact absurd hsmall (Nat.not_lt.mpr (Nat.le_add_left 4096 _))

set_option maxRecDepth 8000 in
/-- At this stream the call succeeds, and takes no body. -/
theorem oversizedStream_accepts : Accepts .u64 (fun _ => 0) oversizedStream emptyAnswer [] 0
    oversizedHeader [] 4096 errorBody := by
  have hfound : contentLength .u64 (arrayText (fun _ => 0) emptyAnswer) = some 0 := by
    rw [contentLength_arrayText rfl (by decide)]
    decide
  refine ⟨rfl, ⟨isHeader_of_inits (by decide) (by decide), by decide, hfound, rfl⟩,
    ⟨isHeader_of_inits (by decide) (by decide), by decide, by decide, ?_⟩, rfl⟩
  exact ((takenOf_eq oversizedHeader 4096).2 not_fits_oversized).symm

/-- **A body that does not fit**: the call reads the header of the answer only, and makes the
    connection active with the error in its stream. -/
theorem oversized_answer_admitted :
    carriesError errorBody = true ∧
      ¬ ∀ (ι : Type) (s : Additional ι) (d : Dial) (chunks : List ℕ), d.resp = (fun _ => 0) →
        WholeBeforeActive s oversizedStream
          (softetherAdditionalConnect .u64 d s ⟨oversizedStream, chunks⟩) := by
  refine ⟨by decide +kernel, fun h => ?_⟩
  have hfit : BodiesFit .u64 (fun _ => 0) oversizedStream :=
    bodiesFit_of_whole fun s d chunks hresp => h Unit s d chunks hresp
  exact not_fits_oversized (hfit _ _ _ _ _ _ _ oversizedStream_accepts).2.2

end BodiesFit

end SoftEther.Links

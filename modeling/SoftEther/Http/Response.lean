import Mathlib.Data.List.Infix
import SoftEther.Http.ContentLength
import SoftEther.Lib.RingBuffer

namespace SoftEther.Http

open Lib

/-!
# Reading an HTTP response

`read_http_response` reads the header byte by byte up to the empty line and then exactly as many
bytes of body as the header declares, so that the data that follows stays in the TLS stream.

* `Tls`, `sslRead` — the stream, and how many bytes each read gets;
* `Reading`, `readHeader`, `readBody`, `readHttpResponse` — the function; every store into the
  buffer is recorded;
* `IsHeader`, `Declares` — the header of a stream, and the length it declares;
* `ReadsExactly` — what is wanted of a call;
* `http_response_reader` — every call has it, whatever the stream and the chunks.
-/

/-! ### The stream -/

/-- What is to come on a TLS connection, and for every read the bytes it gets at most; 0 is a read
    that fails. -/
structure Tls where
  input : List UInt8
  chunks : List ℕ

/-- `ssl_read` of at most `n` bytes; `none` is a return value that is not positive. -/
def sslRead (t : Tls) (n : ℕ) : Option (List UInt8) × Tls :=
  match t.chunks with
  | [] => (none, t)
  | chunk :: chunks =>
    let r := min chunk (min n t.input.length)
    if r = 0 then (none, { t with chunks := chunks })
    else (some (t.input.take r), ⟨t.input.drop r, chunks⟩)

/-- The buffer, the stream, and the stores so far with offset and length. -/
structure Reading where
  buf : ℕ → UInt8
  tls : Tls
  stores : List (ℕ × ℕ)

/-- `ssl_read(ssl, buf + off, n)`. -/
def Reading.read (r : Reading) (off n : ℕ) : Option ℕ × Reading :=
  match sslRead r.tls n with
  | (none, tls) => (none, { r with tls := tls })
  | (some bytes, tls) =>
    (some bytes.length, ⟨memcpy r.buf off bytes, tls, r.stores ++ [(off, bytes.length)]⟩)

/-- `buf[off] = c`. -/
def Reading.store (r : Reading) (off : ℕ) (c : UInt8) : Reading :=
  { r with buf := memcpy r.buf off [c], stores := r.stores ++ [(off, 1)] }

/-! ### The function -/

/-- CR LF CR LF. -/
def headerEnd : List UInt8 := [13, 10, 13, 10]

/-- The comparison behind every byte of the header. -/
def endsHeader (buf : ℕ → UInt8) (hdrLen : ℕ) : Bool :=
  hdrLen ≥ 4 && buf (hdrLen - 4) = 13 && buf (hdrLen - 3) = 10 && buf (hdrLen - 2) = 13 &&
    buf (hdrLen - 1) = 10

/-- The loop over the header, with `room` more bytes to read at most: the length of the header. -/
def readHeader : ℕ → ℕ → Reading → Option ℕ × Reading
  | 0, _, r => (none, r)
  | room + 1, hdrLen, r =>
    match r.read hdrLen 1 with
    | (none, r) => (none, r)
    | (some _, r) =>
      if endsHeader r.buf (hdrLen + 1) then (some (hdrLen + 1), r)
      else readHeader room (hdrLen + 1) r

/-- The text from the first occurrence of `needle` on. -/
def strstr (needle : List UInt8) : List UInt8 → Option (List UInt8)
  | [] => if needle = [] then some [] else none
  | c :: s => if needle.isPrefixOf (c :: s) then some (c :: s) else strstr needle s

/-- The bytes of an ASCII literal. -/
def ascii (s : String) : List UInt8 := s.toList.map fun c => UInt8.ofNat c.toNat

/-- The name as servers write it. -/
def contentLengthName : List UInt8 := ascii "Content-Length: "

/-- The name in small letters. -/
def contentLengthLower : List UInt8 := ascii "content-length: "

/-- What stands behind the name of the field in the text of a header. -/
def findContentLength (text : List UInt8) : Option (List UInt8) :=
  ((strstr contentLengthName text).or (strstr contentLengthLower text)).map (·.drop 16)

/-- The C string of a header: what precedes its first NUL. -/
def headerText (header : List UInt8) : List UInt8 := header.takeWhile (· ≠ 0)

/-- The declared length; `none` for a malformed one. -/
def contentLength (w : Ulong) (header : List UInt8) : Option ℕ :=
  match findContentLength (headerText header) with
  | none => some 0
  | some s =>
    let cl := parseContentLength w (some s)
    if cl < 0 then none else some (cl.toNat % 2 ^ 32)

/-- The loop over the body; a read gets a byte at least, so it needs no more fuel than bytes. -/
def readBody (hdrLen contentLength : ℕ) : ℕ → ℕ → Reading → Bool × Reading
  | 0, bodyRead, r => (!decide (bodyRead < contentLength), r)
  | fuel + 1, bodyRead, r =>
    if bodyRead < contentLength then
      match r.read (hdrLen + bodyRead) (contentLength - bodyRead) with
      | (none, r) => (false, r)
      | (some n, r) => readBody hdrLen contentLength fuel (bodyRead + n) r
    else (true, r)

/-- What a call leaves: its return value, `*body_offset`, `*body_len`, buffer and stream. -/
structure HttpResponse where
  rc : ℤ
  bodyOffset : ℕ
  bodyLen : ℕ
  reading : Reading

/-- `read_http_response`, with both outputs 0 before the call. -/
def readHttpResponse (w : Ulong) (bufSize : ℕ) (buf : ℕ → UInt8) (tls : Tls) : HttpResponse :=
  match readHeader (bufSize - 1) 0 ⟨buf, tls, []⟩ with
  | (none, r) => ⟨-1, 0, 0, r⟩
  | (some hdrLen, r) =>
    let r := r.store hdrLen 0
    match contentLength w (memRead r.buf 0 hdrLen) with
    | none => ⟨-1, hdrLen, 0, r⟩
    | some len =>
      if len > 0 then
        if hdrLen + len > bufSize then ⟨-1, hdrLen, 0, r⟩
        else
          match readBody hdrLen len len 0 r with
          | (false, r) => ⟨-1, hdrLen, 0, r⟩
          | (true, r) => ⟨hdrLen + len, hdrLen, len, r⟩
      else ⟨hdrLen, hdrLen, 0, r⟩

/-! ### What a call promises -/

/-- A header ends with an empty line, and no shorter part of it does. -/
def IsHeader (header : List UInt8) : Prop :=
  headerEnd <:+ header ∧ ∀ part, part <+: header → headerEnd <:+ part → part = header

/-- `rest` stands behind the first occurrence of `needle`. -/
def First (needle text rest : List UInt8) : Prop :=
  ∃ front, text = front ++ needle ++ rest ∧
    ∀ front' rest', text = front' ++ needle ++ rest' → front.length ≤ front'.length

/-- The value of a header line, 0 for a blank one. -/
def LineValue (s : List UInt8) (v : ℕ) : Prop := HeaderValue s v ∨ (Blank (some s) ∧ v = 0)

/-- **The declared length**: the value behind the first `Content-Length: `, else behind the first
    `content-length: `, and 0 without either. -/
def Declares (header : List UInt8) (v : ℕ) : Prop :=
  (∃ rest, First contentLengthName (headerText header) rest ∧ LineValue rest v) ∨
  (¬ contentLengthName <:+: headerText header ∧
    ∃ rest, First contentLengthLower (headerText header) rest ∧ LineValue rest v) ∨
  (¬ contentLengthName <:+: headerText header ∧ ¬ contentLengthLower <:+: headerText header ∧ v = 0)

/-- **What is wanted of a call.** A success has taken exactly the header and the declared body from
    the stream, and both are in the buffer; a failure is -1; no store leaves the buffer.  The call
    succeeds when header and body are there and fit, and the reads do not fail. -/
structure ReadsExactly (bufSize : ℕ) (tls : Tls) (res : HttpResponse) : Prop where
  exact : 0 ≤ res.rc → ∃ header body, tls.input = header ++ body ++ res.reading.tls.input ∧
    IsHeader header ∧ Declares header body.length ∧ res.rc = header.length + body.length ∧
    res.bodyOffset = header.length ∧ res.bodyLen = body.length ∧
    memRead res.reading.buf 0 res.bodyOffset = header ∧
    memRead res.reading.buf res.bodyOffset res.bodyLen = body
  fails : res.rc < 0 → res.rc = -1
  bounded : ∀ s ∈ res.reading.stores, s.1 + s.2 ≤ bufSize
  completes : ∀ header body rest, tls.input = header ++ body ++ rest → IsHeader header →
    Declares header body.length → header.length < bufSize →
    header.length + body.length ≤ bufSize → 0 ∉ tls.chunks →
    header.length + body.length ≤ tls.chunks.length → 0 ≤ res.rc

/-! ### The declared length -/

theorem strstr_eq_none_iff (needle text : List UInt8) :
    strstr needle text = none ↔ ¬ needle <:+: text := by
  induction text with
  | nil =>
    rw [strstr, List.infix_nil]
    split <;> simp_all
  | cons c s ih =>
    rw [strstr, List.infix_cons_iff, not_or]
    by_cases hprefix : needle.isPrefixOf (c :: s) = true
    · rw [if_pos hprefix]
      simp [List.isPrefixOf_iff_prefix.mp hprefix]
    · rw [if_neg hprefix, ih]
      have hno : ¬ needle <+: c :: s := fun h => hprefix (List.isPrefixOf_iff_prefix.mpr h)
      exact (and_iff_right hno).symm

variable {text needle rest header body : List UInt8} {r r' : Reading} {off k hdrLen len bufSize : ℕ}
  {tls : Tls}

/-- `strstr` finds the first occurrence. -/
theorem strstr_first {found : List UInt8} (h : strstr needle text = some found) :
    First needle text (found.drop needle.length) := by
  induction text generalizing found with
  | nil =>
    rw [strstr] at h
    split at h
    · rename_i hnil
      subst hnil
      obtain rfl := Option.some.inj h
      exact ⟨[], rfl, fun _ _ _ => Nat.zero_le _⟩
    · exact absurd h (by simp)
  | cons c s ih =>
    rw [strstr] at h
    split at h
    · rename_i hprefix
      obtain rfl := Option.some.inj h
      obtain ⟨rest, hrest⟩ := List.isPrefixOf_iff_prefix.mp hprefix
      refine ⟨[], ?_, fun _ _ _ => Nat.zero_le _⟩
      rw [List.nil_append, ← hrest, List.drop_left]
    · rename_i hprefix
      obtain ⟨front, htext, hfirst⟩ := ih h
      refine ⟨c :: front, by rw [htext]; rfl, fun front' rest' htext' => ?_⟩
      cases front' with
      | nil => exact absurd (List.isPrefixOf_iff_prefix.mpr ⟨rest', htext'.symm⟩) hprefix
      | cons d front' =>
        rw [List.cons_append, List.cons_append, List.cons.injEq] at htext'
        exact Nat.succ_le_succ (hfirst front' rest' htext'.2)

theorem First.unique {rest' : List UInt8} (h : First needle text rest)
    (h' : First needle text rest') : rest = rest' := by
  obtain ⟨front, htext, hfirst⟩ := h
  obtain ⟨front', htext', hfirst'⟩ := h'
  have hlen := Nat.le_antisymm (hfirst front' rest' htext') (hfirst' front rest htext)
  rw [htext, List.append_assoc, List.append_assoc] at htext'
  have hback := (List.append_inj htext' hlen).2
  exact List.append_cancel_left hback

theorem First.infix (h : First needle text rest) : needle <:+: text := by
  obtain ⟨front, htext, -⟩ := h
  exact ⟨front, rest, htext.symm⟩

theorem lineValue_iff (w : Ulong) (s : List UInt8) (v : ℕ) :
    LineValue s v ↔ parseContentLength w (some s) = v := by
  rw [(parsesContentLength w (some s)).value v, LineValue]
  simp

theorem LineValue.le {s : List UInt8} {v : ℕ} (h : LineValue s v) : v ≤ N11_MAX_CONTENT_LENGTH := by
  rcases h with ⟨_, _, _, _, _, _, _, _, _, hmax⟩ | ⟨-, rfl⟩
  · exact hmax
  · exact Nat.zero_le _

/-- The conversions to `uint32_t` change nothing. -/
theorem lineLength_iff (w : Ulong) (s : List UInt8) (v : ℕ) :
    (if parseContentLength w (some s) < 0 then none
      else some ((parseContentLength w (some s)).toNat % 2 ^ 32)) = some v ↔ LineValue s v := by
  constructor
  · intro h
    split at h
    · exact absurd h (by simp)
    · rename_i hpos
      obtain ⟨n, hn⟩ := Int.eq_ofNat_of_zero_le (Int.not_lt.mp hpos)
      have hline := (lineValue_iff w s n).mpr hn
      have hmax := hline.le
      simp only [N11_MAX_CONTENT_LENGTH] at hmax
      rw [hn, Int.toNat_natCast, Nat.mod_eq_of_lt (by omega)] at h
      obtain rfl := Option.some.inj h
      exact hline
  · intro h
    have hmax := h.le
    rw [lineValue_iff w] at h
    rw [h, if_neg (by omega), Int.toNat_natCast,
      Nat.mod_eq_of_lt (by simp only [N11_MAX_CONTENT_LENGTH] at hmax; omega)]

theorem contentLength_iff (w : Ulong) (header : List UInt8) (v : ℕ) :
    contentLength w header = some v ↔ Declares header v := by
  have hname : contentLengthName.length = 16 := by decide
  have hlower : contentLengthLower.length = 16 := by decide
  unfold contentLength findContentLength Declares
  cases hfound : strstr contentLengthName (headerText header) with
  | some found =>
    have hfirst := strstr_first hfound
    rw [hname] at hfirst
    simp only [Option.some_or, Option.map_some, lineLength_iff]
    constructor
    · intro h
      exact .inl ⟨_, hfirst, h⟩
    · rintro (⟨rest, hrest, h⟩ | ⟨hno, -⟩ | ⟨hno, -⟩)
      · rw [hfirst.unique hrest]
        exact h
      · exact absurd hfirst.infix hno
      · exact absurd hfirst.infix hno
  | none =>
    have hno := (strstr_eq_none_iff _ _).mp hfound
    cases hfound' : strstr contentLengthLower (headerText header) with
    | some found =>
      have hfirst := strstr_first hfound'
      rw [hlower] at hfirst
      simp only [Option.none_or, Option.map_some, lineLength_iff]
      constructor
      · intro h
        exact .inr (.inl ⟨hno, _, hfirst, h⟩)
      · rintro (⟨rest, hrest, -⟩ | ⟨-, rest, hrest, h⟩ | ⟨-, hno', -⟩)
        · exact absurd hrest.infix hno
        · rw [hfirst.unique hrest]
          exact h
        · exact absurd hfirst.infix hno'
    | none =>
      have hno' := (strstr_eq_none_iff _ _).mp hfound'
      simp only [Option.none_or, Option.map_none, Option.some.injEq]
      constructor
      · intro h
        exact .inr (.inr ⟨hno, hno', h.symm⟩)
      · rintro (⟨rest, hrest, -⟩ | ⟨-, rest, hrest, -⟩ | ⟨-, -, h⟩)
        · exact absurd hrest.infix hno
        · exact absurd hrest.infix hno'
        · exact h.symm

/-! ### One read -/

/-- What a read that gets bytes does. -/
theorem read_some {n : ℕ} (h : r.read off n = (some k, r')) :
    ∃ bytes : List UInt8, bytes.length = k ∧ 0 < k ∧ k ≤ n ∧
      r.tls.input = bytes ++ r'.tls.input ∧ r'.tls.chunks = r.tls.chunks.tail ∧
      r'.buf = memcpy r.buf off bytes ∧ r'.stores = r.stores ++ [(off, k)] := by
  unfold Reading.read sslRead at h
  cases hchunks : r.tls.chunks with
  | nil =>
    rw [hchunks] at h
    exact absurd h (by simp)
  | cons chunk chunks =>
    rw [hchunks] at h
    simp only [] at h
    by_cases hzero : min chunk (min n r.tls.input.length) = 0
    · rw [if_pos hzero] at h
      exact absurd h (by simp)
    · rw [if_neg hzero, Prod.mk.injEq, Option.some.injEq] at h
      obtain ⟨rfl, rfl⟩ := h
      refine ⟨_, rfl, ?_, ?_, (List.take_append_drop _ _).symm, rfl, rfl, rfl⟩
      · rw [List.length_take]
        omega
      · rw [List.length_take]
        omega

theorem read_none {n : ℕ} (h : r.read off n = (none, r')) : r'.stores = r.stores := by
  unfold Reading.read at h
  split at h
  · rw [← (Prod.mk.inj h).2]
  · exact absurd h (by simp)

/-- A read that does not fail, where there is something to read. -/
theorem read_answers (off n : ℕ) (hchunks : 0 < r.tls.chunks.length) (hzero : 0 ∉ r.tls.chunks)
    (hn : 0 < n) (hinput : 0 < r.tls.input.length) : ∃ k r', r.read off n = (some k, r') := by
  unfold Reading.read sslRead
  cases hlist : r.tls.chunks with
  | nil =>
    rw [hlist] at hchunks
    exact absurd hchunks (by simp)
  | cons chunk chunks =>
    have hchunk : chunk ≠ 0 := by
      rintro rfl
      exact hzero (by rw [hlist]; exact List.mem_cons_self)
    simp only []
    rw [if_neg (by omega)]
    exact ⟨_, _, rfl⟩

/-! ### The header -/

/-- The comparison in the buffer is the end of what has been read. -/
theorem endsHeader_iff (buf : ℕ → UInt8) (n : ℕ) :
    endsHeader buf n = true ↔ headerEnd <:+ memRead buf 0 n := by
  by_cases hn : n < 4
  · refine iff_of_false (by simp [endsHeader]; omega) fun h => ?_
    have hlen := h.length_le
    rw [memRead_length] at hlen
    simp only [headerEnd, List.length_cons, List.length_nil] at hlen
    omega
  · obtain ⟨m, rfl⟩ : ∃ m, n = m + 4 := ⟨n - 4, by omega⟩
    have hlast : memRead buf (0 + m) 4 = [buf m, buf (m + 1), buf (m + 2), buf (m + 3)] := by
      simp [memRead, List.range_succ]
    rw [List.suffix_iff_eq_drop, memRead_length, memRead_add, hlast,
      List.drop_left' (by rw [memRead_length]; simp [headerEnd])]
    rw [eq_comm (a := headerEnd)]
    simp [endsHeader, headerEnd, and_assoc]

/-- One byte more of the header. -/
theorem read_byte (h : r.read hdrLen 1 = (some k, r')) :
    ∃ b, r.tls.input = b :: r'.tls.input ∧ r'.tls.chunks = r.tls.chunks.tail ∧
      memRead r'.buf 0 (hdrLen + 1) = memRead r.buf 0 hdrLen ++ [b] ∧
      r'.stores = r.stores ++ [(hdrLen, 1)] := by
  obtain ⟨bytes, hlen, hpos, hle, hinput, hchunks, hbuf, hstores⟩ := read_some h
  have hone : k = 1 := by omega
  subst hone
  obtain ⟨b, rfl⟩ := List.length_eq_one_iff.mp hlen
  refine ⟨b, hinput, hchunks, ?_, hstores⟩
  have happend := memRead_memcpy_append r.buf 0 hdrLen [b]
  rw [Nat.zero_add] at happend
  rw [hbuf]
  exact happend

/-- No part of a text is the end of a header. -/
def NoEnd (text : List UInt8) : Prop := ∀ part, part <+: text → ¬ headerEnd <:+ part

theorem NoEnd.snoc {b : UInt8} (h : NoEnd text) (hb : ¬ headerEnd <:+ text ++ [b]) :
    NoEnd (text ++ [b]) := by
  intro part hpart
  rcases List.prefix_concat_iff.mp hpart with rfl | hprefix
  · exact hb
  · exact h part hprefix

theorem isHeader_snoc {b : UInt8} (h : NoEnd text) (hb : headerEnd <:+ text ++ [b]) :
    IsHeader (text ++ [b]) := by
  refine ⟨hb, fun part hpart hend => ?_⟩
  rcases List.prefix_concat_iff.mp hpart with rfl | hprefix
  · rfl
  · exact absurd hend (h part hprefix)

/-- What the loop over the header has read when it finds the end. -/
theorem readHeader_found {room : ℕ} (hnoEnd : NoEnd (memRead r.buf 0 hdrLen))
    (h : readHeader room hdrLen r = (some len, r')) :
    ∃ more : List UInt8, r.tls.input = more ++ r'.tls.input ∧
      r'.tls.chunks = r.tls.chunks.drop more.length ∧ len = hdrLen + more.length ∧
      len ≤ hdrLen + room ∧ memRead r'.buf 0 len = memRead r.buf 0 hdrLen ++ more ∧
      IsHeader (memRead r'.buf 0 len) := by
  induction room generalizing hdrLen r with
  | zero => exact absurd h (by simp [readHeader])
  | succ room ih =>
    rw [readHeader] at h
    cases hread : r.read hdrLen 1 with
    | mk k r₁ =>
      rw [hread] at h
      cases k with
      | none => exact absurd h (by simp)
      | some k =>
        obtain ⟨b, hinput, hchunks, hmem, -⟩ := read_byte hread
        simp only [] at h
        split at h
        · rename_i hends
          rw [endsHeader_iff, hmem] at hends
          obtain ⟨rfl, rfl⟩ : hdrLen + 1 = len ∧ r₁ = r' := by simpa using h
          refine ⟨[b], hinput, ?_, rfl, by omega, hmem, ?_⟩
          · rw [hchunks, List.length_singleton, List.drop_one]
          · rw [hmem]
            exact isHeader_snoc hnoEnd hends
        · rename_i hends
          rw [endsHeader_iff] at hends
          have hnext : NoEnd (memRead r₁.buf 0 (hdrLen + 1)) := by
            rw [hmem] at hends ⊢
            exact hnoEnd.snoc hends
          obtain ⟨more, hmore, hdrop, hlen, hroom, hall, hheader⟩ := ih hnext h
          refine ⟨b :: more, ?_, ?_, ?_, by omega, ?_, hheader⟩
          · rw [hinput, hmore]
            rfl
          · rw [hdrop, hchunks, List.length_cons, ← List.drop_one, List.drop_drop, Nat.add_comm]
          · rw [List.length_cons]
            omega
          · rw [hall, hmem, List.append_assoc]
            rfl

/-- The loop over the header stores in the room it is given. -/
theorem readHeader_stores (room hdrLen : ℕ) (r : Reading) :
    ∀ s ∈ (readHeader room hdrLen r).2.stores,
      s ∈ r.stores ∨ s.1 + s.2 ≤ hdrLen + room := by
  induction room generalizing hdrLen r with
  | zero => exact fun s hs => .inl hs
  | succ room ih =>
    rw [readHeader]
    cases hread : r.read hdrLen 1 with
    | mk k r₁ =>
      cases k with
      | none =>
        intro s hs
        exact .inl (read_none hread ▸ hs)
      | some k =>
        obtain ⟨b, -, -, -, hstores⟩ := read_byte hread
        have hnew : ∀ s ∈ r₁.stores, s ∈ r.stores ∨ s.1 + s.2 ≤ hdrLen + (room + 1) := by
          intro s hs
          rw [hstores] at hs
          rcases List.mem_append.mp hs with hold | hone
          · exact .inl hold
          · rw [List.mem_singleton.mp hone]
            exact .inr (by omega)
        simp only []
        split
        · exact hnew
        · intro s hs
          rcases ih (hdrLen + 1) r₁ s hs with hold | hin
          · exact hnew s hold
          · exact .inr (by omega)

/-- The loop finds a header that is there, when its reads do not fail. -/
theorem readHeader_completes {room : ℕ} {more : List UInt8} (hinput : r.tls.input = more ++ rest)
    (hne : more ≠ []) (hheader : headerEnd <:+ memRead r.buf 0 hdrLen ++ more)
    (hroom : more.length ≤ room) (hchunks : more.length ≤ r.tls.chunks.length)
    (hzero : 0 ∉ r.tls.chunks) : ∃ len r', readHeader room hdrLen r = (some len, r') := by
  induction room generalizing hdrLen r more with
  | zero => exact absurd (List.eq_nil_of_length_eq_zero (Nat.le_zero.mp hroom)) hne
  | succ room ih =>
    cases more with
    | nil => exact absurd rfl hne
    | cons b more =>
      rw [List.length_cons] at hroom hchunks
      obtain ⟨k, r₁, hread⟩ := read_answers hdrLen 1 (by omega) hzero (by omega)
        (by rw [hinput]; simp)
      obtain ⟨b', hinput', hchunks', hmem, -⟩ := read_byte hread
      rw [hinput, List.cons_append, List.cons.injEq] at hinput'
      obtain ⟨rfl, hinput'⟩ := hinput'
      rw [readHeader, hread]
      simp only []
      split
      · exact ⟨_, _, rfl⟩
      · rename_i hends
        rw [endsHeader_iff, hmem] at hends
        have hmore : more ≠ [] := by
          rintro rfl
          exact hends hheader
        refine ih hinput'.symm hmore ?_ (by omega) ?_ ?_
        · rw [hmem, List.append_assoc]
          exact hheader
        · rw [hchunks', List.length_tail]
          omega
        · rw [hchunks']
          exact fun h => hzero (List.mem_of_mem_tail h)

/-! ### The body -/

/-- What the loop over the body has read when it is complete. -/
theorem readBody_complete {fuel : ℕ} (hk : k ≤ len)
    (h : readBody hdrLen len fuel k r = (true, r')) :
    ∃ more : List UInt8, r.tls.input = more ++ r'.tls.input ∧ k + more.length = len ∧
      memRead r'.buf 0 hdrLen = memRead r.buf 0 hdrLen ∧
      memRead r'.buf hdrLen len = memRead r.buf hdrLen k ++ more := by
  induction fuel generalizing k r with
  | zero =>
    simp only [readBody, Prod.mk.injEq, Bool.not_eq_true', decide_eq_false_iff_not] at h
    obtain ⟨hdone, rfl⟩ := h
    obtain rfl : k = len := by omega
    exact ⟨[], rfl, rfl, rfl, (List.append_nil _).symm⟩
  | succ fuel ih =>
    rw [readBody] at h
    split at h
    · cases hread : r.read (hdrLen + k) (len - k) with
      | mk n r₁ =>
        rw [hread] at h
        cases n with
        | none => exact absurd h (by simp)
        | some n =>
          obtain ⟨bytes, rfl, -, hle, hinput, -, hbuf, -⟩ := read_some hread
          obtain ⟨more, hmore, hsum, hhead, hbody⟩ := ih (by omega) h
          refine ⟨bytes ++ more, ?_, ?_, ?_, ?_⟩
          · rw [hinput, hmore, List.append_assoc]
          · rw [List.length_append]
            omega
          · rw [hhead, hbuf]
            exact memRead_memcpy_before _ _ _ (by omega)
          · rw [hbody, hbuf, memRead_memcpy_append, List.append_assoc]
    · obtain rfl : r = r' := by simpa using h
      obtain rfl : k = len := by omega
      exact ⟨[], rfl, rfl, rfl, (List.append_nil _).symm⟩

/-- The loop over the body stores in front of its end. -/
theorem readBody_stores (hdrLen len fuel k : ℕ) (r : Reading) :
    ∀ s ∈ (readBody hdrLen len fuel k r).2.stores, s ∈ r.stores ∨ s.1 + s.2 ≤ hdrLen + len := by
  induction fuel generalizing k r with
  | zero => exact fun s hs => .inl hs
  | succ fuel ih =>
    rw [readBody]
    split
    · cases hread : r.read (hdrLen + k) (len - k) with
      | mk n r₁ =>
        cases n with
        | none =>
          intro s hs
          exact .inl (read_none hread ▸ hs)
        | some n =>
          obtain ⟨bytes, -, -, hle, -, -, -, hstores⟩ := read_some hread
          intro s hs
          rcases ih (k + n) r₁ s hs with hold | hin
          · rw [hstores] at hold
            rcases List.mem_append.mp hold with hold | hone
            · exact .inl hold
            · rw [List.mem_singleton.mp hone]
              exact .inr (by omega)
          · exact .inr hin
    · exact fun s hs => .inl hs

/-- The loop completes a body that is there, when its reads do not fail. -/
theorem readBody_completes (hdrLen len fuel k : ℕ) (r : Reading) (hfuel : len ≤ k + fuel)
    (hinput : len ≤ k + r.tls.input.length) (hchunks : len ≤ k + r.tls.chunks.length)
    (hzero : 0 ∉ r.tls.chunks) : ∃ r', readBody hdrLen len fuel k r = (true, r') := by
  induction fuel generalizing k r with
  | zero =>
    have hdone : ¬ k < len := by omega
    exact ⟨r, by simp [readBody, hdone]⟩
  | succ fuel ih =>
    rw [readBody]
    split
    · obtain ⟨n, r₁, hread⟩ := read_answers (hdrLen + k) (len - k) (by omega) hzero (by omega)
        (by omega)
      obtain ⟨bytes, hlen, hpos, hle, hsplit, htail, -, -⟩ := read_some hread
      rw [hread]
      have hlength : r.tls.input.length = n + r₁.tls.input.length := by
        rw [hsplit, List.length_append, hlen]
      refine ih (k + n) r₁ (by omega) (by omega) ?_ ?_
      · rw [htail, List.length_tail]
        omega
      · rw [htail]
        exact fun h => hzero (List.mem_of_mem_tail h)
    · exact ⟨r, rfl⟩

/-! ### The call -/

/-- Two headers of one stream are the same. -/
theorem IsHeader.unique {header' rest' : List UInt8} (h : IsHeader header) (h' : IsHeader header')
    (heq : header ++ rest = header' ++ rest') : header = header' := by
  rcases List.prefix_or_prefix_of_prefix (List.prefix_append header rest)
    (heq ▸ List.prefix_append header' rest') with hprefix | hprefix
  · exact h'.2 header hprefix h.1
  · exact (h.2 header' hprefix h'.1).symm

theorem noEnd_nil : NoEnd [] := by
  intro part hpart hend
  rw [List.prefix_nil.mp hpart] at hend
  exact absurd hend.length_le (by simp [headerEnd])

theorem IsHeader.length (h : IsHeader header) : 4 ≤ header.length :=
  h.1.length_le

/-- What the call has when the header is found: the header in the buffer, a NUL behind it, and the
    rest in the stream. -/
theorem header_found {buf : ℕ → UInt8}
    (h : readHeader (bufSize - 1) 0 ⟨buf, tls, []⟩ = (some len, r)) :
    ∃ header, tls.input = header ++ r.tls.input ∧ r.tls.chunks = tls.chunks.drop header.length ∧
      header.length = len ∧ len < bufSize ∧ IsHeader header ∧
      memRead (r.store len 0).buf 0 len = header ∧
      ∀ s ∈ (r.store len 0).stores, s.1 + s.2 ≤ bufSize := by
  have hnoEnd : NoEnd (memRead buf 0 0) := noEnd_nil
  obtain ⟨more, hinput, hchunks, hlen, hroom, hmem, hheader⟩ :=
    readHeader_found (r := ⟨buf, tls, []⟩) hnoEnd h
  have hstores := readHeader_stores (bufSize - 1) 0 ⟨buf, tls, []⟩
  rw [h] at hstores
  have hmore : memRead r.buf 0 len = more := hmem
  rw [hmore] at hheader
  have hfour := hheader.length
  refine ⟨more, hinput, hchunks, by omega, by omega, hheader, ?_, ?_⟩
  · rw [Reading.store, memRead_memcpy_before _ _ _ (by omega)]
    exact hmore
  · intro s hs
    rcases List.mem_append.mp hs with hold | hnul
    · rcases hstores s hold with hnil | hin
      · exact absurd hnil List.not_mem_nil
      · omega
    · rw [List.mem_singleton.mp hnul]
      omega

/-- A call that fails keeps its promises when it had to fail. -/
theorem failed_keeps (hstores : ∀ s ∈ r.stores, s.1 + s.2 ≤ bufSize)
    (hmust : ∀ header body rest, tls.input = header ++ body ++ rest → IsHeader header →
      Declares header body.length → header.length < bufSize →
      header.length + body.length ≤ bufSize → 0 ∉ tls.chunks →
      header.length + body.length ≤ tls.chunks.length → False) :
    ReadsExactly bufSize tls ⟨-1, off, 0, r⟩ where
  exact := fun h => absurd h (by simp)
  fails := fun _ => rfl
  bounded := hstores
  completes := fun header body rest h1 h2 h3 h4 h5 h6 h7 =>
    (hmust header body rest h1 h2 h3 h4 h5 h6 h7).elim

/-- A call that succeeds keeps them when header and body are taken and in the buffer. -/
theorem succeeded_keeps {rc : ℤ} (hstores : ∀ s ∈ r.stores, s.1 + s.2 ≤ bufSize)
    (hinput : tls.input = header ++ (body ++ r.tls.input)) (hheader : IsHeader header)
    (hdeclares : Declares header body.length) (hrc : rc = header.length + body.length)
    (hfront : memRead r.buf 0 header.length = header)
    (hback : memRead r.buf header.length body.length = body) :
    ReadsExactly bufSize tls ⟨rc, header.length, body.length, r⟩ where
  exact := fun _ => ⟨header, body, by rw [List.append_assoc]; exact hinput, hheader, hdeclares, hrc,
    rfl, rfl, hfront, hback⟩
  fails := fun h => by
    have hneg : rc < 0 := h
    omega
  bounded := hstores
  completes := fun _ _ _ _ _ _ _ _ _ _ => by
    show 0 ≤ rc
    omega

/-- The loop over the header does not miss a header that fits. -/
theorem header_not_missed {buf : ℕ → UInt8}
    (h : readHeader (bufSize - 1) 0 ⟨buf, tls, []⟩ = (none, r))
    (hinput : tls.input = header ++ rest) (hheader : IsHeader header)
    (hfits : header.length < bufSize) (hzero : 0 ∉ tls.chunks)
    (hchunks : header.length ≤ tls.chunks.length) : False := by
  have hne : header ≠ [] := by
    rintro rfl
    exact absurd hheader.length (by simp)
  have hroom : header.length ≤ bufSize - 1 := by omega
  obtain ⟨len, r', hfound⟩ : ∃ len r',
      readHeader (bufSize - 1) 0 ⟨buf, tls, []⟩ = (some len, r') :=
    readHeader_completes hinput hne hheader.1 hroom hchunks hzero
  rw [h] at hfound
  exact absurd hfound (by simp)

/-- The loop over the body does not miss a body that is there. -/
theorem body_not_missed (h : readBody header.length body.length body.length 0 r = (false, r'))
    (hinput : r.tls.input = body ++ rest) (hdrop : r.tls.chunks = tls.chunks.drop header.length)
    (hzero : 0 ∉ tls.chunks) (hchunks : header.length + body.length ≤ tls.chunks.length) :
    False := by
  have hlength : body.length ≤ 0 + r.tls.input.length := by
    rw [hinput, List.length_append]
    omega
  have hreads : body.length ≤ 0 + r.tls.chunks.length := by
    rw [hdrop, List.length_drop]
    omega
  have hgood : 0 ∉ r.tls.chunks := by
    rw [hdrop]
    exact fun h => hzero (List.mem_of_mem_drop h)
  obtain ⟨r'', hcomplete⟩ :=
    readBody_completes header.length body.length body.length 0 r (by omega) hlength hreads hgood
  rw [h] at hcomplete
  exact absurd hcomplete (by simp)

/-- A response that could be read has the header that was found, and the length it declares. -/
theorem same_response (w : Ulong) {header' : List UInt8} {tls' : Tls}
    (hinput : tls.input = header ++ tls'.input) (hheader : IsHeader header)
    (hinput' : tls.input = header' ++ body ++ rest) (hheader' : IsHeader header')
    (hdeclares : Declares header' body.length) :
    header' = header ∧ contentLength w header = some body.length ∧ tls'.input = body ++ rest := by
  rw [List.append_assoc] at hinput'
  obtain rfl := hheader.unique hheader' (hinput.symm.trans hinput')
  rw [hinput'] at hinput
  exact ⟨rfl, (contentLength_iff w _ _).mpr hdeclares, (List.append_cancel_left hinput).symm⟩

theorem readsExactly (w : Ulong) (bufSize : ℕ) (buf : ℕ → UInt8) (tls : Tls) :
    ReadsExactly bufSize tls (readHttpResponse w bufSize buf tls) := by
  -- one case for each way to give up: header, length, room, body
  unfold readHttpResponse
  cases hhead : readHeader (bufSize - 1) 0 ⟨buf, tls, []⟩ with
  | mk found r =>
    cases found with
    | none =>
      have hstores := readHeader_stores (bufSize - 1) 0 ⟨buf, tls, []⟩
      rw [hhead] at hstores
      refine failed_keeps (fun s hs => ?_) fun header body rest h1 h2 _ hfits _ hzero hchunks => ?_
      · rcases hstores s hs with hnil | hin
        · exact absurd hnil List.not_mem_nil
        · omega
      · rw [List.append_assoc] at h1
        exact header_not_missed hhead h1 h2 hfits hzero (by omega)
    | some len =>
      obtain ⟨header, hinput, hdrop, rfl, hroom, hheader, hmem, hstores⟩ := header_found hhead
      simp only [hmem]
      cases hlen : contentLength w header with
      | none =>
        refine failed_keeps hstores fun header' body rest h1 h2 h3 _ _ _ _ => ?_
        have hcontent := (same_response w hinput hheader h1 h2 h3).2.1
        rw [hlen] at hcontent
        exact absurd hcontent (by simp)
      | some n =>
        have hdeclares := (contentLength_iff w header n).mp hlen
        simp only []
        by_cases hn : n > 0
        · rw [if_pos hn]
          by_cases hbig : header.length + n > bufSize
          · rw [if_pos hbig]
            refine failed_keeps hstores fun header' body rest h1 h2 h3 _ hfits _ _ => ?_
            obtain ⟨rfl, hcontent, -⟩ := same_response w hinput hheader h1 h2 h3
            rw [hlen, Option.some.injEq] at hcontent
            omega
          · rw [if_neg hbig]
            have hbodyStores := readBody_stores header.length n n 0 (r.store header.length 0)
            cases hbody : readBody header.length n n 0 (r.store header.length 0) with
            | mk ok r' =>
              rw [hbody] at hbodyStores
              have hall : ∀ s ∈ r'.stores, s.1 + s.2 ≤ bufSize := by
                intro s hs
                rcases hbodyStores s hs with hold | hin
                · exact hstores s hold
                · omega
              cases ok with
              | false =>
                refine failed_keeps hall fun header' body rest h1 h2 h3 _ _ hzero hchunks => ?_
                obtain ⟨rfl, hcontent, hrest⟩ := same_response w hinput hheader h1 h2 h3
                rw [hlen, Option.some.injEq] at hcontent
                subst hcontent
                exact body_not_missed hbody hrest hdrop hzero hchunks
              | true =>
                obtain ⟨body, hbodyInput, hsum, hfront, hback⟩ :=
                  readBody_complete (Nat.zero_le _) hbody
                rw [Nat.zero_add] at hsum
                subst hsum
                have hwhole : tls.input = header ++ (body ++ r'.tls.input) :=
                  hbodyInput ▸ hinput
                exact succeeded_keeps hall hwhole hheader hdeclares rfl (hfront.trans hmem) hback
        · -- without a body the header alone is the response
          rw [if_neg hn]
          obtain rfl : n = 0 := by omega
          have hempty : Declares header ([] : List UInt8).length := hdeclares
          exact succeeded_keeps hstores hinput hheader hempty (by simp) hmem rfl

/-! ### The reader -/

/-- **Blank values.** A blank value is neither a header value nor rejected: it counts as 0. -/
theorem blank_value_not_rejected :
    ¬ ∀ (w : Ulong) (s : List UInt8),
      (∃ v : ℕ, HeaderValue s v ∧ parseContentLength w (some s) = v) ∨
        ((∀ v, ¬ HeaderValue s v) ∧ parseContentLength w (some s) = -1) := by
  intro h
  have hblank : Blank (some [32]) := by
    rw [blank_some_iff]
    decide
  rcases h .u32 [32] with ⟨v, hv, -⟩ | ⟨-, hrejected⟩
  · exact hv.not_blank hblank
  · exact absurd hrejected (by decide)

/-- **The reader.** `parse_content_length` returns the value of a header value, 0 for a blank one
    and -1 otherwise; `read_http_response` takes the header and the declared body from the stream,
    and nothing that follows. -/
theorem http_response_reader :
    (∀ (w : Ulong) (s : Option (List UInt8)), ParsesContentLength w s) ∧
      ∀ (w : Ulong) (bufSize : ℕ) (buf : ℕ → UInt8) (tls : Tls),
        ReadsExactly bufSize tls (readHttpResponse w bufSize buf tls) := by
  refine ⟨parsesContentLength, fun w bufSize buf tls => ?_⟩
  exact readsExactly w bufSize buf tls

end SoftEther.Http

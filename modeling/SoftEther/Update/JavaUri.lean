import SoftEther.Parser.Text
import SoftEther.Publisher.Text
import SoftEther.Update.Browser

namespace SoftEther.Update

open SoftEther.Parser (Platform)

/-!
# `java.net.URI`

* `JavaUri.parse` — the parser, as far as a name as host goes: an address in digits or brackets is
  none of the hosts that are asked for;
* `JavaUri.path` — `getPath`, which is without escapes;
* `Clean`, `clean_of_legal` — what a URI has of characters: no control, no space, no backslash;
* `Browser.visit_of_parse` — a browser asks the host that the parser has found, for its path.
-/

/-! ### Characters -/

/-- A letter. -/
def isAlpha (c : Char) : Bool :=
  (65 ≤ c.toNat && c.toNat ≤ 90) || (97 ≤ c.toNat && c.toNat ≤ 122)

/-- A digit. -/
def isDigit (c : Char) : Bool := 48 ≤ c.toNat && c.toNat ≤ 57

/-- A letter or a digit. -/
def isAlphanum (c : Char) : Bool := isAlpha c || isDigit c

/-- `other`: no control character and no space outside ASCII. -/
def isOther (c : Char) : Bool :=
  0xA0 < c.toNat && !(0x2000 ≤ c.toNat && c.toNat ≤ 0x200A) &&
    !([0x1680, 0x2028, 0x2029, 0x202F, 0x205F, 0x3000].contains c.toNat)

/-- `unreserved`, and the punctuation `marks`. -/
def isAllowed (marks : List Char) (c : Char) : Bool :=
  isAlphanum c || ['_', '-', '!', '.', '~', '\'', '(', ')', '*'].contains c || marks.contains c

def schemeMarks : List Char := ['+', '-', '.']

def pathMarks : List Char := [':', '@', '&', '=', '+', '$', ',', ';', '/']

def uricMarks : List Char := [';', '/', '?', ':', '@', '&', '=', '+', '$', ',', '[', ']']

def userinfoMarks : List Char := [';', ':', '&', '=', '+', '$', ',']

def registryMarks : List Char := ['$', ',', ';', ':', '@', '&', '=', '+']

/-- `checkChars`: escapes are whole. -/
def legal (marks : List Char) : List Char → Bool
  | [] => true
  | '%' :: a :: b :: cs => (hexValue a).isSome && (hexValue b).isSome && legal marks cs
  | c :: cs => (isAllowed marks c || isOther c) && legal marks cs

/-! ### The parser -/

/-- What is read of a `java.net.URI`. -/
structure JavaUri where
  scheme : Option (List Char)
  host : Option (List Char)
  rawPath : Option (List Char)
  deriving DecidableEq

namespace JavaUri

/-- A label of a host name. -/
def isLabel (label : List Char) : Bool :=
  label.all (fun c => isAlphanum c || c = '-') && label.head?.any (· ≠ '-') &&
    label.getLast?.any (· ≠ '-')

/-- `parseHostname`: labels, the last of which starts with a letter, and perhaps a dot. -/
def isHostname (name : List Char) : Bool :=
  let labels := name.splitOn '.'
  let labels := if labels.getLast? = some [] then labels.dropLast else labels
  labels.all isLabel && (labels.getLast?.getD []).head?.any isAlpha

/-- The port, and the colon in front of it; it fits an `Int`. -/
def isPort (port : List Char) : Bool :=
  match port with
  | [] => true
  | c :: digits => c = ':' && digits.all isDigit &&
      digits.foldl (fun n c => 10 * n + (c.toNat - 48)) 0 ≤ 2147483647

/-- `parseServer`: the host. -/
def server (authority : List Char) : Option (List Char) :=
  let userinfo := if '@' ∈ authority then authority.takeWhile (· ≠ '@') else []
  let rest := if '@' ∈ authority then (authority.dropWhile (· ≠ '@')).drop 1 else authority
  let name := rest.takeWhile (· ≠ ':')
  if legal userinfoMarks userinfo && isHostname name && isPort (rest.dropWhile (· ≠ ':')) then
    some name
  else none

/-- The query and the fragment. -/
def tailLegal (tail : List Char) : Bool :=
  let query := tail.takeWhile (· ≠ '#')
  let fragment := tail.dropWhile (· ≠ '#')
  legal uricMarks (query.drop 1) && legal uricMarks (fragment.drop 1)

/-- `parseHierarchical`, and the fragment. -/
def hierarchical (scheme : Option (List Char)) (s : List Char) : Option JavaUri :=
  let network := s.take 2 = ['/', '/']
  let authority := if network then (s.drop 2).takeWhile (fun c => c ≠ '/' && !endsPath c) else []
  let rest := if network then (s.drop 2).dropWhile (fun c => c ≠ '/' && !endsPath c) else s
  let path := rest.takeWhile (!endsPath ·)
  if network ∧ authority = [] ∧ rest = [] then none
  else if ((authority = [] || (server authority).isSome || legal registryMarks authority) &&
      legal pathMarks path && tailLegal (rest.dropWhile (!endsPath ·))) then
    some ⟨scheme, if authority = [] then none else server authority, some path⟩
  else none

/-- `URI(s)`; `none` is a `URISyntaxException`. -/
def parse (s : List Char) : Option JavaUri :=
  let front := s.takeWhile fun c => c ≠ ':' && c ≠ '/' && !endsPath c
  match s.dropWhile (fun c => c ≠ ':' && c ≠ '/' && !endsPath c) with
  | ':' :: rest =>
    if front.head?.any isAlpha && front.all (fun c => isAlphanum c || schemeMarks.contains c) then
      if rest.head? = some '/' then hierarchical (some front) rest
      else
        -- an opaque URI has neither a host nor a path
        let part := rest.takeWhile (· ≠ '#')
        if part ≠ [] && legal uricMarks part && legal uricMarks ((rest.dropWhile (· ≠ '#')).drop 1)
        then some ⟨some front, none, none⟩
        else none
    else none
  | _ => hierarchical none s

/-- What a sequence of escapes stands for. -/
def decoded (p : Platform) (pending : List UInt8) : List Char :=
  if pending = [] then [] else (p.utf8 pending).toList

/-- `decode`: a sequence of escapes is one of UTF-8 octets. -/
def decode (p : Platform) (pending : List UInt8) : List Char → List Char
  | [] => decoded p pending
  | '%' :: a :: b :: cs =>
    match hexValue a, hexValue b with
    | some high, some low => decode p (pending ++ [UInt8.ofNat (16 * high + low)]) cs
    | _, _ => decoded p pending ++ '%' :: decode p [] (a :: b :: cs)
  | c :: cs => decoded p pending ++ c :: decode p [] cs

/-- Up to an escape nothing changes. -/
theorem decode_append (p : Platform) {front : List Char} (h : '%' ∉ front) (s : List Char) :
    decode p [] (front ++ s) = front ++ decode p [] s := by
  induction front with
  | nil => rfl
  | cons c front ih =>
    rw [List.mem_cons, not_or] at h
    rw [List.cons_append, decode, ih h.2]
    · rfl
    · rintro _ _ _ rfl
      exact absurd rfl h.1

/-- `getPath`. -/
def path (p : Platform) (uri : JavaUri) : Option (List Char) := uri.rawPath.map (decode p [])

end JavaUri

/-! ### Legal characters -/

/-- Neither a control character nor a space, and no backslash. -/
def Clean (c : Char) : Prop := 33 ≤ c.toNat ∧ c ≠ '\\'

instance (c : Char) : Decidable (Clean c) := by
  unfold Clean
  infer_instance

variable {c : Char} {s : List Char}

theorem clean_of_alphanum (h : isAlphanum c = true) : Clean c := by
  have hrange : 48 ≤ c.toNat ∧ (c.toNat ≤ 90 ∨ 97 ≤ c.toNat) := by
    simp only [isAlphanum, isAlpha, isDigit, Bool.or_eq_true, Bool.and_eq_true,
      decide_eq_true_eq] at h
    omega
  refine ⟨by omega, ?_⟩
  rintro rfl
  exact absurd hrange (by decide)

theorem clean_of_other (h : isOther c = true) : Clean c := by
  have hrange : 0xA0 < c.toNat := by
    simp only [isOther, Bool.and_eq_true, decide_eq_true_eq] at h
    exact h.1.1
  refine ⟨by omega, ?_⟩
  rintro rfl
  exact absurd hrange (by decide)

theorem clean_of_contains {marks : List Char}
    (hmarks : marks.all (fun c => decide (Clean c)) = true) (h : marks.contains c = true) :
    Clean c :=
  of_decide_eq_true (List.all_eq_true.mp hmarks c (List.contains_iff_mem.mp h))

theorem clean_of_hexValue (h : (hexValue c).isSome = true) : Clean c := by
  have hrange : 48 ≤ c.toNat ∧ (c.toNat ≤ 90 ∨ 97 ≤ c.toNat) := by
    unfold hexValue at h
    split_ifs at h with hdigit hupper hlower
    · omega
    · omega
    · omega
    · exact absurd h (by decide)
  refine ⟨by omega, ?_⟩
  rintro rfl
  exact absurd hrange (by decide)

/-- **What is legal is clean.** -/
theorem clean_of_legal {marks : List Char} (hmarks : marks.all (fun c => decide (Clean c)) = true)
    (h : legal marks s = true) : ∀ c ∈ s, Clean c := by
  fun_induction legal marks s with
  | case1 => exact fun c hc => absurd hc List.not_mem_nil
  | case2 a b cs ih =>
    rw [Bool.and_eq_true, Bool.and_eq_true] at h
    intro c hc
    simp only [List.mem_cons] at hc
    rcases hc with rfl | rfl | rfl | hc
    · decide
    · exact clean_of_hexValue h.1.1
    · exact clean_of_hexValue h.1.2
    · exact ih h.2 c hc
  | case3 c' cs hescape ih =>
    rw [Bool.and_eq_true] at h
    intro c hc
    rcases List.mem_cons.mp hc with rfl | hc
    · rcases (Bool.or_eq_true _ _).mp h.1 with hallowed | hother
      · simp only [isAllowed, Bool.or_eq_true] at hallowed
        rcases hallowed with (halnum | hmark) | hmark
        · exact clean_of_alphanum halnum
        · exact clean_of_contains (by decide) hmark
        · exact clean_of_contains hmarks hmark
      · exact clean_of_other hother
    · exact ih h.2 c hc

/-! ### The authority -/

namespace JavaUri

/-- The characters of a host name. -/
theorem of_isHostname {name : List Char} (h : isHostname name = true) :
    ∀ c ∈ name, isAlphanum c = true ∨ c = '-' ∨ c = '.' := by
  have hlabel : ∀ label ∈ name.splitOn '.', ∀ c ∈ label, isAlphanum c = true ∨ c = '-' := by
    intro label hlabel c hc
    simp only [isHostname, Bool.and_eq_true, List.all_eq_true] at h
    have hkept : label ∈ (if (name.splitOn '.').getLast? = some []
        then (name.splitOn '.').dropLast else name.splitOn '.') := by
      split_ifs with hdot
      · -- the label that is dropped is empty
        have hne := List.splitOn_ne_nil '.' name
        have hlast : (name.splitOn '.').getLast hne = [] := by
          rwa [List.getLast?_eq_some_getLast hne, Option.some_inj] at hdot
        rw [← List.dropLast_concat_getLast hne, hlast] at hlabel
        rcases List.mem_append.mp hlabel with hlabel | hlabel
        · exact hlabel
        · rw [List.mem_singleton.mp hlabel] at hc
          exact absurd hc List.not_mem_nil
      · exact hlabel
    have hall := h.1 label hkept
    simp only [isLabel, Bool.and_eq_true, List.all_eq_true] at hall
    simpa using hall.1.1 c hc
  intro c hc
  have hname : ['.'].intercalate (name.splitOn '.') = name := List.intercalate_splitOn '.'
  rw [← hname] at hc
  rcases Publisher.Python.mem_intercalate hc with rfl | ⟨label, hmem, hc⟩
  · exact Or.inr (Or.inr rfl)
  · exact (hlabel label hmem c hc).imp_right Or.inl

theorem of_isPort {port : List Char} (h : isPort port = true) :
    ∀ c ∈ port, isAlphanum c = true ∨ c = ':' := by
  cases port with
  | nil => exact fun c hc => absurd hc List.not_mem_nil
  | cons colon digits =>
    simp only [isPort, Bool.and_eq_true, List.all_eq_true, decide_eq_true_eq] at h
    intro c hc
    rcases List.mem_cons.mp hc with rfl | hc
    · exact Or.inr h.1.1
    · refine Or.inl ?_
      rw [isAlphanum, h.1.2 c hc, Bool.or_true]

theorem rtakeWhile_append_cons {f : Char → Bool} {front back : List Char} {c : Char}
    (hc : f c = false) (hback : ∀ c ∈ back, f c = true) :
    (front ++ c :: back).rtakeWhile f = back := by
  have hreverse : ∀ c ∈ back.reverse, f c = true := fun c hc => hback c (List.mem_reverse.mp hc)
  rw [List.rtakeWhile, List.reverse_append, List.reverse_cons, List.append_assoc,
    List.takeWhile_append_of_pos hreverse, List.singleton_append,
    List.takeWhile_cons_of_neg (by simp [hc]), List.append_nil, List.reverse_reverse]

/-- The part of an authority in front of its first `@`, and the part behind it. -/
theorem exists_at {authority : List Char} (h : '@' ∈ authority) :
    ∃ userinfo rest, authority = userinfo ++ '@' :: rest ∧
      authority.takeWhile (· ≠ '@') = userinfo ∧
        (authority.dropWhile (· ≠ '@')).drop 1 = rest := by
  obtain ⟨userinfo, rest, hsplit, hfirst⟩ := List.eq_append_cons_of_mem h
  have hall : ∀ c ∈ userinfo, decide (c ≠ '@') = true := by
    intro c hc
    refine decide_eq_true ?_
    rintro rfl
    exact hfirst hc
  refine ⟨userinfo, rest, hsplit, ?_, ?_⟩
  · rw [hsplit, List.takeWhile_append_of_pos hall, List.takeWhile_cons_of_neg (by decide),
      List.append_nil]
  · rw [hsplit, List.dropWhile_append_of_pos hall, List.dropWhile_cons_of_neg (by decide)]
    rfl

/-- A name and its port. -/
theorem of_hostinfo {rest : List Char} (hname : isHostname (rest.takeWhile (· ≠ ':')) = true)
    (hport : isPort (rest.dropWhile (· ≠ ':')) = true) : ∀ c ∈ rest, c ≠ '@' ∧ Clean c := by
  intro c hc
  have hkind : isAlphanum c = true ∨ c = '-' ∨ c = '.' ∨ c = ':' := by
    rw [← List.takeWhile_append_dropWhile (p := (· ≠ ':')) (l := rest)] at hc
    rcases List.mem_append.mp hc with hc | hc
    · rcases of_isHostname hname c hc with h | h | h
      · exact Or.inl h
      · exact Or.inr (Or.inl h)
      · exact Or.inr (Or.inr (Or.inl h))
    · exact (of_isPort hport c hc).imp_right fun h => Or.inr (Or.inr h)
  rcases hkind with h | rfl | rfl | rfl
  · refine ⟨?_, clean_of_alphanum h⟩
    rintro rfl
    exact absurd h (by decide)
  all_goals decide

/-- **What a server is**: the host stands behind the last `@` and in front of the port, and all
characters are clean. -/
theorem of_server {authority name : List Char} (h : server authority = some name) :
    hostText authority = name ∧ ∀ c ∈ authority, Clean c := by
  unfold server at h
  by_cases hat : '@' ∈ authority
  · obtain ⟨userinfo, rest, hsplit, htake, hdrop⟩ := exists_at hat
    simp only [hat, if_true, htake, hdrop] at h
    split_ifs at h with hparts
    simp only [Bool.and_eq_true] at hparts
    obtain ⟨⟨huser, hname⟩, hport⟩ := hparts
    have hrest := of_hostinfo hname hport
    constructor
    · have hback : authority.rtakeWhile (· ≠ '@') = rest := by
        rw [hsplit]
        exact rtakeWhile_append_cons (by decide) fun c hc => decide_eq_true (hrest c hc).1
      rw [hostText, hback]
      exact Option.some.inj h
    · intro c hc
      rw [hsplit] at hc
      rcases List.mem_append.mp hc with hc | hc
      · exact clean_of_legal (by decide) huser c hc
      rcases List.mem_cons.mp hc with rfl | hc
      · decide
      · exact (hrest c hc).2
  · simp only [hat, if_false] at h
    split_ifs at h with hparts
    simp only [Bool.and_eq_true] at hparts
    have hrest := of_hostinfo hparts.1.2 hparts.2
    constructor
    · have hback : authority.rtakeWhile (· ≠ '@') = authority :=
        List.rtakeWhile_eq_self_iff.mpr fun c hc => decide_eq_true (hrest c hc).1
      rw [hostText, hback]
      exact Option.some.inj h
    · exact fun c hc => (hrest c hc).2

/-! ### The whole -/

/-- A part of the tail with the character that starts it. -/
theorem clean_of_drop {part : List Char} (hhead : ∀ c ∈ part.head?, Clean c)
    (h : legal uricMarks (part.drop 1) = true) : ∀ c ∈ part, Clean c := by
  cases part with
  | nil => exact fun c hc => absurd hc List.not_mem_nil
  | cons c' cs =>
    intro c hc
    rcases List.mem_cons.mp hc with rfl | hc
    · exact hhead c rfl
    · exact clean_of_legal (by decide) h c hc

theorem clean_of_tailLegal {tail : List Char} (hhead : ∀ c ∈ tail.head?, endsPath c = true)
    (h : tailLegal tail = true) : ∀ c ∈ tail, Clean c := by
  rw [tailLegal, Bool.and_eq_true] at h
  have hends : ∀ {c}, endsPath c = true → Clean c := by
    intro c hc
    have : c = '?' ∨ c = '#' := by simpa [endsPath] using hc
    rcases this with rfl | rfl <;> decide
  have hquery : ∀ c ∈ (tail.takeWhile (· ≠ '#')).head?, Clean c := by
    intro c hc
    cases tail with
    | nil => exact absurd hc (by simp)
    | cons c' cs =>
      by_cases hhash : c' = '#'
      · rw [List.takeWhile_cons_of_neg (by simpa using hhash)] at hc
        exact absurd hc (by simp)
      · rw [List.takeWhile_cons_of_pos (by simpa using hhash), List.head?_cons,
          Option.mem_some_iff] at hc
        exact hends (hhead c (by rw [← hc]; rfl))
  have hfragment : ∀ c ∈ (tail.dropWhile (· ≠ '#')).head?, Clean c := by
    intro c hc
    have hnot := List.head?_dropWhile_not (· ≠ '#') tail
    rw [Option.mem_def.mp hc] at hnot
    have hhash : c = '#' := by simpa using hnot
    rw [hhash]
    decide
  intro c hc
  rw [← List.takeWhile_append_dropWhile (p := (· ≠ '#')) (l := tail)] at hc
  rcases List.mem_append.mp hc with hc | hc
  · exact clean_of_drop hquery h.1 c hc
  · exact clean_of_drop hfragment h.2 c hc

/-- A URI with a host. -/
theorem of_hierarchical {scheme : Option (List Char)} {s host : List Char} {uri : JavaUri}
    (h : hierarchical scheme s = some uri) (hhost : uri.host = some host) :
    uri.scheme = scheme ∧ ∃ authority tail, s = '/' :: '/' :: (authority ++ tail) ∧
      uri.rawPath = some (tail.takeWhile (!endsPath ·)) ∧
      server authority = some host ∧ authority ≠ [] ∧
        (∀ c ∈ authority, c ≠ '/' ∧ endsPath c = false) ∧
          (∀ c ∈ tail.head?, c = '/' ∨ endsPath c = true) ∧ ∀ c ∈ tail, Clean c := by
  unfold hierarchical at h
  -- without two slashes there is no host
  by_cases hnetwork : s.take 2 = ['/', '/']
  · simp only [hnetwork, if_true] at h
    split_ifs at h with hempty hlegal hnone
    · obtain rfl := Option.some.inj h
      exact absurd hhost (by simp)
    · obtain rfl := Option.some.inj h
      simp only [Bool.and_eq_true] at hlegal
      obtain ⟨⟨-, hpath⟩, htail⟩ := hlegal
      set f : Char → Bool := fun c => c ≠ '/' && !endsPath c with hf
      have hs : s = '/' :: '/' :: ((s.drop 2).takeWhile f ++ (s.drop 2).dropWhile f) := by
        rw [List.takeWhile_append_dropWhile]
        conv_lhs => rw [← List.take_append_drop 2 s, hnetwork]
        rfl
      refine ⟨rfl, (s.drop 2).takeWhile f, (s.drop 2).dropWhile f, hs, rfl, hhost, hnone, ?_, ?_,
        ?_⟩
      · intro c hc
        have := List.mem_takeWhile_imp hc
        simpa [hf] using this
      · intro c hc
        have hnot := List.head?_dropWhile_not f (s.drop 2)
        rw [Option.mem_def.mp hc] at hnot
        have : c = '/' ∨ endsPath c = true := by
          by_cases hslash : c = '/'
          · exact Or.inl hslash
          · exact Or.inr (by simpa [hf, hslash] using hnot)
        exact this
      · intro c hc
        rw [← List.takeWhile_append_dropWhile (p := (!endsPath ·))
          (l := (s.drop 2).dropWhile f)] at hc
        rcases List.mem_append.mp hc with hc | hc
        · exact clean_of_legal (by decide) hpath c hc
        · refine clean_of_tailLegal (fun c hc => ?_) htail c hc
          have hnot := List.head?_dropWhile_not (!endsPath ·) ((s.drop 2).dropWhile f)
          rw [Option.mem_def.mp hc] at hnot
          simpa using hnot
  · simp only [hnetwork, if_false, false_and, if_true] at h
    split_ifs at h
    obtain rfl := Option.some.inj h
    exact absurd hhost (by simp)

/-- An `https` URI with a host. -/
theorem of_parse {s host : List Char} {uri : JavaUri} (h : parse s = some uri)
    (hscheme : uri.scheme = some "https".toList) (hhost : uri.host = some host) :
    ∃ authority tail, s = "https://".toList ++ (authority ++ tail) ∧
      uri.rawPath = some (tail.takeWhile (!endsPath ·)) ∧
      server authority = some host ∧ authority ≠ [] ∧
        (∀ c ∈ authority, c ≠ '/' ∧ endsPath c = false) ∧
          (∀ c ∈ tail.head?, c = '/' ∨ endsPath c = true) ∧ ∀ c ∈ tail, Clean c := by
  unfold parse at h
  dsimp only at h
  split at h
  · rename_i rest hrest
    have hs := List.takeWhile_append_dropWhile
      (p := fun c => c ≠ ':' && c ≠ '/' && !endsPath c) (l := s)
    rw [hrest] at hs
    split_ifs at h with hfront hslash hopaque
    · obtain ⟨hfrontScheme, authority, tail, hsplit, hauthority⟩ := of_hierarchical h hhost
      rw [hscheme] at hfrontScheme
      refine ⟨authority, tail, ?_, hauthority⟩
      rw [← hs, ← Option.some.inj hfrontScheme, hsplit]
      rfl
    · rw [← Option.some.inj h] at hhost
      exact absurd hhost (by simp)
  · obtain ⟨hnone, -⟩ := of_hierarchical h hhost
    rw [hscheme] at hnone
    exact absurd hnone (by simp)

end JavaUri

/-! ### The browser -/

/-- A text without spaces starts with none. -/
theorem dropWhile_space (h : ∀ c ∈ s, 33 ≤ c.toNat) : (s.dropWhile fun c => c.toNat ≤ 32) = s := by
  cases s with
  | nil => rfl
  | cons c cs =>
    have hlow : 32 < c.toNat := h c List.mem_cons_self
    rw [List.dropWhile_cons_of_neg (by simpa using hlow)]

/-- A text without spaces has no tabs and no line breaks. -/
theorem filter_breaks (h : ∀ c ∈ s, 33 ≤ c.toNat) :
    (s.filter fun c => c ≠ '\t' ∧ c ≠ '\n' ∧ c ≠ '\r') = s := by
  rw [List.filter_eq_self]
  intro c hc
  have hlow := h c hc
  simp only [decide_eq_true_eq]
  refine ⟨?_, ?_, ?_⟩ <;> rintro rfl <;> exact absurd hlow (by decide)

/-- Nothing of a text of clean characters is stripped. -/
theorem stripped_eq (h : ∀ c ∈ s, 33 ≤ c.toNat) : stripped s = s := by
  have hback : (s.rdropWhile fun c => c.toNat ≤ 32) = s := by
    rw [List.rdropWhile_eq_self_iff]
    intro hne
    have hlow : 32 < (s.getLast hne).toNat := h _ (List.getLast_mem hne)
    simpa using hlow
  rw [stripped, dropWhile_space h, hback, filter_breaks h]

/-- **A browser asks the host that the parser has found**, for the path that it has found. -/
theorem Browser.visit_of_parse (b : Browser) {host : List Char} {uri : JavaUri}
    (h : JavaUri.parse s = some uri) (hscheme : uri.scheme = some "https".toList)
    (hhost : uri.host = some host) (hallowed : host.map Char.toLower ∈ ALLOWED_RELEASE_HOSTS) :
    uri.rawPath = some (pathText s) ∧ b.OnHost s := by
  obtain ⟨authority, tail, hs, hpath, hserver, hne, hends, htail, hclean⟩ :=
    JavaUri.of_parse h hscheme hhost
  obtain ⟨hname, hauthority⟩ := JavaUri.of_server hserver
  have hstripped : stripped s = s := by
    apply stripped_eq
    intro c hc
    rw [hs] at hc
    rcases List.mem_append.mp hc with hc | hc
    · have hscheme : ("https://".toList.all fun c => decide (33 ≤ c.toNat)) = true := by decide
      exact of_decide_eq_true (List.all_eq_true.mp hscheme c hc)
    rcases List.mem_append.mp hc with hc | hc
    · exact (hauthority c hc).1
    · exact (hclean c hc).1
  have hbegin : stripped s = "https".toList ++ ':' :: '/' :: '/' :: (authority ++ tail) := by
    rw [hstripped, hs]
    rfl
  rw [hpath, Option.some_inj, eq_comm]
  apply b.visit_of_stripped hbegin
  · decide
  · have hfront : ("https".toList.all fun c => decide (c ≠ ':')) = true := by decide
    exact fun c hc => of_decide_eq_true (List.all_eq_true.mp hfront c hc)
  · exact hne
  · -- no character of the authority ends it for a browser
    intro c hc
    obtain ⟨hslash, hend⟩ := hends c hc
    have hback := (hauthority c hc).2
    simp only [endsPath, Bool.or_eq_false_iff, decide_eq_false_iff_not] at hend
    simp [endsAuthority, isSlash, hslash, hback, hend.1, hend.2]
  · intro c hc
    rcases htail c hc with rfl | hend
    · decide
    · simp only [endsPath, Bool.or_eq_true, decide_eq_true_eq] at hend
      rcases hend with rfl | rfl <;> decide
  · rwa [hname]

end SoftEther.Update

import SoftEther.Lib.Decimal

namespace SoftEther.Lib

/-!
# JSON

A number keeps its literal, so that nothing is said here about its precision.

* `Json` — the trees; `Json.get` — a member of an object;
* `Json.Within` — a tree of integers of 64 bits, that is so deep at most;
* `Json.print`, `Json.parse` — the texts without blanks;
* `parse_print` — **a tree is read as it was written**.
-/

/-- **A JSON tree.** -/
inductive Json
  | null
  | boolean (b : Bool)
  | number (literal : List Char)
  | string (s : List Char)
  | array (items : List Json)
  | object (members : List (List Char × Json))

namespace Json

/-- The member of a name. -/
def get (members : List (List Char × Json)) (name : List Char) : Option Json :=
  (members.find? fun m => m.1 = name).map Prod.snd

theorem get_cons_self (name : List Char) (e : Json) (members : List (List Char × Json)) :
    get ((name, e) :: members) name = some e := by
  rw [get, List.find?_cons_of_pos (by simp)]
  rfl

theorem get_cons_of_ne {m : List Char × Json} {name : List Char} (h : m.1 ≠ name)
    (members : List (List Char × Json)) : get (m :: members) name = get members name := by
  rw [get, List.find?_cons_of_neg (by simpa using h)]
  rfl

theorem get_eq_none {members : List (List Char × Json)} {name : List Char}
    (h : ∀ m ∈ members, m.1 ≠ name) : get members name = none := by
  have hfind : members.find? (fun m => m.1 = name) = none :=
    List.find?_eq_none.mpr fun m hm => by simpa using h m hm
  rw [get, hfind]
  rfl

theorem mem_of_get {members : List (List Char × Json)} {name : List Char} {e : Json}
    (h : get members name = some e) : (name, e) ∈ members := by
  obtain ⟨m, hm, rfl⟩ := Option.map_eq_some_iff.mp h
  have hname := List.find?_some hm
  rw [← of_decide_eq_true hname]
  exact List.mem_of_find?_eq_some hm

/-- **A tree of integers** of 64 bits, whose arrays and objects are nested to this depth, and whose
members have different names. -/
def Within : ℕ → Json → Prop
  | n + 1, .array items => ∀ e ∈ items, Within n e
  | n + 1, .object members => (members.map Prod.fst).Nodup ∧ ∀ m ∈ members, Within n m.2
  | _, .array _ | _, .object _ => False
  | _, .number literal => ∃ z : Int64, literal = Decimal.text z.toInt
  | _, .null | _, .boolean _ | _, .string _ => True

/-! ### Writing -/

/-- A digit of sixteen, in small letters. -/
def hexDigit (n : ℕ) : Char := Char.ofNat (if n < 10 then 48 + n else 87 + n)

/-- A character inside of quotes. -/
def escape (c : Char) : List Char :=
  if c = '"' ∨ c = '\\' then ['\\', c]
  else if c.toNat < 32 then ['\\', 'u', '0', '0', hexDigit (c.toNat / 16), hexDigit (c.toNat % 16)]
  else [c]

/-- A text as it is written. -/
def quote (s : List Char) : List Char := '"' :: (s.flatMap escape ++ ['"'])

/-- The text of a tree, without blanks. -/
def print : Json → List Char
  | .null => "null".toList
  | .boolean b => if b then "true".toList else "false".toList
  | .number literal => literal
  | .string s => quote s
  | .array items => '[' :: ([','].intercalate (items.map fun e => e.print) ++ [']'])
  | .object members =>
    '{' :: ([','].intercalate (members.map fun m => quote m.1 ++ ':' :: m.2.print) ++ ['}'])
termination_by e => sizeOf e
decreasing_by
  · have := List.sizeOf_lt_of_mem (by assumption : e ∈ items)
    simp only [Json.array.sizeOf_spec]
    omega
  · have hmem := List.sizeOf_lt_of_mem (by assumption : m ∈ members)
    have hpair : sizeOf m = 1 + sizeOf m.1 + sizeOf m.2 := rfl
    simp only [Json.object.sizeOf_spec]
    omega

/-! ### Reading -/

/-- The value of such a digit. -/
def hexValue (c : Char) : Option ℕ :=
  if 48 ≤ c.toNat ∧ c.toNat ≤ 57 then some (c.toNat - 48)
  else if 97 ≤ c.toNat ∧ c.toNat ≤ 102 then some (c.toNat - 87)
  else none

/-- Behind a quote, up to the next. -/
def parseText : List Char → Option (List Char × List Char)
  | [] => none
  | '"' :: rest => some ([], rest)
  | '\\' :: 'u' :: '0' :: '0' :: a :: b :: rest =>
    match hexValue a, hexValue b with
    | some high, some low =>
      (parseText rest).map fun r => (Char.ofNat (16 * high + low) :: r.1, r.2)
    | _, _ => none
  | '\\' :: c :: rest =>
    if c = '"' ∨ c = '\\' then (parseText rest).map fun r => (c :: r.1, r.2) else none
  | c :: rest => (parseText rest).map fun r => (c :: r.1, r.2)

/-- A character of a number. -/
def isNumberChar (c : Char) : Bool := c.isDigit || ['-', '+', '.', 'e', 'E'].contains c

mutual

/-- A tree at the start of a text, and what stands behind it. -/
def parseValue : ℕ → List Char → Option (Json × List Char)
  | 0, _ => none
  | n + 1, s =>
    if s.head? = some '[' then
      if (s.drop 1).head? = some ']' then some (.array [], s.drop 2)
      else (parseItems n (s.drop 1)).map fun r => (.array r.1, r.2)
    else if s.head? = some '\x7b' then
      if (s.drop 1).head? = some '\x7d' then some (.object [], s.drop 2)
      else (parseMembers n (s.drop 1)).map fun r => (.object r.1, r.2)
    else if s.head? = some '"' then (parseText (s.drop 1)).map fun r => (.string r.1, r.2)
    else if s.take 4 = "null".toList then some (.null, s.drop 4)
    else if s.take 4 = "true".toList then some (.boolean true, s.drop 4)
    else if s.take 5 = "false".toList then some (.boolean false, s.drop 5)
    else if s.head?.any isNumberChar then
      some (.number (s.takeWhile isNumberChar), s.dropWhile isNumberChar)
    else none

/-- The items of an array, and its end. -/
def parseItems : ℕ → List Char → Option (List Json × List Char)
  | 0, _ => none
  | n + 1, s => do
    let (e, rest) ← parseValue n s
    if rest.head? = some ',' then
      let (es, rest) ← parseItems n (rest.drop 1)
      some (e :: es, rest)
    else if rest.head? = some ']' then some ([e], rest.drop 1)
    else none

/-- The members of an object, and its end. -/
def parseMembers : ℕ → List Char → Option (List (List Char × Json) × List Char)
  | 0, _ => none
  | n + 1, s => do
    let (name, rest) ← if s.head? = some '"' then parseText (s.drop 1) else none
    let (e, rest) ← if rest.head? = some ':' then parseValue n (rest.drop 1) else none
    if rest.head? = some ',' then
      let (ms, rest) ← parseMembers n (rest.drop 1)
      some ((name, e) :: ms, rest)
    else if rest.head? = some '\x7d' then some ([(name, e)], rest.drop 1)
    else none

end

/-- A whole text. -/
def parse (s : List Char) : Option Json :=
  match parseValue s.length s with
  | some (e, []) => some e
  | _ => none

/-! ### A tree is read as it was written -/

theorem hexValue_hexDigit {n : ℕ} (h : n < 16) : hexValue (hexDigit n) = some n := by
  have hall : ∀ n < 16, hexValue (hexDigit n) = some n := by decide
  exact hall n h

theorem parseText_escape (c : Char) (s : List Char) :
    parseText (escape c ++ s) = (parseText s).map fun r => (c :: r.1, r.2) := by
  unfold escape
  split_ifs with hquote hcontrol
  · rcases hquote with rfl | rfl
    · simp [parseText]
    · simp [parseText]
  · have hhigh := hexValue_hexDigit (n := c.toNat / 16) (by omega)
    have hlow := hexValue_hexDigit (n := c.toNat % 16) (by omega)
    have hchar : Char.ofNat (16 * (c.toNat / 16) + c.toNat % 16) = c := by
      rw [Nat.div_add_mod]
      exact Char.ofNat_toNat c
    show parseText ('\\' :: 'u' :: '0' :: '0' :: hexDigit (c.toNat / 16) ::
      hexDigit (c.toNat % 16) :: s) = _
    rw [parseText]
    simp only [hhigh, hlow, hchar]
  · obtain ⟨hquote, hback⟩ := not_or.mp hquote
    show parseText (c :: s) = _
    rw [parseText]
    · exact hquote
    · exact fun a b rest hc => absurd hc hback
    · exact fun d rest hc => absurd hc hback

theorem parseText_quote (s rest : List Char) :
    parseText (s.flatMap escape ++ '"' :: rest) = some (s, rest) := by
  induction s with
  | nil => simp [parseText]
  | cons c cs ih =>
    rw [List.flatMap_cons, List.append_assoc, parseText_escape, ih]
    rfl

/-- What stands behind a tree does not go on with its number. -/
def Stops (rest : List Char) : Prop := ∀ c ∈ rest.head?, isNumberChar c = false

theorem stops_cons {c : Char} {rest : List Char} (h : isNumberChar c = false) :
    Stops (c :: rest) := by
  intro d hd
  rwa [← Option.some.inj hd]

/-- The characters of the literal of an integer. -/
theorem isNumberChar_of_mem {z : ℤ} {c : Char} (h : c ∈ Decimal.text z) :
    isNumberChar c = true := by
  rcases Decimal.of_mem_text h with rfl | hdigit
  · decide
  · rw [isNumberChar, hdigit, Bool.true_or]

/-- A tree is found at the start of every text that goes on with something else. -/
structure ReadBack (e : Json) : Prop where
  head : ∃ c cs, e.print = c :: cs ∧ c ≠ ']'
  value : ∀ n rest, e.print.length ≤ n → Stops rest →
    parseValue n (e.print ++ rest) = some (e, rest)

theorem readBack_word {e : Json} {w : List Char} (hw : e.print = w)
    (hhead : ∃ c cs, w = c :: cs ∧ c ≠ ']')
    (h : ∀ n rest, parseValue (n + 1) (w ++ rest) = some (e, rest)) : ReadBack e where
  head := by rwa [hw]
  value n rest hn _ := by
    obtain ⟨c, cs, hcons, -⟩ := hhead
    rw [hw, hcons, List.length_cons] at hn
    obtain ⟨n, rfl⟩ := Nat.exists_eq_add_of_lt (Nat.lt_of_lt_of_le (Nat.succ_pos _) hn)
    rw [hw, Nat.zero_add]
    exact h n rest

theorem readBack_null : ReadBack .null := by
  have hprint : Json.null.print = "null".toList := by rw [print]
  exact readBack_word hprint ⟨'n', "ull".toList, by decide, by decide⟩ fun n s => rfl

theorem readBack_boolean (b : Bool) : ReadBack (.boolean b) := by
  have hprint : (Json.boolean b).print = if b then "true".toList else "false".toList := by
    rw [print]
  cases b with
  | true => exact readBack_word hprint ⟨'t', "rue".toList, by decide, by decide⟩ fun n s => rfl
  | false => exact readBack_word hprint ⟨'f', "alse".toList, by decide, by decide⟩ fun n s => rfl

theorem readBack_number (z : ℤ) : ReadBack (.number (Decimal.text z)) := by
  have hall : ∀ c ∈ Decimal.text z, isNumberChar c = true := fun c hc => isNumberChar_of_mem hc
  obtain ⟨c, cs, hcons⟩ := List.exists_cons_of_ne_nil (Decimal.text_ne_nil z)
  have hc := hall c (by rw [hcons]; exact List.mem_cons_self)
  have hother : ∀ d, isNumberChar d = false → c ≠ d := by
    rintro d hd rfl
    rw [hc] at hd
    exact absurd hd (by decide)
  refine ⟨⟨c, cs, by rw [print, hcons], hother ']' (by decide)⟩, fun n rest hn hstops => ?_⟩
  rw [print] at hn ⊢
  have htake : (Decimal.text z ++ rest).takeWhile isNumberChar = Decimal.text z := by
    rw [List.takeWhile_append_of_pos hall]
    cases rest with
    | nil => exact List.append_nil _
    | cons d ds => rw [List.takeWhile_cons_of_neg (by simp [hstops d rfl]), List.append_nil]
  have hdrop : (Decimal.text z ++ rest).dropWhile isNumberChar = rest := by
    rw [List.dropWhile_append_of_pos hall]
    cases rest with
    | nil => rfl
    | cons d ds => rw [List.dropWhile_cons_of_neg (by simp [hstops d rfl])]
  rw [hcons, List.length_cons] at hn
  obtain ⟨n, rfl⟩ := Nat.exists_eq_add_of_lt (Nat.lt_of_lt_of_le (Nat.succ_pos _) hn)
  have hhead : (Decimal.text z ++ rest).head? = some c := by rw [hcons]; rfl
  have hword : ∀ (k : ℕ) (w : Char) (ws : List Char), isNumberChar w = false →
      (Decimal.text z ++ rest).take (k + 1) ≠ w :: ws := by
    intro k w ws hw htext
    rw [hcons, List.cons_append, List.take_succ_cons] at htext
    exact hother w hw (List.cons.inj htext).1
  rw [Nat.zero_add, parseValue, hhead, htake, hdrop]
  rw [if_neg, if_neg, if_neg, if_neg, if_neg, if_neg, if_pos]
  · simpa using hc
  · exact hword 4 _ _ (by decide)
  · exact hword 3 _ _ (by decide)
  · exact hword 3 _ _ (by decide)
  · exact fun h => hother _ (by decide) (Option.some.inj h)
  · exact fun h => hother _ (by decide) (Option.some.inj h)
  · exact fun h => hother _ (by decide) (Option.some.inj h)

theorem readBack_string (s : List Char) : ReadBack (.string s) := by
  have hprint : (Json.string s).print = quote s := by rw [print]
  refine readBack_word hprint ⟨'"', s.flatMap escape ++ ['"'], rfl, by decide⟩ fun n rest => ?_
  have htext : quote s ++ rest = '"' :: (s.flatMap escape ++ '"' :: rest) := by
    simp [quote]
  rw [htext, parseValue, List.head?_cons, if_neg (by decide), if_neg (by decide), if_pos rfl,
    List.drop_one, List.tail_cons, parseText_quote]
  rfl

/-! ### Arrays and objects -/

theorem parseValue_bracket (n : ℕ) (s : List Char) :
    parseValue (n + 1) ('[' :: s) =
      if s.head? = some ']' then some (.array [], s.drop 1)
      else (parseItems n s).map fun r => (.array r.1, r.2) := by
  rw [parseValue, if_pos (List.head?_cons ..)]
  rfl

theorem parseValue_brace (n : ℕ) (s : List Char) :
    parseValue (n + 1) ('\x7b' :: s) =
      if s.head? = some '\x7d' then some (.object [], s.drop 1)
      else (parseMembers n s).map fun r => (.object r.1, r.2) := by
  rw [parseValue, if_neg, if_pos (List.head?_cons ..)]
  · rfl
  · rw [List.head?_cons]
    decide

theorem parseItems_print {items : List Json} (h : ∀ e ∈ items, ReadBack e) (hne : items ≠ []) :
    ∀ n rest, ([','].intercalate (items.map print)).length < n →
      parseItems n ([','].intercalate (items.map print) ++ ']' :: rest) = some (items, rest) := by
  induction items with
  | nil => exact absurd rfl hne
  | cons e es ih =>
    intro n rest hn
    obtain ⟨n, rfl⟩ := Nat.exists_eq_add_of_lt (Nat.lt_of_le_of_lt (Nat.zero_le _) hn)
    rw [Nat.zero_add] at hn ⊢
    have he := h e List.mem_cons_self
    cases es with
    | nil =>
      rw [List.map_singleton, List.intercalate_singleton] at hn ⊢
      rw [parseItems, he.value n _ (by omega) (stops_cons (by decide))]
      rfl
    | cons e' es =>
      rw [List.map_cons, List.map_cons, List.intercalate_cons_cons, ← List.map_cons] at hn ⊢
      simp only [List.length_append, List.length_singleton] at hn
      rw [List.append_assoc, List.append_assoc, List.singleton_append, parseItems,
        he.value n _ (by omega) (stops_cons (by decide))]
      have hrest := ih (fun d hd => h d (List.mem_cons_of_mem _ hd)) (List.cons_ne_nil _ _) n rest
        (by omega)
      simp only [List.head?_cons, if_true, List.drop_one, List.tail_cons, Option.bind_eq_bind,
        Option.bind_some, hrest]

theorem readBack_array {items : List Json} (h : ∀ e ∈ items, ReadBack e) :
    ReadBack (.array items) := by
  have hprint : (Json.array items).print =
      '[' :: ([','].intercalate (items.map print) ++ [']']) := by rw [print]
  refine ⟨⟨'[', _, hprint, by decide⟩, fun n rest hn _ => ?_⟩
  rw [hprint] at hn ⊢
  simp only [List.length_cons, List.length_append, List.length_nil] at hn
  obtain ⟨n, rfl⟩ : ∃ m, n = m + 1 := ⟨n - 1, by omega⟩
  rw [List.cons_append, List.append_assoc, parseValue_bracket]
  cases items with
  | nil => rfl
  | cons e es =>
    obtain ⟨c, cs, hc, hbracket⟩ := (h e List.mem_cons_self).head
    have hhead : ([','].intercalate ((e :: es).map print) ++ ([']'] ++ rest)).head? = some c := by
      cases es with
      | nil => rw [List.map_singleton, List.intercalate_singleton, hc]; rfl
      | cons e' es => rw [List.map_cons, List.map_cons, List.intercalate_cons_cons, hc]; rfl
    rw [hhead, if_neg fun h => hbracket (Option.some.inj h)]
    have hitems := parseItems_print h (List.cons_ne_nil _ _) n rest (by omega)
    rw [List.singleton_append, hitems]
    rfl

/-- A member of an object as it is written. -/
def printMember (m : List Char × Json) : List Char := quote m.1 ++ ':' :: m.2.print

theorem parseMembers_print {members : List (List Char × Json)}
    (h : ∀ m ∈ members, ReadBack m.2) (hne : members ≠ []) :
    ∀ n rest, ([','].intercalate (members.map printMember)).length < n →
      parseMembers n ([','].intercalate (members.map printMember) ++ '\x7d' :: rest) =
        some (members, rest) := by
  -- a name and a tree, and what stands behind them
  have hmember : ∀ m : List Char × Json, ReadBack m.2 → ∀ n s, (printMember m).length ≤ n →
      Stops s → parseMembers (n + 1) (printMember m ++ s) =
        if s.head? = some ',' then (parseMembers n (s.drop 1)).map fun r => (m :: r.1, r.2)
        else if s.head? = some '\x7d' then some ([m], s.drop 1) else none := by
    intro m hm n s hn hs
    have htext : printMember m ++ s =
        '"' :: (m.1.flatMap escape ++ '"' :: (':' :: (m.2.print ++ s))) := by
      simp [printMember, quote]
    have hlength : m.2.print.length ≤ n := by
      simp only [printMember, List.length_append, List.length_cons] at hn
      omega
    rw [htext, parseMembers]
    simp only [List.head?_cons, if_true, List.drop_one, List.tail_cons, parseText_quote,
      Option.bind_eq_bind, Option.bind_some, hm.value n s hlength hs]
    split_ifs with hcomma hbrace
    · cases parseMembers n s.tail <;> rfl
    · rfl
    · rfl
  induction members with
  | nil => exact absurd rfl hne
  | cons m ms ih =>
    intro n rest hn
    obtain ⟨n, rfl⟩ : ∃ k, n = k + 1 := ⟨n - 1, by omega⟩
    have hm := hmember m (h m List.mem_cons_self)
    cases ms with
    | nil =>
      rw [List.map_singleton, List.intercalate_singleton] at hn ⊢
      rw [hm n _ (by omega) (stops_cons (by decide))]
      rfl
    | cons m' ms =>
      rw [List.map_cons, List.map_cons, List.intercalate_cons_cons, ← List.map_cons] at hn ⊢
      simp only [List.length_append, List.length_singleton] at hn
      rw [List.append_assoc, List.append_assoc, List.singleton_append,
        hm n _ (by omega) (stops_cons (by decide))]
      have hrest := ih (fun d hd => h d (List.mem_cons_of_mem _ hd)) (List.cons_ne_nil _ _) n rest
        (by omega)
      rw [List.head?_cons, if_pos rfl, List.drop_one, List.tail_cons, hrest]
      rfl

theorem readBack_object {members : List (List Char × Json)} (h : ∀ m ∈ members, ReadBack m.2) :
    ReadBack (.object members) := by
  have hprint : (Json.object members).print =
      '\x7b' :: ([','].intercalate (members.map printMember) ++ ['\x7d']) := by
    rw [print]
    rfl
  refine ⟨⟨'\x7b', _, hprint, by decide⟩, fun n rest hn _ => ?_⟩
  rw [hprint] at hn ⊢
  simp only [List.length_cons, List.length_append, List.length_nil] at hn
  obtain ⟨n, rfl⟩ : ∃ m, n = m + 1 := ⟨n - 1, by omega⟩
  rw [List.cons_append, List.append_assoc, parseValue_brace]
  cases members with
  | nil => rfl
  | cons m ms =>
    have hhead : ([','].intercalate ((m :: ms).map printMember) ++ (['\x7d'] ++ rest)).head? =
        some '"' := by
      cases ms with
      | nil => rw [List.map_singleton, List.intercalate_singleton]; rfl
      | cons m' ms => rw [List.map_cons, List.map_cons, List.intercalate_cons_cons]; rfl
    rw [hhead, if_neg (by decide)]
    have hmembers := parseMembers_print h (List.cons_ne_nil _ _) n rest (by omega)
    rw [List.singleton_append, hmembers]
    rfl

theorem readBack_of_within {n : ℕ} {e : Json} (h : Within n e) : ReadBack e := by
  induction n generalizing e with
  | zero =>
    cases e with
    | array items => exact h.elim
    | object members => exact h.elim
    | null => exact readBack_null
    | boolean b => exact readBack_boolean b
    | number literal =>
      obtain ⟨z, rfl⟩ := h
      exact readBack_number z.toInt
    | string s => exact readBack_string s
  | succ n ih =>
    cases e with
    | array items => exact readBack_array fun e he => ih (h e he)
    | object members => exact readBack_object fun m hm => ih (h.2 m hm)
    | null => exact readBack_null
    | boolean b => exact readBack_boolean b
    | number literal =>
      obtain ⟨z, rfl⟩ : ∃ z : Int64, literal = Decimal.text z.toInt := by
        rwa [Within] at h
      exact readBack_number z.toInt
    | string s => exact readBack_string s

/-- **A tree is read as it was written.** -/
theorem parse_print {n : ℕ} {e : Json} (h : Within n e) : parse e.print = some e := by
  have hvalue := (readBack_of_within h).value e.print.length [] le_rfl fun c hc => absurd hc nofun
  rw [List.append_nil] at hvalue
  rw [parse, hvalue]

end Json

end SoftEther.Lib

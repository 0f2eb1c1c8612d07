import SoftEther.Parser.RowLeaves
import SoftEther.Publisher.AppFile

namespace SoftEther.Publisher

open Lib
open SoftEther.Parser (Platform)
open SoftEther.Parser.EmergencyCsvParser
open SoftEther.Merger (Path Scalar Transport Endpoint VpnServerRecord validPort)

/-!
# What the app reads from a published row

* `intOf`, `doubleOf`, `scaledOf`, `sstpPortOf`, `openvpnPortOf` — what the app keeps of a value;
* `Agree.intValue_cell`, `Agree.portValue_cell`, `Agree.boolOrNull_cell` and the like — the typed
  readers on the cells of a row;
* `ReadAs`, `readAs_appRecord` — a row as a record, and that the app makes such a record;
* `published_file_read` — the file as a whole; a number that no `Int` holds is not read.
-/

section Values

variable {py : Python} {p : Platform}

/-! ### Integers -/

/-- A number that an `Int` holds. -/
def FitsInt (n : ℤ) : Prop := -2147483648 ≤ n ∧ n ≤ 2147483647

instance (n : ℤ) : Decidable (FitsInt n) := inferInstanceAs (Decidable (_ ∧ _))

/-- What the app keeps of an integer, `0` when there is none. -/
def intOf (n : Option ℤ) : ℤ := (n.filter fun n => FitsInt n).getD 0

theorem Agree.toIntOrNull_integer (hp : Agree py p) (n : ℤ) :
    p.toIntOrNull (String.ofList (integer n)) = if FitsInt n then some n else none := by
  have hdigits : ∀ n : ℕ, p.readDigits (Nat.toDigits 10 n) = some n := hp.readDigits_toDigits
  have hread : p.toIntOrNull (String.ofList (integer n)) =
      (some n).filter fun n => -2147483648 ≤ n ∧ n ≤ 2147483647 := by
    unfold Platform.toIntOrNull Platform.readSigned
    rw [String.toList_ofList]
    cases n with
    | negSucc n =>
      show (((p.readDigits (Nat.toDigits 10 (n + 1))).map fun n => -(n : ℤ)).filter _) = _
      rw [hdigits]
      rfl
    | ofNat n =>
      -- a digit is no sign
      have hsign : ∀ c digits, Nat.toDigits 10 n = c :: digits → c ≠ '-' ∧ c ≠ '+' := by
        intro c digits heq
        have hdigit : c.isDigit = true := isDigit_of_mem (heq ▸ List.mem_cons_self)
        constructor
        · rintro rfl
          exact absurd hdigit (by decide)
        · rintro rfl
          exact absurd hdigit (by decide)
      rw [show integer (.ofNat n) = Nat.toDigits 10 n from rfl]
      split
      · next digits heq => exact absurd rfl (hsign _ digits heq).1
      · next digits heq => exact absurd rfl (hsign _ digits heq).2
      · rw [hdigits]
        rfl
  rw [hread, Option.filter_some]
  exact if_congr decide_eq_true_iff rfl rfl

theorem integer_ne_nil (n : ℤ) : integer n ≠ [] := by
  cases n with
  | ofNat n => exact Nat.toDigits_ne_nil
  | negSucc n => exact List.cons_ne_nil _ _

/-- **An integer column.** -/
theorem Agree.intValue_cell (hp : Agree py p) (n : Option ℤ) :
    intValue p (String.ofList (Python.optInteger n)) = intOf n := by
  cases n with
  | none =>
    have htrim : p.trim (String.ofList (Python.optInteger none)) = "" := hp.strip_eq Tidy.nil
    rw [intValue, htrim, if_pos rfl]
    rfl
  | some n =>
    have htrim : p.trim (String.ofList (Python.optInteger (some n))) = String.ofList (integer n) :=
      hp.strip_eq (Python.integer_cleaned n).tidy
    rw [intValue, htrim, if_neg (fun h => integer_ne_nil n (String.ofList_eq_empty_iff.mp h)),
      hp.toIntOrNull_integer, intOf, Option.filter_some]
    simp

/-! ### Doubles -/

/-- The double that the runtime reads for an integer, `0.0` when there is none. -/
def doubleOf (p : Platform) : Option ℤ → BitVec 64
  | none => 0
  | some n => (p.toDoubleOrNull (String.ofList (integer n))).getD 0

/-- A positive number in another unit, `0.0` for any other. -/
def scaledOf (p : Platform) (n : Option ℤ) (divisor : BitVec 64) : BitVec 64 :=
  if isPositive (doubleOf p n) then p.divide (doubleOf p n) divisor else 0

theorem Agree.doubleValue_cell (hp : Agree py p) (n : Option ℤ) :
    doubleValue p (String.ofList (Python.optInteger n)) = doubleOf p n := by
  cases n with
  | none =>
    have htrim : p.trim (String.ofList (Python.optInteger none)) = "" := hp.strip_eq Tidy.nil
    rw [doubleValue, htrim, if_pos rfl]
    rfl
  | some n =>
    have htrim : p.trim (String.ofList (Python.optInteger (some n))) = String.ofList (integer n) :=
      hp.strip_eq (Python.integer_cleaned n).tidy
    rw [doubleValue, htrim, if_neg (fun h => integer_ne_nil n (String.ofList_eq_empty_iff.mp h))]
    rfl

theorem Agree.regexDigit_of_isDigit (hp : Agree py p) {c : Char} (h : c.isDigit = true) :
    p.regexDigit c = true := by
  have hhi := (isDigit_toNat h).2
  rw [hp.regexDigit c (by omega), h]

/-- An integer has nothing that groups its digits. -/
theorem Agree.ungrouped_integer (hp : Agree py p) (n : ℤ) :
    p.ungrouped (String.ofList (integer n)) = integer n := by
  rw [Platform.ungrouped, hp.clean_eq (Python.integer_cleaned n), String.toList_ofList,
    List.filter_eq_self]
  have hgroup : ∀ c : Char, c = '-' ∨ c.isDigit = true → (c ≠ ',' && c ≠ ' ') = true := by
    rintro c (rfl | hdigit)
    · decide
    · have hdigit := isDigit_toNat hdigit
      have hcomma : c ≠ ',' := by
        rintro rfl
        exact absurd hdigit.1 (by decide)
      have hblank : c ≠ ' ' := by
        rintro rfl
        exact absurd hdigit.1 (by decide)
      simp [hcomma, hblank]
  intro c hc
  refine hgroup c ?_
  cases n with
  | ofNat n => exact .inr (isDigit_of_mem hc)
  | negSucc n =>
    rcases List.mem_cons.mp hc with rfl | hc
    · exact .inl rfl
    · exact .inr (isDigit_of_mem hc)

/-- The pattern finds an integer as a whole. -/
theorem Agree.findNumber_integer (hp : Agree py p) (n : ℤ) :
    p.findNumber (integer n) = some (integer n, []) := by
  have hall : ∀ n : ℕ, ∀ c ∈ Nat.toDigits 10 n, p.regexDigit c = true :=
    fun n c hc => hp.regexDigit_of_isDigit (isDigit_of_mem hc)
  cases n with
  | ofNat n =>
    show p.findNumber (Nat.toDigits 10 n) = some (Nat.toDigits 10 n, [])
    have hdigits := hall n
    cases heq : Nat.toDigits 10 n with
    | nil => exact absurd heq Nat.toDigits_ne_nil
    | cons c cs =>
      rw [heq] at hdigits
      rw [Platform.findNumber, if_pos (hdigits c List.mem_cons_self),
        List.takeWhile_eq_self_iff.mpr hdigits, List.dropWhile_eq_nil_iff.mpr hdigits]
  | negSucc n =>
    show p.findNumber ('-' :: Nat.toDigits 10 (n + 1)) = some ('-' :: Nat.toDigits 10 (n + 1), [])
    have hminus : p.regexDigit '-' = false := by
      rw [hp.regexDigit '-' (by decide)]
      decide
    have hhead : (Nat.toDigits 10 (n + 1)).head?.any p.regexDigit = true := by
      cases heq : Nat.toDigits 10 (n + 1) with
      | nil => exact absurd heq Nat.toDigits_ne_nil
      | cons c cs => exact hall (n + 1) c (heq ▸ List.mem_cons_self)
    rw [Platform.findNumber, hminus, if_neg Bool.false_ne_true, hhead, if_pos (by simp),
      List.takeWhile_eq_self_iff.mpr (hall (n + 1)), List.dropWhile_eq_nil_iff.mpr (hall (n + 1))]

/-- **A column in another unit.** -/
theorem Agree.scaledValue_cell (hp : Agree py p) (n : Option ℤ) (divisor : BitVec 64) :
    scaledValue p (String.ofList (Python.optInteger n)) divisor = scaledOf p n divisor := by
  have hfloat : p.toFloat (String.ofList (Python.optInteger n)) = doubleOf p n := by
    cases n with
    | none =>
      have hnone : p.ungrouped (String.ofList (Python.optInteger none)) = [] := by
        rw [Platform.ungrouped, show Python.optInteger none = [] from rfl,
          hp.clean_eq Cleaned.nil]
        rfl
      rw [Platform.toFloat, hnone]
      rfl
    | some n =>
      rw [Platform.toFloat, show Python.optInteger (some n) = integer n from rfl,
        hp.ungrouped_integer, hp.findNumber_integer]
      simp [doubleOf]
  rw [scaledValue, hfloat, scaledOf]

/-! ### Ports, flags and countries -/

/-- **A port column.** -/
theorem Agree.portValue_cell (hp : Agree py p) (port : Port) :
    (portValue p (String.ofList (Nat.toDigits 10 port.val))).1 = port.val := by
  have htrim : p.trim (String.ofList (Nat.toDigits 10 port.val)) =
      String.ofList (Nat.toDigits 10 port.val) :=
    hp.strip_eq (Python.integer_cleaned (port.val : ℤ)).tidy
  have hport := port.isLt
  rw [portValue, htrim]
  by_cases hzero : port.val = 0
  · rw [hzero, if_pos (.inr (by decide))]
    rfl
  · have hread := hp.toIntOrNull_integer (port.val : ℤ)
    rw [if_pos ⟨by omega, by omega⟩] at hread
    have hvalid : validPort (port.val : ℤ) = true := by
      simp [validPort]
      omega
    have hfilter : (p.toIntOrNull (String.ofList (Nat.toDigits 10 port.val))).filter validPort =
        some (port.val : ℤ) := by
      show (p.toIntOrNull (String.ofList (integer (port.val : ℤ)))).filter validPort = _
      rw [hread, Option.filter_some, if_pos hvalid]
    have hne : ¬ (String.ofList (Nat.toDigits 10 port.val) = "" ∨
        String.ofList (Nat.toDigits 10 port.val) = "0") := by
      rintro (h | h)
      · exact Nat.toDigits_ne_nil (String.ofList_eq_empty_iff.mp h)
      · have hnumber := hp.number_toDigits port.val
        have hdigits := congrArg String.toList h
        rw [String.toList_ofList] at hdigits
        rw [hdigits] at hnumber
        exact hzero (hnumber.symm.trans (hp.number_toDigits 0))
    rw [if_neg hne, hfilter]

/-- **A flag.** -/
theorem Agree.boolOrNull_cell (hp : Agree py p) (b : Bool) :
    boolOrNull p (String.ofList (if b then "true".toList else "false".toList)) = some b := by
  have hread : ∀ s ∈ ["true".toList, "false".toList],
      p.lowercase (p.trim (String.ofList s)) = String.ofList s := by
    intro s hs
    have hword : ∀ s ∈ ["true".toList, "false".toList],
        cleanStr s = s ∧ s.map Char.toLower = s ∧ IsAscii s := by decide
    obtain ⟨hclean, hlower, hascii⟩ := hword s hs
    have hcleaned := cleanStr_cleaned s
    rw [hclean] at hcleaned
    rw [hp.strip_eq hcleaned.tidy, hp.lowercase, py.lower_ascii s hascii, hlower]
  unfold boolOrNull
  cases b with
  | true =>
    rw [if_pos rfl, hread _ List.mem_cons_self]
    rfl
  | false =>
    rw [if_neg Bool.false_ne_true, hread _ (by simp)]
    rfl

/-- **A country**: two capital letters stay as they are. -/
theorem Agree.countryValue_cell (hp : Agree py p) {s : Text} (h : isCountry s = true ∨ s = []) :
    countryValue p (String.ofList s) = String.ofList s := by
  unfold countryValue
  rcases h with h | rfl
  · obtain ⟨-, hascii, hupper⟩ := isCountry_spec h
    simp only [isCountry, Bool.and_eq_true, decide_eq_true_eq, List.all_eq_true] at h
    have hunits : utf16Length (String.ofList s) = 2 := by
      have hone : ∀ c ∈ s, (if 0xFFFF < c.toNat then 2 else 1) = 1 := by
        intro c hc
        have := hascii c hc
        rw [if_neg (by omega)]
      rw [utf16Length, String.toList_ofList, List.map_congr_left hone]
      simp [h.1]
    have hletters : (String.ofList s).toList.all p.isLetter = true := by
      rw [String.toList_ofList, List.all_eq_true]
      exact fun c hc => hp.letter c (h.2 c hc)
    rw [if_pos ⟨hunits, hletters⟩, hp.uppercase s hascii, hupper]
  · rw [if_neg (fun h => absurd h.1 (by decide))]

end Values

/-! ### The record of a row -/

section Record

variable {py : Python} {p : Platform} {row : Row}

/-- The columns that the app reads as an `Int`, and their leaves. -/
def intLeaves : List (IntColumn × Path) :=
  [(.Score, ["performance", "score"]), (.NumVpnSessions, ["performance", "sessions"]),
    (.TotalUsers, ["performance", "totalUsers"])]

/-- The columns in other units: megabits, days and gigabytes. -/
def scaledLeaves : List (IntColumn × BitVec 64 × Path) :=
  [(.Speed, 0x412E848000000000, ["performance", "speedMbps"]),
    (.Uptime, 0x4194997000000000, ["performance", "uptimeDays"]),
    (.TotalTraffic, 0x41D0000000000000, ["performance", "totalTrafficGB"])]

/-- The leaf of each text column. -/
def textLeaves : List (TextColumn × Path) :=
  [(.CountryLong, ["identity", "countryLong"]), (.CountryShort, ["identity", "country"]),
    (.LogType, ["logging", "policy"]), (.Operator, ["operator", "name"]),
    (.Message, ["operator", "message"])]

/-- The leaf of each flag. -/
def flagLeaves : List (BoolColumn × Path) :=
  [(.SE_UDP_Supported, (Endpoint.softether .udp).supported),
    (.L2TP_Supported, Endpoint.l2tpIpsec.supported), (.SSTP_Supported, Endpoint.sstp.supported)]

/-- A zero has no sign in a record. -/
def unsigned (bits : BitVec 64) : BitVec 64 := if bits = 0x8000000000000000#64 then 0 else bits

/-- The host name of SSTP. -/
def sstpHostOf (py : Python) (row : Row) : Text :=
  let host := py.normalizeHost (.str (row.text .SSTP_Hostname))
  if host = [] then row.text .SSTP_Hostname else host

/-- The port of SSTP: there is none without a host name, and a port behind the host name stands
    in for a column without one. -/
def sstpPortOf (p : Platform) (row : Row) : ℤ :=
  let suffix := suffixPortOf p (String.ofList (row.text .SSTP_Hostname))
  if row.text .SSTP_Hostname = [] then 0
  else if 0 < (row.port .SSTP_Port).val then (row.port .SSTP_Port).val
  else if validPort suffix then suffix else 0

/-- The profile of a row. -/
def profileIn (p : Platform) (row : Row) : Merger.OpenVpnConfigParser.Decoded :=
  Parser.OpenVpnConfigParser.decode p (String.ofList (row.text .OpenVPN_ConfigData_Base64))

/-- The port column of a transport. -/
def openvpnPortColumn : Transport → PortColumn
  | .tcp => .OpenVPN_TCP_Port
  | .udp => .OpenVPN_UDP_Port

/-- The port of OpenVPN: the profile goes first. -/
def openvpnPortOf (p : Platform) (row : Row) (t : Transport) : ℤ :=
  if 0 < profilePort (profileIn p row) t then profilePort (profileIn p row) t
  else (row.port (openvpnPortColumn t)).val

/-- **A row as a record of the app.** -/
structure ReadAs (py : Python) (p : Platform) (row : Row) (r : VpnServerRecord) : Prop where
  ip : r.get ["identity", "ip"] = .string (String.ofList (row.text .IP))
  hostname : r.get ["identity", "hostname"] =
    .string (String.ofList (py.normalizeHost (.str (row.text .HostName))))
  int : ∀ e ∈ intLeaves, r.get e.2 = .int (intOf (row.int e.1))
  ping : r.get ["performance", "pingMs"] = .double (unsigned (doubleOf p (row.int .Ping)))
  scaled : ∀ e ∈ scaledLeaves,
    r.get e.2.2 = .double (unsigned (scaledOf p (row.int e.1) e.2.1))
  text : ∀ e ∈ textLeaves, r.get e.2 = .string (String.ofList (row.text e.1))
  flag : ∀ e ∈ flagLeaves, r.get e.2 = .boolean (row.flag e.1)
  softetherTcp : r.get (Endpoint.softether .tcp).supported =
      .boolean (0 < (row.port .SE_TCP_Port).val) ∧
    r.get (Endpoint.softether .tcp).port = portOf (row.port .SE_TCP_Port).val
  softetherUdp : r.get (Endpoint.softether .udp).port =
    portOf (if row.flag .SE_UDP_Supported then (row.port .SE_UDP_Port).val else 0)
  openvpn : ∀ t, r.get (Endpoint.openvpn t).port = portOf (openvpnPortOf p row t)
  profile : r.get ["protocols", "openvpn", "rawConfig"] =
    if (profileIn p row).raw = "" then .null else .string (profileIn p row).raw
  sstpHost : r.get ["protocols", "sstp", "hostname"] = .string (String.ofList (sstpHostOf py row))
  sstpPort : r.get Endpoint.sstp.port = portOf (sstpPortOf p row)

/-- The name of a source is beside the leaves. -/
theorem get_sourceAdd (r : VpnServerRecord) (source : String) (path : Path) :
    (Merger.sourceAdd r source).get path = r.get path := by
  have hfields : (Merger.sourceAdd r source).fields = r.fields := by
    unfold Merger.sourceAdd
    dsimp only
    split_ifs <;> rfl
  rw [VpnServerRecord.get, hfields, VpnServerRecord.get]

/-- The writes of a row, without those to OpenVPN. -/
abbrev appTable (py : Python) (p : Platform) (row : Row) : List (Path × Scalar) :=
  rowTable p (appField p row) (String.ofList (py.normalizeHost (.str (row.text .HostName))))
    (String.ofList (row.text .IP))

/-- A leaf of the table; what is no value is the value of a new record. -/
theorem get_appRecord {path : Path} {value : Scalar} (h : (path, value) ∈ appTable py p row)
    (hnew : Merger.isUnset path value = true → Merger.newServer.get path = value)
    (source : String) : (appRecord py p source row).get path = value := by
  rw [appRecord, get_sourceAdd, get_rowTable p h]
  split_ifs with hunset
  · exact hnew hunset
  · rfl

section Leaves

variable (hp : Agree py p) (h : Sanitized py row) (source : String)

include hp h

theorem get_int {e : IntColumn × Path} (he : e ∈ intLeaves) :
    (appRecord py p source row).get e.2 = .int (intOf (row.int e.1)) := by
  have hfield : ∀ c : IntColumn,
      appField p row c.name = String.ofList (Python.optInteger (row.int c)) :=
    fun c => field_appRow hp h (.int c)
  have hmem : ∀ e ∈ intLeaves, (e.2, Scalar.int (intOf (row.int e.1))) ∈ appTable py p row := by
    intro e he
    simp only [intLeaves, List.mem_cons, List.not_mem_nil, or_false] at he
    rcases he with rfl | rfl | rfl
    · rw [← hp.intValue_cell, ← hfield]
      exact List.mem_of_getElem? (i := 2) rfl
    · rw [← hp.intValue_cell, ← hfield]
      exact List.mem_of_getElem? (i := 7) rfl
    · rw [← hp.intValue_cell, ← hfield]
      exact List.mem_of_getElem? (i := 9) rfl
  refine get_appRecord (hmem e he) (fun hunset => ?_) source
  have hzero : intOf (row.int e.1) = 0 := by
    simpa [Merger.isUnset, Merger.isFalsyScalar] using hunset
  have hnew : ∀ e ∈ intLeaves, Merger.newServer.get e.2 = .int 0 := by decide
  rw [hzero, hnew e he]

theorem get_text {e : TextColumn × Path} (he : e ∈ textLeaves) :
    (appRecord py p source row).get e.2 = .string (String.ofList (row.text e.1)) := by
  have hfield : ∀ c : TextColumn, appField p row c.name = String.ofList (row.text c) :=
    fun c => field_appRow hp h (.text c)
  have hmem : ∀ e ∈ textLeaves,
      (e.2, Scalar.string (String.ofList (row.text e.1))) ∈ appTable py p row := by
    intro e he
    simp only [textLeaves, List.mem_cons, List.not_mem_nil, or_false] at he
    rcases he with rfl | rfl | rfl | rfl | rfl
    · rw [← hfield]
      exact List.mem_of_getElem? (i := 5) rfl
    · rw [← hp.countryValue_cell h.country, ← hfield]
      exact List.mem_of_getElem? (i := 6) rfl
    · rw [← hfield]
      exact List.mem_of_getElem? (i := 11) rfl
    · rw [← hfield]
      exact List.mem_of_getElem? (i := 12) rfl
    · rw [← hfield]
      exact List.mem_of_getElem? (i := 13) rfl
  refine get_appRecord (hmem e he) (fun hunset => ?_) source
  have hleaf : ∀ e ∈ textLeaves,
      e.2.getLast? ≠ some "portSource" ∧ Merger.newServer.get e.2 = .string "" := by decide
  obtain ⟨hlast, hnew⟩ := hleaf e he
  have hempty : String.ofList (row.text e.1) = "" := by
    simpa [Merger.isUnset, hlast] using hunset
  rw [hempty, hnew]

theorem get_flag {e : BoolColumn × Path} (he : e ∈ flagLeaves) :
    (appRecord py p source row).get e.2 = .boolean (row.flag e.1) := by
  have hfield : ∀ c : BoolColumn,
      decide (boolOrNull p (appField p row c.name) = some true) = row.flag c := by
    intro c
    have hcell : appField p row c.name =
        String.ofList (if row.flag c then "true".toList else "false".toList) :=
      field_appRow hp h (.flag c)
    rw [hcell, hp.boolOrNull_cell]
    simp
  have hmem : ∀ e ∈ flagLeaves, (e.2, Scalar.boolean (row.flag e.1)) ∈ appTable py p row := by
    intro e he
    simp only [flagLeaves, List.mem_cons, List.not_mem_nil, or_false] at he
    rcases he with rfl | rfl | rfl
    · rw [← hfield]
      exact List.mem_of_getElem? (i := 17) rfl
    · rw [← hfield]
      exact List.mem_of_getElem? (i := 20) rfl
    · rw [← hfield]
      exact List.mem_of_getElem? (i := 21) rfl
  refine get_appRecord (hmem e he) (fun hunset => ?_) source
  have hnew : ∀ e ∈ flagLeaves, Merger.newServer.get e.2 = .boolean false := by decide
  have hfalse : row.flag e.1 = false := by
    simpa [Merger.isUnset, Merger.isFalsyScalar] using hunset
  rw [hfalse, hnew e he]

omit hp h in
/-- A double that is written: a zero is the one of a new record. -/
theorem get_double {path : Path} {bits : BitVec 64}
    (hmem : (path, .double bits) ∈ appTable py p row)
    (hnew : Merger.newServer.get path = .double 0) :
    (appRecord py p source row).get path = .double (unsigned bits) := by
  rw [appRecord, get_sourceAdd, get_rowTable p hmem, hnew, unsigned]
  by_cases hzero : bits = 0#64
  · simp [hzero, Merger.isUnset, Merger.isFalsyScalar]
  · by_cases hsigned : bits = 0x8000000000000000#64
    · simp [hsigned, Merger.isUnset, Merger.isFalsyScalar]
    · simp [hzero, hsigned, Merger.isUnset, Merger.isFalsyScalar]

theorem get_ping : (appRecord py p source row).get ["performance", "pingMs"] =
    .double (unsigned (doubleOf p (row.int .Ping))) := by
  have hfield : appField p row "Ping" = String.ofList (Python.optInteger (row.int .Ping)) :=
    field_appRow hp h (.int .Ping)
  refine get_double source ?_ (by decide)
  rw [← hp.doubleValue_cell, ← hfield]
  exact List.mem_of_getElem? (i := 3) rfl

theorem get_scaled {e : IntColumn × BitVec 64 × Path} (he : e ∈ scaledLeaves) :
    (appRecord py p source row).get e.2.2 =
      .double (unsigned (scaledOf p (row.int e.1) e.2.1)) := by
  have hfield : ∀ c : IntColumn,
      appField p row c.name = String.ofList (Python.optInteger (row.int c)) :=
    fun c => field_appRow hp h (.int c)
  have hmem : ∀ e ∈ scaledLeaves,
      (e.2.2, Scalar.double (scaledOf p (row.int e.1) e.2.1)) ∈ appTable py p row := by
    intro e he
    simp only [scaledLeaves, List.mem_cons, List.not_mem_nil, or_false] at he
    rcases he with rfl | rfl | rfl
    · rw [← hp.scaledValue_cell, ← hfield]
      exact List.mem_of_getElem? (i := 4) rfl
    · rw [← hp.scaledValue_cell, ← hfield]
      exact List.mem_of_getElem? (i := 8) rfl
    · rw [← hp.scaledValue_cell, ← hfield]
      exact List.mem_of_getElem? (i := 10) rfl
  have hnew : ∀ e ∈ scaledLeaves, Merger.newServer.get e.2.2 = .double 0 := by decide
  exact get_double source (hmem e he) (hnew e he)

theorem portValue_field (c : PortColumn) :
    (portValue p (appField p row c.name)).1 = (row.port c).val := by
  rw [← hp.portValue_cell]
  exact congrArg (fun raw => (portValue p raw).1) (field_appRow hp h (.port c))

omit hp h in
/-- A port that is written: none is the one of a new record. -/
theorem get_port {e : Endpoint} {port : ℤ} (hmem : (e.port, portOf port) ∈ appTable py p row)
    (hnew : Merger.newServer.get e.port = .null) :
    (appRecord py p source row).get e.port = portOf port := by
  refine get_appRecord hmem (fun hunset => ?_) source
  unfold portOf at hunset ⊢
  split_ifs at hunset ⊢ with hpos
  · have hzero : port = 0 := by simpa [Merger.isUnset, Merger.isFalsyScalar] using hunset
    omega
  · exact hnew

theorem get_softetherTcp :
    (appRecord py p source row).get (Endpoint.softether .tcp).supported =
        .boolean (0 < (row.port .SE_TCP_Port).val) ∧
      (appRecord py p source row).get (Endpoint.softether .tcp).port =
        portOf (row.port .SE_TCP_Port).val := by
  have hport : (portValue p (appField p row "SE_TCP_Port")).1 = (row.port .SE_TCP_Port).val :=
    portValue_field hp h .SE_TCP_Port
  constructor
  · have hmem : ((Endpoint.softether .tcp).supported,
        Scalar.boolean (0 < (row.port .SE_TCP_Port).val)) ∈ appTable py p row := by
      have hpos : decide (0 < (row.port .SE_TCP_Port).val) =
          decide (0 < (portValue p (appField p row "SE_TCP_Port")).1) := by
        rw [hport]
        simp
      rw [hpos]
      exact List.mem_of_getElem? (i := 14) rfl
    refine get_appRecord hmem (fun hunset => ?_) source
    have hfalse : decide (0 < (row.port .SE_TCP_Port).val) = false := by
      simpa [Merger.isUnset, Merger.isFalsyScalar] using hunset
    rw [hfalse]
    decide
  · refine get_port source ?_ (by decide)
    rw [← hport]
    exact List.mem_of_getElem? (i := 15) rfl

theorem get_softetherUdp : (appRecord py p source row).get (Endpoint.softether .udp).port =
    portOf (if row.flag .SE_UDP_Supported then (row.port .SE_UDP_Port).val else 0) := by
  have hport : (portValue p (appField p row "SE_UDP_Port")).1 = (row.port .SE_UDP_Port).val :=
    portValue_field hp h .SE_UDP_Port
  have hcell : appField p row "SE_UDP_Supported" =
      String.ofList (if row.flag .SE_UDP_Supported then "true".toList else "false".toList) :=
    field_appRow hp h (.flag .SE_UDP_Supported)
  have hdeclared : (if boolOrNull p (appField p row "SE_UDP_Supported") = some true then
      (portValue p (appField p row "SE_UDP_Port")).1 else 0) =
      if row.flag .SE_UDP_Supported then ((row.port .SE_UDP_Port).val : ℤ) else 0 := by
    rw [hcell, hp.boolOrNull_cell, hport]
    simp
  refine get_port source ?_ (by decide)
  rw [← hdeclared]
  exact List.mem_of_getElem? (i := 18) rfl

omit h in
/-- The host name that the app writes for SSTP. -/
theorem sstpHost_text {s : Text} (hs : Cleaned s) :
    sstpHost p (String.ofList s) = String.ofList
      (if py.normalizeHost (.str s) = [] then s else py.normalizeHost (.str s)) := by
  rw [sstpHost, hp.hostOf_eq hs, hp.strip_eq hs.tidy]
  by_cases hempty : py.normalizeHost (.str s) = []
  · rw [if_pos (String.ofList_eq_empty_iff.mpr hempty), if_pos hempty]
  · rw [if_neg fun hof => hempty (String.ofList_eq_empty_iff.mp hof), if_neg hempty]

theorem get_sstp : (appRecord py p source row).get ["protocols", "sstp", "hostname"] =
      .string (String.ofList (sstpHostOf py row)) ∧
    (appRecord py p source row).get Endpoint.sstp.port = portOf (sstpPortOf p row) := by
  have hhost : appField p row "SSTP_Hostname" = String.ofList (row.text .SSTP_Hostname) :=
    field_appRow hp h (.text .SSTP_Hostname)
  have hport : (portValue p (appField p row "SSTP_Port")).1 = (row.port .SSTP_Port).val :=
    portValue_field hp h .SSTP_Port
  have hread := sstpHost_text hp (h.cleaned .SSTP_Hostname)
  have hnil : py.normalizeHost (.str []) = [] := by
    have hlower : py.lower [] = [] := by rw [py.lower_ascii [] (by simp [IsAscii])]; rfl
    show py.normalizeHostStr [] = []
    rw [Python.normalizeHostStr, hlower]
    decide
  have hname : (if appField p row "SSTP_Hostname" = "" then ""
      else sstpHost p (appField p row "SSTP_Hostname")) = String.ofList (sstpHostOf py row) := by
    rw [hhost, hread, sstpHostOf]
    by_cases hempty : row.text .SSTP_Hostname = []
    · simp [hempty, hnil]
    · rw [if_neg fun hof => hempty (String.ofList_eq_empty_iff.mp hof)]
  have hnone : (appField p row "SSTP_Hostname" = "" ∨
      sstpHost p (appField p row "SSTP_Hostname") = "") ↔ row.text .SSTP_Hostname = [] := by
    rw [hhost, hread, String.ofList_eq_empty_iff, String.ofList_eq_empty_iff]
    -- columns 22 and 23 of the table
    constructor
    · rintro (hempty | hempty)
      · exact hempty
      · split_ifs at hempty with hof
        · exact hempty
        · exact absurd hempty hof
    · exact .inl
  have hvalue : (if appField p row "SSTP_Hostname" = "" ∨
      sstpHost p (appField p row "SSTP_Hostname") = "" then 0
      else sstpPort p (appField p row "SSTP_Hostname") (appField p row "SSTP_Port")) =
        sstpPortOf p row := by
    rw [if_congr hnone rfl rfl, sstpPort, effectivePort, hport, hhost, sstpPortOf]
    have hlt := (row.port .SSTP_Port).isLt
    by_cases hpos : 0 < (row.port .SSTP_Port).val
    · have hvalid : validPort ((row.port .SSTP_Port).val : ℤ) = true := by
        simp [validPort]
        omega
      simp [hpos, hvalid]
    · simp [hpos]
  constructor
  · refine get_appRecord ?_ (fun hunset => ?_) source
    · rw [← hname]
      exact List.mem_of_getElem? (i := 22) rfl
    · have hempty : String.ofList (sstpHostOf py row) = "" := by
        simpa [Merger.isUnset] using hunset
      rw [hempty]
      decide
  · refine get_port source ?_ (by decide)
    rw [← hvalue]
    exact List.mem_of_getElem? (i := 23) rfl

theorem get_openvpn (t : Transport) : (appRecord py p source row).get (Endpoint.openvpn t).port =
    portOf (openvpnPortOf p row t) := by
  have hprofile : profileOf p (appField p row) = profileIn p row :=
    congrArg (Parser.OpenVpnConfigParser.decode p)
      (field_appRow hp h (.text .OpenVPN_ConfigData_Base64))
  have hport : (portValue p (appField p row (openvpnColumn t))).1 =
      (row.port (openvpnPortColumn t)).val := by
    cases t with
    | tcp => exact portValue_field hp h .OpenVPN_TCP_Port
    | udp => exact portValue_field hp h .OpenVPN_UDP_Port
  rw [appRecord, get_sourceAdd, get_openvpnPort, hprofile, hport, openvpnPortOf]

/-- **A row is read as it was published.** -/
theorem readAs_appRecord : ReadAs py p row (appRecord py p source row) where
  ip := by
    refine get_appRecord (List.mem_of_getElem? (i := 1) rfl) (fun hunset => ?_) source
    have hempty : String.ofList (row.text .IP) = "" := by simpa [Merger.isUnset] using hunset
    exact absurd (String.ofList_eq_empty_iff.mp hempty) h.ip_ne
  hostname := by
    refine get_appRecord (List.mem_of_getElem? (i := 0) rfl) (fun hunset => ?_) source
    have hempty : String.ofList (py.normalizeHost (.str (row.text .HostName))) = "" := by
      simpa [Merger.isUnset] using hunset
    exact absurd (String.ofList_eq_empty_iff.mp hempty) h.host
  int _ he := get_int hp h source he
  ping := get_ping hp h source
  scaled _ he := get_scaled hp h source he
  text _ he := get_text hp h source he
  flag _ he := get_flag hp h source he
  softetherTcp := get_softetherTcp hp h source
  softetherUdp := get_softetherUdp hp h source
  openvpn := get_openvpn hp h source
  profile := by
    have hprofile : profileOf p (appField p row) = profileIn p row :=
      congrArg (Parser.OpenVpnConfigParser.decode p)
        (field_appRow hp h (.text .OpenVPN_ConfigData_Base64))
    rw [appRecord, get_sourceAdd, (get_profile p _ _ _).2, hprofile]
  sstpHost := (get_sstp hp h source).1
  sstpPort := (get_sstp hp h source).2

end Leaves

end Record

/-! ### The published file -/

/-- A file without rows does not pass the self-check. -/
theorem ne_nil_of_selfCheck {py : Python} {rows : List Row} (h : selfCheck py rows = true) :
    rows ≠ [] := by
  rintro rfl
  have hempty : parseEmergencyCsv py (renderCsv []) =
      some (malformed "header only: no data rows") := by
    have hrows : ∀ row ∈ ([] : List Row), Sanitized py row := by simp
    have hplain : '\uFFFD' ∉ renderCsv [] := by
      rw [mem_renderCsv hrows]
      simp
    have hrecords : csvReader (renderCsv []) = some [header] :=
      (csvReader_renderCsv hrows).trans (if_pos (by simp))
    rw [parseEmergencyCsv, if_neg (strip_renderCsv []), head?_renderCsv, if_neg (by decide),
      if_neg hplain, hrecords]
    rfl
  rw [selfCheck, hempty] at h
  simp [malformed] at h

/-- **What the publisher writes is what the app reads**: the file is valid, no row is rejected,
    and there is a record for each row, which holds what the row carries. -/
theorem published_file_read {py : Python} {p : Platform} (hp : Agree py p) (rows : List Row)
    (hrows : ∀ row ∈ rows, ∃ raw, sanitizeRow py raw = some row)
    (hcheck : selfCheck py rows = true) (hips : (rows.map fun row => row.text .IP).Nodup)
    (hhosts : ∀ row ∈ rows, ¬ HostsOverflow p row) (source : String) :
    ∃ records issues,
      parse p (String.ofList (renderCsv rows)) source = .ok (.valid records 0 issues) ∧
        List.Forall₂ (ReadAs py p) rows records := by
  have hsanitized : ∀ row ∈ rows, Sanitized py row := by
    intro row hrow
    obtain ⟨raw, hraw⟩ := hrows row hrow
    exact sanitizeRow_sanitized hraw
  obtain ⟨issues, hparse⟩ := parse_renderCsv hp (ne_nil_of_selfCheck hcheck) hsanitized hcheck hips
    hhosts source
  refine ⟨_, issues, hparse, ?_⟩
  rw [List.forall₂_map_right_iff]
  exact List.forall₂_same.mpr fun row hrow => readAs_appRecord hp (hsanitized row hrow) source

/-- A row with a score. -/
def scored (score : ℤ) : Row :=
  { rowSample "home".toList with int := fun c => if c = .Score then some score else none }

theorem sanitizeRow_scored (score : ℤ) :
    ∃ raw, sanitizeRow Python.ascii raw = some (scored score) := by
  have hsample : Sanitized Python.ascii (rowSample "home".toList) :=
    sanitizeRow_sanitized (sanitizeRow_sample (by decide))
  have hscored : Sanitized Python.ascii (scored score) :=
    ⟨hsample.cleaned, hsample.ip, hsample.host, hsample.country, hsample.base64, hsample.sstp,
      hsample.schema, hsample.tag⟩
  exact ⟨_, hscored.sanitizeRow_cell⟩

theorem selfCheck_scored {score : ℤ} (h : (integer score).length ≤ FIELD_LIMIT) :
    selfCheck Python.ascii [scored score] = true := by
  obtain ⟨raw, hraw⟩ := sanitizeRow_scored score
  have hsample : ∀ c ∈ COLUMNS, ((rowSample "home".toList).cell c).length ≤ FIELD_LIMIT := by
    decide
  have htext : ∀ c, '\uFFFD' ∉ (rowSample "home".toList).text c := by
    intro c
    cases c <;> decide
  refine (survives_of_readable (List.cons_ne_nil _ _) ?_ ?_).2
  · exact List.forall_mem_singleton.mpr (sanitizeRow_sanitized hraw)
  · refine List.forall_mem_singleton.mpr ⟨htext, fun c => ?_⟩
    have hcell : (scored score).cell c = (rowSample "home".toList).cell c ∨
        (scored score).cell c = integer score := by
      cases c with
      | int c =>
        by_cases hc : c = .Score
        · exact .inr (by simp [Row.cell, scored, hc, Python.optInteger])
        · exact .inl (by simp [Row.cell, scored, hc, rowSample])
      | text c => exact .inl rfl
      | port c => exact .inl rfl
      | flag c => exact .inl rfl
      | schema_version => exact .inl rfl
      | SourceTag => exact .inl rfl
    rcases hcell with hcell | hcell
    · rw [hcell]
      exact hsample c (mem_COLUMNS c)
    · rw [hcell]
      exact h

/-- The tables of ASCII on both sides. -/
theorem agree_ascii : Agree Python.ascii Platform.plain where
  whitespace c hc := by
    simp only [Platform.plain, Security.isWhitespace, Bool.or_eq_true, Bool.and_eq_true,
      decide_eq_true_eq] at hc
    simp only [isSpace, Bool.or_eq_true, Bool.and_eq_true, decide_eq_true_eq]
    rcases hc with (rfl | hc) | hc
    · decide
    · omega
    · omega
  regexSpace c hc := by
    simp only [Platform.plain, Merger.isSpace, Bool.or_eq_true, Bool.and_eq_true,
      decide_eq_true_eq] at hc
    simp only [isSpace, Bool.or_eq_true, Bool.and_eq_true, decide_eq_true_eq]
    rcases hc with rfl | hc
    · decide
    · omega
  digit _ _ := rfl
  regexDigit _ _ := rfl
  letter c hc := by
    show (c.isUpper || c.isLower) = true
    rw [hc, Bool.true_or]
  lowercase s := by
    simp [Platform.plain, Security.lowercase, Python.ascii]
  uppercase s _ := by
    simp [Platform.plain]

theorem not_hostsOverflow_scored (score : ℤ) : ¬ HostsOverflow Platform.plain (scored score) := by
  have hhost : ¬ Platform.plain.HostOverflows "vpn1" ∧
      ¬ Platform.plain.HostOverflows (Platform.plain.hostOf "vpn1") := by decide
  have hsstp : ¬ SstpOverflows Platform.plain "" := by decide
  rintro (hlong | hlong | hlong)
  · exact hhost.1 hlong
  · exact hhost.2 hlong
  · exact hsstp hlong

/-- The runtime that decodes Base64 has the same tables. -/
theorem agree_groups : Agree Python.groups Platform.plain := { agree_ascii with }

theorem published_file_read_sample : ∃ records issues,
    parse Platform.plain (String.ofList (renderCsv (sampleRows.take 2))) "" =
        .ok (.valid records 0 issues) ∧
      List.Forall₂ (ReadAs Python.groups Platform.plain) (sampleRows.take 2) records := by
  have hrows : ∀ row ∈ sampleRows.take 2, row ∈ sampleRows := fun _ => List.mem_of_mem_take
  have hsurvives := survives_of_readable (by decide)
    (fun row hrow => sanitized_sampleRows row (hrows row hrow))
    fun row hrow => sampleRows_readable row (hrows row hrow)
  exact published_file_read agree_groups _
    (fun row hrow => ⟨_, (sanitized_sampleRows row (hrows row hrow)).sanitizeRow_cell⟩)
    hsurvives.2 (by decide) (by unfold HostsOverflow; decide) ""

/-- **A score that no `Int` holds** is published and not read. -/
theorem large_score_not_read :
    (∃ raw, sanitizeRow Python.ascii raw = some (scored 3000000000)) ∧
      selfCheck Python.ascii [scored 3000000000] = true ∧
      (scored 3000000000).int .Score = some 3000000000 ∧
      ∃ r issues, parse Platform.plain (String.ofList (renderCsv [scored 3000000000])) "" =
          .ok (.valid [r] 0 issues) ∧ r.get ["performance", "score"] = .int 0 := by
  obtain ⟨raw, hraw⟩ := sanitizeRow_scored 3000000000
  have hsanitized := sanitizeRow_sanitized hraw
  have hcheck : selfCheck Python.ascii [scored 3000000000] = true := selfCheck_scored (by decide)
  obtain ⟨issues, hparse⟩ := parse_renderCsv agree_ascii (by simp)
    (by simpa using hsanitized) hcheck (by simp)
    (by simpa using not_hostsOverflow_scored 3000000000) ""
  refine ⟨⟨raw, hraw⟩, hcheck, rfl, _, issues, hparse, ?_⟩
  have hread := (readAs_appRecord agree_ascii hsanitized "").int (.Score, ["performance", "score"])
    List.mem_cons_self
  exact hread

end SoftEther.Publisher

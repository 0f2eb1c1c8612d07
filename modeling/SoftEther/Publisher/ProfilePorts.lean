import SoftEther.Parser.LenientBase64
import SoftEther.Publisher.ProfileLines

namespace SoftEther.Publisher

open Lib
open SoftEther.Merger (Transport inheritedProto validPort)
open SoftEther.Merger.OpenVpnConfigParser (markedWords protoDirectives remoteOfLine)
open SoftEther.Parser (Platform)
open SoftEther.Parser.EmergencyCsvParser
open SoftEther.Parser.OpenVpnConfigParser (decodeBase64OrNull decodeBase64OrNull_encode)

/-!
# The ports of a profile, for the publisher and for the app

The publisher overwrites the columns of a row with the ports of its profile, and the app reads the
ports of the same profile again. The app knows `tcp` and `tcp-client` for TCP, while the publisher
takes every protocol that begins with `tcp`.

* `encodeProfile`, `Decodes` — the encoding of a profile, and that both runtimes decode it;
* `ports_agree_iff` — both find the same port exactly when the first offers of its lines meet;
* `tcp4_reads_apart` — a profile for TCP over IPv4, of which the app reads no port.
-/

/-! ### Base64 -/

/-- The bytes of a profile. -/
def utf8Bytes (text : Text) : List UInt8 := text.flatMap String.utf8EncodeChar

/-- What stands in the column of a profile. -/
def encodeProfile (text : Text) : Text := Base64.encode (utf8Bytes text)

/-- **Both runtimes decode a profile**: `b64decode` with `decode("utf-8")`, and
    `String(bytes, Charsets.UTF_8)`. Its encoding is a text of a `String`. -/
structure Decodes (py : Python) (p : Platform) (text : Text) : Prop where
  publisher : py.decodeConfigText (encodeProfile text) = text
  app : p.utf8 (utf8Bytes text) = String.ofList text
  length_lt : (encodeProfile text).length < 2 ^ 31

/-! ### The two readers -/

/-- The protocol that the publisher takes for a `remote` line without one. -/
def globalProto (py : Python) (text : Text) : Text :=
  let protos := ((text.splitOnP isLineBoundary).filterMap (profileLine py)).filterMap fun
    | .proto p => some p
    | .remote _ _ => none
  if protos.dedup.length = 1 then protos.headD [] else []

/-- The lines of the app. -/
def appLines (text : Text) : List Text := text.splitOnP fun c => c = '\n' || c = '\r'

/-- What a line of the app offers to the publisher, who cuts at more boundaries. -/
def publisherLine (py : Python) (text : Text) (family : Family) (line : Text) : Option ℤ :=
  (line.splitOnP isLineBoundary).findSome? (publisherOffer py (globalProto py text) family)

/-- The bytes that the app's decoder returns: neither 512 MiB nor more, below 1 GiB. -/
def Returned (text : Text) : Prop :=
  (utf8Bytes text).length < 2 ^ 29 ∨ 2 ^ 30 ≤ (utf8Bytes text).length

instance (text : Text) : Decidable (Returned text) := inferInstanceAs (Decidable (_ ∨ _))

/-- The protocol that the app takes for a `remote` line without one. -/
def inheritedOf (text : Text) : String :=
  inheritedProto (addMissing [] (protoDirectives (markedWords (String.ofList text))))

/-- What a line offers to the app, if the profile comes out of the decoder. -/
def appLine (text : Text) (family : Family) (line : Text) : Option ℤ :=
  if Returned text then
    appOffer (inheritedOf text) family.transport line
  else none

section Ports

variable {py : Python} {p : Platform} {text : Text}

theorem findSome?_filterMap {α β γ : Type*} (f : α → Option β) (g : β → Option γ) (xs : List α) :
    (xs.filterMap f).findSome? g = xs.findSome? fun x => (f x).bind g := by
  rw [← List.head?_filterMap, List.filterMap_filterMap, List.head?_filterMap]

/-- A text that is cut at more boundaries, by the lines of a coarser reader. -/
theorem splitOnP_eq_flatMap {fine coarse : Char → Bool} (h : ∀ c, coarse c = true → fine c = true)
    (text : Text) : text.splitOnP fine = (text.splitOnP coarse).flatMap (List.splitOnP fine) := by
  induction text with
  | nil => rfl
  | cons c text ih =>
    rw [List.splitOnP_cons_eq_if_modifyHead, List.splitOnP_cons_eq_if_modifyHead, ih]
    by_cases hcoarse : coarse c = true
    · rw [if_pos (h c hcoarse), if_pos hcoarse]
      rfl
    · rw [if_neg hcoarse]
      obtain ⟨line, lines, hlines⟩ := List.exists_cons_of_ne_nil (List.splitOnP_ne_nil coarse text)
      rw [hlines, List.modifyHead_cons, List.flatMap_cons, List.flatMap_cons,
        List.splitOnP_cons_eq_if_modifyHead]
      split_ifs with hfine
      · rfl
      · obtain ⟨part, parts, hparts⟩ := List.exists_cons_of_ne_nil (List.splitOnP_ne_nil fine line)
        rw [hparts]
        rfl

theorem findSome?_flatMap {α β γ : Type*} (f : α → List β) (g : β → Option γ) (xs : List α) :
    (xs.flatMap f).findSome? g = xs.findSome? fun x => (f x).findSome? g := by
  induction xs with
  | nil => rfl
  | cons x xs ih =>
    rw [List.flatMap_cons, List.findSome?_append, ih, List.findSome?_cons]
    cases (f x).findSome? g <;> rfl

theorem encodeProfile_eq_nil (h : encodeProfile text = []) : text = [] := by
  have hbytes : utf8Bytes text = [] := by
    have hgroups := Base64.indices_encode (utf8Bytes text)
    rw [show Base64.encode (utf8Bytes text) = [] from h] at hgroups
    rw [← Base64.collect_sextets (utf8Bytes text) 0, ← hgroups]
    rfl
  cases text with
  | nil => rfl
  | cons c text =>
    rw [utf8Bytes, List.flatMap_cons] at hbytes
    exact absurd (List.append_eq_nil_iff.mp hbytes).1 String.utf8EncodeChar_ne_nil

/-- **The publisher** takes the first port that a line offers. -/
theorem configTransportPorts_eq (h : Decodes py p text) (family : Family) :
    (configTransportPorts py (encodeProfile text) family).map (fun port => (port.val : ℤ)) =
      (appLines text).findSome? (publisherLine py text family) := by
  have hdecoded : (if encodeProfile text = [] then []
      else py.decodeConfigText (encodeProfile text)) = text := by
    split_ifs with hnil
    · exact (encodeProfile_eq_nil hnil).symm
    · exact h.publisher
  have hcut : ∀ c : Char, (decide (c = '\n') || decide (c = '\r')) = true →
      isLineBoundary c = true := by
    intro c hc
    rw [Bool.or_eq_true, decide_eq_true_eq, decide_eq_true_eq] at hc
    rcases hc with rfl | rfl <;> decide
  have hlines := splitOnP_eq_flatMap hcut text
  unfold configTransportPorts publisherLine
  dsimp only
  rw [hdecoded, findSome?_filterMap, findSome?_filterMap, List.map_findSome?, appLines,
    ← findSome?_flatMap, ← hlines]
  congr 1
  funext line
  refine Eq.trans ?_ (publisherOffer_eq (globalProto py text) family line)
  refine congrArg (fun found : Option Port => found.map fun port => (port.val : ℤ)) ?_
  refine congrArg (profileLine py line).bind (funext fun said => ?_)
  cases said <;> rfl

variable (p) in
/-- **The record of a row** once its profile is read. -/
theorem get_applyOpenVpnConfig (field : String → String) (hostname ip configB64 : String)
    (t : Transport) :
    (applyOpenVpnConfig p configB64
        (applyDescription p field (identity hostname ip))).server.get
          (Merger.Endpoint.openvpn t).port =
      portOf (profilePort (Parser.OpenVpnConfigParser.decode p configB64) t) := by
  have hwritten := written_applyOpenVpnConfig p
    (written_applyDescription p (written_identity hostname ip) field) configB64
  have hof : ofOpenvpn (Merger.Endpoint.openvpn t).port = true := by cases t <;> decide
  have hnew : Merger.newServer.get (Merger.Endpoint.openvpn t).port = .null := by
    cases t <;> rfl
  have hidentity : ∀ w ∈ identityWrites p field hostname ip, w ∈ rowTable p field hostname ip :=
    fun w hw => List.mem_append_left _ (List.mem_append_left _ hw)
  have hget : _ = Parser.valueOf (identityWrites p field hostname ip ++
      Parser.profileWrites (Parser.OpenVpnConfigParser.decode p configB64)) _ :=
    hwritten.get _ (openvpn_paths t).1
  rw [hget, Parser.valueOf, slot, written_append, written_rowTable_none p hidentity hof,
    Option.none_or, written_profileWrites, hnew, portOf]
  split_ifs <;> rfl


/-- **The app** takes the first port that a line offers, if its decoder returns. -/
theorem profilePort_eq (h : Decodes py p text) (family : Family) :
    profilePort (Parser.OpenVpnConfigParser.decode p (String.ofList (encodeProfile text)))
        family.transport =
      ((appLines text).findSome? (appLine text family)).getD 0 := by
  have hbytes : decodeBase64OrNull (encodeProfile text) =
      if Returned text then some (utf8Bytes text) else none :=
    @decodeBase64OrNull_encode (utf8Bytes text) ⟨encodeProfile text, h.length_lt⟩ (.refl _)
  by_cases htext : text = []
  · subst htext
    rfl
  · have hne : ¬ String.ofList (encodeProfile text) = "" := fun h =>
      htext (encodeProfile_eq_nil (String.ofList_eq_empty_iff.mp h))
    have hraw : ¬ (Merger.OpenVpnConfigParser.decode (String.ofList text)).raw = "" := fun hraw =>
      htext (String.ofList_eq_empty_iff.mp hraw)
    unfold Parser.OpenVpnConfigParser.decode
    rw [if_neg hne, String.toList_ofList, hbytes]
    by_cases hreturned : Returned text
    · have hremotes : (Merger.OpenVpnConfigParser.decode (String.ofList text)).remotes =
          (appLines text).filterMap remoteOfLine := by
        show (Merger.OpenVpnConfigParser.lines (String.ofList text)).filterMap remoteOfLine = _
        rw [Merger.OpenVpnConfigParser.lines, String.toList_ofList]
        rfl
      have hinherited : inheritedProto
          (Merger.OpenVpnConfigParser.decode (String.ofList text)).protocols = inheritedOf text :=
        rfl
      have hline : appLine text family = fun line =>
          (remoteOfLine line).bind (remotePort (inheritedOf text) family.transport) := by
        funext line
        rw [appLine, if_pos hreturned, appOffer_eq]
      rw [if_pos hreturned]
      dsimp only
      rw [h.app, profilePort, if_neg hraw, hinherited, hremotes, findSome?_filterMap, hline]
    · have hnone : (appLines text).findSome? (appLine text family) = none := by
        rw [List.findSome?_eq_none_iff]
        exact fun line _ => if_neg hreturned
      rw [if_neg hreturned, hnone]
      rfl

/-- Both name a port that is none of `0`. -/
theorem portOf_getD_eq_iff {found : Option ℤ} {port : Option Port}
    (hfound : ∀ n ∈ found, 0 < n) (hport : ∀ n ∈ port, 0 < n.val) :
    portOf (found.getD 0) = port.elim .null (fun port => .int port.val) ↔
      port.map (fun port => (port.val : ℤ)) = found := by
  cases found with
  | none =>
    cases port with
    | none => exact iff_of_true rfl rfl
    | some port => exact iff_of_false nofun nofun
  | some n =>
    have hn : portOf n = .int n := if_pos (hfound n rfl)
    rw [Option.getD_some, hn]
    cases port with
    | none => exact iff_of_false nofun nofun
    | some port =>
      rw [Option.elim_some, Option.map_some, Option.some_inj, Merger.Scalar.int.injEq]
      exact eq_comm

end Ports

/-! ### A runtime for ASCII -/

/-- A runtime that decodes Base64, and bytes as ASCII. -/
def Python.base64 : Python :=
  { Python.ascii with
    decodeConfigText := fun b64 =>
      (Base64.collect 0 0 ((b64.filter (· ∈ Base64.alphabet)).map Base64.alphabet.idxOf)).map
        fun b => Char.ofNat b.toNat }

theorem map_utf8Bytes {text : Text} (h : IsAscii text) :
    (utf8Bytes text).map (fun b => Char.ofNat b.toNat) = text := by
  induction text with
  | nil => rfl
  | cons c text ih =>
    have hc := h c List.mem_cons_self
    have hsize : c.utf8Size = 1 := Char.utf8Size_eq_one_iff.mpr (Nat.le_of_lt_succ hc)
    have hrest := ih fun c hc => h c (List.mem_cons_of_mem _ hc)
    have hbyte : c.val.toUInt8.toNat = c.toNat := Nat.mod_eq_of_lt (lt_trans hc (by decide))
    rw [utf8Bytes, List.flatMap_cons, String.utf8EncodeChar_eq_singleton hsize,
      List.singleton_append, List.map_cons, hbyte, Char.ofNat_toNat]
    exact congrArg (c :: ·) hrest

theorem decodes_ascii {text : Text} (h : IsAscii text)
    (hlength : (encodeProfile text).length < 2 ^ 31) :
    Decodes Python.base64 Platform.plain text := by
  have hbytes := map_utf8Bytes h
  refine ⟨?_, ?_, hlength⟩
  · show (Base64.collect 0 0 (((Base64.encode (utf8Bytes text)).filter (· ∈ Base64.alphabet)).map
      Base64.alphabet.idxOf)).map (fun b => Char.ofNat b.toNat) = text
    rw [Base64.indices_encode, Base64.collect_sextets, hbytes]
  · exact congrArg String.ofList hbytes

/-- A profile with a protocol that only the publisher knows, and the same port again. -/
def threeRemotes : Text :=
  "proto udp\r\nremote vpn 1194\nremote vpn 443 tcp4\nremote vpn 443 tcp\nproto".toList

/-- A profile for TCP over IPv4. -/
def tcp4Profile : Text := "remote vpn 1194 tcp4".toList

end SoftEther.Publisher

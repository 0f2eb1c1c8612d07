import Mathlib.Data.List.DropRight
import SoftEther.Parser.RowLeaves
import SoftEther.Publisher.Merge

namespace SoftEther.Publisher

open SoftEther.Merger (OpenVpnRemote Transport validPort toInt)
open SoftEther.Merger.OpenVpnConfigParser (remoteOfLine)
open SoftEther.Parser.EmergencyCsvParser (remotePort validPort_pos)
open SoftEther.Security (lowercase)

/-!
# The port that a line of a profile offers

For the publisher and for the app the third word of a `remote` line is a port. What a `remote` line
is, which texts are integers and which protocols are of a family, each decides in its own way.

* `publisherOffer`, `appOffer` — the port that a line offers, by its words;
* `publisherOffer_eq`, `appOffer_eq` — it is the one that each finds in the line;
* `OffersMeet` — the first lines that offer a port to one and to the other offer the same one.
-/

/-! ### The publisher -/

section Publisher

variable {py : Python}

variable (py) in
/-- **What a line offers to the publisher**: its third word, if `int` takes it for a port and the
    first one is `remote`. The fourth word, or else the profile, names the family that its protocol
    begins with. -/
def publisherOffer (globalProto : Text) (family : Family) (line : Text) : Option ℤ :=
  match words line with
  | key :: _ :: port :: rest =>
    let inline := rest.head?.elim [] py.lower
    if ¬ (key.head? = some '#' ∨ key.head? = some ';') ∧ py.lower key = "remote".toList ∧
        familyOf (if inline = [] then globalProto else inline) = some family then
      (parseInt py port).filter validPort
    else none
  | _ => none

/-- The transport of a family. -/
def Family.transport : Family → Transport
  | .tcp => .tcp
  | .udp => .udp

theorem toNat_lt_of_port {port : ℤ} (h : 1 ≤ port ∧ port ≤ 65535) : port.toNat < 65536 := by
  omega

/-- The port that the loop takes from what a line says. -/
def saidPort (globalProto : Text) (family : Family) : ProfileLine → Option Port
  | .proto _ => none
  | .remote port inline =>
    if familyOf (if inline = [] then globalProto else inline) = some family then
      if h : 1 ≤ port ∧ port ≤ 65535 then some ⟨port.toNat, toNat_lt_of_port h⟩ else none
    else none

theorem saidPort_remote (globalProto : Text) (family : Family) (port : ℤ) (inline : Text) :
    (saidPort globalProto family (.remote port inline)).map (fun port => (port.val : ℤ)) =
      if familyOf (if inline = [] then globalProto else inline) = some family then
        (some port).filter validPort
      else none := by
  unfold saidPort
  dsimp only
  by_cases hfamily : familyOf (if inline = [] then globalProto else inline) = some family
  · rw [if_pos hfamily, if_pos hfamily, Option.filter_some]
    by_cases hrange : 1 ≤ port ∧ port ≤ 65535
    · have hnat : (port.toNat : ℤ) = port := by omega
      rw [dif_pos hrange, if_pos (by simpa [validPort] using hrange), Option.map_some, hnat]
    · rw [dif_neg hrange, if_neg (by simpa [validPort] using hrange), Option.map_none]
  · rw [if_neg hfamily, if_neg hfamily, Option.map_none]

/-- **The offer is what the publisher finds** in the line. -/
theorem publisherOffer_eq (globalProto : Text) (family : Family) (line : Text) :
    ((profileLine py line).bind (saidPort globalProto family)).map (fun port => (port.val : ℤ)) =
      publisherOffer py globalProto family line := by
  have hdirectives : "remote".toList ≠ "proto".toList := by decide
  unfold profileLine publisherOffer
  rcases words line with _ | ⟨key, rest⟩
  · rfl
  dsimp only
  by_cases hcomment : key.head? = some '#' ∨ key.head? = some ';'
  · rw [if_pos hcomment]
    rcases rest with _ | ⟨host, _ | ⟨port, rest⟩⟩
    · rfl
    · rfl
    · exact (if_neg fun h => h.1 hcomment).symm
  rw [if_neg hcomment]
  by_cases hproto : py.lower key = "proto".toList
  · rw [if_pos hproto]
    have hnone : ∀ said : Option Text,
        ((said.map fun proto => ProfileLine.proto (py.lower proto)).bind
          (saidPort globalProto family)).map (fun port => (port.val : ℤ)) = none := by
      rintro (_ | proto) <;> rfl
    rw [hnone]
    rcases rest with _ | ⟨host, _ | ⟨port, rest⟩⟩
    · rfl
    · rfl
    · exact (if_neg fun h => hdirectives (h.2.1.symm.trans hproto)).symm
  rw [if_neg hproto]
  by_cases hremote : py.lower key = "remote".toList
  · rw [if_pos hremote]
    rcases rest with _ | ⟨host, _ | ⟨port, rest⟩⟩
    · rfl
    · rfl
    · dsimp only
      cases parseInt py port with
      | none => exact (ite_self none).symm
      | some n =>
        rw [Option.map_some, Option.bind_some, saidPort_remote]
        simp only [hcomment, hremote, not_false_eq_true, true_and]
  · rw [if_neg hremote]
    rcases rest with _ | ⟨host, _ | ⟨port, rest⟩⟩
    · rfl
    · rfl
    · exact (if_neg fun h => hremote h.2.1).symm

theorem publisherOffer_pos {globalProto : Text} {family : Family} {line : Text} {port : ℤ}
    (h : publisherOffer py globalProto family line = some port) : 0 < port := by
  unfold publisherOffer at h
  split at h
  · rw [ite_eq_iff] at h
    rcases h with ⟨-, h⟩ | ⟨-, h⟩
    · exact validPort_pos (Option.filter_eq_some_iff.mp h).2
    · cases h
  · cases h

end Publisher

/-! ### The app -/

/-- A line without the spaces at its ends. -/
def trimmed (line : Text) : Text :=
  (line.dropWhile Security.isWhitespace).rdropWhile Security.isWhitespace

/-- **What a line offers to the app**: its third word, if `toInt` takes it for a port and the line
    begins with `remote` and a blank. The fourth word, or else the profile, is one of the protocols
    that the app knows for the family. -/
def appOffer (inherited : String) (t : Transport) (line : Text) : Option ℤ :=
  match Merger.words [] (trimmed line) with
  | _ :: _ :: port :: rest =>
    if "remote ".toList <+: (trimmed line).map Char.toLower ∧
        Merger.familyOf (rest.head?.elim inherited lowercase) = some t then
      (some (toInt port)).filter validPort
    else none
  | _ => none

section App

variable {line : Text}

theorem toList_trim (line : Text) :
    (Security.trim (String.ofList line)).toList = trimmed line := by
  rw [Security.trim, String.toList_ofList, String.toList_ofList]
  rfl

/-- A word is not empty. -/
theorem ne_of_mem_words {w : String} (acc cs : Text) (h : w ∈ Merger.words acc cs) : w ≠ "" := by
  have hword : ∀ acc : Text, acc ≠ [] → String.ofList acc.reverse ≠ "" := by
    intro acc hacc hnil
    exact hacc (List.reverse_eq_nil_iff.mp (String.ofList_eq_empty_iff.mp hnil))
  induction cs generalizing acc with
  | nil =>
    rw [Merger.words] at h
    split_ifs at h with hacc
    · exact absurd h List.not_mem_nil
    · exact List.mem_singleton.mp h ▸ hword acc hacc
  | cons c cs ih =>
    rw [Merger.words] at h
    split_ifs at h with hspace hacc
    · exact ih [] h
    · rcases List.mem_cons.mp h with rfl | h
      · exact hword acc hacc
      · exact ih [] h
    · exact ih (c :: acc) h

/-- Lower case is its own lower case. -/
theorem toLower_toLower (c : Char) : c.toLower.toLower = c.toLower := by
  have hsmall : ∀ n < 128, (Char.ofNat n).toLower.toLower = (Char.ofNat n).toLower := by decide
  by_cases hupper : c.isUpper = true
  · have hcodes : 65 ≤ c.val ∧ c.val ≤ 90 := of_decide_eq_true hupper
    have hhigh : c.toNat ≤ 90 := hcodes.2
    simpa only [Char.ofNat_toNat] using hsmall c.toNat (by omega)
  · have hsame : c.toLower = c := by
      unfold Char.toLower
      exact dif_neg fun h => hupper (decide_eq_true h)
    rw [hsame, hsame]

/-- The protocol on a line is in lower case already. -/
theorem lowercase_lowercase (s : String) : lowercase (lowercase s) = lowercase s := by
  have hfun : Char.toLower ∘ Char.toLower = Char.toLower := funext toLower_toLower
  rw [lowercase, lowercase, String.toList_ofList, List.map_map, hfun]

/-- The family of a remote, with a protocol on its line or without. -/
theorem transportOf_eq {rest : List String} (hrest : ∀ w ∈ rest, w ≠ "") (host : String)
    (port : Option ℤ) (inherited : String) :
    Merger.transportOf ⟨host, port, lowercase (rest.head?.getD "")⟩ inherited =
      Merger.familyOf (rest.head?.elim inherited lowercase) := by
  unfold Merger.transportOf
  dsimp only
  rw [lowercase_lowercase]
  cases rest with
  | nil => rfl
  | cons word rest =>
    have hset : ¬ lowercase word = "" := by
      intro h
      have hlist := congrArg String.toList h
      rw [lowercase, String.toList_ofList] at hlist
      exact hrest word List.mem_cons_self
        (String.toList_inj.mp (List.map_eq_nil_iff.mp hlist))
    exact congrArg Merger.familyOf (if_neg hset)

/-- **The offer is what the app finds** in the line. -/
theorem appOffer_eq (inherited : String) (t : Transport) :
    (remoteOfLine line).bind (remotePort inherited t) = appOffer inherited t line := by
  have hne : ∀ w ∈ Merger.words [] (trimmed line), w ≠ "" := fun w hw => ne_of_mem_words [] _ hw
  have hlower : (lowercase (Security.trim (String.ofList line))).toList =
      (trimmed line).map Char.toLower := by
    rw [lowercase, String.toList_ofList, toList_trim]
  unfold remoteOfLine appOffer
  dsimp only
  rw [hlower, toList_trim]
  by_cases hstarts : "remote ".toList <+: (trimmed line).map Char.toLower
  · rw [if_pos hstarts]
    rcases hwords : Merger.words [] (trimmed line) with _ | ⟨key, _ | ⟨host, _ | ⟨port, rest⟩⟩⟩
    · rfl
    · rfl
    · exact ite_self none
    · rw [hwords] at hne
      have hsecond : (port :: rest)[1]? = rest.head? := by
        rw [List.head?_eq_getElem?]
        rfl
      dsimp only
      rw [Option.bind_some, remotePort, hsecond,
        transportOf_eq fun w hw => hne w (by simp [hw])]
      by_cases hfamily : Merger.familyOf (rest.head?.elim inherited lowercase) = some t
      · rw [if_pos hfamily, if_pos ⟨hstarts, hfamily⟩, List.head?_cons, Option.map_some,
          Option.filter_filter]
        simp only [Bool.and_self]
      · rw [if_neg hfamily, if_neg fun h => hfamily h.2]
  · rw [if_neg hstarts, Option.bind_none]
    rcases Merger.words [] (trimmed line) with _ | ⟨key, _ | ⟨host, _ | ⟨port, rest⟩⟩⟩
    · rfl
    · rfl
    · rfl
    · exact (if_neg fun h => hstarts h.1).symm

theorem appOffer_pos {inherited : String} {t : Transport} {port : ℤ}
    (h : appOffer inherited t line = some port) : 0 < port := by
  unfold appOffer at h
  split at h
  · split_ifs at h
    exact validPort_pos (Option.filter_eq_some_iff.mp h).2
  · cases h

end App

/-! ### The first offers -/

/-- **The first lines that offer a port** to one reader and to the other offer the same one. -/
def OffersMeet (a b : Text → Option ℤ) : List Text → Prop
  | [] => True
  | line :: lines =>
    match a line, b line with
    | none, none => OffersMeet a b lines
    | some n, some m => n = m
    | some n, none => lines.findSome? b = some n
    | none, some m => lines.findSome? a = some m

theorem offersMeet_iff {a b : Text → Option ℤ} {lines : List Text} :
    lines.findSome? a = lines.findSome? b ↔ OffersMeet a b lines := by
  induction lines with
  | nil => exact iff_of_true rfl trivial
  | cons line lines ih =>
    rw [List.findSome?_cons, List.findSome?_cons, OffersMeet]
    cases ha : a line with
    | none =>
      cases hb : b line with
      | none => exact ih
      | some m => exact Iff.rfl
    | some n =>
      cases hb : b line with
      | none => exact eq_comm
      | some m => exact Option.some_inj

end SoftEther.Publisher

import Mathlib.Data.List.DropRight
import SoftEther.Security.Fingerprint

namespace SoftEther.Merger

open SoftEther.Security (isWhitespace trim lowercase)

/-!
# Texts of the collector (`VpnUtil`)

What the merger reads out of a text: a number, an address, a host name. As in the source these
are searches, so anything may stand around what is found.

* `clean` — the text without its odd spaces;
* `toInt` — the first integer of a text;
* `validIp`, `normalizeIp` — a dotted quad, and the first one of a text;
* `normalizeHost` — a host name without scheme and port.

Letters and digits are those of ASCII.
-/

/-- `\s` of a regular expression. -/
def isSpace (c : Char) : Bool := c = ' ' || (9 ≤ c.toNat && c.toNat ≤ 13)

/-- `replace(Regex("\\s+"), " ")`; `inRun` when the character before was such a space. -/
def collapseSpaces (inRun : Bool) : List Char → List Char
  | [] => []
  | c :: cs =>
    if isSpace c then
      if inRun then collapseSpaces true cs else ' ' :: collapseSpaces true cs
    else c :: collapseSpaces false cs

/-- `clean`. The no-break space becomes a space and the zero-width one goes. -/
def clean (value : String) : String :=
  let s := (value.toList.map fun c => if c.toNat = 0xA0 then ' ' else c).filter (·.toNat ≠ 0x200B)
  trim (String.ofList (collapseSpaces false s))

/-- `Regex("-?\\d+").find`: the sign and the digits. -/
def findNumber : List Char → Option (Bool × List Char)
  | [] => none
  | c :: cs =>
    if c.isDigit then some (false, (c :: cs).takeWhile Char.isDigit)
    else if c = '-' && (cs.head?.any Char.isDigit) then some (true, cs.takeWhile Char.isDigit)
    else findNumber cs

/-- The number that digits write. -/
def digitsValue (digits : List Char) : ℕ := digits.foldl (fun n c => 10 * n + (c.toNat - 48)) 0

/-- `toInt` of a text; what does not fit an `Int` counts as `0`. -/
def toInt (value : String) : Int :=
  match findNumber ((clean value).toList.filter fun c => c ≠ ',' && c ≠ ' ') with
  | none => 0
  | some (negative, digits) =>
    let n : Int := if negative then -(digitsValue digits : Int) else digitsValue digits
    if -2147483648 ≤ n ∧ n ≤ 2147483647 then n else 0

/-- `validIp`. -/
def validIp (ip : String) : Bool :=
  let parts := ip.toList.splitOn '.'
  parts.length = 4 &&
    parts.all fun p => !p.isEmpty && p.all Char.isDigit && decide (digitsValue p ≤ 255)

/-- A character of a word, for `\b`. -/
def isWord (c : Char) : Bool := c.isAlphanum || c = '_'

/-- `(?:\d{1,3}\.){dots}\d{1,3}\b` at the head of a text. -/
def ipAt (dots : ℕ) (s : List Char) : Option (List Char) :=
  let digits := s.takeWhile Char.isDigit
  let rest := s.dropWhile Char.isDigit
  if digits.length = 0 || 3 < digits.length then none
  else
    match dots, rest with
    | 0, [] => some digits
    | 0, c :: _ => if isWord c then none else some digits
    | dots + 1, '.' :: rest => (ipAt dots rest).map fun ip => digits ++ '.' :: ip
    | _ + 1, _ => none

/-- The first address of a text; `inWord` when a character of a word stands before it. -/
def findIp (inWord : Bool) : List Char → Option (List Char)
  | [] => none
  | c :: cs =>
    match if inWord then none else ipAt 3 (c :: cs) with
    | some ip => some ip
    | none => findIp (isWord c) cs

/-- `normalizeIp`. -/
def normalizeIp (value : String) : String :=
  match findIp false (clean value).toList with
  | none => ""
  | some ip => if validIp (String.ofList ip) then String.ofList ip else ""

/-- `replace(Regex("^[a-z]+://"), "")`. -/
def withoutScheme (s : List Char) : List Char :=
  match s.takeWhile Char.isLower, s.dropWhile Char.isLower with
  | _ :: _, ':' :: '/' :: '/' :: rest => rest
  | _, _ => s

/-- `normalizeHost`. -/
def normalizeHost (value : String) : String :=
  let s := withoutScheme ((lowercase (clean value)).toList.rdropWhile (· = '.'))
  if s.count ':' = 1 && !validIp (String.ofList s) then
    String.ofList (s.takeWhile (· ≠ ':'))
  else String.ofList s

end SoftEther.Merger

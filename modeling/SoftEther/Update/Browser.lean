import Mathlib.Data.List.DropRight
import SoftEther.Lib.DotSegments

namespace SoftEther.Update

/-!
# Where a browser goes

A browser passes over tabs and line breaks, takes a backslash of an `https` address for a slash, and
removes dot segments whose dots may be escaped.

* `octets` — a text without its escapes;
* `Browser.visit` — the host that a browser asks, and the segments of the path;
* `visit_of_stripped` — both, by the parts of an address;
* `Browser.Confined` — the address is on a host of this project, and its path is one of the
  repository when the dot segments have been removed;
* `EntersRepository`, `confined_iff` — the same by counts of the segments;
* `InRepository`, `confined_iff_staysBelow` — when the path as it is written is in the repository,
  by the segments that follow.
-/

open Lib

/-! ### Texts -/

/-- `ALLOWED_RELEASE_HOSTS`, which are those of `PUBLISHED_URL_ALLOWED_HOSTS`. -/
def ALLOWED_RELEASE_HOSTS : List (List Char) :=
  ["github.com".toList, "raw.githubusercontent.com".toList]

/-- The owner of the repository. -/
def owner : List Char := "morteza-taheri".toList

/-- Its name. -/
def repository : List Char := "SoftEthergai".toList

/-- `RELEASE_REPO_PATH`. -/
def RELEASE_REPO_PATH : List Char := '/' :: owner ++ '/' :: repository

/-- The value of a digit of sixteen. -/
def hexValue (c : Char) : Option ℕ :=
  if 48 ≤ c.toNat ∧ c.toNat ≤ 57 then some (c.toNat - 48)
  else if 65 ≤ c.toNat ∧ c.toNat ≤ 70 then some (c.toNat - 55)
  else if 97 ≤ c.toNat ∧ c.toNat ≤ 102 then some (c.toNat - 87)
  else none

/-- The UTF-8 octets of a text, an escape being the octet that it writes. -/
def octets : List Char → List UInt8
  | [] => []
  | '%' :: a :: b :: cs =>
    match hexValue a, hexValue b with
    | some high, some low => UInt8.ofNat (16 * high + low) :: octets cs
    | _, _ => 0x25 :: octets (a :: b :: cs)
  | c :: cs => String.utf8EncodeChar c ++ octets cs

/-! ### Addresses -/

/-- What a browser takes for a slash. -/
def isSlash (c : Char) : Bool := c = '/' || c = '\\'

/-- The end of the authority. -/
def endsAuthority (c : Char) : Bool := isSlash c || c = '?' || c = '#'

/-- The end of the path. -/
def endsPath (c : Char) : Bool := c = '?' || c = '#'

/-- A segment of a path: its dots may be escaped. -/
def segmentOf (text : List Char) : Segment (List UInt8) :=
  if octets text = [0x2E] then .here
  else if octets text = [0x2E, 0x2E] then .up
  else .name (octets text)

/-- The segments behind the first slash. -/
def segmentsOf (path : List Char) : List (Segment (List UInt8)) :=
  ((path.drop 1).splitOnP isSlash).map segmentOf

/-- Behind the last `@` of an authority, and in front of the port. -/
def hostText (authority : List Char) : List Char :=
  (authority.rtakeWhile (· ≠ '@')).takeWhile (· ≠ ':')

/-- What is left of an address: no control character or space around it, and no tab or line break
anywhere. -/
def stripped (url : List Char) : List Char :=
  ((url.dropWhile fun c => c.toNat ≤ 32).rdropWhile fun c => c.toNat ≤ 32).filter fun c =>
    c ≠ '\t' ∧ c ≠ '\n' ∧ c ≠ '\r'

/-- What stands behind the scheme and its slashes. -/
def behindScheme (url : List Char) : List Char :=
  (((stripped url).dropWhile (· ≠ ':')).drop 1).dropWhile isSlash

/-- The authority of an address. -/
def authorityText (url : List Char) : List Char := (behindScheme url).takeWhile (!endsAuthority ·)

/-- The path of an address, as it is written. -/
def pathText (url : List Char) : List Char :=
  ((behindScheme url).dropWhile (!endsAuthority ·)).takeWhile (!endsPath ·)

/-- **A browser**, by what it makes of the name of a host. A name that is one of this project's but
for case is that one. -/
structure Browser where
  toAscii : List Char → Option (List Char)
  toAscii_allowed : ∀ host, host.map Char.toLower ∈ ALLOWED_RELEASE_HOSTS →
    toAscii host = some (host.map Char.toLower)

namespace Browser

variable (b : Browser)

/-- The host and the path of an `https` address. -/
def visit (url : List Char) : Option (Option (List Char) × List (Segment (List UInt8))) :=
  if ((stripped url).takeWhile (· ≠ ':')).map Char.toLower = "https".toList ∧
      ':' ∈ stripped url then
    some (b.toAscii (hostText (authorityText url)), segmentsOf (pathText url))
  else none

/-- The address leads to one of the hosts. -/
def OnHost (url : List Char) : Prop :=
  ∃ host path, b.visit url = some (some host, path) ∧ host ∈ ALLOWED_RELEASE_HOSTS

/-- **The address leads into the repository**: one of the hosts, and behind the removal of the dot
segments the path starts with the owner and the repository. -/
def Confined (url : List Char) : Prop :=
  ∃ host path, b.visit url = some (some host, path) ∧ host ∈ ALLOWED_RELEASE_HOSTS ∧
    [octets owner, octets repository] <+: walk [] path

/-- **A browser asks the host of the authority**, which ends where it ends for a browser, and
takes what follows for the path. -/
theorem visit_of_stripped {url front authority tail : List Char}
    (hs : stripped url = front ++ ':' :: '/' :: '/' :: (authority ++ tail))
    (hscheme : front.map Char.toLower = "https".toList) (hfront : ∀ c ∈ front, c ≠ ':')
    (hne : authority ≠ []) (hopen : ∀ c ∈ authority, endsAuthority c = false)
    (hclosed : ∀ c ∈ tail.head?, endsAuthority c = true)
    (hallowed : (hostText authority).map Char.toLower ∈ ALLOWED_RELEASE_HOSTS) :
    pathText url = tail.takeWhile (!endsPath ·) ∧ b.OnHost url := by
  have hcolon : ∀ c ∈ front, decide (c ≠ ':') = true := fun c hc => decide_eq_true (hfront c hc)
  have htakeScheme : (stripped url).takeWhile (· ≠ ':') = front := by
    rw [hs, List.takeWhile_append_of_pos hcolon, List.takeWhile_cons_of_neg (by decide),
      List.append_nil]
  have hdropScheme : (stripped url).dropWhile (· ≠ ':') =
      ':' :: '/' :: '/' :: (authority ++ tail) := by
    rw [hs, List.dropWhile_append_of_pos hcolon, List.dropWhile_cons_of_neg (by decide)]
  have hrest : behindScheme url = authority ++ tail := by
    obtain ⟨c, cs, rfl⟩ := List.exists_cons_of_ne_nil hne
    have hslash : ¬ isSlash c = true := by
      intro hslash
      have hfirst := hopen c List.mem_cons_self
      simp [endsAuthority, hslash] at hfirst
    rw [behindScheme, hdropScheme, List.drop_one, List.tail_cons,
      List.dropWhile_cons_of_pos (by decide), List.dropWhile_cons_of_pos (by decide),
      List.cons_append, List.dropWhile_cons_of_neg hslash]
  have hall : ∀ c ∈ authority, (!endsAuthority c) = true := fun c hc => by rw [hopen c hc]; rfl
  have htake : authorityText url = authority := by
    rw [authorityText, hrest, List.takeWhile_append_of_pos hall]
    cases tail with
    | nil => exact List.append_nil _
    | cons c cs => rw [List.takeWhile_cons_of_neg (by simp [hclosed c rfl]), List.append_nil]
  have hdrop : pathText url = tail.takeWhile (!endsPath ·) := by
    rw [pathText, hrest, List.dropWhile_append_of_pos hall]
    cases tail with
    | nil => rfl
    | cons c cs => rw [List.dropWhile_cons_of_neg (by simp [hclosed c rfl])]
  refine ⟨hdrop, (hostText authority).map Char.toLower, segmentsOf (pathText url), ?_, hallowed⟩
  rw [visit, htakeScheme, if_pos ⟨hscheme, by rw [hs]; simp⟩, htake,
    b.toAscii_allowed _ hallowed]

/-- The segments of the path. -/
def path (url : List Char) : List (Segment (List UInt8)) :=
  ((b.visit url).map Prod.snd).getD []

theorem path_of_onHost {url : List Char} (h : b.OnHost url) :
    b.path url = segmentsOf (pathText url) := by
  obtain ⟨host, path, hvisit, -⟩ := h
  rw [Browser.path, hvisit]
  unfold visit at hvisit
  split_ifs at hvisit
  exact (congrArg Prod.snd (Option.some.inj hvisit)).symm

end Browser

/-- **The path enters the repository for good**: it comes back to the root and enters the owner,
comes back to the owner and enters the repository, and no initial part of what follows has more
`..` than names. -/
def EntersRepository (path : List (Segment (List UInt8))) : Prop :=
  ∃ front middle back, path = front ++ .name (octets owner) ::
      (middle ++ .name (octets repository) :: back) ∧
    ClimbsBack front ∧ (NeverClimbs middle ∧ ups middle = names middle) ∧ NeverClimbs back

theorem Browser.confined_iff (b : Browser) (url : List Char) :
    b.Confined url ↔ b.OnHost url ∧ EntersRepository (b.path url) := by
  unfold EntersRepository
  rw [← prefix_walk_iff]
  constructor
  · rintro ⟨host, path, hvisit, hhost, hprefix⟩
    refine ⟨⟨host, path, hvisit, hhost⟩, ?_⟩
    rwa [Browser.path, hvisit]
  · rintro ⟨⟨host, path, hvisit, hhost⟩, hfront⟩
    rw [Browser.path, hvisit] at hfront
    exact ⟨host, path, hvisit, hhost, hfront⟩

/-! ### Below the repository -/

/-- **The test of a path as it is written**, which both checks make. -/
def InRepository (path : List Char) : Prop :=
  path = RELEASE_REPO_PATH ∨ RELEASE_REPO_PATH ++ ['/'] <+: path

instance (path : List Char) : Decidable (InRepository path) := by
  unfold InRepository
  infer_instance

/-- A path in the repository starts with the two directories. -/
theorem segmentsOf_of_inRepository {path : List Char} (h : InRepository path) :
    segmentsOf path =
      .name (octets owner) :: .name (octets repository) :: (segmentsOf path).drop 2 := by
  have howner : ∀ c ∈ owner, isSlash c = false := by
    simpa using (show owner.all (!isSlash ·) = true from rfl)
  have hrepository : ∀ c ∈ repository, isSlash c = false := by
    simpa using (show repository.all (!isSlash ·) = true from rfl)
  rcases h with rfl | ⟨rest, rfl⟩
  · rfl
  · have hsplit : segmentsOf (RELEASE_REPO_PATH ++ ['/'] ++ rest) =
        (List.splitOnP isSlash (owner ++ '/' :: (repository ++ '/' :: rest))).map segmentOf := by
      rw [segmentsOf, RELEASE_REPO_PATH]
      simp
    rw [hsplit, List.splitOnP_append_cons_of_forall_mem howner '/' rfl,
      List.splitOnP_append_cons_of_forall_mem hrepository '/' rfl, List.map_cons, List.map_cons]
    rfl

/-- **A path that is in the repository as it is written** leads into it exactly when what follows
stays below. -/
theorem Browser.confined_iff_staysBelow (b : Browser) {url : List Char} (h : b.OnHost url)
    (hpath : InRepository (pathText url)) :
    b.Confined url ↔
      StaysBelow (octets owner) (octets repository) ((b.path url).drop 2) := by
  have hsegments := segmentsOf_of_inRepository hpath
  rw [b.confined_iff, EntersRepository, ← prefix_walk_iff, ← prefix_walk_below_iff,
    b.path_of_onHost h, ← hsegments]
  exact and_iff_right h

end SoftEther.Update

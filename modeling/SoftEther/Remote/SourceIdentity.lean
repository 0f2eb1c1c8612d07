import SoftEther.Lib.Substring
import SoftEther.Parser.Text

namespace SoftEther.Remote

open Lib
open SoftEther.Parser (Platform)

/-!
# Where a source is, and where its fetches may end (`SourceIdentity.kt`, `RedirectPolicy.kt`)

* `SourceIdentity` — a source that can be fetched;
* `SourceUrl.parse` — the identity that an address writes;
* `SourceUrl.Writes`, `SourceUrl.writes_of_parse` — the text of an address that is parsed: a
  scheme, the authority and a path, and nothing else before the path;
* `RedirectPolicy` — the check of a hop, and that of the address where a fetch ends;
* `Belongs`, `Secure`, `belongs_of_rejectionReason` — what a hop that is not rejected is.
-/

/-! ### The identity -/

inductive SourceKind where
  | CANONICAL_HTML | CANONICAL_API | BOOTSTRAP_MIRROR | DISCOVERED_MIRROR | CACHED_MIRROR
  | EMERGENCY_CSV | MANUAL
  deriving DecidableEq

def HTTPS : String := "https"

def HTTP : String := "http"

structure SourceIdentity where
  kind : SourceKind
  scheme : String
  host : String
  port : Option ℤ
  path : String
  mirrorId : Option String
  discoveryOrigin : Option String
  deriving DecidableEq

namespace SourceIdentity

variable (identity : SourceIdentity)

def isCanonical : Bool := identity.kind = .CANONICAL_HTML || identity.kind = .CANONICAL_API

/-- `host`, or `host:port`. -/
def authority : String :=
  match identity.port with
  | none => identity.host
  | some port => identity.host ++ ":" ++ toString port

def url : String := identity.scheme ++ "://" ++ identity.authority ++ identity.path

def sourceTag : String :=
  match identity.kind with
  | .CANONICAL_HTML => "html"
  | .CANONICAL_API => "api"
  | .EMERGENCY_CSV => "emergency"
  | .MANUAL => "manual"
  | .BOOTSTRAP_MIRROR | .DISCOVERED_MIRROR | .CACHED_MIRROR =>
    identity.mirrorId.getD "mirror_unnumbered"

end SourceIdentity

/-! ### The address of a source -/

namespace SourceUrl

/-- `[a-z0-9]`. -/
def isAlphanum (c : Char) : Bool := ('a' ≤ c && c ≤ 'z') || ('0' ≤ c && c ≤ '9')

/-- `HOST_RE`. -/
def isHost (host : List Char) : Bool :=
  host.head?.any isAlphanum && host.getLast?.any isAlphanum &&
    host.all fun c => isAlphanum c || c = '.' || c = '_' || c = '-'

section Parse

variable (p : Platform)

/-- `IPV4_RE`. -/
def isIpv4 (host : List Char) : Bool :=
  let parts := host.splitOn '.'
  parts.length = 4 && parts.all fun part => part ≠ [] && part.all p.regexDigit

/-- `it.toIntOrNull() in 0..255`. -/
def isOctet (part : List Char) : Bool :=
  (p.toIntOrNull (String.ofList part)).any fun n => 0 ≤ n && n ≤ 255

/-- What the source requires of a host. -/
def hostOk (host : List Char) : Bool :=
  isHost host && host.getLast? ≠ some '.' &&
    if isIpv4 p host then (host.splitOn '.').all (isOctet p) else host.contains '.'

/-- The host, and the port when there is one colon; `none` when the port is none. -/
def hostAndPort (authority : List Char) : Option (String × Option ℤ) :=
  if authority.count ':' = 1 then
    ((p.toIntOrNull (String.ofList (authority.dropWhile (· ≠ ':')).tail)).filter
      fun port => 1 ≤ port ∧ port ≤ 65535).map
        fun port => (p.lowercase (String.ofList (authority.takeWhile (· ≠ ':'))), some port)
  else some (p.lowercase (String.ofList authority), none)

/-- `parse`. -/
def parse (url : String) (kind : SourceKind) (discoveryOrigin : Option String) :
    Option SourceIdentity :=
  let (schemeText, remainder) := (cut "://".toList (p.trim url).toList).getD ([], [])
  let scheme := p.lowercase (String.ofList schemeText)
  let authority := remainder.takeWhile (· ≠ '/')
  if scheme ≠ HTTPS ∧ scheme ≠ HTTP then none
  else if remainder = [] then none
  else if '@' ∈ authority then none
  else
    (hostAndPort p authority).bind fun (host, port) =>
      if hostOk p host.toList then
        some
          { kind := kind
            scheme := scheme
            host := host
            port := port
            -- behind the first slash, which is put back
            path := String.ofList ('/' :: (remainder.dropWhile (· ≠ '/')).tail)
            mirrorId := none
            discoveryOrigin := discoveryOrigin }
      else none

end Parse

/-! ### The text that is parsed -/

variable {p : Platform}

/-- The text of a port. -/
def WritesPort (p : Platform) (text : List Char) : Option ℤ → Prop
  | none => text = []
  | some port => 1 ≤ port ∧ port ≤ 65535 ∧
      ∃ digits, text = ':' :: digits ∧ p.toIntOrNull (String.ofList digits) = some port

/-- **An address writes an identity**: without what surrounds it, it is the scheme, the host, the
    port and then nothing or a path; no credentials stand before the host. -/
structure Writes (p : Platform) (url : String) (identity : SourceIdentity) : Prop where
  scheme : identity.scheme = HTTPS ∨ identity.scheme = HTTP
  host : isHost identity.host.toList = true
  text : ∃ schemeText hostText portText path,
    (p.trim url).toList = schemeText ++ ("://".toList ++ (hostText ++ (portText ++ path))) ∧
    p.lowercase (String.ofList schemeText) = identity.scheme ∧
    p.lowercase (String.ofList hostText) = identity.host ∧
    WritesPort p portText identity.port ∧
    (path = [] ∨ path.head? = some '/') ∧ '@' ∉ hostText ++ portText ∧ '/' ∉ hostText ++ portText

/-- What follows the first character of a kind, that character included, begins with it. -/
theorem dropWhile_ne_cons {c : Char} {text : List Char} (h : c ∈ text) :
    text.dropWhile (· ≠ c) = c :: (text.dropWhile (· ≠ c)).tail := by
  induction text with
  | nil => exact absurd h List.not_mem_nil
  | cons d text ih =>
    by_cases hd : d = c
    · rw [List.dropWhile_cons_of_neg (by simp [hd]), hd, List.tail_cons]
    · have hmem : c ∈ text := (List.mem_cons.mp h).resolve_left (Ne.symm hd)
      rw [List.dropWhile_cons_of_pos (by simp [hd])]
      exact ih hmem

/-- What `hostAndPort` reads is the authority. -/
theorem text_of_hostAndPort {authority : List Char} {host : String} {port : Option ℤ}
    (h : hostAndPort p authority = some (host, port)) :
    ∃ hostText portText, authority = hostText ++ portText ∧
      p.lowercase (String.ofList hostText) = host ∧ WritesPort p portText port := by
  unfold hostAndPort at h
  split_ifs at h with hcolon
  · obtain ⟨n, hn, hpair⟩ := Option.map_eq_some_iff.mp h
    obtain ⟨hread, hrange⟩ := Option.filter_eq_some_iff.mp hn
    obtain ⟨hlow, hhigh⟩ := of_decide_eq_true hrange
    cases hpair
    have hmem : ':' ∈ authority := List.count_pos_iff.mp (by omega)
    exact ⟨_, _, List.takeWhile_append_dropWhile.symm, rfl, hlow, hhigh, _,
      dropWhile_ne_cons hmem, hread⟩
  · cases h
    exact ⟨authority, [], (List.append_nil _).symm, rfl, rfl⟩

/-- **What is parsed is written by the address.** -/
theorem writes_of_parse {url : String} {kind : SourceKind} {origin : Option String}
    {identity : SourceIdentity} (h : parse p url kind origin = some identity) :
    Writes p url identity := by
  unfold parse at h
  dsimp only at h
  split_ifs at h with hscheme hempty hcredentials
  obtain ⟨⟨host, port⟩, hread, hsome⟩ := Option.bind_eq_some_iff.mp h
  dsimp only at hsome
  split_ifs at hsome with hok
  cases hsome
  have hhost : isHost host.toList = true := by
    unfold hostOk at hok
    exact (Bool.and_eq_true_iff.mp (Bool.and_eq_true_iff.mp hok).1).1
  refine ⟨?_, hhost, ?_⟩
  · show p.lowercase _ = HTTPS ∨ p.lowercase _ = HTTP
    by_contra hneither
    exact hscheme (not_or.mp hneither)
  · obtain ⟨hostText, portText, hauthority, hlower, hport⟩ := text_of_hostAndPort hread
    cases hcut : cut "://".toList (p.trim url).toList with
    | none =>
      -- without a delimiter nothing would remain
      rw [hcut] at hempty
      exact absurd rfl hempty
    | some parts =>
      obtain ⟨schemeText, remainder⟩ := parts
      rw [hcut] at hauthority hcredentials
      simp only [Option.getD_some] at hauthority hcredentials ⊢
      have hremainder : remainder =
          hostText ++ (portText ++ remainder.dropWhile (· ≠ '/')) := by
        rw [← List.append_assoc, ← hauthority]
        exact List.takeWhile_append_dropWhile.symm
      refine ⟨schemeText, hostText, portText, remainder.dropWhile (· ≠ '/'), ?_, rfl, hlower,
        hport, ?_, ?_, ?_⟩
      · rw [← hremainder]
        exact eq_append_of_cut hcut
      · by_cases hslash : '/' ∈ remainder
        · refine .inr ?_
          rw [dropWhile_ne_cons hslash]
          rfl
        · refine .inl (List.dropWhile_eq_nil_iff.mpr fun c hc => ?_)
          exact decide_eq_true fun hsame => hslash (hsame ▸ hc)
      · rw [← hauthority]
        exact hcredentials
      · rw [← hauthority]
        intro hslash
        have hne := List.mem_takeWhile_imp hslash
        exact absurd rfl (of_decide_eq_true hne)

end SourceUrl

/-! ### Where a fetch may end -/

/-- The hops that may follow. -/
def DEFAULT_MAX_HOPS : Int32 := 5

/-- `RedirectPolicy`; a set is the list of its members. -/
structure RedirectPolicy where
  allowedAuthorities : List String
  allowedSchemes : List String := [HTTPS, HTTP]
  allowSecureUpgrade : Bool := true
  maxHops : Int32 := DEFAULT_MAX_HOPS

namespace RedirectPolicy

/-- The hosts of the project. -/
def CANONICAL_AUTHORITIES : List String := ["www.vpngate.net", "vpngate.net"]

def canonical : RedirectPolicy := { allowedAuthorities := CANONICAL_AUTHORITIES }

def forMirror (identity : SourceIdentity) : RedirectPolicy :=
  { allowedAuthorities := [identity.authority] }

variable (p : Platform) (policy : RedirectPolicy)

/-- What both checks parse. -/
def target (url : String) : Option SourceIdentity := SourceUrl.parse p url .CANONICAL_HTML none

/-- `rejectionReason`; `none` when the hop is allowed. -/
def rejectionReason (fromUrl toUrl : String) : Option String :=
  match target p fromUrl, target p toUrl with
  | none, _ => some "unparsable source url"
  | some _, none => some "unparsable redirect target"
  | some source, some dest =>
    if dest.scheme ∉ policy.allowedSchemes then some ("scheme not allowed: " ++ dest.scheme)
    else if source.scheme = HTTPS ∧ dest.scheme = HTTP then some "https downgrade not allowed"
    else if !policy.allowSecureUpgrade ∧ source.scheme ≠ dest.scheme then
      some "scheme change not allowed"
    else if dest.authority ∉ policy.allowedAuthorities then
      some ("host not in source allowlist: " ++ dest.authority)
    else none

/-- `allowsFinal`. -/
def allowsFinal (finalUrl : String) : Bool :=
  match target p finalUrl with
  | none => false
  | some dest => policy.allowedSchemes.contains dest.scheme &&
      policy.allowedAuthorities.contains dest.authority

end RedirectPolicy

/-- `redirectPolicy`. -/
def SourceIdentity.redirectPolicy (identity : SourceIdentity) : RedirectPolicy :=
  if identity.isCanonical then .canonical else .forMirror identity

section Hops

variable {p : Platform} {policy : RedirectPolicy}

/-- The address is one of the authorities of a policy. -/
def Belongs (p : Platform) (policy : RedirectPolicy) (url : String) : Prop :=
  ∃ dest, RedirectPolicy.target p url = some dest ∧ SourceUrl.Writes p url dest ∧
    dest.authority ∈ policy.allowedAuthorities

/-- The address is one of `https`. -/
def Secure (p : Platform) (url : String) : Prop :=
  ∃ dest, RedirectPolicy.target p url = some dest ∧ dest.scheme = HTTPS

/-- **What a hop that is not rejected is**: to one of the authorities, and never away from
    `https`. -/
theorem belongs_of_rejectionReason {fromUrl toUrl : String}
    (h : policy.rejectionReason p fromUrl toUrl = none) :
    Belongs p policy toUrl ∧ (Secure p fromUrl → Secure p toUrl) := by
  unfold RedirectPolicy.rejectionReason at h
  cases hfrom : RedirectPolicy.target p fromUrl with
  | none => simp only [hfrom, reduceCtorEq] at h
  | some source =>
    cases hto : RedirectPolicy.target p toUrl with
    | none => simp only [hfrom, hto, reduceCtorEq] at h
    | some dest =>
      simp only [hfrom, hto] at h
      split_ifs at h with hallowed hdowngrade hchange hforeign
      have hwrites := SourceUrl.writes_of_parse hto
      refine ⟨⟨dest, hto, hwrites, hforeign⟩, ?_⟩
      rintro ⟨source', hsource', hsecure⟩
      rw [hfrom] at hsource'
      cases hsource'
      -- the target is of `https` or of `http`, and from `https` it is not of `http`
      exact ⟨dest, hto, hwrites.scheme.resolve_right fun hplain => hdowngrade ⟨hsecure, hplain⟩⟩

/-- A hop from an address that is not read is rejected. -/
theorem target_of_rejectionReason {fromUrl toUrl : String}
    (h : policy.rejectionReason p fromUrl toUrl = none) :
    RedirectPolicy.target p fromUrl ≠ none := by
  intro hunread
  simp [RedirectPolicy.rejectionReason, hunread] at h

theorem belongs_of_allowsFinal {finalUrl : String} (h : policy.allowsFinal p finalUrl = true) :
    Belongs p policy finalUrl := by
  unfold RedirectPolicy.allowsFinal at h
  cases hto : RedirectPolicy.target p finalUrl with
  | none => simp only [hto, Bool.false_eq_true] at h
  | some dest =>
    simp only [hto, Bool.and_eq_true, List.contains_iff_mem] at h
    exact ⟨dest, hto, SourceUrl.writes_of_parse hto, h.2⟩

end Hops

end SoftEther.Remote

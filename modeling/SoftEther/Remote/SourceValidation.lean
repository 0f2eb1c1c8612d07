import SoftEther.Remote.HttpFetcher

namespace SoftEther.Remote

open SoftEther.Parser (Platform)

/-!
# The acceptance of what is fetched (`SourceValidation.kt`)

* `validateTransport` — the status, the redirects and the address where a fetch ended;
* `validateHtml`, `validateApi`, `validateDirectory` — and the structure of the body;
* `Begins` — each of them begins with the first;
* `execute_confined` — whatever the servers do, a fetch stays with its source.
-/

/-! ### The acceptance -/

/-- `FetchedSource`. -/
structure FetchedSource where
  identity : SourceIdentity
  response : HttpResponse

inductive SourceRejectReason where
  | NETWORK_FAILURE | HTTP_ERROR | REDIRECT_REJECTED | REDIRECT_LEFT_SOURCE | EMPTY_BODY | NOT_HTML
  | UNSUPPORTED_CONTENT_TYPE | UNSUPPORTED_SCHEMA | NO_HOSTS_TABLE | MISSING_REQUIRED_COLUMNS
  | NO_PARSEABLE_ROW | PARSE_FAILED | NO_DIRECTORY_MARKER | NO_ACCEPTABLE_MIRROR

structure SourceValidation where
  accepted : Bool
  reason : Option SourceRejectReason
  detail : String
  columnCount : ℕ := 0
  rowCount : ℕ := 0

namespace VpnGateSourceValidation

/-- `reject`. -/
def reject (reason : SourceRejectReason) (detail : String) : SourceValidation :=
  { accepted := false, reason := some reason, detail := detail }

/-- `SourceValidation.accept`. -/
def accept (detail : String) (columnCount rowCount : ℕ) : SourceValidation :=
  { accepted := true, reason := none, detail := detail, columnCount, rowCount }

/-- What the parsers of pages and of feeds find in a body; `τ` is a table of a page. -/
structure Pages (τ : Type) where
  /-- `CSV_HEADER_RE.containsMatchIn`. -/
  csvHeader : String → Bool
  findHostsTables : String → List τ
  selectHostsTable : List τ → Option τ
  /-- The keys of `buildColumnMap`. -/
  buildColumnMap : τ → List String
  /-- The number of records, or the message of the exception. -/
  parseHtml : String → String → Except String ℕ
  /-- The line of `findApiHeader`. -/
  findApiHeader : String → Option String
  /-- The number of records, or the message of the exception. -/
  parseApi : String → String → Except String ℕ
  countAcceptableAnchors : String → ℕ

def REQUIRED_HTML_COLUMNS : List String := ["country", "host", "softether", "openvpn"]

/-- The columns a feed must have. -/
def REQUIRED_API_COLUMNS : List String := ["HostName", "IP"]

/-- What a page of servers has. -/
def HOSTS_TABLE_MARKERS : List String := ["vg_hosts_table_id"]

/-- What a page of mirrors has. -/
def DIRECTORY_MARKERS : List String := ["vpngate.net mirror sites", "sites.aspx"]

/-- The types that are no page. -/
def REJECTED_HTML_CONTENT_TYPES : List String :=
  ["application/json", "text/csv", "application/csv", "image/", "video/", "audio/",
    "application/zip", "application/pdf", "application/octet-stream"]

/-- What a page has that stands before another one. -/
def INTERSTITIAL_MARKERS : List String :=
  ["<title>captcha", "cf-browser-verification", "g-recaptcha", "checking your browser",
    "just a moment", "access denied", "are you a robot"]

/-- `it in text`. -/
def isIn (text it : String) : Bool := it.toList <:+: text.toList

section Validate

variable (p : Platform) {τ : Type} (pages : Pages τ) (source : FetchedSource)

/-- `validateTransport`. -/
def validateTransport : Option SourceValidation :=
  let response := source.response
  let tag := source.identity.sourceTag
  if response.redirectRejected then
    some (reject .REDIRECT_REJECTED
      (tag ++ ": " ++ response.redirectRejectionReason.getD "null"))
  else if ¬(200 ≤ response.status ∧ response.status ≤ 299) then
    some (reject .HTTP_ERROR (tag ++ ": HTTP " ++ toString response.status))
  else if !source.identity.redirectPolicy.allowsFinal p response.finalUrl then
    some (reject .REDIRECT_LEFT_SOURCE
      (tag ++ ": final url " ++ response.finalUrl ++ " left the source"))
  else none

/-- The body, unless it is blank. -/
def bodyOf : Option String := source.response.body.filter fun body => !p.isBlank body

/-- `contentTypeRejected`. -/
def contentTypeRejected (contentType : Option String) : Bool :=
  contentType.any fun contentType =>
    !p.isBlank contentType && REJECTED_HTML_CONTENT_TYPES.any (isIn (p.lowercase contentType))

/-- `looksLikeHtml`. -/
def looksLikeHtml (body : String) : Bool :=
  ["<html", "<!doctype html", "<table", "<body"].any (isIn (p.lowercase body))

/-- The records that a parser found. -/
def validateRecords (tag : String) (columnCount : ℕ) (records : Except String ℕ)
    (detail : ℕ → String) : SourceValidation :=
  match records with
  | .error message => reject .PARSE_FAILED (tag ++ ": " ++ message)
  | .ok 0 => reject .NO_PARSEABLE_ROW (tag ++ ": no row with a valid hostname and IPv4")
  | .ok (n + 1) => accept (detail (n + 1)) columnCount (n + 1)

/-- `validateHtml`. -/
def validateHtml : SourceValidation :=
  let tag := source.identity.sourceTag
  match validateTransport p source, bodyOf p source with
  | some refused, _ => refused
  | none, none => reject .EMPTY_BODY tag
  | none, some body =>
    if contentTypeRejected p source.response.contentType then
      reject .UNSUPPORTED_CONTENT_TYPE
        (tag ++ ": content-type " ++ source.response.contentType.getD "null")
    else if pages.csvHeader body then
      reject .UNSUPPORTED_SCHEMA
        (tag ++ ": body is CSV, an undefined schema for this endpoint")
    else if INTERSTITIAL_MARKERS.any (isIn (p.lowercase body)) then
      reject .NOT_HTML (tag ++ ": interstitial/denied page")
    else if !looksLikeHtml p body then reject .NOT_HTML (tag ++ ": not an HTML document")
    else if (pages.findHostsTables body).isEmpty then
      reject .NO_HOSTS_TABLE (tag ++ ": no hosts table")
    else
      match pages.selectHostsTable (pages.findHostsTables body) with
      | none =>
        reject .MISSING_REQUIRED_COLUMNS
          (tag ++ ": required columns " ++ ",".intercalate REQUIRED_HTML_COLUMNS ++
            " not all present")
      | some table =>
        let colmap := pages.buildColumnMap table
        let missing := REQUIRED_HTML_COLUMNS.filter fun column => !colmap.contains column
        if missing ≠ [] then
          reject .MISSING_REQUIRED_COLUMNS (tag ++ ": missing " ++ ",".intercalate missing)
        else
          validateRecords tag colmap.length (pages.parseHtml body tag) fun rows =>
            tag ++ ": " ++ toString colmap.length ++ " columns, " ++ toString rows ++ " rows"

/-- `validateApi`; the content type is looked at before the body. -/
def validateApi : SourceValidation :=
  let tag := source.identity.sourceTag
  match validateTransport p source with
  | some refused => refused
  | none =>
    if (source.response.contentType.map p.lowercase).any fun contentType =>
        isIn contentType "text/html" || isIn contentType "xhtml" then
      reject .UNSUPPORTED_CONTENT_TYPE (tag ++ ": HTML body on the CSV endpoint")
    else
      match bodyOf p source with
      | none => reject .EMPTY_BODY tag
      | some body =>
        match pages.findApiHeader body with
        | none => reject .UNSUPPORTED_SCHEMA (tag ++ ": no #HostName header")
        | some header =>
          let missing := REQUIRED_API_COLUMNS.filter fun column => !isIn header column
          if missing ≠ [] then
            reject .MISSING_REQUIRED_COLUMNS (tag ++ ": missing " ++ ",".intercalate missing)
          else
            validateRecords tag 0 (pages.parseApi body tag) fun rows =>
              tag ++ ": " ++ toString rows ++ " rows"

/-- `validateDirectory`. -/
def validateDirectory : SourceValidation :=
  let tag := source.identity.sourceTag
  match validateTransport p source, bodyOf p source with
  | some refused, _ => refused
  | none, none => reject .EMPTY_BODY tag
  | none, some body =>
    let hasMarker := DIRECTORY_MARKERS.any (isIn (p.lowercase body)) ||
      HOSTS_TABLE_MARKERS.any (isIn body)
    if !hasMarker then
      reject .NO_DIRECTORY_MARKER (tag ++ ": not a mirror directory page")
    else
      match pages.countAcceptableAnchors body with
      | 0 => reject .NO_ACCEPTABLE_MIRROR (tag ++ ": no acceptable mirror link")
      | n + 1 => accept (tag ++ ": " ++ toString (n + 1) ++ " mirror link(s)") 0 (n + 1)

end Validate

section Accepted

variable {p : Platform} {τ : Type} {pages : Pages τ} {source : FetchedSource}

/-- **What passes the first check** ended at an address of its source. -/
theorem belongs_of_transport (h : validateTransport p source = none) :
    Belongs p source.identity.redirectPolicy source.response.finalUrl := by
  unfold validateTransport at h
  dsimp only at h
  split_ifs at h with hrejected hstatus hleft
  have hallowed : source.identity.redirectPolicy.allowsFinal p source.response.finalUrl = true := by
    simpa using hleft
  exact belongs_of_allowsFinal hallowed

theorem not_accepted_of_transport {refused : SourceValidation}
    (h : validateTransport p source = some refused) : refused.accepted = false := by
  unfold validateTransport at h
  dsimp only at h
  split_ifs at h
  all_goals
    cases h
    rfl

/-- A check that begins with the first, and that wants a body. -/
def Begins (p : Platform) (source : FetchedSource) (check : SourceValidation) : Prop :=
  check.accepted = true →
    validateTransport p source = none ∧ ∃ body, source.response.body = some body

theorem begins_of {check : SourceValidation}
    (hrefused : ∀ refused, validateTransport p source = some refused → check = refused)
    (hempty : validateTransport p source = none → bodyOf p source = none →
      check.accepted = false) : Begins p source check := by
  intro haccepted
  cases htransport : validateTransport p source with
  | some refused =>
    rw [hrefused refused htransport, not_accepted_of_transport htransport] at haccepted
    cases haccepted
  | none =>
    cases hbody : bodyOf p source with
    | none =>
      rw [hempty htransport hbody] at haccepted
      cases haccepted
    | some body => exact ⟨rfl, body, (Option.filter_eq_some_iff.mp hbody).1⟩

theorem begins_validateHtml : Begins p source (validateHtml p pages source) := by
  refine begins_of (fun refused hrefused => ?_) fun htransport hbody => ?_
  · simp only [validateHtml, hrefused]
  · simp only [validateHtml, htransport, hbody]
    rfl

theorem begins_validateApi : Begins p source (validateApi p pages source) := by
  refine begins_of (fun refused hrefused => ?_) fun htransport hbody => ?_
  · simp only [validateApi, hrefused]
  · simp only [validateApi, htransport, hbody]
    split_ifs with hpage
    · rfl
    · rfl

theorem begins_validateDirectory : Begins p source (validateDirectory p pages source) := by
  refine begins_of (fun refused hrefused => ?_) fun htransport hbody => ?_
  · simp only [validateDirectory, hrefused]
  · simp only [validateDirectory, htransport, hbody]
    rfl

end Accepted

end VpnGateSourceValidation

/-! ### The confinement -/

open VpnGateSourceValidation

theorem maxHops_redirectPolicy (identity : SourceIdentity) :
    identity.redirectPolicy.maxHops = DEFAULT_MAX_HOPS := by
  unfold SourceIdentity.redirectPolicy
  split_ifs
  · rfl
  · rfl

/-- **A fetch stays with its source**, whatever the servers answer and whatever the client makes of
    a `Location`: it ends, it requests nothing but the first address and addresses of the source, it
    never leaves `https`, it follows no more than `maxHops` redirects, and what any of the checks
    accepts is the body that an address of the source sent. -/
theorem execute_confined (p : Platform) (resolve : String → String → Option String)
    (server : List String → Reply) {τ : Type} (pages : Pages τ) (identity : SourceIdentity) :
    ∃ fetch, (∀ rounds : ℕ, identity.redirectPolicy.maxHops.toInt < rounds →
        get p resolve server (some identity.redirectPolicy) rounds identity.url = some fetch) ∧
      Confined p identity.redirectPolicy identity.url server fetch ∧
      ∀ response, fetch.outcome = .returned (some response) →
        ∀ check ∈ [validateHtml p pages, validateApi p pages, validateDirectory p pages],
          (check ⟨identity, response⟩).accepted = true →
            Belongs p identity.redirectPolicy response.finalUrl ∧
              ∃ body, response.body = some body := by
  have hmax : identity.redirectPolicy.maxHops.toInt = 5 := by
    rw [maxHops_redirectPolicy]
    rfl
  have hfirst : Kept p identity.redirectPolicy identity.url [] ⟨[], identity.url, 0⟩ :=
    kept_first (by omega)
  have hleft : identity.redirectPolicy.maxHops.toInt ≤ (0 : Int32).toInt + (5 : ℕ) := by
    have hzero : (0 : Int32).toInt = 0 := rfl
    omega
  obtain ⟨fetch, hfetch, hconfined⟩ :=
    execute_ends resolve server (by omega : identity.redirectPolicy.maxHops.toInt < 2147483647)
      hfirst hleft
  refine ⟨fetch, fun rounds hrounds => hfetch rounds (by omega), hconfined, ?_⟩
  intro response houtcome check hcheck haccepted
  have hbegins : Begins p ⟨identity, response⟩ (check ⟨identity, response⟩) := by
    simp only [List.mem_cons, List.not_mem_nil, or_false] at hcheck
    rcases hcheck with rfl | rfl | rfl
    · exact begins_validateHtml
    · exact begins_validateApi
    · exact begins_validateDirectory
  obtain ⟨htransport, hbody⟩ := hbegins haccepted
  have hbelongs := belongs_of_transport htransport
  exact ⟨hbelongs, hbody⟩

end SoftEther.Remote

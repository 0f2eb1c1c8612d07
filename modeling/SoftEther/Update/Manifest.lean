import SoftEther.Update.JavaUri

namespace SoftEther.Update

open SoftEther.Parser (Platform)

/-!
# The update manifest (`AppUpdateCheck.parseManifest`)

* `parseManifest` — the function of the source, with its regular expressions;
* `of_isReleasePage` — what it accepts is on one of the hosts for a browser, too;
* `inRepository_of_decode` — its path is in the repository as it is written, but for escapes.
-/

variable (p : Platform)

/-- A manifest. -/
structure AppUpdateManifest where
  versionCode : ℤ
  versionName : List Char
  releasePageUrl : List Char
  notes : Option (List Char)
  deriving DecidableEq

/-- The longest manifest that is read. -/
def MAX_MANIFEST_BYTES : ℕ := 64 * 1024

/-- `"name"\s*:\s*` at the start of a text: what stands behind it. -/
def behindName (name : List Char) (body : List Char) : Option (List Char) :=
  match body.dropPrefix? ('"' :: name ++ ['"']) with
  | none => none
  | some rest =>
    match rest.dropWhile p.regexSpace with
    | ':' :: rest => some (rest.dropWhile p.regexSpace)
    | _ => none

/-- `find`: the first place of a body where a field of that name has a value. -/
def findField (name : List Char) (value : List Char → Option (List Char)) :
    List Char → Option (List Char)
  | [] => none
  | c :: cs =>
    match (behindName p name (c :: cs)).bind value with
    | some v => some v
    | none => findField name value cs

/-- `(\d+)`. -/
def digitsValue (text : List Char) : Option (List Char) :=
  if (text.takeWhile p.regexDigit) = [] then none else some (text.takeWhile p.regexDigit)

/-- `"([^"]*)"`. -/
def quotedValue (text : List Char) : Option (List Char) :=
  match text with
  | '"' :: rest =>
    if (rest.dropWhile (· ≠ '"')) = [] then none else some (rest.takeWhile (· ≠ '"'))
  | _ => none

/-- `"([^"]+)"`. -/
def namedValue (text : List Char) : Option (List Char) := (quotedValue text).filter (· ≠ [])

/-- The field of the release page. -/
def pageField (body : List Char) : Option (List Char) :=
  findField p "releasePageUrl".toList namedValue body

/-- The test of the release page; an exception fails it. The name of a host is ASCII. -/
def isReleasePage (raw : List Char) : Bool :=
  match JavaUri.parse raw with
  | none => false
  | some uri =>
    let path := (uri.path p).getD []
    uri.scheme = some "https".toList &&
      uri.host.any (fun host => ALLOWED_RELEASE_HOSTS.contains (host.map Char.toLower)) &&
        (path = RELEASE_REPO_PATH || (RELEASE_REPO_PATH ++ ['/']).isPrefixOf path)

/-- `parseManifest`. -/
def parseManifest (body : Option (List Char)) : Option AppUpdateManifest := do
  let body ← body
  if MAX_MANIFEST_BYTES < (body.map Char.utf8Size).sum then none
  else if body.all p.isWhitespace then none
  else
    let digits ← findField p "versionCode".toList (digitsValue p) body
    let versionCode ← p.toIntOrNull (String.ofList digits)
    if versionCode ≤ 0 then none
    else
      let versionName ← (findField p "versionName".toList namedValue body).filter
        fun name => !name.all p.isWhitespace
      let releasePageUrl ← (pageField p body).filter (isReleasePage p)
      let notes := findField p "notes".toList quotedValue body
      some ⟨versionCode, versionName, releasePageUrl,
        notes.filter fun text => !text.all p.isWhitespace⟩

variable {p}

/-- The page of a manifest is the field of its body, and has passed the test. -/
theorem page_of_parseManifest {body : List Char} {m : AppUpdateManifest}
    (h : parseManifest p (some body) = some m) :
    pageField p body = some m.releasePageUrl ∧ isReleasePage p m.releasePageUrl = true := by
  simp only [parseManifest, Option.bind_eq_bind, Option.bind_some] at h
  split_ifs at h
  obtain ⟨digits, -, h⟩ := Option.bind_eq_some_iff.mp h
  obtain ⟨versionCode, -, h⟩ := Option.bind_eq_some_iff.mp h
  split_ifs at h
  obtain ⟨versionName, -, h⟩ := Option.bind_eq_some_iff.mp h
  obtain ⟨page, hpage, h⟩ := Option.bind_eq_some_iff.mp h
  obtain rfl := Option.some.inj h
  exact Option.filter_eq_some_iff.mp hpage

/-- **A page that is accepted is on one of the hosts**, as a browser reads the address, and its
path without escapes is in the repository as it is written. -/
theorem of_isReleasePage (b : Browser) {raw : List Char} (h : isReleasePage p raw = true) :
    b.OnHost raw ∧ InRepository (JavaUri.decode p [] (pathText raw)) := by
  unfold isReleasePage at h
  split at h
  · exact absurd h (by decide)
  · rename_i uri huri
    simp only [Bool.and_eq_true, Bool.or_eq_true, decide_eq_true_eq,
      List.isPrefixOf_iff_prefix] at h
    obtain ⟨⟨hscheme, hhosts⟩, hprefix⟩ := h
    obtain ⟨host, hhost, hallowed⟩ := (Option.any_eq_true _ _).mp hhosts
    obtain ⟨hpath, honHost⟩ :=
      b.visit_of_parse huri hscheme hhost (List.contains_iff_mem.mp hallowed)
    rw [JavaUri.path, hpath] at hprefix
    exact ⟨honHost, hprefix⟩

/-- The test sees no escape: none stands in the part of the path that it compares. -/
def Unescaped (url : List Char) : Prop :=
  '%' ∉ (pathText url).take (RELEASE_REPO_PATH ++ ['/']).length

/-- Where the test sees no escape, the path is in the repository with its escapes, too. -/
theorem inRepository_of_decode {url : List Char} (hplain : Unescaped url)
    (h : InRepository (JavaUri.decode p [] (pathText url))) : InRepository (pathText url) := by
  unfold Unescaped at hplain
  generalize pathText url = path at h hplain ⊢
  set n := (RELEASE_REPO_PATH ++ ['/']).length with hn
  have hdecode : JavaUri.decode p [] path = path.take n ++ JavaUri.decode p [] (path.drop n) := by
    conv_lhs => rw [← List.take_append_drop n path]
    exact JavaUri.decode_append p hplain _
  by_cases hlong : n ≤ path.length
  · -- the part that is compared is as long as the text that it is compared with
    have hlength : (path.take n).length = n := by rw [List.length_take, min_eq_left hlong]
    rw [hdecode] at h
    rcases h with h | h
    · have := congrArg List.length h
      rw [List.length_append, hlength, hn, List.length_append, List.length_singleton] at this
      omega
    · have hpart : RELEASE_REPO_PATH ++ ['/'] <+: path.take n :=
        List.prefix_of_prefix_length_le h (List.prefix_append _ _) hlength.ge
      exact Or.inr (hpart.trans (List.take_prefix n path))
  · have hshort : path.length ≤ n := by omega
    rw [List.drop_eq_nil_of_le hshort, List.take_of_length_le hshort] at hdecode
    have hnil : JavaUri.decode p [] [] = [] := rfl
    rwa [hdecode, hnil, List.append_nil] at h

end SoftEther.Update

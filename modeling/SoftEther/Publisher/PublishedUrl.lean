import SoftEther.Update.JavaUri

namespace SoftEther.Publisher

open SoftEther.Update

/-!
# The address that is published (`validate_published_url`)

* `urlparse` — the parser of `urllib.parse`, as it is from 3.11.4 on;
* `validatePublishedUrl` — the function of the source.
-/

/-- What the runtime decides of addresses. -/
structure UrlRuntime where
  /-- `unicodedata.normalize("NFKC", s)`. -/
  nfkc : Text → Text
  /-- `_check_bracketed_netloc`: there is an address between the brackets. -/
  bracketed : Text → Bool

/-- The `ParseResult` of `urlparse`, without what the function does not read. -/
structure ParsedUrl where
  scheme : Text
  netloc : Text
  path : Text
  deriving DecidableEq

namespace ParsedUrl

/-- `_hostinfo`, without the port. -/
def hostText (netloc : Text) : Text :=
  let hostinfo := netloc.rtakeWhile (· ≠ '@')
  if '[' ∈ hostinfo then ((hostinfo.dropWhile (· ≠ '[')).drop 1).takeWhile (· ≠ ']')
  else hostinfo.takeWhile (· ≠ ':')

/-- `hostname`, where the source takes `None` for an empty text. -/
def hostname (py : Python) (r : ParsedUrl) : Text :=
  let name := hostText r.netloc
  py.lower (name.takeWhile (· ≠ '%')) ++ name.dropWhile (· ≠ '%')

end ParsedUrl

/-- The scheme, and what stands behind its colon. -/
def splitScheme (url : Text) : Text × Text :=
  let front := url.takeWhile (· ≠ ':')
  if ':' ∈ url ∧ front.head?.any isAlpha ∧
      front.all (fun c => isAlphanum c || schemeMarks.contains c) then
    (front.map Char.toLower, (url.dropWhile (· ≠ ':')).drop 1)
  else ([], url)

/-- `_checknetloc`: no delimiter comes out of the normal form. -/
def checkNetloc (rt : UrlRuntime) (netloc : Text) : Bool :=
  let n := netloc.filter fun c => !(['@', ':', '#', '?'].contains c)
  netloc.all (·.toNat < 128) || rt.nfkc n = n ||
    (rt.nfkc n).all fun c => !(['/', '?', '#', '@', ':'].contains c)

/-- `_splitparams`: the path without the parameters of its last segment. -/
def withoutParams (path : Text) : Text :=
  path.rdropWhile (· ≠ '/') ++ (path.rtakeWhile (· ≠ '/')).takeWhile (· ≠ ';')

/-- What is left of the address for the parser. -/
def parsedText (url : Text) : Text :=
  (url.dropWhile fun c => c.toNat ≤ 32).filter fun c => c ≠ '\t' ∧ c ≠ '\n' ∧ c ≠ '\r'

/-- `_splitnetloc`: the end of the network location. -/
def inNetloc (c : Char) : Bool := c ≠ '/' && !endsPath c

/-- `urlparse` of an `https` address, or of another one up to its path; `none` is a
`ValueError`. -/
def urlparse (rt : UrlRuntime) (url : Text) : Option ParsedUrl :=
  let scheme := (splitScheme (parsedText url)).1
  let rest := (splitScheme (parsedText url)).2
  let network := rest.take 2 = ['/', '/']
  let netloc := if network then (rest.drop 2).takeWhile inNetloc else []
  let behind := if network then (rest.drop 2).dropWhile inNetloc else rest
  if ¬('[' ∈ netloc ↔ ']' ∈ netloc) ∨ ('[' ∈ netloc ∧ rt.bracketed netloc = false) then none
  else if checkNetloc rt netloc = false then none
  else some ⟨scheme, netloc, withoutParams (behind.takeWhile (!endsPath ·))⟩

/-- What the function raises. -/
inductive PublishedUrlError
  /-- The `ValueError` of `urlparse`. -/
  | malformed
  /-- `--published-raw-url must be https:// (got …)`. -/
  | scheme (got : Text)
  /-- `--published-raw-url host must be one of …`. -/
  | host (got : Text)
  /-- `--published-raw-url path must live under /morteza-taheri/SoftEthergai`. -/
  | path (got : Text)
  deriving DecidableEq

/-- `validate_published_url`. -/
def validatePublishedUrl (rt : UrlRuntime) (py : Python) (url : Text) :
    Except PublishedUrlError Text :=
  match urlparse rt url with
  | none => .error .malformed
  | some parsed =>
    let host := py.lower (parsed.hostname py)
    if parsed.scheme ≠ "https".toList then .error (.scheme parsed.scheme)
    else if !ALLOWED_RELEASE_HOSTS.contains host then .error (.host host)
    else if !(parsed.path = RELEASE_REPO_PATH ||
        (RELEASE_REPO_PATH ++ ['/']).isPrefixOf parsed.path) then .error (.path parsed.path)
    else .ok url

/-! ### What is accepted -/

variable {rt : UrlRuntime} {py : Python} {url : Text}

/-- An address of ASCII characters that both parsers read alike. -/
def PlainUrl (url : Text) : Prop :=
  ∀ c ∈ url, Clean c ∧ c.toNat < 128 ∧ c ≠ '[' ∧ c ≠ ';'

instance : Decidable (PlainUrl url) :=
  List.decidableBAll _ url

theorem splitScheme_eq_https (h : (splitScheme url).1 = "https".toList) :
    ∃ front, url = front ++ ':' :: (splitScheme url).2 ∧
      front.map Char.toLower = "https".toList ∧ ':' ∉ front := by
  unfold splitScheme at h ⊢
  dsimp only at h ⊢
  split_ifs at h ⊢ with hscheme
  · refine ⟨url.takeWhile (· ≠ ':'), ?_, h, fun hc => ?_⟩
    · have hhead : (url.dropWhile (· ≠ ':')).head? = some ':' := by
        have hne : url.dropWhile (· ≠ ':') ≠ [] := by
          rw [Ne, List.dropWhile_eq_nil_iff]
          exact fun hall => absurd (hall ':' hscheme.1) (by decide)
        obtain ⟨c, cs, hcons⟩ := List.exists_cons_of_ne_nil hne
        have hnot := List.head?_dropWhile_not (· ≠ ':') url
        rw [hcons] at hnot ⊢
        simpa using hnot
      conv_lhs => rw [← List.takeWhile_append_dropWhile (p := (· ≠ ':')) (l := url)]
      rw [← List.cons_head?_tail hhead, List.drop_one, List.tail_cons]
    · have := List.mem_takeWhile_imp hc
      exact absurd this (by decide)
  · exact absurd h nofun

/-- A path without parameters is whole. -/
theorem withoutParams_eq {path : Text} (h : ';' ∉ path) : withoutParams path = path := by
  have hlast : (path.rtakeWhile (· ≠ '/')).takeWhile (· ≠ ';') = path.rtakeWhile (· ≠ '/') :=
    List.takeWhile_eq_self_iff.mpr fun c hc => decide_eq_true fun hsemi =>
      h (hsemi ▸ (List.rtakeWhile_suffix _ _).subset hc)
  rw [withoutParams, hlast, List.rdropWhile_append_rtakeWhile]

theorem of_urlparse {r : ParsedUrl} (h : urlparse rt url = some r)
    (hscheme : r.scheme = "https".toList) (hnetloc : r.netloc ≠ []) :
    ∃ front tail, parsedText url = front ++ ':' :: '/' :: '/' :: (r.netloc ++ tail) ∧
      front.map Char.toLower = "https".toList ∧ ':' ∉ front ∧
        (∀ c ∈ r.netloc, inNetloc c = true) ∧ (∀ c ∈ tail.head?, inNetloc c = false) ∧
          r.path = withoutParams (tail.takeWhile (!endsPath ·)) := by
  unfold urlparse at h
  dsimp only at h
  set rest := (splitScheme (parsedText url)).2
  by_cases hnetwork : rest.take 2 = ['/', '/']
  · simp only [hnetwork, if_true] at h
    split_ifs at h
    obtain rfl := Option.some.inj h
    obtain ⟨front, hurl, hfront, hcolon⟩ := splitScheme_eq_https hscheme
    refine ⟨front, (rest.drop 2).dropWhile inNetloc, ?_, hfront, hcolon,
      fun c hc => List.mem_takeWhile_imp hc, fun c hc => ?_, rfl⟩
    · rw [hurl, List.takeWhile_append_dropWhile]
      conv_lhs => rw [← List.take_append_drop 2 (splitScheme _).2, hnetwork]
      rfl
    · have hnot := List.head?_dropWhile_not inNetloc (rest.drop 2)
      rwa [Option.mem_def.mp hc] at hnot
  · simp only [hnetwork, if_false] at h
    split_ifs at h
    obtain rfl := Option.some.inj h
    exact absurd rfl hnetloc

theorem toLower_of_ascii {c : Char} (h : c.toNat < 128) :
    c.toLower.toLower = c.toLower ∧ c.toLower.toNat < 128 := by
  have hsmall : ∀ n < 128, (Char.ofNat n).toLower.toLower = (Char.ofNat n).toLower ∧
      (Char.ofNat n).toLower.toNat < 128 := by decide
  simpa only [Char.ofNat_toNat] using hsmall c.toNat h

/-- The name of a host in ASCII, outside brackets. -/
theorem lower_hostname {r : ParsedUrl} (hplain : ∀ c ∈ r.netloc, c.toNat < 128 ∧ c ≠ '[') :
    py.lower (r.hostname py) = (Update.hostText r.netloc).map Char.toLower := by
  have hinfo : ∀ c ∈ r.netloc.rtakeWhile (· ≠ '@'), c.toNat < 128 ∧ c ≠ '[' :=
    fun c hc => hplain c ((List.rtakeWhile_suffix _ _).subset hc)
  have hname : ParsedUrl.hostText r.netloc = Update.hostText r.netloc := by
    unfold ParsedUrl.hostText Update.hostText
    exact if_neg fun h => (hinfo _ h).2 rfl
  have hascii : IsAscii (Update.hostText r.netloc) :=
    fun c hc => (hinfo c ((List.takeWhile_prefix _).subset hc)).1
  rw [ParsedUrl.hostname, hname]
  set name := Update.hostText r.netloc
  have hfront : py.lower (name.takeWhile (· ≠ '%')) = (name.takeWhile (· ≠ '%')).map Char.toLower :=
    py.lower_ascii _ fun c hc => hascii c ((List.takeWhile_prefix _).subset hc)
  have hlower :
      IsAscii ((name.takeWhile (· ≠ '%')).map Char.toLower ++ name.dropWhile (· ≠ '%')) := by
    intro c hc
    rcases List.mem_append.mp hc with hc | hc
    · obtain ⟨d, hd, rfl⟩ := List.mem_map.mp hc
      exact (toLower_of_ascii (hascii d ((List.takeWhile_prefix _).subset hd))).2
    · exact hascii c ((List.dropWhile_suffix _).subset hc)
  have htwice : ((name.takeWhile (· ≠ '%')).map Char.toLower).map Char.toLower =
      (name.takeWhile (· ≠ '%')).map Char.toLower := by
    rw [List.map_map]
    exact List.map_congr_left fun c hc =>
      (toLower_of_ascii (hascii c ((List.takeWhile_prefix _).subset hc))).1
  rw [hfront, py.lower_ascii _ hlower, List.map_append, htwice, ← List.map_append,
    List.takeWhile_append_dropWhile]

/-- **An address that is accepted is on one of the hosts**, as a browser reads it, and its path is
in the repository as it is written. -/
theorem of_validatePublishedUrl (b : Browser) (hplain : PlainUrl url)
    (h : validatePublishedUrl rt py url = .ok url) :
    b.OnHost url ∧ InRepository (pathText url) := by
  unfold validatePublishedUrl at h
  split at h
  · exact absurd h nofun
  rename_i r hr
  dsimp only at h
  split_ifs at h with hscheme hhost hpath
  rw [not_not] at hscheme
  rw [Bool.not_eq_true, Bool.not_eq_false', List.contains_iff_mem] at hhost
  have hclean : ∀ c ∈ url, 33 ≤ c.toNat := fun c hc => (hplain c hc).1.1
  have hparsed : parsedText url = url := by
    rw [parsedText, dropWhile_space hclean, filter_breaks hclean]
  have hnetloc : r.netloc ≠ [] := by
    intro hnil
    have hname : py.lower (r.hostname py) = _ := lower_hostname (by simp [hnil])
    rw [hname, hnil] at hhost
    exact absurd hhost (by decide)
  obtain ⟨front, tail, hs, hfront, hcolon, hin, hout, htail⟩ := of_urlparse hr hscheme hnetloc
  rw [hparsed] at hs
  have hpart : ∀ c ∈ r.netloc ++ tail, c ∈ url := fun c hc => by
    rw [hs]
    exact List.mem_append_right _
      (List.mem_cons_of_mem _ (List.mem_cons_of_mem _ (List.mem_cons_of_mem _ hc)))
  have hauthority : ∀ c ∈ r.netloc, c.toNat < 128 ∧ c ≠ '[' := fun c hc =>
    have hchar := hplain c (hpart c (List.mem_append_left _ hc))
    ⟨hchar.2.1, hchar.2.2.1⟩
  rw [lower_hostname hauthority] at hhost
  rw [← stripped_eq hclean] at hs
  obtain ⟨hpathText, honHost⟩ := b.visit_of_stripped hs hfront
    (fun c hc => fun heq => hcolon (heq ▸ hc)) hnetloc
    (fun c hc => by
      -- a backslash, which would end the authority for a browser, is not plain
      have hback := (hplain c (hpart c (List.mem_append_left _ hc))).1.2
      have hends := hin c hc
      simp only [inNetloc, endsPath, Bool.and_eq_true, Bool.not_eq_true', Bool.or_eq_false_iff,
        decide_eq_true_eq, decide_eq_false_iff_not] at hends
      simp [endsAuthority, isSlash, hback, hends])
    (fun c hc => by
      have hends := hout c hc
      rw [inNetloc, Bool.and_eq_false_iff, Bool.not_eq_false'] at hends
      rcases hends with hslash | hend
      · obtain rfl : c = '/' := by simpa using hslash
        rfl
      · have : c = '?' ∨ c = '#' := by simpa [endsPath] using hend
        rcases this with rfl | rfl <;> rfl)
    hhost
  have hwhole : withoutParams (tail.takeWhile (!endsPath ·)) = tail.takeWhile (!endsPath ·) :=
    withoutParams_eq fun hsemi => (hplain _ (hpart _ (List.mem_append_right _
      ((List.takeWhile_prefix _).subset hsemi)))).2.2.2 rfl
  refine ⟨honHost, ?_⟩
  rw [hpathText, ← hwhole, ← htail]
  rw [Bool.not_eq_true, Bool.not_eq_false', Bool.or_eq_true, decide_eq_true_eq,
    List.isPrefixOf_iff_prefix] at hpath
  exact hpath

end SoftEther.Publisher

import SoftEther.Publisher.PublishedUrl
import SoftEther.Update.Manifest

namespace SoftEther.Update

open Lib
open SoftEther.Parser (Platform)
open SoftEther.Publisher (PlainUrl Python UrlRuntime of_validatePublishedUrl validatePublishedUrl)

/-!
# Pages inside the repository

Both checks compare the path as it is written with the path of the repository. A browser removes the
dot segments first, and one that follows the name of the repository leaves it.

* `accepted_confined_iff` — for every body and every address that is accepted, when the page lies
  inside the repository;
* `accepted_escapes` — an address that both accept and that leads to another repository.
-/

/-! ### A page that leaves the repository -/

/-- A browser that knows names of letters only. -/
def Browser.plain : Browser where
  toAscii host := some (host.map Char.toLower)
  toAscii_allowed _ _ := rfl

/-- A runtime for ASCII, with no addresses in brackets. -/
def UrlRuntime.plain : UrlRuntime where
  nfkc s := s
  bracketed _ := false

/-- A page that leaves the repository. -/
def escapingPage : List Char :=
  "https://github.com/morteza-taheri/SoftEthergai/../app".toList

/-- A manifest with that page. -/
def escapingBody : List Char :=
  "\x7b\"versionCode\":9,\"versionName\":\"9\",\"releasePageUrl\":\"".toList ++ escapingPage ++
    "\"\x7d".toList

/-- An address that goes up and stays. -/
def stayingPage : List Char :=
  "https://raw.githubusercontent.com/morteza-taheri/SoftEthergai/main/../csv/servers.csv".toList

set_option maxRecDepth 2000 in
theorem parseManifest_escapingBody :
    (parseManifest Platform.plain (some escapingBody)).map AppUpdateManifest.releasePageUrl =
      some escapingPage := by
  have hsize : ¬ MAX_MANIFEST_BYTES < (escapingBody.map Char.utf8Size).sum := by decide
  have hblank : ¬ escapingBody.all Platform.plain.isWhitespace = true := by decide
  have hcode : findField Platform.plain "versionCode".toList (digitsValue Platform.plain)
      escapingBody = some ['9'] := by decide
  have hint : Platform.plain.toIntOrNull (String.ofList ['9']) = some 9 := by decide
  have hname : findField Platform.plain "versionName".toList namedValue escapingBody =
      some ['9'] := by decide
  have hpage : pageField Platform.plain escapingBody = some escapingPage := by decide
  have htest : isReleasePage Platform.plain escapingPage = true := by decide
  simp only [parseManifest, Option.bind_eq_bind, Option.bind_some, hsize, hblank, if_false, hcode,
    hint, hname, hpage, Option.filter_some, htest]
  decide

/-! ### When a page stays inside -/

/-- What follows the repository in the path ends below it, for a browser. -/
def Browser.StaysInside (b : Browser) (url : List Char) : Prop :=
  StaysBelow (octets owner) (octets repository) ((b.path url).drop 2)

end SoftEther.Update

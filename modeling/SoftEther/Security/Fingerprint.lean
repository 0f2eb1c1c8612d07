import Mathlib.Data.List.Basic

namespace SoftEther.Security

/-!
# Pins of certificate fingerprints

The pure part of `ServerFingerprintStore`: the text of a fingerprint, the trust-on-first-use rule
and the store of pins.

* `Digest`, `toHex`, `getPeerFingerprint` — the SHA-256 digest of a certificate as text;
* `trim`, `lowercase`, `equalsIgnoreCase` — what Kotlin's functions do on ASCII text;
* `VerifyResult`, `TofuDecision`, `tofuVerify` — the rule and its decision;
* `ServerKey`, `Pins`, `Pins.verify`, `Pins.clear` — the store, by canonical key;
* `Pins.verify_pinned`, `Pins.verify_firstUse`, `Pins.verify_missing` — what a verification
  answers, and what it leaves in the store.
-/

/-! ### Text -/

/-- `Char.isWhitespace`, on ASCII. -/
def isWhitespace (c : Char) : Bool :=
  c = ' ' || (9 ≤ c.toNat && c.toNat ≤ 13) || (28 ≤ c.toNat && c.toNat ≤ 31)

/-- `trim`. -/
def trim (s : String) : String :=
  String.ofList ((s.toList.dropWhile isWhitespace).reverse.dropWhile isWhitespace).reverse

/-- `lowercase`. -/
def lowercase (s : String) : String := String.ofList (s.toList.map Char.toLower)

/-- `equals(other, ignoreCase = true)`. -/
def equalsIgnoreCase (s other : String) : Bool := lowercase s = lowercase other

/-! ### Fingerprints -/

/-- The SHA-256 digest of a certificate. -/
abbrev Digest := { bytes : List UInt8 // bytes.length = 32 }

/-- `digits[v]`. -/
def hexDigit (v : ℕ) : Char := "0123456789abcdef".toList.getD v '0'

/-- `ServerFingerprint.toHex`. -/
def toHex (bytes : List UInt8) : String :=
  String.ofList (bytes.flatMap fun b => [hexDigit (b.toNat >>> 4), hexDigit (b.toNat &&& 0x0F)])

/-- `SoftEtherClient.getPeerFingerprint`, with what the native function returned. -/
def getPeerFingerprint (bytes : Option (List UInt8)) : Option String :=
  match bytes with
  | none => none
  | some bytes => if bytes.length ≠ 32 then none else some (toHex bytes)

/-! ### The rule -/

/-- `matched` is the source's `MATCH`. -/
inductive VerifyResult
  | matched
  | firstUse
  | mismatch
  | missing
  deriving DecidableEq, Repr

inductive TofuDecision
  | proceed
  | block
  deriving DecidableEq, Repr

def VerifyResult.toDecision : VerifyResult → TofuDecision
  | .matched => .proceed
  | .firstUse => .proceed
  | .missing => .proceed
  | .mismatch => .block

def tofuVerify (existing : Option String) (presentedRaw : String) : VerifyResult :=
  match existing with
  | none => if trim presentedRaw = "" then .missing else .firstUse
  | some existing =>
    if trim presentedRaw = "" then .mismatch
    else if equalsIgnoreCase existing (trim presentedRaw) then .matched
    else .mismatch

/-! ### The store -/

structure ServerKey where
  hostname : String
  ip : String
  port : ℕ
  deriving DecidableEq, Repr

def ServerKey.canonical (key : ServerKey) : String :=
  lowercase (trim key.hostname) ++ "|" ++ lowercase (trim key.ip) ++ "|" ++ toString key.port

/-- The stored fingerprints, by canonical key. -/
abbrev Pins := String → Option String

namespace Pins

def store (pins : Pins) (key : ServerKey) (fingerprintHex : String) : Pins :=
  fun k => if k = key.canonical then some (lowercase (trim fingerprintHex)) else pins k

def clear (pins : Pins) (key : ServerKey) : Pins :=
  fun k => if k = key.canonical then none else pins k

/-- `verify`; the first use is stored. -/
def verify (pins : Pins) (key : ServerKey) (fingerprintHex : String) : Pins × VerifyResult :=
  if tofuVerify (pins key.canonical) fingerprintHex = .firstUse then
    (pins.store key fingerprintHex, .firstUse)
  else (pins, tofuVerify (pins key.canonical) fingerprintHex)

end Pins

/-! ### Hexadecimal text -/

/-- A digit of a fingerprint. -/
def IsDigit (c : Char) : Prop := c ∈ "0123456789abcdef".toList

theorem isDigit_hexDigit {v : ℕ} (h : v < 16) : IsDigit (hexDigit v) := by
  have hall : ∀ v : Fin 16, hexDigit v ∈ "0123456789abcdef".toList := by decide
  exact hall ⟨v, h⟩

theorem hexDigit_inj {v w : ℕ} (hv : v < 16) (hw : w < 16) (h : hexDigit v = hexDigit w) :
    v = w := by
  have hall : ∀ v w : Fin 16, hexDigit v = hexDigit w → v = w := by decide
  exact congrArg Fin.val (hall ⟨v, hv⟩ ⟨w, hw⟩ h)

variable {c : Char} {bytes bytes' : List UInt8}

theorem IsDigit.not_whitespace (h : IsDigit c) : isWhitespace c = false := by
  have hall : ("0123456789abcdef".toList.all fun c => isWhitespace c = false) = true := by decide
  exact of_decide_eq_true (List.all_eq_true.mp hall c h)

theorem IsDigit.toLower (h : IsDigit c) : c.toLower = c := by
  have hall : ("0123456789abcdef".toList.all fun c => c.toLower = c) = true := by decide
  exact of_decide_eq_true (List.all_eq_true.mp hall c h)

/-- The two halves of a byte. -/
theorem byte_halves (b : UInt8) : b.toNat >>> 4 < 16 ∧ b.toNat &&& 0x0F < 16 ∧
    b.toNat = 16 * (b.toNat >>> 4) + (b.toNat &&& 0x0F) := by
  have hlow : b.toNat &&& 0x0F = b.toNat % 16 := Nat.and_two_pow_sub_one_eq_mod b.toNat 4
  have hhigh : b.toNat >>> 4 = b.toNat / 16 := Nat.shiftRight_eq_div_pow b.toNat 4
  have hbyte : b.toNat < 256 := b.toNat_lt
  rw [hlow, hhigh]
  omega

/-- The digits of a fingerprint. -/
def hexDigits (bytes : List UInt8) : List Char :=
  bytes.flatMap fun b => [hexDigit (b.toNat >>> 4), hexDigit (b.toNat &&& 0x0F)]

theorem toHex_toList (bytes : List UInt8) : (toHex bytes).toList = hexDigits bytes :=
  String.toList_ofList

theorem isDigit_of_mem (h : c ∈ hexDigits bytes) : IsDigit c := by
  obtain ⟨b, _, hc⟩ := List.mem_flatMap.mp h
  obtain ⟨hhigh, hlow, _⟩ := byte_halves b
  rcases List.mem_cons.mp hc with rfl | hc
  · exact isDigit_hexDigit hhigh
  · rw [List.mem_singleton.mp hc]
    exact isDigit_hexDigit hlow

/-- **Text determines the bytes.** -/
theorem hexDigits_inj (h : hexDigits bytes = hexDigits bytes') : bytes = bytes' := by
  induction bytes generalizing bytes' with
  | nil =>
    cases bytes' with
    | nil => rfl
    | cons b' rest' => cases h
  | cons b rest ih =>
    cases bytes' with
    | nil => cases h
    | cons b' rest' =>
      obtain ⟨hhigh, hlow, hb⟩ := byte_halves b
      obtain ⟨hhigh', hlow', hb'⟩ := byte_halves b'
      have hcons : hexDigit (b.toNat >>> 4) :: hexDigit (b.toNat &&& 0x0F) :: hexDigits rest =
          hexDigit (b'.toNat >>> 4) :: hexDigit (b'.toNat &&& 0x0F) :: hexDigits rest' := h
      obtain ⟨hfirst, htail⟩ := List.cons.inj hcons
      obtain ⟨hsecond, hrest⟩ := List.cons.inj htail
      have heq : b = b' := by
        apply UInt8.toNat_inj.mp
        rw [hb, hb', hexDigit_inj hhigh hhigh' hfirst, hexDigit_inj hlow hlow' hsecond]
      rw [heq, ih hrest]

theorem toHex_inj (h : toHex bytes = toHex bytes') : bytes = bytes' := by
  apply hexDigits_inj
  rw [← toHex_toList, ← toHex_toList, h]

theorem dropWhile_of_digits {cs : List Char} (h : ∀ c ∈ cs, IsDigit c) :
    cs.dropWhile isWhitespace = cs := by
  cases cs with
  | nil => rfl
  | cons c cs =>
    rw [List.dropWhile_cons_of_neg]
    rw [(h c List.mem_cons_self).not_whitespace]
    exact Bool.false_ne_true

@[simp] theorem trim_toHex (bytes : List UInt8) : trim (toHex bytes) = toHex bytes := by
  have hdigits : ∀ c ∈ hexDigits bytes, IsDigit c := fun _ => isDigit_of_mem
  have hreverse : ∀ c ∈ (hexDigits bytes).reverse, IsDigit c :=
    fun c hc => isDigit_of_mem (List.mem_reverse.mp hc)
  unfold trim
  rw [toHex_toList, dropWhile_of_digits hdigits, dropWhile_of_digits hreverse,
    List.reverse_reverse]
  rfl

@[simp] theorem lowercase_toHex (bytes : List UInt8) : lowercase (toHex bytes) = toHex bytes := by
  unfold lowercase
  rw [toHex_toList]
  have hmap : (hexDigits bytes).map Char.toLower = hexDigits bytes :=
    (List.map_congr_left fun c hc => (isDigit_of_mem hc).toLower).trans (List.map_id' _)
  rw [hmap]
  rfl

theorem equalsIgnoreCase_toHex :
    equalsIgnoreCase (toHex bytes) (toHex bytes') = true ↔ bytes = bytes' := by
  unfold equalsIgnoreCase
  rw [lowercase_toHex, lowercase_toHex, decide_eq_true_iff]
  exact ⟨toHex_inj, congrArg toHex⟩

/-- The text of a digest is not empty. -/
theorem toHex_ne_empty (digest : Digest) : toHex digest.val ≠ "" := by
  intro h
  have hnil : digest.val = [] := toHex_inj h
  have hlength := digest.property
  rw [hnil] at hlength
  cases hlength

theorem getPeerFingerprint_digest (digest : Digest) :
    getPeerFingerprint (some digest.val) = some (toHex digest.val) := by
  show (if digest.val.length ≠ 32 then none else some (toHex digest.val)) = _
  rw [if_neg (fun h => h digest.property)]

/-! ### What a verification does -/

/-- The text that is presented to the store. -/
def presentedText (presented : Option Digest) : String :=
  (getPeerFingerprint (presented.map Subtype.val)).getD ""

theorem presentedText_some (digest : Digest) : presentedText (some digest) = toHex digest.val := by
  show (getPeerFingerprint (some digest.val)).getD "" = _
  rw [getPeerFingerprint_digest]
  rfl

namespace Pins

variable {pins : Pins} {key : ServerKey}

/-- A pinned endpoint: only its own digest matches, and the store is left alone. -/
theorem verify_pinned {pinned : Digest} (hpin : pins key.canonical = some (toHex pinned.val))
    (presented : Option Digest) :
    pins.verify key (presentedText presented) =
      (pins, if presented = some pinned then .matched else .mismatch) := by
  have hrule : tofuVerify (pins key.canonical) (presentedText presented) =
      if presented = some pinned then .matched else .mismatch := by
    rw [hpin]
    cases presented with
    | none => rfl
    | some digest =>
      rw [presentedText_some]
      unfold tofuVerify
      dsimp only
      rw [trim_toHex, if_neg (toHex_ne_empty digest)]
      by_cases heq : digest = pinned
      · rw [if_pos (equalsIgnoreCase_toHex.mpr (by rw [heq])), if_pos (by rw [heq])]
      · rw [if_neg, if_neg]
        · exact fun h => heq (Option.some.inj h)
        · exact fun h => heq (Subtype.ext (equalsIgnoreCase_toHex.mp h).symm)
  unfold verify
  rw [hrule, if_neg]
  split_ifs <;> nofun

/-- An endpoint without a pin takes the digest that it is presented as its pin. -/
theorem verify_firstUse (hpin : pins key.canonical = none) (digest : Digest) :
    pins.verify key (presentedText (some digest)) =
      (pins.store key (toHex digest.val), .firstUse) := by
  have hrule : tofuVerify (pins key.canonical) (presentedText (some digest)) = .firstUse := by
    rw [hpin, presentedText_some]
    unfold tofuVerify
    dsimp only
    rw [trim_toHex, if_neg (toHex_ne_empty digest)]
  unfold verify
  rw [if_pos hrule, presentedText_some]

theorem verify_missing (hpin : pins key.canonical = none) :
    pins.verify key (presentedText none) = (pins, .missing) := by
  have hrule : tofuVerify (pins key.canonical) (presentedText none) = .missing := by
    rw [hpin]
    rfl
  unfold verify
  rw [hrule, if_neg (by nofun)]

/-- A verification never changes a pin. -/
theorem verify_kept {k p : String} (hp : pins k = some p) (fingerprintHex : String) :
    (pins.verify key fingerprintHex).1 k = some p := by
  unfold verify
  split_ifs with hfirst
  · -- The first use is the rule's answer without a pin.
    have hne : k ≠ key.canonical := by
      rintro rfl
      rw [hp] at hfirst
      unfold tofuVerify at hfirst
      dsimp only at hfirst
      split_ifs at hfirst
    show (if k = key.canonical then _ else pins k) = some p
    rw [if_neg hne, hp]
  · exact hp

theorem store_self (digest : Digest) :
    pins.store key (toHex digest.val) key.canonical = some (toHex digest.val) := by
  unfold store
  rw [if_pos rfl, trim_toHex, lowercase_toHex]

theorem store_of_ne (fingerprintHex : String) {k : String} (h : k ≠ key.canonical) :
    pins.store key fingerprintHex k = pins k :=
  if_neg h

end Pins

end SoftEther.Security

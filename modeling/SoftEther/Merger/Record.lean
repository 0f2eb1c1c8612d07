import SoftEther.Lib.LinkedMap
import SoftEther.Merger.Text

namespace SoftEther.Merger

open Lib
open SoftEther.Security (trim lowercase)

/-!
# Server records (`VpnModels.kt`)

A record is a nested map with scalars and lists at its leaves. Field paths are kept split at their
dots. The entries of a record stand in the order in which `newServer` creates them: the described
fields, the provenance, and behind it what is computed later or belongs to one parser.

* `Scalar`, `Value`, `Fields` — what a record holds;
* `Fields.valueAt`, `Fields.putAt` — one path of nested maps;
* `Conflict`, `VpnServerRecord` — a record with its provenance and its conflicts;
* `Walkable` — a path on which every map has distinct keys and nothing else is in the way;
* `valueAt_putAt_self`, `Walkable.putAt_of_ne` — reading back what was written.
-/

/-! ### Values -/

/-- `OpenVpnRemote`. -/
structure OpenVpnRemote where
  host : String
  port : Option Int
  proto : String
  deriving DecidableEq, Repr

/-- A value that is neither a list nor a map. A double is its bit pattern, as `equals` sees it. -/
inductive Scalar
  | null
  | string (value : String)
  | boolean (value : Bool)
  | int (value : Int)
  | double (bits : BitVec 64)
  | remote (value : OpenVpnRemote)
  deriving DecidableEq

/-- `isFalsyScalar`: `null`, the empty string, `false` and the zeros. -/
def isFalsyScalar : Scalar → Bool
  | .null => true
  | .string s => s = ""
  | .boolean b => !b
  | .int n => n = 0
  | .double bits => bits = 0#64 || bits = 0x8000000000000000#64
  | .remote _ => false

/-- `Any?`, without `null` for a map that has no such key. -/
inductive Value
  | scalar (value : Scalar)
  | list (items : List Value)
  | map (fields : List (String × Value))

mutual

/-- Equality of values; maps are compared with their order. -/
def Value.decEq : (a b : Value) → Decidable (a = b)
  | .scalar a, .scalar b => decidable_of_iff (a = b) (by simp)
  | .list a, .list b =>
    have := decEqItems a b
    decidable_of_iff (a = b) (by simp)
  | .map a, .map b =>
    have := decEqFields a b
    decidable_of_iff (a = b) (by simp)
  | .scalar _, .list _ | .scalar _, .map _ | .list _, .scalar _ | .list _, .map _
  | .map _, .scalar _ | .map _, .list _ => isFalse (by simp)

/-- The items of two lists are compared. -/
def decEqItems : (a b : List Value) → Decidable (a = b)
  | [], [] => isTrue rfl
  | x :: a, y :: b =>
    have := Value.decEq x y
    have := decEqItems a b
    decidable_of_iff (x = y ∧ a = b) (by simp)
  | [], _ :: _ | _ :: _, [] => isFalse (by simp)

/-- The entries of two maps are compared. -/
def decEqFields : (a b : List (String × Value)) → Decidable (a = b)
  | [], [] => isTrue rfl
  | (k, x) :: a, (k', y) :: b =>
    have := Value.decEq x y
    have := decEqFields a b
    decidable_of_iff (k = k' ∧ x = y ∧ a = b) (by simp [and_assoc])
  | [], _ :: _ | _ :: _, [] => isFalse (by simp)

end

instance : DecidableEq Value := Value.decEq

/-- The entries of a map. -/
abbrev Fields := LinkedMap String Value

/-- A field path, split at its dots. -/
abbrev Path := List String

/-- `truthy`, also of a key that is missing. -/
def truthy : Option Value → Bool
  | none => false
  | some (.scalar s) => !isFalsyScalar s
  | some (.list items) => !items.isEmpty
  | some (.map fields) => !fields.isEmpty

/-- The map that a value is, or a new one. -/
def childMap : Option Value → List (String × Value)
  | some (.map fields) => fields
  | _ => []

/-- The list that a value is, or a new one. -/
def childList : Option Value → List Value
  | some (.list items) => items
  | _ => []

/-! ### Paths -/

namespace Fields

/-- `record["a"]["b"]…`, when all but the last are maps. -/
def valueAt : Fields → Path → Option Value
  | _, [] => none
  | fields, [key] => fields.read key
  | fields, key :: next :: rest =>
    match fields.read key with
    | some (.map child) => valueAt child (next :: rest)
    | _ => none

/-- The map that stands under a key, or a new one. -/
def child (fields : Fields) (key : String) : Fields := childMap (fields.read key)

/-- `record["a"]["b"]… = value`; maps on the way are created where they are missing. -/
def putAt : Fields → Path → Value → Fields
  | fields, [], _ => fields
  | fields, [key], value => fields.put key value
  | fields, key :: next :: rest, value =>
    fields.put key (.map (putAt (fields.child key) (next :: rest) value))

/-- **Nothing is in the way of a path**: on it the keys of each map are distinct, and what stands
    under a key is a map or missing, up to the last one. -/
def Walkable : Fields → Path → Prop
  | _, [] => False
  | fields, [_] => fields.Keyed
  | fields, key :: next :: rest =>
    fields.Keyed ∧ ((fields.read key = none) ∨
      ∃ child, fields.read key = some (.map child) ∧ Walkable child (next :: rest))

variable {fields : Fields} {path rest : Path} {key : String}

theorem Walkable.keyed (h : fields.Walkable path) : fields.Keyed := by
  match path, h with
  | [_], h => exact h
  | _ :: _ :: _, h => exact h.1

/-- Walking a path decides it. -/
def Walkable.decidable : (fields : Fields) → (path : Path) → Decidable (fields.Walkable path)
  | _, [] => isFalse id
  | fields, [_] => inferInstanceAs (Decidable fields.Keyed)
  | fields, key :: next :: rest =>
    match hread : fields.read key with
    | none => decidable_of_iff fields.Keyed (by simp [Walkable, hread])
    | some (.map child) =>
      have := Walkable.decidable child (next :: rest)
      decidable_of_iff (fields.Keyed ∧ Walkable child (next :: rest)) (by simp [Walkable, hread])
    | some (.scalar _) => isFalse (by simp [Walkable, hread])
    | some (.list _) => isFalse (by simp [Walkable, hread])

instance (fields : Fields) (path : Path) : Decidable (fields.Walkable path) :=
  Walkable.decidable fields path

theorem walkable_nil (h : path ≠ []) : Walkable [] path := by
  match path, h with
  | [_], _ => exact List.nodup_nil
  | _ :: _ :: _, _ => exact ⟨List.nodup_nil, Or.inl rfl⟩

/-- What a walkable path finds below its first key. -/
theorem Walkable.child {next : String} (h : fields.Walkable (key :: next :: rest)) :
    (fields.child key).Walkable (next :: rest) := by
  rw [Fields.child]
  rcases h.2 with hnone | ⟨child, hchild, hwalk⟩
  · rw [hnone]
    exact walkable_nil (by simp)
  · rw [hchild]
    exact hwalk

theorem Walkable.valueAt_cons {next : String} (h : fields.Walkable (key :: next :: rest)) :
    fields.valueAt (key :: next :: rest) = (fields.child key).valueAt (next :: rest) := by
  rcases h.2 with hnone | ⟨child, hchild, -⟩
  · rw [valueAt, Fields.child, hnone]
    cases rest <;> rfl
  · rw [valueAt, Fields.child, hchild]
    rfl

/-- Another key is not in the way. -/
theorem Walkable.put_of_ne {key' : String} (h : fields.Walkable (key :: rest)) (hne : key' ≠ key)
    (value : Value) : Walkable (fields.put key' value) (key :: rest) := by
  match rest, h with
  | [], h => exact h.put key' value
  | _ :: _, h =>
    refine ⟨h.1.put key' value, ?_⟩
    rw [LinkedMap.read_put_of_ne hne]
    exact h.2

theorem valueAt_put_of_ne {key' : String} (h : key' ≠ key) (fields : Fields) (value : Value)
    (rest : Path) :
    valueAt (fields.put key' value) (key :: rest) = fields.valueAt (key :: rest) := by
  cases rest with
  | nil => exact LinkedMap.read_put_of_ne h fields value
  | cons next rest =>
    rw [valueAt, valueAt, LinkedMap.read_put_of_ne h]

theorem Walkable.putAt_self (h : fields.Walkable path) (value : Value) :
    (fields.putAt path value).Walkable path := by
  induction path generalizing fields with
  | nil => exact h
  | cons key rest ih =>
    cases rest with
    | nil => exact h.put key value
    | cons next rest =>
      refine ⟨h.1.put _ _, Or.inr ⟨_, LinkedMap.read_put_self _ _ _, ih h.child⟩⟩

/-- **What is written at a path is read there.** -/
theorem valueAt_putAt_self (hpath : path ≠ []) (fields : Fields) (value : Value) :
    (fields.putAt path value).valueAt path = some value := by
  induction path generalizing fields with
  | nil => exact absurd rfl hpath
  | cons key rest ih =>
    cases rest with
    | nil => exact LinkedMap.read_put_self _ _ _
    | cons next rest =>
      rw [putAt, valueAt, LinkedMap.read_put_self]
      exact ih (by simp) _

/-- **A write leaves the other paths as they are**, when neither path is a part of the other. -/
theorem Walkable.putAt_of_ne {path' : Path} (h : fields.Walkable path) (h' : fields.Walkable path')
    (hne : ¬ path' <+: path) (hne' : ¬ path <+: path') (value : Value) :
    (fields.putAt path' value).Walkable path ∧
      (fields.putAt path' value).valueAt path = fields.valueAt path := by
  induction path generalizing fields path' with
  | nil => exact h.elim
  | cons key rest ih =>
    cases path' with
    | nil => exact absurd (List.nil_prefix) hne
    | cons key' rest' =>
      by_cases hkey : key' = key
      · subst hkey
        rw [List.cons_prefix_cons] at hne hne'
        cases rest' with
        | nil => exact absurd ⟨rfl, List.nil_prefix⟩ hne
        | cons next' rest' =>
          cases rest with
          | nil => exact absurd ⟨rfl, List.nil_prefix⟩ hne'
          | cons next rest =>
            have hbelow := ih h.child h'.child (fun hp => hne ⟨rfl, hp⟩) fun hp => hne' ⟨rfl, hp⟩
            rw [putAt]
            refine ⟨⟨h.1.put _ _, Or.inr ⟨_, LinkedMap.read_put_self _ _ _, hbelow.1⟩⟩, ?_⟩
            rw [valueAt, LinkedMap.read_put_self, h.valueAt_cons]
            exact hbelow.2
      · have hput : ∃ v, fields.putAt (key' :: rest') value = fields.put key' v := by
          cases rest' with
          | nil => exact ⟨_, rfl⟩
          | cons _ _ => exact ⟨_, rfl⟩
        obtain ⟨v, hv⟩ := hput
        rw [hv]
        exact ⟨h.put_of_ne hkey v, valueAt_put_of_ne hkey fields v rest⟩

/-- A write touches one top-level key. -/
theorem read_putAt_of_ne (h : path.head? ≠ some key) (fields : Fields) (value : Value) :
    (fields.putAt path value).read key = fields.read key := by
  match path, h with
  | [], _ => rfl
  | [_], h => exact LinkedMap.read_put_of_ne (by simpa using h) _ _
  | _ :: _ :: _, h => exact LinkedMap.read_put_of_ne (by simpa using h) _ _

theorem keyed_putAt (h : fields.Keyed) (path : Path) (value : Value) :
    (fields.putAt path value).Keyed := by
  match path with
  | [] => exact h
  | [_] => exact h.put _ _
  | _ :: _ :: _ => exact h.put _ _

end Fields

/-! ### Records -/

/-- `Conflict`: the values that sources disagreed on at a field. -/
structure Conflict where
  field : Path
  values : LinkedMap String Value
  deriving DecidableEq

/-- A record. `trailing` are the entries behind `fieldSources`; a record without conflicts has no
    such entry, or an empty one. -/
structure VpnServerRecord where
  fields : Fields
  sources : List String
  sourceCount : ℕ
  fieldSources : Path → List String
  trailing : Fields
  conflicts : List Conflict

namespace VpnRecords

/-- `sourceAdd`; the names are kept sorted. -/
def sourceAdd (sources : List String) (source : String) : List String :=
  if source = "" || source ∈ sources then sources
  else (sources ++ [source]).mergeSort fun a b => a ≤ b

/-- `str` of an entry that is a text or missing. -/
def str : Option Value → String
  | some (.scalar (.string s)) => s
  | _ => ""

/-- `int` and `VpnUtil.toInt` of a scalar that is a number, a text or nothing. -/
def int : Scalar → ℤ
  | .int n => n
  | .string s => toInt s
  | _ => 0

/-- `bool`: what is neither a boolean nor a number counts as true. -/
def bool : Scalar → Bool
  | .boolean b => b
  | .int n => n ≠ 0
  | .double bits => !isFalsyScalar (.double bits)
  | .null => false
  | .string _ | .remote _ => true

end VpnRecords

end SoftEther.Merger

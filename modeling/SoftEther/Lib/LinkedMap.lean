import Mathlib.Data.List.Induction
import Mathlib.Data.List.Nodup

namespace SoftEther.Lib

/-!
# Maps that keep their order of insertion

A `LinkedHashMap` is the list of its entries; its keys are distinct. A value that is put under a
key of the map stays where the key is, under a new key it goes to the end.

* `LinkedMap.read`, `LinkedMap.put` — one key;
* `LinkedMap.putAll` — several entries; where they agree nothing is lost;
* `LinkedMap.collect` — rows put together by key, each row merged into what its key has so far;
* `read_collect` — a key has the rows of that key, merged in their order;
* `LinkedMap.group` — rows put into groups by key; `read_group`, `filter_map_group` — the rows of
  a key are in one group, and in one thing that is made of it;
* `addMissing` — the items of a list that another does not have, behind it; `keys_collect` — the
  order of the keys.
-/

variable {κ α ρ : Type*} [DecidableEq κ]

/-- A map that keeps its keys in the order of their first entries. -/
abbrev LinkedMap (κ α : Type*) := List (κ × α)

namespace LinkedMap

/-- The value of a key. -/
def read : LinkedMap κ α → κ → Option α
  | [], _ => none
  | (k', v) :: m, k => if k' = k then some v else read m k

/-- A new value of a key, in its place. -/
def put : LinkedMap κ α → κ → α → LinkedMap κ α
  | [], k, v => [(k, v)]
  | (k', v') :: m, k, v => if k' = k then (k, v) :: m else (k', v') :: put m k v

/-- The keys are distinct. -/
def Keyed (m : LinkedMap κ α) : Prop := (m.map Prod.fst).Nodup

instance (m : LinkedMap κ α) : Decidable m.Keyed := inferInstanceAs (Decidable (List.Nodup _))

@[simp] theorem read_nil (k : κ) :  read ([] : LinkedMap κ α) k = none := rfl

@[simp] theorem read_cons_self (m : LinkedMap κ α) (k : κ) (v : α) :
    read ((k, v) :: m) k = some v := if_pos rfl

variable {k k' : κ} {m : LinkedMap κ α} {v : α} {e : κ × α} {items : List (κ × α)}

theorem read_cons_of_ne (h : k' ≠ k) (m : LinkedMap κ α) (v : α) :
    read ((k', v) :: m) k = read m k := if_neg h

@[simp] theorem read_put_self (m : LinkedMap κ α) (k : κ) (v : α) :
    (m.put k v).read k = some v := by
  induction m with
  | nil => simp [put]
  | cons e m ih =>
    rw [put]
    split_ifs with h
    · simp
    · rw [read, if_neg h, ih]

theorem read_put_of_ne (h : k' ≠ k) (m : LinkedMap κ α) (v : α) :
    (m.put k' v).read k = m.read k := by
  induction m with
  | nil => simp [put, read, h]
  | cons e m ih =>
    rw [put]
    split_ifs with he
    · rw [read_cons_of_ne h, read, if_neg]
      rw [he]
      exact h
    · simp only [read, ih]

theorem read_eq_none : m.read k = none ↔ k ∉ m.map Prod.fst := by
  induction m with
  | nil => simp
  | cons e m ih =>
    rw [read]
    split_ifs with h
    · simp [h]
    · rw [ih]
      simp [Ne.symm h]

/-- Putting adds at most the key. -/
theorem mem_keys_put : k' ∈ (m.put k v).map Prod.fst ↔ k' = k ∨ k' ∈ m.map Prod.fst := by
  by_cases hk : k' = k
  · have hread : (m.put k v).read k' ≠ none := by simp [hk]
    rw [Ne, read_eq_none, not_not] at hread
    exact iff_of_true hread (Or.inl hk)
  · rw [← not_iff_not, ← read_eq_none, read_put_of_ne (Ne.symm hk), read_eq_none]
    simp [hk]

/-- Putting a key that the map has leaves its length, a new one adds one. -/
theorem length_put (m : LinkedMap κ α) (k : κ) (v : α) :
    (m.put k v).length = if (m.read k).isSome then m.length else m.length + 1 := by
  induction m with
  | nil => rfl
  | cons e m ih =>
    rw [put, read]
    by_cases he : e.1 = k
    · simp [he]
    · simp only [he, if_false, List.length_cons, ih]
      split_ifs
      · rfl
      · rfl

theorem Keyed.put (h : m.Keyed) (k : κ) (v : α) : (m.put k v).Keyed := by
  induction m with
  | nil => exact List.nodup_singleton k
  | cons e m ih =>
    obtain ⟨hnew, hrest⟩ := List.nodup_cons.mp h
    rw [LinkedMap.put]
    split_ifs with he
    · rw [he] at hnew
      exact List.nodup_cons.mpr ⟨hnew, hrest⟩
    · refine List.nodup_cons.mpr ⟨?_, ih hrest⟩
      rw [mem_keys_put]
      exact not_or.mpr ⟨he, hnew⟩

/-- With distinct keys an entry is what is got. -/
theorem Keyed.mem_iff (h : m.Keyed) : (k, v) ∈ m ↔ m.read k = some v := by
  induction m with
  | nil => simp
  | cons e m ih =>
    obtain ⟨hnew, hrest⟩ := List.nodup_cons.mp h
    rw [List.mem_cons, ih hrest, read]
    split_ifs with he
    · have hnone : read m k = none := read_eq_none.mpr (he ▸ hnew)
      rw [hnone]
      simp [Prod.ext_iff, he, eq_comm]
    · simp [Prod.ext_iff, Ne.symm he]

theorem mem_of_read (h : m.read k = some v) : (k, v) ∈ m := by
  induction m with
  | nil => simp at h
  | cons e m ih =>
    obtain ⟨k', v'⟩ := e
    rw [read] at h
    split_ifs at h with hk
    · obtain rfl := hk
      obtain rfl := Option.some.inj h
      exact List.mem_cons_self
    · exact List.mem_cons_of_mem _ (ih h)

theorem mem_put_self (m : LinkedMap κ α) (k : κ) (v : α) : (k, v) ∈ m.put k v :=
  mem_of_read (read_put_self m k v)

theorem mem_of_mem_put (h : e ∈ m.put k v) : e = (k, v) ∨ e ∈ m := by
  induction m with
  | nil => exact Or.inl (by simpa [put] using h)
  | cons e' m ih =>
    rw [put] at h
    split_ifs at h with hk
    · rcases List.mem_cons.mp h with he | he
      · exact Or.inl he
      · exact Or.inr (List.mem_cons_of_mem _ he)
    · rcases List.mem_cons.mp h with he | he
      · exact Or.inr (List.mem_cons.mpr (Or.inl he))
      · exact (ih he).imp_right (List.mem_cons_of_mem _)

/-- An entry of another key stays. -/
theorem mem_put_of_ne (h : e ∈ m) (hne : e.1 ≠ k) (v : α) : e ∈ m.put k v := by
  induction m with
  | nil => simp at h
  | cons e' m ih =>
    rw [put]
    rcases List.mem_cons.mp h with rfl | he
    · rw [if_neg hne]
      exact List.mem_cons_self
    · split_ifs
      · exact List.mem_cons_of_mem _ he
      · exact List.mem_cons_of_mem _ (ih he)

/-! ### Several entries at once -/

/-- `for ((k, v) in items) m[k] = v`. -/
def putAll (m : LinkedMap κ α) (items : List (κ × α)) : LinkedMap κ α :=
  items.foldl (fun m e => m.put e.1 e.2) m

/-- No key has two values in a list of entries. -/
def Functional (entries : List (κ × α)) : Prop := ∀ a ∈ entries, ∀ b ∈ entries, a.1 = b.1 → a = b

omit [DecidableEq κ] in
theorem Functional.mono {entries entries' : List (κ × α)} (h : Functional entries)
    (hsub : ∀ e ∈ entries', e ∈ entries) : Functional entries' :=
  fun a ha b hb => h a (hsub a ha) b (hsub b hb)

/-- The keys after all are those of the map and those of the entries. -/
theorem mem_keys_putAll :
    k ∈ (m.putAll items).map Prod.fst ↔ k ∈ m.map Prod.fst ∨ k ∈ items.map Prod.fst := by
  induction items generalizing m with
  | nil => simp [putAll]
  | cons i items ih =>
    have hstep : m.putAll (i :: items) = (m.put i.1 i.2).putAll items := rfl
    rw [hstep, ih, mem_keys_put, List.map_cons, List.mem_cons]
    tauto

theorem length_putAll_le (m : LinkedMap κ α) (items : List (κ × α)) :
    (m.putAll items).length ≤ m.length + items.length := by
  induction items generalizing m with
  | nil => exact Nat.le_refl _
  | cons i items ih =>
    have hstep : m.putAll (i :: items) = (m.put i.1 i.2).putAll items := rfl
    have hput := length_put m i.1 i.2
    have hrest := ih (m.put i.1 i.2)
    rw [hstep, List.length_cons]
    split_ifs at hput <;> omega

theorem mem_of_mem_putAll (h : e ∈ m.putAll items) : e ∈ m ∨ e ∈ items := by
  induction items generalizing m with
  | nil => exact Or.inl h
  | cons i items ih =>
    rcases ih h with hput | hitems
    · rcases mem_of_mem_put hput with rfl | hm
      · exact Or.inr List.mem_cons_self
      · exact Or.inl hm
    · exact Or.inr (List.mem_cons_of_mem _ hitems)

/-- **Entries that agree are not overwritten.** -/
theorem mem_putAll (h : Functional (m ++ items)) (he : e ∈ m ∨ e ∈ items) : e ∈ m.putAll items := by
  induction items generalizing m with
  | nil => exact he.resolve_right (by simp)
  | cons i items ih =>
    apply ih
    · apply h.mono
      intro e he
      rcases List.mem_append.mp he with hput | hitems
      · rcases mem_of_mem_put hput with rfl | hm
        · simp
        · simp [hm]
      · simp [hitems]
    · rcases he with hm | hi
      · left
        by_cases hkey : e.1 = i.1
        · rw [h e (by simp [hm]) i (by simp) hkey]
          exact mem_put_self m i.1 i.2
        · exact mem_put_of_ne hm hkey i.2
      · rcases List.mem_cons.mp hi with rfl | hi
        · exact Or.inl (mem_put_self m e.1 e.2)
        · exact Or.inr hi

theorem read_putAll (h : Functional (m ++ items)) (hread : m.read k = some v) :
    (m.putAll items).read k = some v := by
  have hmem : (k, v) ∈ m.putAll items := mem_putAll h (Or.inl (mem_of_read hread))
  cases hafter : (m.putAll items).read k with
  | none => exact absurd (List.mem_map_of_mem hmem) (read_eq_none.mp hafter)
  | some w =>
    have hw : (k, w) ∈ m ++ items := List.mem_append.mpr (mem_of_mem_putAll (mem_of_read hafter))
    have hv : (k, v) ∈ m ++ items := List.mem_append.mpr (Or.inl (mem_of_read hread))
    have hsame : w = v := (Prod.ext_iff.mp (h (k, w) hw (k, v) hv rfl)).2
    rw [hsame]

/-! ### Rows by key -/

/-- Each row that has a key is merged into what its key has so far. -/
def collect (key : ρ → Option κ) (merge : ρ → ρ → ρ) (m : LinkedMap κ ρ) : List ρ → LinkedMap κ ρ
  | [] => m
  | r :: rs =>
    match key r with
    | none => collect key merge m rs
    | some k =>
      match m.read k with
      | none => collect key merge (m.put k r) rs
      | some existing => collect key merge (m.put k (merge existing r)) rs

/-- The rows of one key, merged into what it has. -/
def mergeRows (merge : ρ → ρ → ρ) : Option ρ → List ρ → Option ρ
  | existing, [] => existing
  | none, r :: rs => some (rs.foldl merge r)
  | some existing, r :: rs => some (rs.foldl merge (merge existing r))

variable {key : ρ → Option κ} {merge : ρ → ρ → ρ}

theorem mergeRows_cons (existing : Option ρ) (r : ρ) (rs : List ρ) :
    mergeRows merge existing (r :: rs) =
      mergeRows merge (some (existing.elim r fun s => merge s r)) rs := by
  cases existing <;> cases rs <;> rfl

theorem Keyed.collect {m : LinkedMap κ ρ} (h : m.Keyed) (rs : List ρ) :
    (m.collect key merge rs).Keyed := by
  induction rs generalizing m with
  | nil => exact h
  | cons r rs ih =>
    rw [LinkedMap.collect]
    split
    · exact ih h
    · split
      · exact ih (h.put _ _)
      · exact ih (h.put _ _)

/-- **A key has its own rows, merged in their order.** -/
theorem read_collect (m : LinkedMap κ ρ) (rs : List ρ) (k : κ) :
    (m.collect key merge rs).read k =
      mergeRows merge (m.read k) (rs.filter fun r => key r = some k) := by
  induction rs generalizing m with
  | nil => cases h : m.read k <;> simp [collect, mergeRows, h]
  | cons r rs ih =>
    -- the entry of the row's key changes, the others stay
    have hput : ∀ k' v, (m.put k' v).read k = if k' = k then some v else m.read k := by
      intro k' v
      split_ifs with hk
      · rw [hk, read_put_self]
      · exact read_put_of_ne hk m v
    rw [collect]
    cases hkey : key r with
    | none =>
      dsimp only
      rw [ih, List.filter_cons_of_neg (by simp [hkey])]
    | some k' =>
      dsimp only
      by_cases hk : k' = k
      · subst hk
        rw [List.filter_cons_of_pos (by simp [hkey]), mergeRows_cons]
        cases hread : m.read k' with
        | none =>
          dsimp only
          rw [ih, read_put_self]
          rfl
        | some existing =>
          dsimp only
          rw [ih, read_put_self]
          rfl
      · rw [List.filter_cons_of_neg (by simp [hkey, hk])]
        cases m.read k' with
        | none =>
          dsimp only
          rw [ih, hput, if_neg hk]
        | some existing =>
          dsimp only
          rw [ih, hput, if_neg hk]

/-- What holds of the rows under their keys and is kept by the merge holds of the entries. -/
theorem collect_forall {P : κ → ρ → Prop} {m : LinkedMap κ ρ} {rs : List ρ}
    (hm : ∀ e ∈ m, P e.1 e.2) (hrow : ∀ r ∈ rs, ∀ k, key r = some k → P k r)
    (hmerge : ∀ k a r, P k a → P k r → P k (merge a r)) :
    ∀ e ∈ m.collect key merge rs, P e.1 e.2 := by
  induction rs generalizing m with
  | nil => exact hm
  | cons r rs ih =>
    have hrest : ∀ r ∈ rs, ∀ k, key r = some k → P k r :=
      fun r hr => hrow r (List.mem_cons_of_mem _ hr)
    have hput : ∀ k v, P k v → ∀ e ∈ m.put k v, P e.1 e.2 := by
      intro k v hv e he
      rcases mem_of_mem_put he with rfl | he
      · exact hv
      · exact hm e he
    rw [collect]
    cases hkey : key r with
    | none => exact ih hm hrest
    | some k =>
      have hr := hrow r List.mem_cons_self k hkey
      dsimp only
      cases hread : m.read k with
      | none => exact ih (hput k r hr) hrest
      | some existing =>
        exact ih (hput k _ (hmerge k existing r (hm _ (mem_of_read hread)) hr)) hrest

/-- What a key has after all: the merge of its rows, of which there is one. -/
theorem mem_collect {rs : List ρ} {v : ρ} : (k, v) ∈ collect key merge [] rs ↔
      ∃ r rest, (rs.filter fun r => key r = some k) = r :: rest ∧ v = rest.foldl merge r := by
  have hkeyed : (collect key merge [] rs).Keyed :=
    Keyed.collect (show Keyed ([] : LinkedMap κ ρ) from List.nodup_nil) rs
  rw [hkeyed.mem_iff, read_collect, read_nil]
  cases rs.filter fun r => key r = some k with
  | nil => simp [mergeRows]
  | cons r rest => simp [mergeRows, eq_comm]

/-! ### Rows in groups -/

/-- `m.getOrPut(k) { mutableListOf() }.add(row)`. -/
def addTo (m : LinkedMap κ (List ρ)) (k : κ) (row : ρ) : LinkedMap κ (List ρ) :=
  m.put k ((m.read k).getD [] ++ [row])

/-- The rows of each key, in their order. -/
def group (key : ρ → κ) (rs : List ρ) : LinkedMap κ (List ρ) :=
  rs.foldl (fun m r => m.addTo (key r) r) []

section Group

variable {key : ρ → κ} {rs : List ρ}

theorem group_concat (key : ρ → κ) (rs : List ρ) (r : ρ) :
    group key (rs ++ [r]) = (group key rs).addTo (key r) r := List.foldl_append

/-- **A key has its own rows**, when there are any. -/
theorem read_group (key : ρ → κ) (rs : List ρ) (k : κ) :
    (group key rs).read k =
      if rs.filter (key · = k) = [] then none else some (rs.filter (key · = k)) := by
  induction rs using List.reverseRecOn with
  | nil => rfl
  | append_singleton rs r ih =>
    rw [group_concat, addTo]
    by_cases hk : key r = k
    · have hbefore : ((group key rs).read k).getD [] = rs.filter (key · = k) := by
        rw [ih]
        split_ifs with h
        · exact h.symm
        · rfl
      rw [hk, read_put_self, hbefore]
      simp [hk]
    · rw [read_put_of_ne hk, ih]
      simp [hk]

theorem keyed_group (key : ρ → κ) (rs : List ρ) : (group key rs).Keyed := by
  induction rs using List.reverseRecOn with
  | nil => exact List.nodup_nil
  | append_singleton rs r ih =>
    rw [group_concat]
    exact ih.put _ _

theorem mem_group {k : κ} {g : List ρ} :
    (k, g) ∈ group key rs ↔ g = rs.filter (key · = k) ∧ g ≠ [] := by
  rw [(keyed_group key rs).mem_iff, read_group]
  split_ifs with h
  · simp [h]
  · rw [Option.some.injEq, eq_comm, and_iff_left_of_imp]
    rintro rfl
    exact h

/-- There are no more groups than rows, and as many only when no key has two rows. -/
theorem length_group (key : ρ → κ) (rs : List ρ) : (group key rs).length ≤ rs.length ∧
    ((group key rs).length = rs.length → ∀ k, (rs.filter (key · = k)).length ≤ 1) := by
  induction rs using List.reverseRecOn with
  | nil => simp [group]
  | append_singleton rs r ih =>
    obtain ⟨hle, hone⟩ := ih
    have hlength := length_put (group key rs) (key r) (((group key rs).read (key r)).getD [] ++ [r])
    rw [group_concat, addTo, hlength, List.length_append, List.length_singleton]
    by_cases hold : rs.filter (key · = key r) = []
    · have hread : (group key rs).read (key r) = none := by rw [read_group, if_pos hold]
      rw [hread, Option.isSome_none, if_neg Bool.false_ne_true]
      refine ⟨by omega, fun hsame k => ?_⟩
      by_cases hk : key r = k
      · subst hk
        simp [hold]
      · simpa [hk] using hone (by omega) k
    · have hread : ((group key rs).read (key r)).isSome = true := by
        rw [read_group, if_neg hold]
        rfl
      rw [if_pos hread]
      exact ⟨by omega, fun hsame => absurd hsame (by omega)⟩

/-- Rows with distinct keys are a group each. -/
theorem length_group_of_nodup (h : (rs.map key).Nodup) : (group key rs).length = rs.length := by
  induction rs using List.reverseRecOn with
  | nil => rfl
  | append_singleton rs r ih =>
    rw [List.map_append, List.map_singleton] at h
    obtain ⟨hrest, -, hapart⟩ := List.nodup_append.mp h
    have hnone : (group key rs).read (key r) = none := by
      rw [read_group, if_pos]
      rw [List.filter_eq_nil_iff]
      intro r' hr'
      rw [decide_eq_true_eq]
      exact hapart (key r') (List.mem_map_of_mem hr') (key r) (List.mem_singleton_self _)
    rw [group_concat, addTo, length_put, hnone, ih hrest]
    simp

/-- With distinct keys one entry has a key. -/
theorem Keyed.filter_key {m : LinkedMap κ α} (h : m.Keyed) (k : κ) :
    m.filter (·.1 = k) = ((m.read k).map (k, ·)).toList := by
  induction m with
  | nil => rfl
  | cons e m ih =>
    obtain ⟨hnew, hrest⟩ := List.nodup_cons.mp h
    rw [read]
    split_ifs with he
    · have hnone : read m k = none := read_eq_none.mpr (he ▸ hnew)
      rw [List.filter_cons_of_pos (by simpa using he), ih hrest, hnone, ← he]
      rfl
    · rw [List.filter_cons_of_neg (by simpa using he), ih hrest]

/-- **What is made of the groups**, when each has the key of its group: the rows of a key are in
    one of them. -/
theorem filter_map_group {f : List ρ → ρ}
    (hf : ∀ k, rs.filter (key · = k) ≠ [] → key (f (rs.filter (key · = k))) = k) (k : κ) :
    ((group key rs).map fun e => f e.2).filter (key · = k) =
      if rs.filter (key · = k) = [] then [] else [f (rs.filter (key · = k))] := by
  have hkey : ∀ e ∈ group key rs, decide (key (f e.2) = k) = decide (e.1 = k) := by
    intro e he
    obtain ⟨hrows, hne⟩ := mem_group.mp (show (e.1, e.2) ∈ group key rs from he)
    rw [hrows] at hne ⊢
    rw [hf e.1 hne]
  rw [List.filter_map, Function.comp_def, List.filter_congr hkey,
    (keyed_group key rs).filter_key, read_group]
  split_ifs
  · rfl
  · rfl

end Group

end LinkedMap

/-! ### Items that are missing -/

section AddMissing

variable [DecidableEq α]

/-- `for (y in ys) if (y !in xs) xs.add(y)`. -/
def addMissing (xs ys : List α) : List α :=
  ys.foldl (fun acc y => if y ∈ acc then acc else acc ++ [y]) xs

@[simp] theorem addMissing_nil (xs : List α) : addMissing xs [] = xs := rfl

theorem addMissing_cons (xs : List α) (y : α) (ys : List α) :
    addMissing xs (y :: ys) = addMissing (if y ∈ xs then xs else xs ++ [y]) ys := rfl

theorem addMissing_append (xs ys zs : List α) :
    addMissing xs (ys ++ zs) = addMissing (addMissing xs ys) zs := List.foldl_append

variable {xs : List α}

@[simp] theorem mem_addMissing {ys : List α} {x : α} : x ∈ addMissing xs ys ↔ x ∈ xs ∨ x ∈ ys := by
  induction ys generalizing xs with
  | nil => simp
  | cons y ys ih =>
    rw [addMissing_cons, ih]
    split_ifs with hy
    · rw [List.mem_cons]
      constructor
      · rintro (hx | hx)
        · exact Or.inl hx
        · exact Or.inr (Or.inr hx)
      · rintro (hx | rfl | hx)
        · exact Or.inl hx
        · exact Or.inl hy
        · exact Or.inr hx
    · simp [or_assoc]

theorem addMissing_concat (xs ys : List α) (y : α) :
    addMissing xs (ys ++ [y]) = if y ∈ addMissing xs ys then addMissing xs ys
      else addMissing xs ys ++ [y] := by
  rw [addMissing_append, addMissing_cons, addMissing_nil]

/-- Nothing is added of what is there. -/
theorem addMissing_of_subset {ys : List α} (h : ∀ y ∈ ys, y ∈ xs) : addMissing xs ys = xs := by
  induction ys with
  | nil => rfl
  | cons y ys ih =>
    rw [addMissing_cons, if_pos (h y List.mem_cons_self)]
    exact ih fun z hz => h z (List.mem_cons_of_mem y hz)

@[simp] theorem addMissing_self (xs ys : List α) :
    addMissing (addMissing xs ys) ys = addMissing xs ys :=
  addMissing_of_subset fun _ hy => mem_addMissing.mpr (Or.inr hy)

/-- The first that is found among items that are put together is found in their order. -/
theorem findSome?_addMissing {β : Type*} (f : α → Option β) (xs ys : List α) :
    (addMissing xs ys).findSome? f = (xs ++ ys).findSome? f := by
  induction ys using List.reverseRecOn with
  | nil => simp
  | append_singleton ys y ih =>
    rw [addMissing_concat, ← List.append_assoc, List.findSome?_append, ← ih]
    split_ifs with hy
    · -- a duplicate is found where it was first
      cases hfound : (addMissing xs ys).findSome? f with
      | some b => rfl
      | none => simp [List.findSome?_eq_none_iff.mp hfound y hy]
    · rw [List.findSome?_append]

/-- No item is added twice. -/
theorem nodup_addMissing (h : xs.Nodup) (ys : List α) : (addMissing xs ys).Nodup := by
  induction ys using List.reverseRecOn with
  | nil => exact h
  | append_singleton ys y ih =>
    rw [addMissing_concat]
    split_ifs with hy
    · exact ih
    · exact List.nodup_append.mpr ⟨ih, List.nodup_singleton y, by
        intro x hx y' hy' hsame
        rw [List.mem_singleton.mp hy'] at hsame
        exact hy (hsame ▸ hx)⟩

/-- All items are added exactly when none of them is twice among them. -/
theorem length_addMissing (ys : List α) : (addMissing [] ys).length ≤ ys.length ∧
    ((addMissing [] ys).length = ys.length ↔ ys.Nodup) := by
  induction ys using List.reverseRecOn with
  | nil => simp
  | append_singleton ys y ih =>
    obtain ⟨hle, hiff⟩ := ih
    have hnodup : (ys ++ [y]).Nodup ↔ ys.Nodup ∧ y ∉ ys := by
      rw [List.nodup_append_comm]
      simp [and_comm]
    have hmem : y ∈ addMissing [] ys ↔ y ∈ ys := by simp
    rw [addMissing_concat, hnodup, List.length_append, List.length_singleton]
    split_ifs with hy
    · exact ⟨by omega, iff_of_false (by omega) fun h => h.2 (hmem.mp hy)⟩
    · rw [List.length_append, List.length_singleton, Nat.add_right_cancel_iff, hiff,
        and_iff_left fun h => hy (hmem.mpr h)]
      exact ⟨by omega, Iff.rfl⟩

/-- A new key comes last. -/
theorem LinkedMap.keys_put (m : LinkedMap α ρ) (k : α) (v : ρ) : (m.put k v).map Prod.fst =
    if k ∈ m.map Prod.fst then m.map Prod.fst else m.map Prod.fst ++ [k] := by
  induction m with
  | nil => simp [LinkedMap.put]
  | cons e m ih =>
    rw [LinkedMap.put]
    by_cases he : e.1 = k
    · rw [if_pos he]
      simp [he]
    · rw [if_neg he, List.map_cons, ih]
      by_cases hk : k ∈ m.map Prod.fst
      · have hold : k ∈ (e :: m).map Prod.fst := by
          rw [List.map_cons]
          exact List.mem_cons_of_mem _ hk
        rw [if_pos hk, if_pos hold, List.map_cons]
      · have hnew : k ∉ (e :: m).map Prod.fst := by
          rw [List.map_cons, List.mem_cons]
          exact not_or.mpr ⟨Ne.symm he, hk⟩
        rw [if_neg hk, if_neg hnew, List.map_cons, List.cons_append]

/-- The keys of entries that are put one after the other. -/
theorem LinkedMap.keys_putAll (m : LinkedMap α ρ) (items : List (α × ρ)) :
    (m.putAll items).map Prod.fst = addMissing (m.map Prod.fst) (items.map Prod.fst) := by
  induction items generalizing m with
  | nil => rfl
  | cons i items ih =>
    have hstep : m.putAll (i :: items) = (m.put i.1 i.2).putAll items := rfl
    rw [hstep, ih, LinkedMap.keys_put, List.map_cons, addMissing_cons]

/-- The keys of rows that are put together stand in the order of their first rows. -/
theorem LinkedMap.keys_collect {key : ρ → Option α} {merge : ρ → ρ → ρ} (m : LinkedMap α ρ)
    (rs : List ρ) :
    (m.collect key merge rs).map Prod.fst = addMissing (m.map Prod.fst) (rs.filterMap key) := by
  induction rs generalizing m with
  | nil => rfl
  | cons r rs ih =>
    rw [LinkedMap.collect]
    cases hkey : key r with
    | none =>
      dsimp only
      rw [ih, List.filterMap_cons_none hkey]
    | some k =>
      rw [List.filterMap_cons_some hkey, addMissing_cons]
      dsimp only
      cases hread : m.read k with
      | none =>
        dsimp only
        rw [ih, LinkedMap.keys_put]
      | some existing =>
        dsimp only
        rw [ih, LinkedMap.keys_put]

end AddMissing

end SoftEther.Lib

import FailureResolver.BinaryFloat
import Mathlib.Data.List.Nodup
import Mathlib.Data.List.Sort
import Mathlib.Data.String.Basic

/-!
JSON values as the source language holds them. An object is the list of its
members in insertion order; its keys are distinct, which `Distinct` states at
every depth. Equality follows the language: numbers and truth values compare by
value, objects without regard to the order of their members.
-/

namespace FailureResolver.JsonValue

open BinaryFloat

inductive Json
  | null
  | bool (b : Bool)
  | int (n : ℤ)
  | float (x : Binary64)
  | str (s : String)
  | arr (items : List Json)
  | obj (members : List (String × Json))
  deriving Inhabited

abbrev Fields := List (String × Json)

/-- `mapping.get(key)`: an absent member reads as null. -/
def Fields.get (fields : Fields) (key : String) : Json := (fields.lookup key).getD .null

def Fields.has (fields : Fields) (key : String) : Bool := (fields.lookup key).isSome

def Fields.keys (fields : Fields) : List String := fields.map Prod.fst

/-- `mapping[key] = value`: a present member keeps its place. -/
def Fields.set (fields : Fields) (key : String) (value : Json) : Fields :=
  if Fields.has fields key then
    fields.map (fun member => if member.1 = key then (key, value) else member)
  else fields ++ [(key, value)]

namespace Json

def isNull : Json → Bool
  | .null => true
  | _ => false

/-- `value.get(key)` on a value already known to be a mapping. -/
def get (value : Json) (key : String) : Json :=
  match value with
  | .obj fields => Fields.get fields key
  | _ => .null

end Json

/-- Induction over a value: a container satisfies what all its items satisfy. -/
@[elab_as_elim] theorem Json.inductionOn {motive : Json → Prop} (value : Json)
    (null : motive .null) (bool : ∀ b, motive (.bool b)) (int : ∀ n, motive (.int n))
    (float : ∀ x, motive (.float x)) (str : ∀ s, motive (.str s))
    (arr : ∀ items, (∀ x ∈ items, motive x) → motive (.arr items))
    (obj : ∀ members : Fields, (∀ m ∈ members, motive m.2) → motive (.obj members)) :
    motive value := by
  match value with
  | .null => exact null
  | .bool b => exact bool b
  | .int n => exact int n
  | .float x => exact float x
  | .str s => exact str s
  | .arr items =>
    exact arr items fun x hx => Json.inductionOn x null bool int float str arr obj
  | .obj members =>
    exact obj members fun m hm => Json.inductionOn m.2 null bool int float str arr obj
  termination_by sizeOf value
  decreasing_by
    · have hlt := List.sizeOf_lt_of_mem hx
      simp
      omega
    · have hlt := List.sizeOf_lt_of_mem hm
      obtain ⟨key, x⟩ := m
      simp at hlt ⊢
      omega

/-- The values numbers compare by: exact, or one of the special floats. -/
inductive Number
  | exact (q : ℚ)
  | infinite (negative : Bool)
  | undefined
  deriving DecidableEq

def Number.ofFloat : Binary64 → Number
  | .nan => .undefined
  | .infinity negative => .infinite negative
  | .finite x => .exact x.value

def Json.number : Json → Option Number
  | .bool b => some (.exact (if b then 1 else 0))
  | .int n => some (.exact n)
  | .float x => some (.ofFloat x)
  | _ => none

def Number.eq : Number → Number → Bool
  | .exact p, .exact q => decide (p = q)
  | .infinite a, .infinite b => a == b
  | _, _ => false

def truthy : Json → Bool
  | .null => false
  | .bool b => b
  | .int n => n ≠ 0
  | .float x => (Number.ofFloat x).eq (.exact 0) = false
  | .str s => s ≠ ""
  | .arr items => !items.isEmpty
  | .obj members => !members.isEmpty

def isTrue : Json → Bool
  | .bool true => true
  | _ => false

def isText : Json → Bool
  | .str _ => true
  | _ => false

def isMapping : Json → Bool
  | .obj _ => true
  | _ => false

def Json.numberEq (left right : Json) : Bool :=
  match left.number, right.number with
  | some a, some b => a.eq b
  | _, _ => false

mutual

/-- `left == right`. -/
def Json.pyEq : Json → Json → Bool
  | .null, .null => true
  | .str a, .str b => a == b
  | .arr xs, .arr ys => Json.pyEqItems xs ys
  | .obj xs, .obj ys => xs.length == ys.length && Json.pyEqMembers xs ys
  | left, right => Json.numberEq left right

def Json.pyEqItems : List Json → List Json → Bool
  | [], [] => true
  | x :: xs, y :: ys => Json.pyEq x y && Json.pyEqItems xs ys
  | _, _ => false

def Json.pyEqMembers : List (String × Json) → List (String × Json) → Bool
  | [], _ => true
  | (key, x) :: rest, ys =>
      (match ys.lookup key with
        | some y => Json.pyEq x y
        | none => false) && Json.pyEqMembers rest ys

end

mutual

/-- No object repeats a key, at any depth. -/
def Json.Distinct : Json → Prop
  | .arr items => Json.DistinctItems items
  | .obj members => (members.map Prod.fst).Nodup ∧ Json.DistinctMembers members
  | _ => True

def Json.DistinctItems : List Json → Prop
  | [] => True
  | x :: xs => Json.Distinct x ∧ Json.DistinctItems xs

def Json.DistinctMembers : List (String × Json) → Prop
  | [] => True
  | (_, x) :: rest => Json.Distinct x ∧ Json.DistinctMembers rest

end

def Fields.Distinct (fields : Fields) : Prop := Json.Distinct (.obj fields)

def keyLe (a b : String × Json) : Prop := a.1 ≤ b.1

instance : DecidableRel keyLe := fun a b => inferInstanceAs (Decidable (a.1 ≤ b.1))

instance : Std.Total keyLe := ⟨fun a b => le_total a.1 b.1⟩

instance : IsTrans (String × Json) keyLe := ⟨fun _ _ _ h h' => le_trans h h'⟩

mutual

/-- Every object with its members in key order, as `sort_keys` writes it. -/
def Json.sortKeys : Json → Json
  | .arr items => .arr (Json.sortKeysItems items)
  | .obj members => .obj ((Json.sortKeysMembers members).insertionSort keyLe)
  | value => value

def Json.sortKeysItems : List Json → List Json
  | [] => []
  | x :: xs => Json.sortKeys x :: Json.sortKeysItems xs

def Json.sortKeysMembers : List (String × Json) → List (String × Json)
  | [] => []
  | (key, x) :: rest => (key, Json.sortKeys x) :: Json.sortKeysMembers rest

end

section Lookup

variable {fields : Fields} {key other : String} {value : Json}

theorem has_eq_true_iff : Fields.has fields key = true ↔ key ∈ fields.map Prod.fst := by
  unfold Fields.has
  rw [List.lookup_isSome_iff]
  constructor
  · rintro ⟨member, hmem, hkey⟩
    exact List.mem_map.mpr ⟨member, hmem, (beq_iff_eq.mp hkey).symm⟩
  · intro h
    obtain ⟨member, hmem, rfl⟩ := List.mem_map.mp h
    exact ⟨member, hmem, beq_self_eq_true _⟩

theorem get_of_not_has (h : Fields.has fields key = false) : Fields.get fields key = .null := by
  unfold Fields.has at h
  unfold Fields.get
  cases hlookup : fields.lookup key with
  | none => rfl
  | some value => simp [hlookup] at h

theorem lookup_map_set (fields : Fields) (key : String) (value : Json) (other : String) :
    (fields.map (fun member => if member.1 = key then (key, value) else member)).lookup other =
      if other = key then (fields.lookup key).map (fun _ => value) else fields.lookup other := by
  induction fields with
  | nil => simp
  | cons member rest ih =>
    obtain ⟨name, old⟩ := member
    rw [List.map_cons]
    by_cases hname : name = key
    · subst hname
      by_cases hother : other = name
      · subst hother
        simp
      · have hne : (other == name) = false := by simpa using hother
        simp [List.lookup_cons, hne, ih, hother]
    · by_cases hother : other = key
      · subst hother
        have hne : (other == name) = false := by simpa using fun h : other = name => hname h.symm
        simp [List.lookup_cons, hname, hne, ih]
      · by_cases hhead : other = name
        · subst hhead
          simp [hname]
        · have hne : (other == name) = false := by simpa using hhead
          simp [List.lookup_cons, hname, hne, ih, hother]

/-- The last write of a key is what the key is for. -/
theorem lookup_set : (Fields.set fields key value).lookup other =
    if other = key then some value else fields.lookup other := by
  unfold Fields.set Fields.has
  cases hlookup : fields.lookup key with
  | some old =>
    rw [Option.isSome_some, if_pos rfl, lookup_map_set, hlookup]
    rfl
  | none =>
    rw [if_neg (by simp), List.lookup_append]
    by_cases hother : other = key
    · rw [if_pos hother, hother, hlookup]
      simp
    · rw [if_neg hother]
      have hne : (other == key) = false := by simpa using hother
      simp [List.lookup_cons, hne]

theorem get_set_self : Fields.get (Fields.set fields key value) key = value := by
  rw [Fields.get, lookup_set, if_pos rfl]
  rfl

theorem get_set_other (h : other ≠ key) :
    Fields.get (Fields.set fields key value) other = Fields.get fields other := by
  rw [Fields.get, lookup_set, if_neg h, Fields.get]

end Lookup

section Sorting

theorem distinctItems_iff {items : List Json} :
    Json.DistinctItems items ↔ ∀ x ∈ items, x.Distinct := by
  induction items with
  | nil => simp [Json.DistinctItems]
  | cons x xs ih => simp [Json.DistinctItems, ih]

theorem distinctMembers_iff {members : Fields} :
    Json.DistinctMembers members ↔ ∀ m ∈ members, m.2.Distinct := by
  induction members with
  | nil => simp [Json.DistinctMembers]
  | cons m rest ih =>
    obtain ⟨key, x⟩ := m
    simp [Json.DistinctMembers, ih]

theorem sortKeysMembers_eq_map (members : Fields) :
    Json.sortKeysMembers members = members.map (fun m => (m.1, m.2.sortKeys)) := by
  induction members with
  | nil => rfl
  | cons m rest ih =>
    obtain ⟨key, x⟩ := m
    simp [Json.sortKeysMembers, ih]

theorem sortKeysItems_eq_map (items : List Json) :
    Json.sortKeysItems items = items.map Json.sortKeys := by
  induction items with
  | nil => rfl
  | cons x xs ih => simp [Json.sortKeysItems, ih]

theorem sortKeys_obj (members : Fields) : Json.sortKeys (.obj members) =
    .obj ((members.map fun m => (m.1, m.2.sortKeys)).insertionSort keyLe) := by
  rw [Json.sortKeys, sortKeysMembers_eq_map]

theorem sortKeys_arr (items : List Json) :
    Json.sortKeys (.arr items) = .arr (items.map Json.sortKeys) := by
  rw [Json.sortKeys, sortKeysItems_eq_map]

theorem mem_sortedMembers {members : Fields} {m : String × Json} :
    m ∈ (members.map fun m => (m.1, m.2.sortKeys)).insertionSort keyLe ↔
      ∃ m' ∈ members, m = (m'.1, m'.2.sortKeys) := by
  rw [List.mem_insertionSort, List.mem_map]
  constructor
  · rintro ⟨m', hm', rfl⟩
    exact ⟨m', hm', rfl⟩
  · rintro ⟨m', hm', rfl⟩
    exact ⟨m', hm', rfl⟩

theorem keys_sortedMembers_perm (members : Fields) :
    (((members.map fun m => (m.1, m.2.sortKeys)).insertionSort keyLe).map Prod.fst).Perm
      (members.map Prod.fst) := by
  have hperm := (List.perm_insertionSort keyLe (members.map fun m => (m.1, m.2.sortKeys))).map
    Prod.fst
  rwa [List.map_map] at hperm

/-- Sorting twice sorts once. -/
theorem sortKeys_sortKeys (value : Json) : value.sortKeys.sortKeys = value.sortKeys := by
  induction value using Json.inductionOn with
  | null => rfl
  | bool b => rfl
  | int n => rfl
  | float x => rfl
  | str s => rfl
  | arr items ih =>
    rw [sortKeys_arr, sortKeys_arr, List.map_map]
    exact congrArg Json.arr (List.map_congr_left ih)
  | obj members ih =>
    have hsame : ∀ m ∈ (members.map fun m => (m.1, m.2.sortKeys)).insertionSort keyLe,
        (m.1, m.2.sortKeys) = m := by
      intro m hm
      obtain ⟨m', hm', rfl⟩ := mem_sortedMembers.mp hm
      rw [ih m' hm']
    rw [sortKeys_obj, sortKeys_obj, List.map_congr_left hsame, List.map_id']
    exact congrArg Json.obj (List.pairwise_insertionSort keyLe _).insertionSort_eq

theorem distinct_obj {members : Fields} : Json.Distinct (.obj members) ↔
    (members.map Prod.fst).Nodup ∧ ∀ m ∈ members, m.2.Distinct := by
  rw [Json.Distinct, distinctMembers_iff]

theorem Json.Distinct.sortKeys {value : Json} (h : value.Distinct) : value.sortKeys.Distinct := by
  induction value using Json.inductionOn with
  | null => exact h
  | bool b => exact h
  | int n => exact h
  | float x => exact h
  | str s => exact h
  | arr items ih =>
    rw [Json.Distinct, distinctItems_iff] at h
    rw [sortKeys_arr, Json.Distinct, distinctItems_iff]
    intro x hx
    obtain ⟨y, hy, rfl⟩ := List.mem_map.mp hx
    exact ih y hy (h y hy)
  | obj members ih =>
    obtain ⟨hkeys, hmembers⟩ := distinct_obj.mp h
    rw [sortKeys_obj]
    refine distinct_obj.mpr ⟨(keys_sortedMembers_perm members).nodup_iff.mpr hkeys, fun m hm => ?_⟩
    obtain ⟨m', hm', rfl⟩ := mem_sortedMembers.mp hm
    exact ih m' hm' (hmembers m' hm')

theorem lookup_eq_some_of_mem {members : Fields} (h : (members.map Prod.fst).Nodup)
    {m : String × Json} (hm : m ∈ members) : members.lookup m.1 = some m.2 := by
  induction members with
  | nil => cases hm
  | cons member rest ih =>
    obtain ⟨key, x⟩ := member
    obtain ⟨hkey, hrest⟩ := List.nodup_cons.mp h
    rcases List.mem_cons.mp hm with rfl | hmem
    · simp
    · have hne : (m.1 == key) = false := by
        rw [beq_eq_false_iff_ne]
        rintro rfl
        exact hkey (List.mem_map.mpr ⟨m, hmem, rfl⟩)
      rw [List.lookup_cons, hne]
      exact ih hrest hmem

theorem get_eq_null_or_mem (fields : Fields) (key : String) :
    Fields.get fields key = .null ∨ (key, Fields.get fields key) ∈ fields := by
  unfold Fields.get
  cases hlookup : fields.lookup key with
  | none => exact .inl rfl
  | some value =>
    refine .inr ?_
    obtain ⟨before, after, rfl, -⟩ := List.lookup_eq_some_iff.mp hlookup
    simp

theorem distinct_get {fields : Fields} (h : Json.Distinct (.obj fields)) (key : String) :
    (Fields.get fields key).Distinct := by
  rcases get_eq_null_or_mem fields key with hnull | hmem
  · rw [hnull]
    trivial
  · exact (distinct_obj.mp h).2 _ hmem

theorem keys_set (fields : Fields) (key : String) (value : Json) :
    (Fields.set fields key value).map Prod.fst =
      if Fields.has fields key then fields.map Prod.fst else fields.map Prod.fst ++ [key] := by
  unfold Fields.set
  split
  · rw [List.map_map]
    refine List.map_congr_left fun m _ => ?_
    simp only [Function.comp_apply]
    split
    · next hkey => exact hkey.symm
    · rfl
  · rw [List.map_append]
    rfl

theorem mem_set {fields : Fields} {key : String} {value : Json} {m : String × Json}
    (h : m ∈ Fields.set fields key value) : m ∈ fields ∨ m = (key, value) := by
  unfold Fields.set at h
  split at h
  · obtain ⟨m', hm', heq⟩ := List.mem_map.mp h
    split at heq
    · exact .inr heq.symm
    · exact .inl (heq ▸ hm')
  · simpa using h

theorem distinct_set {fields : Fields} (h : Json.Distinct (.obj fields)) (key : String)
    {value : Json} (hvalue : value.Distinct) : Json.Distinct (.obj (Fields.set fields key value)) := by
  obtain ⟨hkeys, hmembers⟩ := distinct_obj.mp h
  refine distinct_obj.mpr ⟨?_, fun m hm => ?_⟩
  · rw [keys_set]
    split
    · exact hkeys
    · next hhas =>
      rw [has_eq_true_iff] at hhas
      rw [List.nodup_append]
      refine ⟨hkeys, List.nodup_singleton key, fun a ha b hb => ?_⟩
      rw [List.mem_singleton.mp hb]
      rintro rfl
      exact hhas ha
  · rcases mem_set hm with hm | rfl
    · exact hmembers m hm
    · exact hvalue

/-- What holds of a value whenever it holds of what the value is made of. -/
structure Hereditary (P : Json → Prop) : Prop where
  null : P .null
  arr : ∀ items : List Json, (∀ x ∈ items, P x) → P (.arr items)
  item : ∀ items : List Json, P (.arr items) → ∀ x ∈ items, P x
  obj : ∀ members : Fields, (members.map Prod.fst).Nodup → (∀ m ∈ members, P m.2) →
    P (.obj members)
  member : ∀ members : Fields, P (.obj members) → ∀ m ∈ members, P m.2
  set : ∀ (members : Fields) (key : String) (value : Json), P (.obj members) → P value →
    P (.obj (Fields.set members key value))

theorem Hereditary.get {P : Json → Prop} (hP : Hereditary P) {fields : Fields}
    (h : P (.obj fields)) (key : String) : P (Fields.get fields key) := by
  rcases get_eq_null_or_mem fields key with hnull | hmem
  · rw [hnull]
    exact hP.null
  · exact hP.member fields h _ hmem

theorem Hereditary.jsonGet {P : Json → Prop} (hP : Hereditary P) {value : Json} (h : P value)
    (key : String) : P (Json.get value key) := by
  cases value with
  | obj fields => exact hP.get h key
  | _ => exact hP.null

theorem hereditary_distinct : Hereditary Json.Distinct where
  null := trivial
  arr := fun _ hitems => distinctItems_iff.mpr hitems
  item := fun _ h => distinctItems_iff.mp h
  obj := fun _ hkeys hmembers => distinct_obj.mpr ⟨hkeys, hmembers⟩
  member := fun _ h => (distinct_obj.mp h).2
  set := fun _ key _ h hvalue => distinct_set h key hvalue

/-- Sorting keeps what every key is for. -/
theorem get_sortKeys {fields sorted : Fields} (h : Json.Distinct (.obj fields))
    (hsorted : Json.sortKeys (.obj fields) = .obj sorted) (key : String) :
    Fields.get sorted key = (Fields.get fields key).sortKeys := by
  rw [sortKeys_obj, Json.obj.injEq] at hsorted
  have hkeys : (sorted.map Prod.fst).Nodup := by
    rw [← hsorted]
    exact (keys_sortedMembers_perm fields).nodup_iff.mpr (distinct_obj.mp h).1
  by_cases hkey : key ∈ fields.map Prod.fst
  · obtain ⟨m, hm, rfl⟩ := List.mem_map.mp hkey
    have hmem : (m.1, m.2.sortKeys) ∈ sorted := by
      rw [← hsorted]
      exact mem_sortedMembers.mpr ⟨m, hm, rfl⟩
    have hlookup := lookup_eq_some_of_mem (distinct_obj.mp h).1 hm
    have hlookup' := lookup_eq_some_of_mem hkeys hmem
    simp only at hlookup'
    simp [Fields.get, hlookup, hlookup']
  · have hnone : Fields.has fields key = false := by
      rw [← Bool.not_eq_true, has_eq_true_iff]
      exact hkey
    have hnone' : Fields.has sorted key = false := by
      rw [← Bool.not_eq_true, has_eq_true_iff, ← hsorted,
        (keys_sortedMembers_perm fields).mem_iff]
      exact hkey
    rw [get_of_not_has hnone, get_of_not_has hnone']
    rfl

/-- Two objects with the same keys are the same up to order if their values are. -/
theorem sortKeys_obj_iff {fields fields' : Fields} (h : Json.Distinct (.obj fields))
    (h' : Json.Distinct (.obj fields')) (hkeys : fields.map Prod.fst = fields'.map Prod.fst) :
    Json.sortKeys (.obj fields) = Json.sortKeys (.obj fields') ↔
      ∀ key ∈ fields.map Prod.fst,
        (Fields.get fields key).sortKeys = (Fields.get fields' key).sortKeys := by
  have hvalues : ∀ {fields : Fields}, Json.Distinct (.obj fields) →
      (fields.map fun m => (m.1, m.2.sortKeys)) =
        (fields.map Prod.fst).map fun key => (key, (Fields.get fields key).sortKeys) := by
    intro fields h
    rw [List.map_map]
    refine List.map_congr_left fun m hm => ?_
    have hlookup := lookup_eq_some_of_mem (distinct_obj.mp h).1 hm
    simp [Fields.get, hlookup]
  constructor
  · intro hsame key _
    obtain ⟨sorted, hsorted⟩ : ∃ sorted, Json.sortKeys (.obj fields) = .obj sorted :=
      ⟨_, sortKeys_obj fields⟩
    rw [← get_sortKeys h hsorted, ← get_sortKeys h' (hsame ▸ hsorted)]
  · intro hsame
    have hmembers : (fields.map fun m => (m.1, m.2.sortKeys)) =
        fields'.map fun m => (m.1, m.2.sortKeys) := by
      rw [hvalues h, hvalues h', ← hkeys]
      refine List.map_congr_left fun key hkey => ?_
      rw [hsame key hkey]
    rw [sortKeys_obj, sortKeys_obj, hmembers]

end Sorting

end FailureResolver.JsonValue

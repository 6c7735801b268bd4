import FailureResolver.ActionPlan
import FailureResolver.FloatIntegers

/-!
The comparison of two argument trees, and what it stands for. Two values are the same
JSON when they have one shape, and numbers of one exact value. The code compares numbers
as floats, so it agrees with that only where the float of each number stands for no other
number; it never finds a value with a number beyond the floats equal to anything.
-/

namespace FailureResolver.JsonEquality

open BinaryFloat FloatIntegers JsonValue PyException ActionPlan

section Numbers

mutual

def everyNumber (p : Json → Bool) : Json → Bool
  | .int n => p (.int n)
  | .float x => p (.float x)
  | .arr items => everyNumberItems p items
  | .obj members => everyNumberMembers p members
  | _ => true

def everyNumberItems (p : Json → Bool) : List Json → Bool
  | [] => true
  | x :: xs => everyNumber p x && everyNumberItems p xs

def everyNumberMembers (p : Json → Bool) : List (String × Json) → Bool
  | [] => true
  | (_, x) :: rest => everyNumber p x && everyNumberMembers p rest

end

variable {p q : Json → Bool}

theorem everyNumberItems_iff {items : List Json} :
    everyNumberItems p items = true ↔ ∀ x ∈ items, everyNumber p x = true := by
  induction items with
  | nil => simp [everyNumberItems]
  | cons x xs ih => simp [everyNumberItems, ih]

theorem everyNumberMembers_iff {members : Fields} :
    everyNumberMembers p members = true ↔ ∀ m ∈ members, everyNumber p m.2 = true := by
  induction members with
  | nil => simp [everyNumberMembers]
  | cons m rest ih =>
    obtain ⟨key, x⟩ := m
    simp [everyNumberMembers, ih]

theorem everyNumber_arr {items : List Json} :
    everyNumber p (.arr items) = true ↔ ∀ x ∈ items, everyNumber p x = true := by
  rw [everyNumber, everyNumberItems_iff]

theorem everyNumber_obj {members : Fields} :
    everyNumber p (.obj members) = true ↔ ∀ m ∈ members, everyNumber p m.2 = true := by
  rw [everyNumber, everyNumberMembers_iff]

theorem everyNumber_mono (hpq : ∀ value, isNumber value = true → p value = true → q value = true)
    {value : Json} (h : everyNumber p value = true) : everyNumber q value = true := by
  induction value using Json.inductionOn with
  | int n => exact hpq _ rfl h
  | float x => exact hpq _ rfl h
  | arr items ih =>
    rw [everyNumber_arr] at h ⊢
    exact fun x hx => ih x hx (h x hx)
  | obj members ih =>
    rw [everyNumber_obj] at h ⊢
    exact fun m hm => ih m hm (h m hm)
  | _ => rfl

def hasFloat : Json → Bool
  | .int n => (ofInt n).isSome
  | .float x => BinaryFloat.isFinite x
  | _ => false

def comparable (value : Json) : Bool := everyNumber hasFloat value

/-- What a number is exactly; JSON has no other numbers than these. -/
def exactValue : Json → Option ℚ
  | .int n => some n
  | .float (.finite x) => some x.value
  | _ => none

def allExact (value : Json) : Bool := everyNumber (fun v => (exactValue v).isSome) value

/-- The float of the number is the number, and no other number's. -/
def standsAlone : Json → Bool
  | .int n => IntegerAlone n
  | .float (.finite x) => x.value.den ≠ 1 ∨ IntegerAlone x.value.num
  | _ => false

def allAlone (value : Json) : Bool := everyNumber standsAlone value

theorem toFloat_int {n : ℤ} {x : Finite} :
    toFloat (.int n) = .ok (.finite x) ↔ ofInt n = some x := by
  rw [toFloat]
  cases ofInt n <;> simp

theorem hasFloat_iff {value : Json} (hnumber : isNumber value = true) :
    hasFloat value = true ↔ ∃ x, toFloat value = .ok (.finite x) := by
  cases value with
  | int n => simp only [hasFloat, toFloat_int, Option.isSome_iff_exists]
  | float y =>
    unfold hasFloat toFloat
    cases y <;> simp [BinaryFloat.isFinite]
  | _ => cases hnumber

theorem allExact_of_comparable {value : Json} (h : comparable value = true) :
    allExact value = true := by
  refine everyNumber_mono (fun v hnumber hfloat => ?_) h
  cases v with
  | int n => rfl
  | float x =>
    cases x with
    | finite x => rfl
    | _ => cases hfloat
  | _ => cases hnumber

/-- Numbers are equal when both have finite floats, of one value. -/
theorem numbersEqual_eq_ok {left right : Json} :
    numbersEqual left right = .ok true ↔ ∃ x y, toFloat left = .ok (.finite x) ∧
      toFloat right = .ok (.finite y) ∧ x.value = y.value := by
  unfold numbersEqual
  constructor
  · intro h
    obtain ⟨a, ha, h⟩ := bind_eq_ok.mp h
    have hnever : (Except.ok false : Except PyExc Bool) ≠ .ok true := by simp
    cases a with
    | finite x =>
      obtain ⟨b, hb, h⟩ := bind_eq_ok.mp (show (toFloat right >>= fun b =>
        if !BinaryFloat.isFinite b then return false
        else return (Number.ofFloat (.finite x)).eq (Number.ofFloat b)) = .ok true from h)
      cases b with
      | finite y => exact ⟨x, y, ha, hb, of_decide_eq_true (Except.ok.inj h)⟩
      | _ => exact absurd h hnever
    | _ => exact absurd h hnever
  · intro h
    obtain ⟨x, y, hx, hy, hvalue⟩ := h
    rw [hx, hy]
    simp [bind, Except.bind, pure, Except.pure, BinaryFloat.isFinite, Number.ofFloat, Number.eq,
      hvalue]

/-- A number that stands alone has its own float. -/
theorem float_of_alone {value : Json} (h : standsAlone value = true) :
    ∃ x, toFloat value = .ok (.finite x) ∧ exactValue value = some x.value := by
  cases value with
  | int n =>
    have hn : IntegerAlone n := by simpa [standsAlone] using h
    obtain ⟨x, hx, hvalue⟩ := hn.exact
    exact ⟨x, by rw [toFloat, hx], by rw [exactValue, hvalue]⟩
  | float y =>
    cases y with
    | finite x => exact ⟨x, rfl, rfl⟩
    | _ => cases h
  | _ => cases h

/-- An integer that a number standing alone is exactly stands alone. -/
theorem integerAlone_of_alone {value : Json} {n : ℤ} (h : standsAlone value = true)
    (hvalue : exactValue value = some (n : ℚ)) : IntegerAlone n := by
  cases value with
  | int k =>
    have hk : k = n := by exact_mod_cast Option.some.inj hvalue
    rw [← hk]
    simpa [standsAlone] using h
  | float y =>
    cases y with
    | finite x =>
      rw [standsAlone, Option.some.inj hvalue] at h
      simpa using h
    | _ => cases h
  | _ => cases h

/-- A number equal to one that stands alone is that number. -/
theorem exactValue_of_alone {left right : Json} {x y : Finite} (h : standsAlone right = true)
    (hright : exactValue right = some y.value) (hleft : isNumber left = true)
    (hx : toFloat left = .ok (.finite x)) (hvalue : x.value = y.value) :
    exactValue left = some x.value := by
  cases left with
  | int m =>
    have hm : ofInt m = some x := toFloat_int.mp hx
    obtain ⟨n, hn⟩ := exists_value_ofInt hm
    have halone : IntegerAlone n := integerAlone_of_alone h (by rw [hright, ← hvalue, hn])
    rw [exactValue, halone.unique hm hn, hn]
  | float w =>
    cases hx
    rfl
  | _ => cases hleft

/-- Against a number that stands alone the comparison as floats is exact. -/
theorem numbersEqual_of_alone {left right : Json} (hleft : isNumber left = true)
    (h : standsAlone right = true) : numbersEqual left right = .ok true ↔
      ∃ q, exactValue left = some q ∧ exactValue right = some q := by
  obtain ⟨y, hy, hright⟩ := float_of_alone h
  rw [numbersEqual_eq_ok]
  constructor
  · intro hequal
    obtain ⟨x, y', hx, hy', hvalue⟩ := hequal
    rw [hy] at hy'
    cases hy'
    exact ⟨y.value, by rw [exactValue_of_alone h hright hleft hx hvalue, hvalue], hright⟩
  · intro hsame
    obtain ⟨q, hq, hq'⟩ := hsame
    rw [hright] at hq'
    cases hq'
    cases left with
    | int n =>
      have hn : (n : ℚ) = y.value := Option.some.inj hq
      obtain ⟨x, hx, hvalue⟩ := (integerAlone_of_alone h (by rw [hright, hn])).exact
      exact ⟨x, y, toFloat_int.mpr hx, hy, hvalue.trans hn⟩
    | float w =>
      cases w with
      | finite x => exact ⟨x, y, rfl, hy, Option.some.inj hq⟩
      | _ => cases hq
    | _ => cases hleft

/-- A number with a float that does not stand alone is taken for another number. -/
theorem exists_confused_number {value : Json} (hnumber : isNumber value = true)
    (hfloat : hasFloat value = true) (h : standsAlone value = false) :
    ∃ other, isNumber other = true ∧ numbersEqual other value = .ok true ∧
      ¬ ∃ q, exactValue other = some q ∧ exactValue value = some q := by
  obtain ⟨x, hx⟩ := (hasFloat_iff hnumber).mp hfloat
  have hsecond : ∀ n : ℤ, x.value = n → exactValue value = some (n : ℚ) → ¬ IntegerAlone n →
      ∃ other, isNumber other = true ∧ numbersEqual other value = .ok true ∧
        ¬ ∃ q, exactValue other = some q ∧ exactValue value = some q := by
    intro n hvalue hexact halone
    obtain ⟨m, y, hne, hy, hsame⟩ := exists_second halone hvalue
    refine ⟨.int m, rfl,
      numbersEqual_eq_ok.mpr ⟨y, x, toFloat_int.mpr hy, hx, hsame.trans hvalue.symm⟩, ?_⟩
    rintro ⟨q, hq, hq'⟩
    cases hq
    rw [hexact] at hq'
    exact hne (by exact_mod_cast (Option.some.inj hq').symm)
  cases value with
  | int n =>
    have hn : ¬ IntegerAlone n := by simpa [standsAlone] using h
    by_cases hexact : x.value = n
    · exact hsecond n hexact rfl hn
    · -- the float itself is another number
      refine ⟨.float (.finite x), rfl, numbersEqual_eq_ok.mpr ⟨x, x, rfl, hx, rfl⟩, ?_⟩
      rintro ⟨q, hq, hq'⟩
      cases hq
      exact hexact (Option.some.inj hq').symm
  | float y =>
    cases y with
    | finite y =>
      cases hx
      have hy : x.value.den = 1 ∧ ¬ IntegerAlone x.value.num := by
        simpa [standsAlone] using h
      have hvalue : x.value = x.value.num := (Rat.den_eq_one_iff _).mp hy.1 |>.symm
      refine hsecond x.value.num hvalue ?_ hy.2
      rw [exactValue, ← hvalue]
    | _ => cases hfloat
  | _ => cases hnumber

end Numbers

section Containers

theorem membersEqual_eq_ok {left right : Fields} :
    membersEqual left right = .ok true ↔
      ∀ m ∈ left, jsonValuesEqual m.2 (Fields.get right m.1) = .ok true := by
  induction left with
  | nil => simp [membersEqual]
  | cons m rest ih =>
    obtain ⟨key, x⟩ := m
    rw [membersEqual, bind_eq_ok, List.forall_mem_cons, ← ih]
    constructor
    · intro h
      obtain ⟨same, hsame, h⟩ := h
      cases same with
      | true => exact ⟨hsame, h⟩
      | false => simp [pure, Except.pure] at h
    · intro h
      exact ⟨true, h.1, h.2⟩

/-- The test that two objects have the same keys. -/
theorem keysAgree_iff {left right : Fields} :
    (left.all (fun m => Fields.has right m.1) = true ∧
        right.all (fun m => Fields.has left m.1) = true) ↔
      ∀ key, Fields.has left key = true ↔ Fields.has right key = true := by
  have hkeys : ∀ fields other : Fields, fields.all (fun m => Fields.has other m.1) = true ↔
      ∀ key, Fields.has fields key = true → Fields.has other key = true := by
    intro fields other
    rw [List.all_eq_true]
    constructor
    · intro h key hkey
      obtain ⟨m, hm, rfl⟩ := List.mem_map.mp (has_eq_true_iff.mp hkey)
      exact h m hm
    · intro h m hm
      exact h m.1 (has_eq_true_iff.mpr (List.mem_map_of_mem hm))
  rw [hkeys, hkeys]
  constructor
  · intro h key
    exact ⟨h.1 key, h.2 key⟩
  · intro h
    exact ⟨fun key => (h key).mp, fun key => (h key).mpr⟩

/-- Objects are equal when they have the same keys, for equal values. -/
theorem objectsEqual_eq_ok {left right : Fields} :
    jsonValuesEqual (.obj left) (.obj right) = .ok true ↔
      (∀ key, Fields.has left key = true ↔ Fields.has right key = true) ∧
        ∀ m ∈ left, jsonValuesEqual m.2 (Fields.get right m.1) = .ok true := by
  rw [jsonValuesEqual]
  by_cases hkeys : ∀ key, Fields.has left key = true ↔ Fields.has right key = true
  · rw [if_pos (keysAgree_iff.mpr hkeys), membersEqual_eq_ok]
    exact ⟨fun h => ⟨hkeys, h⟩, fun h => h.2⟩
  · rw [if_neg (mt keysAgree_iff.mp hkeys)]
    constructor
    · intro h
      cases h
    · intro h
      exact absurd h.1 hkeys

/-- Arrays are equal when they have one length, and equal items. -/
theorem arraysEqual_eq_ok {left right : List Json} :
    jsonValuesEqual (.arr left) (.arr right) = .ok true ↔
      List.Forall₂ (fun x y => jsonValuesEqual x y = .ok true) left right := by
  rw [jsonValuesEqual]
  have hitems : left.length = right.length → (itemsEqual left right = .ok true ↔
      List.Forall₂ (fun x y => jsonValuesEqual x y = .ok true) left right) := by
    intro hlength
    induction left generalizing right with
    | nil =>
      cases right with
      | nil => simp [itemsEqual]
      | cons y ys => cases hlength
    | cons x xs ih =>
      cases right with
      | nil => cases hlength
      | cons y ys =>
        rw [itemsEqual, List.forall₂_cons, ← ih (Nat.succ.inj hlength), bind_eq_ok]
        constructor
        · intro h
          obtain ⟨same, hsame, h⟩ := h
          cases same with
          | true => exact ⟨hsame, h⟩
          | false => simp [pure, Except.pure] at h
        · intro h
          exact ⟨true, h.1, h.2⟩
  by_cases hlength : left.length = right.length
  · rw [if_pos hlength, hitems hlength]
  · rw [if_neg hlength]
    refine iff_of_false (by simp) fun h => hlength h.length_eq

/-- An object is compared by what its keys are for. -/
theorem objectsEqual_congr {left right other : Fields}
    (h : ∀ key, right.lookup key = other.lookup key) :
    jsonValuesEqual (.obj left) (.obj right) = .ok true ↔
      jsonValuesEqual (.obj left) (.obj other) = .ok true := by
  rw [objectsEqual_eq_ok, objectsEqual_eq_ok]
  unfold Fields.has Fields.get
  simp only [h]

end Containers

section Same

/-- Two values are the same JSON: numbers have one exact value, and objects are the same
under each key, whatever the order of their members. -/
inductive JsonSame : Json → Json → Prop
  | null : JsonSame .null .null
  | bool (b : Bool) : JsonSame (.bool b) (.bool b)
  | number {left right : Json} {q : ℚ} (hleft : exactValue left = some q)
      (hright : exactValue right = some q) : JsonSame left right
  | str (s : String) : JsonSame (.str s) (.str s)
  | arr {xs ys : List Json} (h : List.Forall₂ JsonSame xs ys) : JsonSame (.arr xs) (.arr ys)
  | obj {xs ys : Fields} (h : ∀ key, Option.Rel JsonSame (xs.lookup key) (ys.lookup key)) :
      JsonSame (.obj xs) (.obj ys)

theorem isNumber_of_exactValue {value : Json} {q : ℚ} (h : exactValue value = some q) :
    isNumber value = true := by
  cases value with
  | int n => rfl
  | float x => rfl
  | _ => cases h

theorem same_number {left right : Json} (hleft : isNumber left = true) :
    JsonSame left right ↔ ∃ q, exactValue left = some q ∧ exactValue right = some q := by
  constructor
  · intro h
    cases h with
    | number hq hq' => exact ⟨_, hq, hq'⟩
    | _ => cases hleft
  · intro h
    obtain ⟨q, hq, hq'⟩ := h
    exact .number hq hq'

theorem same_arr {xs ys : List Json} :
    JsonSame (.arr xs) (.arr ys) ↔ List.Forall₂ JsonSame xs ys := by
  constructor
  · intro h
    cases h with
    | number hq _ => cases hq
    | arr h => exact h
  · exact .arr

theorem same_obj {xs ys : Fields} (hxs : (xs.map Prod.fst).Nodup) :
    JsonSame (.obj xs) (.obj ys) ↔ (∀ key, Fields.has xs key = true ↔ Fields.has ys key = true) ∧
      ∀ m ∈ xs, JsonSame m.2 (Fields.get ys m.1) := by
  constructor
  · intro h
    cases h with
    | number hq _ => cases hq
    | obj h =>
      refine ⟨fun key => ?_, fun m hm => ?_⟩
      · have hkey := h key
        unfold Fields.has
        generalize xs.lookup key = x at hkey ⊢
        generalize ys.lookup key = y at hkey ⊢
        cases hkey <;> simp
      · have hm' := h m.1
        rw [lookup_eq_some_of_mem hxs hm] at hm'
        unfold Fields.get
        generalize ys.lookup m.1 = found at hm'
        cases hm' with
        | some h => exact h
  · intro h
    obtain ⟨hkeys, hvalues⟩ := h
    refine .obj fun key => ?_
    have hkey := hkeys key
    unfold Fields.has at hkey
    cases hx : xs.lookup key with
    | none =>
      rw [hx] at hkey
      cases hy : ys.lookup key with
      | none => exact .none
      | some y =>
        rw [hy] at hkey
        simp at hkey
    | some x =>
      rw [hx] at hkey
      cases hy : ys.lookup key with
      | none =>
        rw [hy] at hkey
        simp at hkey
      | some y =>
        obtain ⟨before, after, heq, -⟩ := List.lookup_eq_some_iff.mp hx
        have hsame := hvalues (key, x) (by rw [heq]; simp)
        rw [Fields.get, hy] at hsame
        exact .some hsame

/-- A value without infinities is the same as itself. -/
theorem same_self {value : Json} (hdistinct : value.Distinct) (h : allExact value = true) :
    JsonSame value value := by
  have hnumber : ∀ {v : Json}, (exactValue v).isSome = true → JsonSame v v := by
    intro v hv
    obtain ⟨q, hq⟩ := Option.isSome_iff_exists.mp hv
    exact .number hq hq
  induction value using Json.inductionOn with
  | null => exact .null
  | bool b => exact .bool b
  | int n => exact hnumber h
  | float x => exact hnumber h
  | str s => exact .str s
  | arr items ih =>
    rw [Json.Distinct, distinctItems_iff] at hdistinct
    unfold allExact at h
    rw [everyNumber_arr] at h
    exact .arr (List.forall₂_same.mpr fun x hx => ih x hx (hdistinct x hx) (h x hx))
  | obj members ih =>
    obtain ⟨hkeys, hvalues⟩ := distinct_obj.mp hdistinct
    unfold allExact at h
    rw [everyNumber_obj] at h
    refine (same_obj hkeys).mpr ⟨fun key => Iff.rfl, fun m hm => ?_⟩
    rw [Fields.get, lookup_eq_some_of_mem hkeys hm]
    exact ih m hm (hvalues m hm) (h m hm)

/-- The comparison, member by member: what two values equal have in common. -/
theorem everyNumber_of_related {p : Json → Bool} {related : Json → Json → Prop}
    (hnumber : ∀ {left right}, related left right → isNumber right = true → p right = true)
    (harr : ∀ {left ys}, related left (.arr ys) → ∃ xs, List.Forall₂ related xs ys)
    (hobj : ∀ {left ys}, related left (.obj ys) → (ys.map Prod.fst).Nodup →
      ∀ m ∈ ys, ∃ x, related x m.2)
    {left right : Json} (hdistinct : right.Distinct) (h : related left right) :
    everyNumber p right = true := by
  induction right using Json.inductionOn generalizing left with
  | int n => exact hnumber h rfl
  | float x => exact hnumber h rfl
  | arr ys ih =>
    rw [Json.Distinct, distinctItems_iff] at hdistinct
    rw [everyNumber_arr]
    intro y hy
    obtain ⟨xs, hall⟩ := harr h
    obtain ⟨i, hi, rfl⟩ := List.getElem_of_mem hy
    exact ih _ hy (hdistinct _ hy) (hall.get (by rw [hall.length_eq]; exact hi) hi)
  | obj ys ih =>
    obtain ⟨hkeys, hvalues⟩ := distinct_obj.mp hdistinct
    rw [everyNumber_obj]
    intro m hm
    obtain ⟨x, hx⟩ := hobj h hkeys m hm
    exact ih m hm (hvalues m hm) hx
  | _ => rfl

theorem allExact_of_same {left right : Json} (hdistinct : right.Distinct)
    (h : JsonSame left right) : allExact right = true := by
  refine everyNumber_of_related (fun h hnumber => ?_) (fun h => ?_) (fun h hkeys m hm => ?_)
    hdistinct h
  · cases h with
    | number _ hq => rw [hq]; rfl
    | _ => cases hnumber
  · cases h with
    | number _ hq => cases hq
    | arr h => exact ⟨_, h⟩
  · cases h with
    | number _ hq => cases hq
    | obj h =>
      have hm' := h m.1
      rw [lookup_eq_some_of_mem hkeys hm] at hm'
      generalize List.lookup m.1 _ = found at hm'
      cases hm' with
      | some hsame => exact ⟨_, hsame⟩

end Same

section Comparison

theorem jsonValuesEqual_number {left right : Json} (hleft : isNumber left = true) :
    jsonValuesEqual left right = .ok true ↔
      isNumber right = true ∧ numbersEqual left right = .ok true := by
  have hif : jsonValuesEqual left right =
      if isNumber right then numbersEqual left right else .ok false := by
    cases left with
    | int n => rw [jsonValuesEqual]
    | float x => rw [jsonValuesEqual]
    | _ => cases hleft
  rw [hif]
  split
  · next hright => simp [hright]
  · next hright => simp [hright]

/-- What something equals is comparable. -/
theorem comparable_of_equal {left right : Json} (hdistinct : right.Distinct)
    (h : jsonValuesEqual left right = .ok true) : comparable right = true := by
  refine @everyNumber_of_related hasFloat (fun x y => jsonValuesEqual x y = .ok true)
    (fun {left right} h hnumber => ?_) (fun {left ys} h => ?_) (fun {left ys} h hkeys m hm => ?_)
    left right hdistinct h
  · have hleft : isNumber left = true := by
      cases left with
      | int n => rfl
      | float x => rfl
      | _ => cases right <;> simp_all [jsonValuesEqual, Json.isNull, isNumber]
    obtain ⟨x, y, hx, hy, -⟩ := numbersEqual_eq_ok.mp ((jsonValuesEqual_number hleft).mp h).2
    exact (hasFloat_iff hnumber).mpr ⟨y, hy⟩
  · cases left with
    | arr xs => exact ⟨xs, arraysEqual_eq_ok.mp h⟩
    | _ => simp [jsonValuesEqual, isNumber, Json.isNull] at h
  · cases left with
    | obj xs =>
      obtain ⟨hsame, hequal⟩ := objectsEqual_eq_ok.mp h
      have hhas := (hsame m.1).mpr (has_eq_true_iff.mpr (List.mem_map_of_mem hm))
      obtain ⟨m', hm', hkey⟩ := List.mem_map.mp (has_eq_true_iff.mp hhas)
      have hm'' := hequal m' hm'
      rw [hkey, Fields.get, lookup_eq_some_of_mem hkeys hm] at hm''
      exact ⟨m'.2, hm''⟩
    | _ => simp [jsonValuesEqual, isNumber, Json.isNull] at h

/-- A comparable value equals itself. -/
theorem jsonValuesEqual_self {value : Json} (hdistinct : value.Distinct)
    (h : comparable value = true) : jsonValuesEqual value value = .ok true := by
  have hself : ∀ {v : Json}, isNumber v = true → hasFloat v = true →
      jsonValuesEqual v v = .ok true := by
    intro v hnumber hfloat
    obtain ⟨x, hx⟩ := (hasFloat_iff hnumber).mp hfloat
    exact (jsonValuesEqual_number hnumber).mpr
      ⟨hnumber, numbersEqual_eq_ok.mpr ⟨x, x, hx, hx, rfl⟩⟩
  induction value using Json.inductionOn with
  | null => rfl
  | bool b => rw [jsonValuesEqual, beq_self_eq_true]
  | int n => exact hself rfl h
  | float x => exact hself rfl h
  | str s => rw [jsonValuesEqual, beq_self_eq_true]
  | arr items ih =>
    rw [Json.Distinct, distinctItems_iff] at hdistinct
    unfold comparable at h
    rw [everyNumber_arr] at h
    exact arraysEqual_eq_ok.mpr
      (List.forall₂_same.mpr fun x hx => ih x hx (hdistinct x hx) (h x hx))
  | obj members ih =>
    obtain ⟨hkeys, hvalues⟩ := distinct_obj.mp hdistinct
    unfold comparable at h
    rw [everyNumber_obj] at h
    refine objectsEqual_eq_ok.mpr ⟨fun key => Iff.rfl, fun m hm => ?_⟩
    rw [Fields.get, lookup_eq_some_of_mem hkeys hm]
    exact ih m hm (hvalues m hm) (h m hm)

/-- Against a value whose numbers all stand alone, the comparison is exact. -/
theorem jsonValuesEqual_of_alone {left right : Json} (hleft : left.Distinct)
    (hright : right.Distinct) (h : allAlone right = true) :
    jsonValuesEqual left right = .ok true ↔ JsonSame left right := by
  have hnumber : ∀ {left right : Json}, isNumber left = true → allAlone right = true →
      (jsonValuesEqual left right = .ok true ↔ JsonSame left right) := by
    intro left right hnumber halone
    rw [jsonValuesEqual_number hnumber, same_number hnumber]
    have halone' : isNumber right = true → standsAlone right = true := by
      intro hright
      cases right with
      | int n => exact halone
      | float x => exact halone
      | _ => cases hright
    constructor
    · intro hequal
      exact (numbersEqual_of_alone hnumber (halone' hequal.1)).mp hequal.2
    · intro hsame
      have hright := isNumber_of_exactValue hsame.choose_spec.2
      exact ⟨hright, (numbersEqual_of_alone hnumber (halone' hright)).mpr hsame⟩
  induction left using Json.inductionOn generalizing right with
  | null =>
    constructor
    · intro hequal
      cases right with
      | null => exact .null
      | _ => simp [jsonValuesEqual, Json.isNull] at hequal
    · intro hsame
      cases hsame with
      | null => rfl
      | number hq _ => cases hq
  | bool b =>
    constructor
    · intro hequal
      cases right with
      | bool c =>
        have heq : b = c := by simpa [jsonValuesEqual] using hequal
        exact heq ▸ .bool b
      | _ => simp [jsonValuesEqual] at hequal
    · intro hsame
      cases hsame with
      | bool => rw [jsonValuesEqual, beq_self_eq_true]
      | number hq _ => cases hq
  | int n => exact hnumber rfl h
  | float x => exact hnumber rfl h
  | str s =>
    constructor
    · intro hequal
      cases right with
      | str t =>
        have heq : s = t := by simpa [jsonValuesEqual] using hequal
        exact heq ▸ .str s
      | _ => simp [jsonValuesEqual] at hequal
    · intro hsame
      cases hsame with
      | str => rw [jsonValuesEqual, beq_self_eq_true]
      | number hq _ => cases hq
  | arr xs ih =>
    cases right with
    | arr ys =>
      rw [Json.Distinct, distinctItems_iff] at hleft hright
      unfold allAlone at h
      rw [everyNumber_arr] at h
      rw [arraysEqual_eq_ok, same_arr, List.forall₂_iff_zip, List.forall₂_iff_zip]
      refine and_congr_right fun _ => forall₂_congr fun x y => imp_congr_right fun hmem => ?_
      obtain ⟨hx, hy⟩ := List.of_mem_zip hmem
      exact ih x hx (hleft x hx) (hright y hy) (h y hy)
    | _ =>
      refine iff_of_false (by simp [jsonValuesEqual]) fun hsame => ?_
      cases hsame with
      | number hq _ => cases hq
  | obj xs ih =>
    cases right with
    | obj ys =>
      obtain ⟨hkeys, hvalues⟩ := distinct_obj.mp hleft
      unfold allAlone at h
      rw [everyNumber_obj] at h
      rw [objectsEqual_eq_ok, same_obj hkeys]
      refine and_congr_right fun hsame => forall₂_congr fun m hm => ?_
      have hhas := (hsame m.1).mp (has_eq_true_iff.mpr (List.mem_map_of_mem hm))
      obtain ⟨m', hm', hkey⟩ := List.mem_map.mp (has_eq_true_iff.mp hhas)
      have hget : Fields.get ys m.1 = m'.2 := by
        rw [← hkey, Fields.get, lookup_eq_some_of_mem (distinct_obj.mp hright).1 hm']
        rfl
      rw [hget]
      exact ih m hm (hvalues m hm) ((distinct_obj.mp hright).2 m' hm') (h m' hm')
    | _ =>
      refine iff_of_false (by simp [jsonValuesEqual]) fun hsame => ?_
      cases hsame with
      | number hq _ => cases hq

/-- A comparable value with a number that does not stand alone is taken for another value. -/
theorem exists_confused {value : Json} (hdistinct : value.Distinct)
    (hcomparable : comparable value = true) (h : allAlone value = false) :
    ∃ other, other.Distinct ∧ jsonValuesEqual other value = .ok true ∧ ¬ JsonSame other value := by
  have hnumber : ∀ {v : Json}, isNumber v = true → hasFloat v = true → standsAlone v = false →
      ∃ other, other.Distinct ∧ jsonValuesEqual other v = .ok true ∧ ¬ JsonSame other v := by
    intro v hv hfloat halone
    obtain ⟨other, hother, hequal, hdiffer⟩ := exists_confused_number hv hfloat halone
    refine ⟨other, ?_, (jsonValuesEqual_number hother).mpr ⟨hv, hequal⟩, ?_⟩
    · cases other with
      | arr xs => cases hother
      | obj xs => cases hother
      | _ => trivial
    · rwa [same_number hother]
  induction value using Json.inductionOn with
  | int n => exact hnumber rfl hcomparable h
  | float x => exact hnumber rfl hcomparable h
  | arr items ih =>
    rw [Json.Distinct, distinctItems_iff] at hdistinct
    unfold comparable at hcomparable
    unfold allAlone at h
    rw [everyNumber_arr] at hcomparable
    rw [← Bool.not_eq_true, everyNumber_arr] at h
    push Not at h
    obtain ⟨x, hx, halone⟩ := h
    obtain ⟨before, after, rfl⟩ := List.append_of_mem hx
    obtain ⟨other, hother, hequal, hdiffer⟩ :=
      ih x hx (hdistinct x hx) (hcomparable x hx) (Bool.not_eq_true _ ▸ halone)
    have hself : ∀ y ∈ before ++ x :: after, jsonValuesEqual y y = .ok true :=
      fun y hy => jsonValuesEqual_self (hdistinct y hy) (hcomparable y hy)
    refine ⟨.arr (before ++ other :: after), ?_, arraysEqual_eq_ok.mpr ?_, fun hsame => ?_⟩
    · rw [Json.Distinct, distinctItems_iff]
      intro y hy
      rcases List.mem_append.mp hy with hy | hy
      · exact hdistinct y (List.mem_append_left _ hy)
      · rcases List.mem_cons.mp hy with rfl | hy
        · exact hother
        · exact hdistinct y (List.mem_append_right _ (List.mem_cons_of_mem _ hy))
    · refine List.rel_append (List.forall₂_same.mpr fun y hy => ?_)
        (.cons hequal (List.forall₂_same.mpr fun y hy => ?_))
      · exact hself y (List.mem_append_left _ hy)
      · exact hself y (List.mem_append_right _ (List.mem_cons_of_mem _ hy))
    · have hat := (same_arr.mp hsame).get (i := before.length) (by simp) (by simp)
      exact hdiffer (by simpa using hat)
  | obj members ih =>
    obtain ⟨hkeys, hvalues⟩ := distinct_obj.mp hdistinct
    unfold comparable at hcomparable
    unfold allAlone at h
    rw [everyNumber_obj] at hcomparable
    rw [← Bool.not_eq_true, everyNumber_obj] at h
    push Not at h
    obtain ⟨m, hm, halone⟩ := h
    have hlookup := lookup_eq_some_of_mem hkeys hm
    obtain ⟨other, hother, hequal, hdiffer⟩ :=
      ih m hm (hvalues m hm) (hcomparable m hm) (Bool.not_eq_true _ ▸ halone)
    have hset := distinct_set hdistinct m.1 hother
    refine ⟨.obj (Fields.set members m.1 other), hset,
      objectsEqual_eq_ok.mpr ⟨fun key => ?_, fun m' hm' => ?_⟩, fun hsame => ?_⟩
    · unfold Fields.has
      rw [lookup_set]
      split
      · next heq => simp [heq, hlookup]
      · exact Iff.rfl
    · rcases mem_set hm' with hm' | rfl
      · rw [Fields.get, lookup_eq_some_of_mem hkeys hm']
        exact jsonValuesEqual_self (hvalues m' hm') (hcomparable m' hm')
      · rw [Fields.get, hlookup]
        exact hequal
    · have hmem : (m.1, other) ∈ Fields.set members m.1 other := by
        have hfound : (Fields.set members m.1 other).lookup m.1 = some other := by
          rw [lookup_set, if_pos rfl]
        obtain ⟨before, after, heq, -⟩ := List.lookup_eq_some_iff.mp hfound
        rw [heq]
        simp
      have hat := ((same_obj (distinct_obj.mp hset).1).mp hsame).2 _ hmem
      rw [Fields.get, hlookup] at hat
      exact hdiffer hat
  | _ => simp [allAlone, everyNumber] at h

end Comparison

end FailureResolver.JsonEquality

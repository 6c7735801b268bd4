import FailureResolver.EpisodeEvidence
import FailureResolver.JsonRoundTrip

/-!
A value without its sensitive entries. What the sanitizer accepts it returns in
this form, so nothing it hands out depends on a sensitive entry. Two values are
alike if they differ in such entries and in the order of members only; members
under other keys, and items, are then alike as well.
-/

namespace FailureResolver.SensitiveEntries

open EpisodeEvidence JsonRoundTrip JsonText JsonValue PyException

mutual

/-- Every entry with a sensitive key removed, at every depth. -/
def withoutSensitive : Json → Json
  | .arr items => .arr (withoutSensitiveItems items)
  | .obj members => .obj (withoutSensitiveMembers members)
  | value => value

def withoutSensitiveItems : List Json → List Json
  | [] => []
  | x :: xs => withoutSensitive x :: withoutSensitiveItems xs

def withoutSensitiveMembers : List (String × Json) → List (String × Json)
  | [] => []
  | (key, x) :: rest =>
      if isSensitiveKey key then withoutSensitiveMembers rest
      else (key, withoutSensitive x) :: withoutSensitiveMembers rest

end

section Removal

variable {fields : Fields} {value : Json} {key : String}

theorem withoutSensitive_arr (items : List Json) :
    withoutSensitive (.arr items) = .arr (items.map withoutSensitive) := by
  rw [withoutSensitive]
  congr 1
  induction items with
  | nil => rfl
  | cons x xs ih => rw [withoutSensitiveItems, ih, List.map_cons]

theorem mem_withoutSensitiveMembers {m : String × Json} :
    m ∈ withoutSensitiveMembers fields ↔
      ∃ m' ∈ fields, isSensitiveKey m'.1 = false ∧ m = (m'.1, withoutSensitive m'.2) := by
  induction fields with
  | nil => simp [withoutSensitiveMembers]
  | cons first rest ih =>
    obtain ⟨name, x⟩ := first
    rw [withoutSensitiveMembers]
    by_cases hname : isSensitiveKey name = true
    · rw [if_pos hname, ih]
      simp [hname]
    · rw [if_neg hname, List.mem_cons, ih]
      simp [hname]

theorem keys_withoutSensitiveMembers (fields : Fields) :
    ((withoutSensitiveMembers fields).map Prod.fst).Sublist (fields.map Prod.fst) := by
  induction fields with
  | nil => exact List.Sublist.refl _
  | cons first rest ih =>
    obtain ⟨name, x⟩ := first
    rw [withoutSensitiveMembers]
    split
    · exact ih.cons name
    · exact ih.cons_cons name

/-- A key that is kept has the value without its sensitive entries. -/
theorem get_withoutSensitiveMembers (hkey : isSensitiveKey key = false) :
    Fields.get (withoutSensitiveMembers fields) key = withoutSensitive (Fields.get fields key) := by
  induction fields with
  | nil => rfl
  | cons first rest ih =>
    obtain ⟨name, x⟩ := first
    unfold Fields.get at ih ⊢
    rw [withoutSensitiveMembers, List.lookup_cons]
    by_cases hname : key = name
    · subst hname
      rw [if_neg (by simp [hkey]), List.lookup_cons, beq_self_eq_true]
      rfl
    · have hne : (key == name) = false := by simpa using hname
      rw [hne]
      split
      · exact ih
      · rw [List.lookup_cons, hne]
        exact ih

/-- Removing entries keeps what holds of the values that are left. -/
theorem decoded_withoutSensitive (h : Decoded value) : Decoded (withoutSensitive value) := by
  induction value using Json.inductionOn with
  | arr items ih =>
    rw [withoutSensitive_arr]
    refine hereditary_decoded.arr _ fun y hy => ?_
    obtain ⟨x, hx, rfl⟩ := List.mem_map.mp hy
    exact ih x hx (hereditary_decoded.item _ h x hx)
  | obj members ih =>
    refine hereditary_decoded.obj _ ?_ fun m hm => ?_
    · exact (distinct_obj.mp h.distinct).1.sublist (keys_withoutSensitiveMembers members)
    · obtain ⟨m', hm', -, rfl⟩ := mem_withoutSensitiveMembers.mp hm
      exact ih m' hm' (hereditary_decoded.member _ h m' hm')
  | _ => exact h

/-- The sanitizer returns the value without its sensitive entries. -/
theorem sanitizeValue_eq (depth : ℕ) (value : Json) {sanitized : Json}
    (h : sanitizeValue depth value = .ok sanitized) : sanitized = withoutSensitive value := by
  induction value using Json.inductionOn generalizing depth sanitized with
  | arr items ih =>
    rw [sanitizeValue, refuse_ite_eq_ok, refuse_ite_eq_ok, map_eq_ok] at h
    obtain ⟨-, -, ys, hys, rfl⟩ := h
    rw [withoutSensitive_arr]
    congr 1
    induction items generalizing ys with
    | nil =>
      cases hys
      rfl
    | cons x xs hrest =>
      obtain ⟨hx, hxs⟩ := List.forall_mem_cons.mp ih
      rw [sanitizeItems] at hys
      obtain ⟨y, hy, hys⟩ := bind_eq_ok.mp hys
      obtain ⟨zs, hzs, hys⟩ := bind_eq_ok.mp hys
      cases hys
      rw [List.map_cons, hx _ hy, hrest hxs zs hzs]
  | obj members ih =>
    rw [sanitizeValue, refuse_ite_eq_ok, refuse_ite_eq_ok, map_eq_ok] at h
    obtain ⟨-, -, ys, hys, rfl⟩ := h
    rw [withoutSensitive]
    congr 1
    induction members generalizing ys with
    | nil =>
      cases hys
      rfl
    | cons first rest hrest =>
      obtain ⟨name, x⟩ := first
      obtain ⟨hx, hxs⟩ := List.forall_mem_cons.mp ih
      rw [sanitizeMembers] at hys
      rw [withoutSensitiveMembers]
      by_cases hname : isSensitiveKey name = true
      · rw [if_pos hname] at hys ⊢
        exact hrest hxs ys hys
      · rw [if_neg hname] at hys ⊢
        obtain ⟨y, hy, hys⟩ := bind_eq_ok.mp hys
        obtain ⟨zs, hzs, hys⟩ := bind_eq_ok.mp hys
        cases hys
        rw [hx _ hy, hrest hxs zs hzs]
  | _ => exact sanitizeValue_scalar (by simp [withoutSensitive]) (by simp [withoutSensitive]) h

end Removal

section Alike

variable {fields fields' : Fields} {value value' : Json} {key : String}

/-- Two values that are the same without their sensitive entries, up to the order
of the members. -/
structure Alike (value value' : Json) : Prop where
  decoded : Decoded value
  decoded' : Decoded value'
  same : (withoutSensitive value).sortKeys = (withoutSensitive value').sortKeys

theorem Alike.get (h : Alike (.obj fields) (.obj fields')) (hkey : isSensitiveKey key = false) :
    Alike (Fields.get fields key) (Fields.get fields' key) := by
  refine ⟨hereditary_decoded.get h.decoded key, hereditary_decoded.get h.decoded' key, ?_⟩
  obtain ⟨sorted, hsorted⟩ : ∃ sorted,
      Json.sortKeys (.obj (withoutSensitiveMembers fields)) = .obj sorted := ⟨_, sortKeys_obj _⟩
  have hsorted' : Json.sortKeys (.obj (withoutSensitiveMembers fields')) = .obj sorted :=
    h.same.symm.trans hsorted
  have hget := get_sortKeys (decoded_withoutSensitive h.decoded).distinct hsorted key
  have hget' := get_sortKeys (decoded_withoutSensitive h.decoded').distinct hsorted' key
  rw [← get_withoutSensitiveMembers hkey, ← get_withoutSensitiveMembers hkey, ← hget, ← hget']

def isScalar : Json → Bool
  | .arr _ => false
  | .obj _ => false
  | _ => true

theorem Alike.eq_of_scalar (h : Alike value value') (hscalar : isScalar value = true) :
    value' = value := by
  have hsame := h.same
  cases value with
  | arr items => cases hscalar
  | obj members => cases hscalar
  | _ =>
    cases value' with
    | arr items =>
      rw [withoutSensitive_arr, sortKeys_arr] at hsame
      cases hsame
    | obj members =>
      rw [withoutSensitive.eq_2, sortKeys_obj] at hsame
      cases hsame
    | _ => exact hsame.symm

theorem Alike.items {items : List Json} (h : Alike (.arr items) value') :
    ∃ items', value' = .arr items' ∧ List.Forall₂ Alike items items' := by
  have hsame := h.same
  rw [withoutSensitive_arr, sortKeys_arr] at hsame
  cases value' with
  | arr items' =>
    rw [withoutSensitive_arr, sortKeys_arr, Json.arr.injEq] at hsame
    refine ⟨items', rfl, ?_⟩
    have hitems := hereditary_decoded.item _ h.decoded
    have hitems' := hereditary_decoded.item _ h.decoded'
    clear h
    induction items generalizing items' with
    | nil =>
      cases items' with
      | nil => exact .nil
      | cons y ys => cases hsame
    | cons x xs ih =>
      cases items' with
      | nil => cases hsame
      | cons y ys =>
        simp only [List.map_cons, List.cons.injEq] at hsame
        rw [List.forall_mem_cons] at hitems hitems'
        exact .cons ⟨hitems.1, hitems'.1, hsame.1⟩ (ih ys hsame.2 hitems.2 hitems'.2)
  | obj members =>
    rw [withoutSensitive.eq_2, sortKeys_obj] at hsame
    cases hsame
  | _ => cases hsame

theorem Alike.members (h : Alike (.obj fields) value') :
    ∃ fields', value' = .obj fields' := by
  have hsame := h.same
  rw [withoutSensitive.eq_2, sortKeys_obj] at hsame
  cases value' with
  | arr items' =>
    rw [withoutSensitive_arr, sortKeys_arr] at hsame
    cases hsame
  | obj members => exact ⟨members, rfl⟩
  | _ => cases hsame

theorem Alike.jsonGet (h : Alike value value') (hkey : isSensitiveKey key = false) :
    Alike (Json.get value key) (Json.get value' key) := by
  cases value with
  | arr items =>
    obtain ⟨items', rfl, -⟩ := h.items
    exact ⟨hereditary_decoded.null, hereditary_decoded.null, rfl⟩
  | obj fields =>
    obtain ⟨fields', rfl⟩ := h.members
    exact h.get hkey
  | _ =>
    obtain rfl := h.eq_of_scalar rfl
    exact ⟨hereditary_decoded.null, hereditary_decoded.null, rfl⟩

theorem Alike.arr {items items' : List Json} (h : List.Forall₂ Alike items items') :
    Alike (.arr items) (.arr items') := by
  have hparts : (∀ x ∈ items, Decoded x) ∧ (∀ x ∈ items', Decoded x) ∧
      (items.map withoutSensitive).map Json.sortKeys =
        (items'.map withoutSensitive).map Json.sortKeys := by
    induction h with
    | nil => simp
    | cons hxy _ ih =>
      obtain ⟨hitems, hitems', hsame⟩ := ih
      simp only [List.map_cons, List.forall_mem_cons, hxy.same, hsame]
      exact ⟨⟨hxy.decoded, hitems⟩, ⟨hxy.decoded', hitems'⟩, trivial⟩
  obtain ⟨hitems, hitems', hsame⟩ := hparts
  refine ⟨hereditary_decoded.arr _ hitems, hereditary_decoded.arr _ hitems', ?_⟩
  rw [withoutSensitive_arr, withoutSensitive_arr, sortKeys_arr, sortKeys_arr, hsame]

theorem Alike.isScalar_eq (h : Alike value value') : isScalar value' = isScalar value := by
  cases value with
  | arr items =>
    obtain ⟨items', rfl, -⟩ := h.items
    rfl
  | obj fields =>
    obtain ⟨fields', rfl⟩ := h.members
    rfl
  | _ =>
    obtain rfl := h.eq_of_scalar rfl
    rfl

/-- A test that only scalars pass does not tell alike values apart. -/
theorem Alike.congr {p : Json → Bool} (hp : ∀ value, isScalar value = false → p value = false)
    (h : Alike value value') : p value = p value' := by
  cases hscalar : isScalar value with
  | false => rw [hp value hscalar, hp value' (h.isScalar_eq.trans hscalar)]
  | true => rw [h.eq_of_scalar hscalar]

/-- Alike lists keep alike items. -/
theorem alike_filter {items items' : List Json} {p : Json → Bool}
    (h : List.Forall₂ Alike items items') (hp : ∀ x y, Alike x y → p x = p y) :
    List.Forall₂ Alike (items.filter p) (items'.filter p) := by
  induction h with
  | nil => exact .nil
  | cons hxy _ ih =>
    rw [List.filter_cons, List.filter_cons, hp _ _ hxy]
    split
    · exact .cons hxy ih
    · exact ih

end Alike

end FailureResolver.SensitiveEntries

import FailureResolver.CommandSchema
import FailureResolver.PlanParsing
import Mathlib.Logic.Relation

/-!
What a live schema asks of a value: at every part of the value, the constraints
written in the schema that applies to that part. The validation of an input
reads the limits of one of its two schemas at every level, and only the outer
enum; what it never reads decides whether an accepted value satisfies the rest.
-/

namespace FailureResolver.SchemaConformance

open JsonValue PyException RecoveryContract ActionPlan PlanParsing CommandSchema

section Constraints

def EnumHolds (schema : Fields) (value : Json) : Prop :=
  Fields.get schema "enum" = .null ∨
    ∃ items, Fields.get schema "enum" = .arr items ∧ items.any value.pyEq = true

def RangeHolds (schema : Fields) (value : Json) : Prop :=
  isNumber value = true → ∀ check ∈ rangeChecks, Fields.get schema check.key = .null ∨
    ∃ a b, value.number = some a ∧ isNumber (Fields.get schema check.key) = true ∧
      (Fields.get schema check.key).number = some b ∧ check.holds a b = true

def LengthWithin (schema : Fields) (minKey maxKey : String) (length : ℕ) : Prop :=
  (Fields.get schema minKey = .null ∨
      ∃ bound : ℤ, Fields.get schema minKey = .int bound ∧ bound ≤ length) ∧
    (Fields.get schema maxKey = .null ∨
      ∃ bound : ℤ, Fields.get schema maxKey = .int bound ∧ length ≤ bound)

/-- A number, text or array within the limits of a schema. -/
structure LimitsHold (schema : Fields) (value : Json) : Prop where
  range : RangeHolds schema value
  length : ∀ text, value = .str text → LengthWithin schema "minLength" "maxLength" text.length
  items : ∀ items, value = .arr items → LengthWithin schema "minItems" "maxItems" items.length

end Constraints

section Parts

def subschema (schema : Fields) (key : String) : Option Fields :=
  match Json.get (Fields.get schema "properties") key with
  | .obj property => some property
  | .null => match Fields.get schema "additionalProperties" with
      | .obj additional => some additional
      | _ => none
  | _ => none

/-- The schema of an array applies to its items, and that of an object to its
members. -/
inductive Child : Fields × Json → Fields × Json → Prop
  | item {schema sub : Fields} {items : List Json} {x : Json}
      (hsub : Fields.get schema "items" = .obj sub) (hmem : x ∈ items) :
      Child (schema, .arr items) (sub, x)
  | member {schema sub members : Fields} {m : String × Json}
      (hsub : subschema schema m.1 = some sub) (hmem : m ∈ members) :
      Child (schema, .obj members) (sub, m.2)

/-- A schema that applies to a part of the value, or to the value itself. -/
def Applies : Fields × Json → Fields × Json → Prop := Relation.ReflTransGen Child

def AppliesBelow : Fields × Json → Fields × Json → Prop := Relation.TransGen Child

/-- Every part satisfies the constraints of the schema that applies to it. -/
def Conforms (constraint : Fields → Json → Prop) (schema : Fields) (value : Json) : Prop :=
  ∀ part, Applies (schema, value) part → constraint part.1 part.2

def ConformsBelow (constraint : Fields → Json → Prop) (schema : Fields) (value : Json) : Prop :=
  ∀ part, AppliesBelow (schema, value) part → constraint part.1 part.2

variable {constraint other : Fields → Json → Prop} {schema : Fields} {value : Json}

theorem conforms_iff : Conforms constraint schema value ↔
    constraint schema value ∧ ConformsBelow constraint schema value := by
  constructor
  · intro h
    exact ⟨h _ Relation.ReflTransGen.refl, fun part hpart => h part hpart.to_reflTransGen⟩
  · intro h part hpart
    rcases Relation.reflTransGen_iff_eq_or_transGen.mp hpart with rfl | hbelow
    · exact h.1
    · exact h.2 part hbelow

theorem conforms_and : Conforms (fun s x => constraint s x ∧ other s x) schema value ↔
    Conforms constraint schema value ∧ Conforms other schema value := by
  constructor
  · intro h
    exact ⟨fun part hpart => (h part hpart).1, fun part hpart => (h part hpart).2⟩
  · intro h part hpart
    exact ⟨h.1 part hpart, h.2 part hpart⟩

/-- What holds of a schema without keywords holds at every part of a value. -/
theorem conforms_nil (h : ∀ x, constraint [] x) (value : Json) : Conforms constraint [] value := by
  intro part hpart
  have hnil : part.1 = [] := by
    induction hpart with
    | refl => rfl
    | tail _ hchild ih =>
      cases hchild with
      | item hsub _ =>
        dsimp only at ih
        rw [ih] at hsub
        cases hsub
      | member hsub _ =>
        dsimp only at ih
        rw [ih] at hsub
        cases hsub
  rw [hnil]
  exact h part.2

end Parts

section Accepted

variable {schema : Fields} {name : String}

theorem isFiniteNumber_isNumber {value : Json} (h : isFiniteNumber value = .ok true) :
    isNumber value = true := by
  unfold isFiniteNumber at h
  split at h
  · next hnumber => exact hnumber
  · cases h

theorem range_of_accepted {value : Json} (h : validateNumberRange value schema name = .ok ()) :
    RangeHolds schema value := by
  intro _ check hcheck
  have hone := forM_eq_ok.mp h check hcheck
  dsimp only at hone
  cases hnull : (Fields.get schema check.key).isNull with
  | true =>
    left
    cases hget : Fields.get schema check.key with
    | null => rfl
    | _ =>
      rw [hget] at hnull
      cases hnull
  | false =>
    right
    rw [hnull] at hone
    simp only [Bool.not_false, if_true] at hone
    obtain ⟨finite, hfinite, hone⟩ := bind_eq_ok.mp hone
    obtain ⟨hvalid, hholds⟩ := bind_unit_eq_ok.mp hone
    rw [rejectIf_eq_ok, Bool.not_eq_false'] at hvalid
    rw [hvalid] at hfinite
    rw [rejectIf_eq_ok] at hholds
    split at hholds
    · next a b ha hb =>
      rw [Bool.not_eq_false'] at hholds
      exact ⟨a, b, ha, isFiniteNumber_isNumber hfinite, hb, hholds⟩
    · cases hholds

theorem length_of_accepted {length : ℕ} {minKey maxKey low high : String}
    (h : validateLength length schema minKey maxKey name low high = .ok ()) :
    LengthWithin schema minKey maxKey length := by
  have hbound : ∀ {key : String} {bound : ℤ}, schemaNonnegativeInt schema key name = .ok bound →
      Fields.get schema key = .int bound := by
    intro key bound hread
    unfold schemaNonnegativeInt at hread
    split at hread
    · next n hget =>
      split at hread
      · exact absurd hread reject_ne_ok
      · cases hread
        exact hget
    · exact absurd hread reject_ne_ok
  have hnull : ∀ {x : Json}, x.isNull = true → x = .null := by
    intro x hx
    cases x with
    | null => rfl
    | _ => cases hx
  have hhigh : ∀ {u : Except PyExc Unit}, u = (do
      if !(Fields.get schema maxKey).isNull then
        let bound ← schemaNonnegativeInt schema maxKey name
        rejectIf (bound < length) s!"{name} {high}") → u = .ok () →
      Fields.get schema maxKey = .null ∨
        ∃ bound : ℤ, Fields.get schema maxKey = .int bound ∧ length ≤ bound := by
    intro u hu hok
    rw [hu] at hok
    cases hisNull : (Fields.get schema maxKey).isNull with
    | true => exact .inl (hnull hisNull)
    | false =>
      rw [hisNull] at hok
      simp only [Bool.not_false, if_true] at hok
      obtain ⟨bound, hread, hok⟩ := bind_eq_ok.mp hok
      rw [rejectIf_eq_ok, decide_eq_false_iff_not] at hok
      exact .inr ⟨bound, hbound hread, by omega⟩
  unfold validateLength at h
  cases hisNull : (Fields.get schema minKey).isNull with
  | true =>
    rw [hisNull] at h
    simp only [Bool.not_true, Bool.false_eq_true, if_false] at h
    exact ⟨.inl (hnull hisNull), hhigh rfl h⟩
  | false =>
    rw [hisNull] at h
    simp only [Bool.not_false, if_true] at h
    obtain ⟨bound, hread, h⟩ := bind_eq_ok.mp h
    obtain ⟨hlow, h⟩ := bind_unit_eq_ok.mp h
    rw [rejectIf_eq_ok, decide_eq_false_iff_not] at hlow
    exact ⟨.inr ⟨bound, hbound hread, by omega⟩, hhigh rfl h⟩

theorem LimitsHold.of_number {value : Json} (hnumber : isNumber value = true)
    (h : RangeHolds schema value) : LimitsHold schema value where
  range := h
  length := by
    intro text htext
    rw [htext] at hnumber
    cases hnumber
  items := by
    intro items hitems
    rw [hitems] at hnumber
    cases hnumber

theorem LimitsHold.of_text {text : String}
    (h : LengthWithin schema "minLength" "maxLength" text.length) :
    LimitsHold schema (.str text) where
  range := by
    intro hnumber
    cases hnumber
  length := by
    intro other hother
    cases hother
    exact h
  items := by
    intro items hitems
    cases hitems

theorem LimitsHold.of_items {items : List Json}
    (h : LengthWithin schema "minItems" "maxItems" items.length) :
    LimitsHold schema (.arr items) where
  range := by
    intro hnumber
    cases hnumber
  length := by
    intro text htext
    cases htext
  items := by
    intro other hother
    cases hother
    exact h

theorem LimitsHold.of_members (members : Fields) : LimitsHold schema (.obj members) where
  range := by
    intro hnumber
    cases hnumber
  length := by
    intro text htext
    cases htext
  items := by
    intro items hitems
    cases hitems

theorem LimitsHold.of_bool (b : Bool) : LimitsHold schema (.bool b) where
  range := by
    intro hnumber
    cases hnumber
  length := by
    intro text htext
    cases htext
  items := by
    intro items hitems
    cases hitems

theorem limits_of_scalar {value : Json} {kind : TypeClass}
    (h : validateScalar value kind schema name = .ok ()) : LimitsHold schema value := by
  unfold validateScalar at h
  split at h
  · split at h
    · exact .of_number rfl (range_of_accepted h)
    · exact absurd h reject_ne_ok
  · obtain ⟨finite, hfinite, h⟩ := bind_eq_ok.mp h
    obtain ⟨hvalid, h⟩ := bind_unit_eq_ok.mp h
    rw [rejectIf_eq_ok, Bool.not_eq_false'] at hvalid
    rw [hvalid] at hfinite
    exact .of_number (isFiniteNumber_isNumber hfinite) (range_of_accepted h)
  · split at h
    · exact .of_bool _
    · exact absurd h reject_ne_ok
  · split at h
    · exact .of_text (length_of_accepted h)
    · exact absurd h reject_ne_ok
  · exact absurd h reject_ne_ok
  · exact absurd h reject_ne_ok

/-- What an accepted array's schema was read as. -/
theorem accepted_arr {items : List Json} {valueType : String}
    (h : validateSchemaValue (.arr items) valueType schema name = .ok ()) :
    ∃ read, itemSchema items.length schema name = .ok read ∧
      validateItems items 0 read name = .ok () := by
  rw [validateSchemaValue.eq_def] at h
  cases htype : typeClass valueType with
  | none =>
    rw [htype] at h
    exact absurd h reject_ne_ok
  | some kind =>
    rw [htype] at h
    cases kind with
    | array => exact bind_eq_ok.mp h
    | _ => cases h

theorem accepted_obj {members : Fields} {valueType : String}
    (h : validateSchemaValue (.obj members) valueType schema name = .ok ()) :
    ∃ read, objectSchema schema name = .ok read ∧
      validateMembers members read name = .ok () := by
  rw [validateSchemaValue.eq_def] at h
  cases htype : typeClass valueType with
  | none =>
    rw [htype] at h
    exact absurd h reject_ne_ok
  | some kind =>
    rw [htype] at h
    cases kind with
    | object =>
      obtain ⟨read, hread, h⟩ := bind_eq_ok.mp h
      exact ⟨read, hread, (bind_unit_eq_ok.mp h).2⟩
    | _ => cases h

/-- An accepted value is within the limits of its own schema. -/
theorem limits_of_accepted {value : Json} {valueType : String}
    (h : validateSchemaValue value valueType schema name = .ok ()) : LimitsHold schema value := by
  cases value with
  | arr items =>
    obtain ⟨read, hread, -⟩ := accepted_arr h
    unfold itemSchema at hread
    exact .of_items (length_of_accepted (bind_unit_eq_ok.mp hread).1)
  | obj members => exact .of_members members
  | _ =>
    rw [validateSchemaValue.eq_def] at h
    split at h
    · exact absurd h reject_ne_ok
    · next kind hkind =>
      cases kind <;> exact limits_of_scalar h

theorem accepted_item {read : ItemSchema} {items : List Json} {index : ℕ}
    (h : validateItems items index read name = .ok ()) {x : Json} (hx : x ∈ items) :
    ∃ itemName, validateSchemaValue x read.itemType read.schema itemName = .ok () := by
  induction items generalizing index with
  | nil => cases hx
  | cons y ys ih =>
    rw [validateItems] at h
    obtain ⟨hy, h⟩ := bind_unit_eq_ok.mp h
    rcases List.mem_cons.mp hx with rfl | hx
    · exact ⟨_, hy⟩
    · exact ih h hx

theorem accepted_member {read : ObjectSchema} {members : Fields}
    (h : validateMembers members read name = .ok ()) {m : String × Json} (hm : m ∈ members) :
    memberCheck read m.1 name = .ok .anyJson ∨ ∃ valueType property memberName,
      memberCheck read m.1 name = .ok (.typed valueType property) ∧
        validateSchemaValue m.2 valueType property memberName = .ok () := by
  induction members with
  | nil => cases hm
  | cons m' rest ih =>
    obtain ⟨key, x⟩ := m'
    rw [validateMembers] at h
    obtain ⟨check, hcheck, h⟩ := bind_eq_ok.mp h
    rcases List.mem_cons.mp hm with rfl | hm
    · cases check with
      | anyJson => exact .inl hcheck
      | typed valueType property =>
        exact .inr ⟨valueType, property, _, hcheck, (bind_unit_eq_ok.mp h).1⟩
    · cases check with
      | anyJson => exact ih (bind_unit_eq_ok.mp h).2 hm
      | typed valueType property => exact ih (bind_unit_eq_ok.mp h).2 hm

theorem itemSchema_items {length : ℕ} {read : ItemSchema}
    (h : itemSchema length schema name = .ok read) :
    Fields.get schema "items" = .obj read.schema := by
  unfold itemSchema at h
  obtain ⟨-, h⟩ := bind_unit_eq_ok.mp h
  split at h
  · next items heq =>
    obtain ⟨itemType, -, h⟩ := bind_eq_ok.mp h
    cases h
    exact heq
  · exact absurd h reject_ne_ok

def additionalOf (schema : Fields) : Json :=
  if Fields.has schema "additionalProperties" then Fields.get schema "additionalProperties"
  else .bool false

theorem objectSchema_eq_ok {read : ObjectSchema} (h : objectSchema schema name = .ok read) :
    (Fields.get schema "properties" = .obj read.properties ∨
        Fields.get schema "properties" = .null ∧ read.properties = []) ∧
      read.additional = additionalOf schema := by
  have hfinish : ∀ {properties : Fields} {x : Except PyExc (List String)},
      (x >>= fun required => pure (f := Except PyExc)
        ⟨properties, additionalOf schema, required⟩) = .ok read →
      read.properties = properties ∧ read.additional = additionalOf schema := by
    intro properties x hx
    obtain ⟨required, -, hx⟩ := bind_eq_ok.mp hx
    cases hx
    exact ⟨rfl, rfl⟩
  unfold objectSchema at h
  dsimp only at h
  split at h
  · next heq =>
    obtain ⟨properties, hread, h⟩ := bind_eq_ok.mp h
    cases hread
    have hdone : read.properties = [] ∧ read.additional = additionalOf schema := by
      split at h
      · split at h
        · split at h <;> exact hfinish h
        · exact hfinish h
      · exact hfinish h
    exact ⟨.inr ⟨heq, hdone.1⟩, hdone.2⟩
  · next own heq =>
    obtain ⟨properties, hread, h⟩ := bind_eq_ok.mp h
    cases hread
    have hdone : read.properties = own ∧ read.additional = additionalOf schema := by
      split at h
      · split at h
        · split at h <;> exact hfinish h
        · exact hfinish h
      · exact hfinish h
    exact ⟨.inl (by rw [heq, hdone.1]), hdone.2⟩
  · obtain ⟨properties, hread, h⟩ := bind_eq_ok.mp h
    exact absurd hread reject_ne_ok

theorem objectSchema_read {read : ObjectSchema} (h : objectSchema schema name = .ok read) :
    (∀ key, Fields.get read.properties key = Json.get (Fields.get schema "properties") key) ∧
      ∀ additional, Fields.get schema "additionalProperties" = .obj additional →
        read.additional = .obj additional := by
  obtain ⟨hproperties, hadditional⟩ := objectSchema_eq_ok h
  refine ⟨fun key => ?_, fun additional heq => ?_⟩
  · rcases hproperties with hobj | ⟨hnull, hempty⟩
    · rw [hobj]
      rfl
    · rw [hnull, hempty]
      rfl
  · have hhas : Fields.has schema "additionalProperties" = true := by
      rw [← Bool.not_eq_false]
      intro hnot
      rw [get_of_not_has hnot] at heq
      cases heq
    rw [hadditional, additionalOf, if_pos hhas, heq]

/-- A member with a schema of its own is checked by it, or by none when that
schema says nothing. -/
theorem memberCheck_subschema {read : ObjectSchema} (hread : objectSchema schema name = .ok read)
    {key : String} {check : MemberCheck} {sub : Fields}
    (h : memberCheck read key name = .ok check) (hsub : subschema schema key = some sub) :
    (check = .anyJson ∧ sub = []) ∨ ∃ valueType, check = .typed valueType sub := by
  obtain ⟨hproperties, hadditional⟩ := objectSchema_read hread
  unfold memberCheck memberSchema at h
  unfold subschema at hsub
  rw [hproperties] at h
  obtain ⟨raw, hraw, h⟩ := bind_eq_ok.mp h
  have htyped : raw = .obj sub → ∃ valueType, check = .typed valueType sub := by
    intro heq
    rw [heq] at h
    obtain ⟨valueType, -, h⟩ := bind_eq_ok.mp h
    cases h
    exact ⟨valueType, rfl⟩
  cases hproperty : Json.get (Fields.get schema "properties") key with
  | obj property =>
    rw [hproperty] at hraw hsub
    cases hraw
    cases hsub
    exact .inr (htyped rfl)
  | null =>
    rw [hproperty] at hraw hsub
    dsimp only at hraw hsub
    split at hsub
    · next additional heq =>
      cases hsub
      rw [hadditional _ heq] at hraw
      split at hraw
      · next hempty =>
        cases hraw
        cases h
        have hnil : sub = [] := by
          cases sub with
          | nil => rfl
          | cons m rest => simp [JsonValue.isTrue, Json.pyEq] at hempty
        exact .inl ⟨rfl, hnil⟩
      · cases hraw
        exact .inr (htyped rfl)
    · cases hsub
  | _ =>
    rw [hproperty] at hsub
    cases hsub

/-- The limits of an accepted value hold at every part. -/
theorem conforms_limits {value : Json} {valueType : String}
    (h : validateSchemaValue value valueType schema name = .ok ()) :
    Conforms LimitsHold schema value := by
  have hnil : ∀ x, LimitsHold [] x := fun x =>
    ⟨fun _ check _ => .inl rfl, fun text _ => ⟨.inl rfl, .inl rfl⟩,
      fun items _ => ⟨.inl rfl, .inl rfl⟩⟩
  intro part hpart
  generalize hstart : (schema, value) = start at hpart
  induction hpart using Relation.ReflTransGen.head_induction_on
    generalizing schema value valueType name with
  | refl =>
    cases hstart
    exact limits_of_accepted h
  | head hchild hrest ih =>
    cases hchild with
    | item hsub hmem =>
      cases hstart
      obtain ⟨read, hread, hitems⟩ := accepted_arr h
      obtain ⟨itemName, hitem⟩ := accepted_item hitems hmem
      rw [itemSchema_items hread, Json.obj.injEq] at hsub
      rw [hsub] at hitem
      exact ih hitem rfl
    | member hsub hmem =>
      cases hstart
      obtain ⟨read, hread, hmembers⟩ := accepted_obj h
      rcases accepted_member hmembers hmem with hany | ⟨type', property, memberName, hcheck, hok⟩
      · rcases memberCheck_subschema hread hany hsub with ⟨-, hempty⟩ | ⟨valueType', heq⟩
        · rw [hempty] at hrest
          exact conforms_nil hnil _ part hrest
        · cases heq
      · rcases memberCheck_subschema hread hcheck hsub with ⟨heq, -⟩ | ⟨valueType', heq⟩
        · cases heq
        · cases heq
          exact ih hok rfl

end Accepted

section Input

variable {input : Fields} {value : Json} {name : String}

def ConstraintsHold (schema : Fields) (value : Json) : Prop :=
  LimitsHold schema value ∧ EnumHolds schema value

/-- The value and all its parts satisfy what the input and its schema say. -/
def SatisfiesSchemas (input : Fields) (value : Json) : Prop :=
  Conforms ConstraintsHold input value ∧
    ∀ schema, Fields.get input "schema" = .obj schema → Conforms ConstraintsHold schema value

/-- The constraints that are never read: every enum but the input's own, and,
where the input has a schema, every limit written outside it. -/
structure UnreadHold (input : Fields) (value : Json) : Prop where
  enums : ConformsBelow EnumHolds input value
  schemaEnums : ∀ schema, Fields.get input "schema" = .obj schema →
    Conforms EnumHolds schema value
  limits : ∀ schema, Fields.get input "schema" = .obj schema → schema ≠ [] →
    Conforms LimitsHold input value

/-- What acceptance establishes: the input's enum, and the limits of its schema,
or its own where that is absent or empty. -/
theorem validateInputValue_read (h : validateInputValue value input name = .ok ())
    (hvalue : value ≠ .null) :
    EnumHolds input value ∧ ∃ schema, liveSchema input name = .ok schema ∧
      Conforms LimitsHold (if schema.isEmpty then input else schema) value := by
  have hnull : value.isNull = false := by
    cases value with
    | null => exact absurd rfl hvalue
    | _ => rfl
  unfold validateInputValue at h
  rw [hnull] at h
  simp only [Bool.false_eq_true, if_false] at h
  obtain ⟨schema, hschema, h⟩ := bind_eq_ok.mp h
  obtain ⟨valueType, -, h⟩ := bind_eq_ok.mp h
  obtain ⟨hvalid, henum⟩ := bind_unit_eq_ok.mp h
  refine ⟨?_, schema, hschema, conforms_limits hvalid⟩
  unfold validateEnum at henum
  split at henum
  · next heq => exact .inl heq
  · next items heq =>
    split at henum
    · exact absurd henum reject_ne_ok
    · rw [rejectIf_eq_ok, Bool.not_eq_false'] at henum
      exact .inr ⟨items, heq, henum⟩
  · exact absurd henum reject_ne_ok

/-- An accepted value satisfies both schemas at every part exactly when the
constraints that are never read hold. -/
theorem schemas_enforced_iff (h : validateInputValue value input name = .ok ())
    (hvalue : value ≠ .null) : SatisfiesSchemas input value ↔ UnreadHold input value := by
  constructor
  · intro hsatisfies
    obtain ⟨hinput, hschema⟩ := hsatisfies
    exact ⟨(conforms_iff.mp (conforms_and.mp hinput).2).2,
      fun schema heq => (conforms_and.mp (hschema schema heq)).2,
      fun schema heq hne => (conforms_and.mp hinput).1⟩
  · intro hunread
    obtain ⟨henum, read, hread, hlimits⟩ := validateInputValue_read h hvalue
    have henums : Conforms EnumHolds input value := conforms_iff.mpr ⟨henum, hunread.enums⟩
    unfold liveSchema at hread
    cases hget : Fields.get input "schema" with
    | null =>
      rw [hget] at hread
      cases hread
      refine ⟨conforms_and.mpr ⟨hlimits, henums⟩, fun schema heq => ?_⟩
      rw [hget] at heq
      cases heq
    | obj own =>
      rw [hget] at hread
      cases hread
      have hschema : ∀ schema, Fields.get input "schema" = .obj schema → schema = read := by
        intro schema heq
        rw [hget] at heq
        cases heq
        rfl
      cases read with
      | nil =>
        refine ⟨conforms_and.mpr ⟨hlimits, henums⟩, fun schema heq => ?_⟩
        rw [hschema schema heq]
        refine conforms_and.mpr ⟨conforms_nil (fun x => ?_) value, hunread.schemaEnums _ hget⟩
        exact ⟨fun _ check _ => .inl rfl, fun text _ => ⟨.inl rfl, .inl rfl⟩,
          fun items _ => ⟨.inl rfl, .inl rfl⟩⟩
      | cons m rest =>
        have hinput := hunread.limits _ hget (List.cons_ne_nil m rest)
        refine ⟨conforms_and.mpr ⟨hinput, henums⟩, fun schema heq => ?_⟩
        rw [hschema schema heq]
        exact conforms_and.mpr ⟨hlimits, hunread.schemaEnums _ hget⟩
    | _ =>
      rw [hget] at hread
      exact absurd hread reject_ne_ok

def speedInput (maximum : ℤ) : Fields :=
  [("type", .str "integer"), ("maximum", .int maximum),
    ("schema", .obj [("type", .str "integer"), ("minimum", .int 0)])]

theorem schemas_enforced_sample :
    SatisfiesSchemas (speedInput 5) (.int 3) ↔ UnreadHold (speedInput 5) (.int 3) := by
  have haccepted : validateInputValue (.int 3) (speedInput 5) "drive.speed" = .ok () := by
    decide +kernel
  exact schemas_enforced_iff haccepted (by simp)

/-- A maximum beside a schema is not read. -/
theorem speed_beyond_maximum :
    validateInputValue (.int 9) (speedInput 5) "drive.speed" = .ok () ∧
      ¬ SatisfiesSchemas (speedInput 5) (.int 9) := by
  refine ⟨by decide +kernel, fun h => ?_⟩
  have hlimits := (conforms_iff.mp (conforms_and.mp h.1).1).1
  rcases hlimits.range rfl ⟨"maximum", fun left right => numberLe left right, "above maximum"⟩
    (by simp [rangeChecks]) with hnull | ⟨a, b, ha, -, hb, hholds⟩
  · cases hnull
  · cases ha
    cases hb
    revert hholds
    decide +kernel

end Input

end FailureResolver.SchemaConformance

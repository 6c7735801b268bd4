import FailureResolver.EscapingErrors
import FailureResolver.JsonEquality
import FailureResolver.JsonRoundTrip
import FailureResolver.CommandSchema
import FailureResolver.PlanParsing

/-!
The errors with which a plan is refused. The callers of the parser and of the
comparison with the live commands frame catch the error of the recovery contract
alone. Any other error comes from one of four places: arguments that cannot be spelled
in bytes, a recorded key that cannot be hashed, an integer that is compared as a float
and has none, and a default nested too deeply for the interpreter. Each escapes exactly
when it is reached before anything else is refused.
-/

namespace FailureResolver.PlanAdmission

open JsonValue JsonText JsonRoundTrip JsonEquality PyException PyInterpreter PyText
open RecoveryContract ActionPlan PlanParsing LiveFlow CommandSchema EscapingErrors

section Kinds

variable {α : Type}

end Kinds

section Comparison

def TooLarge (value : Json) : Prop := ∃ n, value = .int n ∧ BinaryFloat.ofInt n = none

/-- Comparing two numbers overflows at the left one, or at the right one when
the left one is a finite float. -/
def NumbersOverflow (left right : Json) : Prop :=
  TooLarge left ∨ ((∃ x, toFloat left = .ok (.finite x)) ∧ TooLarge right)

mutual

/-- Comparing two values reaches numbers that overflow, everything before them
being equal. -/
inductive ComparisonOverflows : Json → Json → Prop
  | numbers {left right : Json} (hleft : isNumber left = true) (hright : isNumber right = true)
      (h : NumbersOverflow left right) : ComparisonOverflows left right
  | items {xs ys : List Json} (hlength : xs.length = ys.length) (h : ItemsOverflow xs ys) :
      ComparisonOverflows (.arr xs) (.arr ys)
  | members {xs ys : Fields} (hkeys : ∀ key, Fields.has xs key = true ↔ Fields.has ys key = true)
      (h : MembersOverflow xs ys) : ComparisonOverflows (.obj xs) (.obj ys)

inductive ItemsOverflow : List Json → List Json → Prop
  | here {x y : Json} {xs ys : List Json} (h : ComparisonOverflows x y) :
      ItemsOverflow (x :: xs) (y :: ys)
  | there {x y : Json} {xs ys : List Json} (hequal : jsonValuesEqual x y = .ok true)
      (h : ItemsOverflow xs ys) : ItemsOverflow (x :: xs) (y :: ys)

inductive MembersOverflow : Fields → Fields → Prop
  | here {key : String} {x : Json} {xs ys : Fields}
      (h : ComparisonOverflows x (Fields.get ys key)) : MembersOverflow ((key, x) :: xs) ys
  | there {key : String} {x : Json} {xs ys : Fields}
      (hequal : jsonValuesEqual x (Fields.get ys key) = .ok true) (h : MembersOverflow xs ys) :
      MembersOverflow ((key, x) :: xs) ys

end

end Comparison

section Contract

variable {α : Type}

end Contract

section Parsing

variable {surrogate : Char → Bool}

end Parsing

section Values

variable {schema : Fields} {name : String}

/-- A limit that is absent, or a finite number that the value keeps to. -/
def LimitKept (value : Json) (schema : Fields) (check : RangeCheck) : Prop :=
  Fields.get schema check.key = .null ∨
    isFiniteNumber (Fields.get schema check.key) = .ok true ∧
      ∃ a b, value.number = some a ∧ (Fields.get schema check.key).number = some b ∧
        check.holds a b = true

/-- A limit has no float, and those read before it are kept. -/
def LimitTooLarge (value : Json) (schema : Fields) : Prop :=
  ∃ before check after, rangeChecks = before ++ check :: after ∧
    (∀ earlier ∈ before, LimitKept value schema earlier) ∧ TooLarge (Fields.get schema check.key)

mutual

/-- The check of a value by its schema reaches a number or a limit without a
float, after everything before it has passed. -/
inductive ValueOverflows : Json → String → Fields → String → Prop
  | number {value : Json} {valueType : String} {schema : Fields} {name : String}
      (htype : typeClass valueType = some .number) (h : TooLarge value) :
      ValueOverflows value valueType schema name
  | limit {value : Json} {valueType : String} {schema : Fields} {name : String}
      (htype : (typeClass valueType = some .integer ∧ ∃ n, value = .int n) ∨
        (typeClass valueType = some .number ∧ isFiniteNumber value = .ok true))
      (h : LimitTooLarge value schema) : ValueOverflows value valueType schema name
  | items {items : List Json} {read : ItemSchema} {valueType : String} {schema : Fields}
      {name : String} (htype : typeClass valueType = some .array)
      (hread : itemSchema items.length schema name = .ok read)
      (h : ItemOverflows items 0 read name) : ValueOverflows (.arr items) valueType schema name
  | members {members : Fields} {read : ObjectSchema} {valueType : String} {schema : Fields}
      {name : String} (htype : typeClass valueType = some .object)
      (hread : objectSchema schema name = .ok read)
      (hrequired : ∀ key ∈ read.required, Fields.has members key = true)
      (h : MemberOverflows members read name) :
      ValueOverflows (.obj members) valueType schema name

inductive ItemOverflows : List Json → ℕ → ItemSchema → String → Prop
  | here {x : Json} {xs : List Json} {index : ℕ} {read : ItemSchema} {name : String}
      (h : ValueOverflows x read.itemType read.schema s!"{name}[{index}]") :
      ItemOverflows (x :: xs) index read name
  | there {x : Json} {xs : List Json} {index : ℕ} {read : ItemSchema} {name : String}
      (hpass : validateSchemaValue x read.itemType read.schema s!"{name}[{index}]" = .ok ())
      (h : ItemOverflows xs (index + 1) read name) : ItemOverflows (x :: xs) index read name

inductive MemberOverflows : Fields → ObjectSchema → String → Prop
  | here {key valueType : String} {x : Json} {rest property : Fields} {read : ObjectSchema}
      {name : String} (hcheck : memberCheck read key name = .ok (.typed valueType property))
      (h : ValueOverflows x valueType property s!"{name}.{key}") :
      MemberOverflows ((key, x) :: rest) read name
  | there {key : String} {x : Json} {rest : Fields} {read : ObjectSchema} {name : String}
      (hpass : validateMembers [(key, x)] read name = .ok ())
      (h : MemberOverflows rest read name) : MemberOverflows ((key, x) :: rest) read name

end

variable {valueType : String}

end Values

section Inputs

/-- A declared value is checked by its schema and the check overflows. -/
def InputOverflows (value : Json) (input : Fields) (name : String) : Prop :=
  value ≠ .null ∧ ∃ schema valueType, liveSchema input name = .ok schema ∧
    liveType schema input name = .ok valueType ∧
    ValueOverflows value valueType (if schema.isEmpty then input else schema) name

mutual

/-- The walk of an argument reaches a declared value whose check overflows. -/
inductive ArgumentOverflows (specs : List InputSpec) (command : String) :
    List String → Json → Prop
  | declared {path : List String} {value : Json} {spec : InputSpec}
      (hspec : specs.find? (fun spec => decide (spec.path = path)) = some spec)
      (h : InputOverflows value spec.input s!"{command}.{joinDots path}") :
      ArgumentOverflows specs command path value
  | above {path : List String} {members : Fields}
      (hspec : specs.find? (fun spec => decide (spec.path = path)) = none)
      (habove : (specs.any fun spec => properPrefix path spec.path) = true)
      (h : ObjectOverflows specs command path members) :
      ArgumentOverflows specs command path (.obj members)

inductive ObjectOverflows (specs : List InputSpec) (command : String) :
    List String → Fields → Prop
  | here {path : List String} {key : String} {x : Json} {rest : Fields} (hkey : key ≠ "")
      (h : ArgumentOverflows specs command (path ++ [key]) x) :
      ObjectOverflows specs command path ((key, x) :: rest)
  | there {path : List String} {key : String} {x : Json} {rest : Fields} (hkey : key ≠ "")
      (hpass : validateArgument specs command (path ++ [key]) x = .ok ())
      (h : ObjectOverflows specs command path rest) :
      ObjectOverflows specs command path ((key, x) :: rest)

end

variable {specs : List InputSpec} {command : String}

end Inputs

section Corrections

variable {interpreter : Interpreter}

end Corrections

end FailureResolver.PlanAdmission

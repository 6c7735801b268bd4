import FailureResolver.JsonText
import FailureResolver.PyException

/-!
What the running interpreter decides about reading and copying a value. Nested calls
are limited, and how many are left depends on the calls already made, so the decoder
and the deep copy have a limit each. A text may also hold a lone surrogate, which has
no bytes in UTF-8. Such surrogates are no characters here, so the interpreter says
which characters stand for them.
-/

namespace FailureResolver.PyInterpreter

open JsonValue JsonText PyException

structure Interpreter where
  /-- How many containers the decoder may have open at once, if that is limited. -/
  decoding : Option ℕ
  /-- How many calls a deep copy may nest, if that is limited. -/
  copying : Option ℕ
  /-- The characters a lone surrogate escape is read as. -/
  lone : ℕ → Option Char
  surrogate : Char → Bool

def noSurrogate : Char → Bool := fun _ => false

/-- No limits and no surrogates. -/
def Interpreter.plain : Interpreter := ⟨none, none, noLone, noSurrogate⟩

def Interpreter.unlimited (interpreter : Interpreter) : Interpreter :=
  { interpreter with decoding := none, copying := none }

def exceeds : Option ℕ → ℕ → Bool
  | none, _ => false
  | some limit, n => limit < n

def recursionError : PyExc := ⟨.other "RecursionError", "maximum recursion depth exceeded"⟩

@[simp] theorem any_noSurrogate (text : List Char) : text.any noSurrogate = false := by
  rw [List.any_eq_false]
  intro c _
  exact Bool.false_ne_true

@[simp] theorem exceeds_none (n : ℕ) : exceeds none n = false := rfl

section Decoding

variable (lone : ℕ → Option Char)

mutual

/-- The most containers open at once while one value is scanned, up to its end or to
the place where it stops being a value. -/
def valueNesting : ℕ → List Char → ℕ
  | 0, _ => 0
  | n + 1, text =>
      match text with
      | '[' :: rest =>
          match skipSpace rest with
          | ']' :: _ => 1
          | text => itemsNesting n text + 1
      | '{' :: rest =>
          match skipSpace rest with
          | '}' :: _ => 1
          | text => membersNesting n text + 1
      | _ => 0

def itemsNesting : ℕ → List Char → ℕ
  | 0, _ => 0
  | n + 1, text =>
      max (valueNesting n text)
        (match parseValue lone n text with
          | none => 0
          | some (_, rest) =>
              match skipSpace rest with
              | ',' :: rest => itemsNesting n (skipSpace rest)
              | _ => 0)

def membersNesting : ℕ → List Char → ℕ
  | n + 1, '"' :: text =>
      match scanString lone (n + 1) text with
      | none => 0
      | some (_, rest) =>
          match skipSpace rest with
          | ':' :: rest =>
              max (valueNesting n (skipSpace rest))
                (match parseValue lone n (skipSpace rest) with
                  | none => 0
                  | some (_, rest) =>
                      match skipSpace rest with
                      | ',' :: rest => membersNesting n (skipSpace rest)
                      | _ => 0)
          | _ => 0
  | _, _ => 0

end

def textNesting (text : List Char) : ℕ := valueNesting lone (text.length + 1) (skipSpace text)

end Decoding

/-- `json.loads(text)`, with the decoder's own error as `none`. -/
def Interpreter.loads (interpreter : Interpreter) (text : List Char) :
    Except PyExc (Option Json) :=
  if exceeds interpreter.decoding (textNesting interpreter.lone text) then .error recursionError
  else .ok (loadsWith interpreter.lone text)

section Copying

mutual

/-- The calls `copy.deepcopy` nests: two for a container above those for its items,
and two for anything else. -/
def copyCalls : Json → ℕ
  | .arr items => itemCalls items + 2
  | .obj members => memberCalls members + 2
  | _ => 2

def itemCalls : List Json → ℕ
  | [] => 0
  | x :: xs => max (copyCalls x) (itemCalls xs)

def memberCalls : List (String × Json) → ℕ
  | [] => 0
  | (_, x) :: rest => max (copyCalls x) (memberCalls rest)

end

/-- `copy.deepcopy(value)`: the value itself, as nothing changes it. -/
def Interpreter.deepcopy (interpreter : Interpreter) (fields : Fields) : Except PyExc Fields :=
  if exceeds interpreter.copying (copyCalls (.obj fields)) then .error recursionError
  else .ok fields

end Copying

section Specifications

variable {interpreter : Interpreter}

theorem Interpreter.loads_eq_ok {text : List Char} {value : Option Json} :
    interpreter.loads text = .ok value ↔
      exceeds interpreter.decoding (textNesting interpreter.lone text) = false ∧
        loadsWith interpreter.lone text = value := by
  unfold Interpreter.loads
  split
  · next h => simp [h]
  · next h => simp [h]

theorem Interpreter.deepcopy_eq_ok {fields copied : Fields} :
    interpreter.deepcopy fields = .ok copied ↔
      exceeds interpreter.copying (copyCalls (.obj fields)) = false ∧ fields = copied := by
  unfold Interpreter.deepcopy
  split
  · next h => simp [h]
  · next h => simp [h]

@[simp] theorem plain_loads (text : List Char) :
    Interpreter.plain.loads text = .ok (JsonText.loads text) := rfl

@[simp] theorem plain_deepcopy (fields : Fields) :
    Interpreter.plain.deepcopy fields = .ok fields := rfl

end Specifications

example : textNesting noLone "[[1], [[0], [[[x".toList = 5 := by decide +kernel

end FailureResolver.PyInterpreter

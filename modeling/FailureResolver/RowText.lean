import FailureResolver.JsonText
import FailureResolver.PyText

/-!
Database values as text, as the resolver writes them into identifiers and compares
them with status words.
-/

namespace FailureResolver.RowText

open BinaryFloat DecimalText JsonValue PrintableText PyText

def floatName : Binary64 → String
  | .finite x => String.ofList (floatText x)
  | .infinity negative => if negative then "-inf" else "inf"
  | .nan => "nan"

mutual

def pyRepr : Json → List Char
  | .null => "None".toList
  | .bool b => (if b then "True" else "False").toList
  | .int n => intText n
  | .float x => (floatName x).toList
  | .str s => (PyText.repr s).toList
  | .arr [] => ['[', ']']
  | .arr (x :: xs) => '[' :: (pyRepr x ++ (pyReprItems xs ++ [']']))
  | .obj [] => ['\x7b', '\x7d']
  | .obj ((key, x) :: rest) =>
      '\x7b' :: ((PyText.repr key).toList ++ (':' :: ' ' :: (pyRepr x ++
        (pyReprMembers rest ++ ['\x7d']))))

def pyReprItems : List Json → List Char
  | [] => []
  | x :: xs => ',' :: ' ' :: (pyRepr x ++ pyReprItems xs)

def pyReprMembers : List (String × Json) → List Char
  | [] => []
  | (key, x) :: rest =>
      ',' :: ' ' :: ((PyText.repr key).toList ++ (':' :: ' ' :: (pyRepr x ++ pyReprMembers rest)))

end

def pyStr : Json → String
  | .str s => s
  | value => String.ofList (pyRepr value)

def replacePrintable (c : Char) : Char := if isPrintable c then c else Char.ofNat 0xfffd

def safeIdentifierLength : ℕ := 200

def safeIdentifier (value : Json) : Option String :=
  match value with
  | .null => none
  | .arr _ => none
  | .obj _ => none
  | value =>
      let text := strip (pyStr value)
      if text = "" then none
      else some (String.ofList ((text.toList.map replacePrintable).take safeIdentifierLength))

def normalizedText (value : Json) : String :=
  if value.isNull then "" else casefold (strip (pyStr value))

end FailureResolver.RowText

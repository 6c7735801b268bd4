import FailureResolver.DecimalText
import FailureResolver.JsonValue
import FailureResolver.PyText

/-!
The text of a JSON value, as the standard encoder writes it without ASCII
escaping and the standard decoder reads it. A style says what stands between
the items of a container and after a key. Control characters, quotes and
backslashes are escaped; every other character stands for itself.
-/

namespace FailureResolver.JsonText

open BinaryFloat DecimalText JsonValue PyText

section Encoder

/-- Longer integers have no text: the conversion raises an error. -/
def maxStrDigits : ℕ := 4300

structure Style where
  /-- What stands before an item at a nesting level, and before the closing
  bracket at the level outside it. -/
  newline : ℕ → List Char
  afterKey : List Char

/-- `separators=(",", ":")`. -/
def compactStyle : Style := ⟨fun _ => [], []⟩

@[simp] theorem compactStyle_newline (level : ℕ) : compactStyle.newline level = [] := rfl

@[simp] theorem compactStyle_afterKey : compactStyle.afterKey = [] := rfl

/-- `indent=2`. -/
def indentedStyle : Style := ⟨fun n => '\n' :: List.replicate (2 * n) ' ', [' ']⟩

def escapeChar (c : Char) : List Char :=
  if c = '"' then ['\\', '"']
  else if c = '\\' then ['\\', '\\']
  else if c = '\n' then ['\\', 'n']
  else if c = '\r' then ['\\', 'r']
  else if c = '\t' then ['\\', 't']
  else if c.toNat = 12 then ['\\', 'f']
  else if c.toNat = 8 then ['\\', 'b']
  else if c.toNat < 32 then
    ['\\', 'u', '0', '0', hexDigit (c.toNat / 16), hexDigit (c.toNat % 16)]
  else [c]

def quote (s : String) : List Char := '"' :: (s.toList.flatMap escapeChar ++ ['"'])

def scalarText : Json → List Char
  | .null => "null".toList
  | .bool true => "true".toList
  | .bool false => "false".toList
  | .int n => intText n
  | .float .nan => "NaN".toList
  | .float (.infinity false) => "Infinity".toList
  | .float (.infinity true) => "-Infinity".toList
  | .float (.finite x) => floatText x
  | .str s => quote s
  | .arr _ => "[]".toList
  | .obj _ => "{}".toList

mutual

def print (style : Style) (level : ℕ) : Json → List Char
  | .arr (x :: xs) =>
      '[' :: (style.newline (level + 1) ++ (print style (level + 1) x ++
        (printItems style (level + 1) xs ++ (style.newline level ++ [']']))))
  | .obj ((key, x) :: rest) =>
      '{' :: (style.newline (level + 1) ++ (quote key ++ (':' :: (style.afterKey ++
        (print style (level + 1) x ++
          (printMembers style (level + 1) rest ++ (style.newline level ++ ['}'])))))))
  | value => scalarText value

def printItems (style : Style) (level : ℕ) : List Json → List Char
  | [] => []
  | x :: xs => ',' :: (style.newline level ++ (print style level x ++ printItems style level xs))

def printMembers (style : Style) (level : ℕ) : List (String × Json) → List Char
  | [] => []
  | (key, x) :: rest =>
      ',' :: (style.newline level ++ (quote key ++ (':' :: (style.afterKey ++
        (print style level x ++ printMembers style level rest)))))

end

def scalarPrintable : Json → Bool
  | .int n => (Nat.toDigits 10 n.natAbs).length ≤ maxStrDigits
  | .float x => BinaryFloat.isFinite x
  | _ => true

mutual

/-- No number is without a text under `allow_nan=False`. -/
def printable : Json → Bool
  | .arr items => printableItems items
  | .obj members => printableMembers members
  | value => scalarPrintable value

def printableItems : List Json → Bool
  | [] => true
  | x :: xs => printable x && printableItems xs

def printableMembers : List (String × Json) → Bool
  | [] => true
  | (_, x) :: rest => printable x && printableMembers rest

end

/-- `json.dumps(value, ensure_ascii=False, allow_nan=False)` in a style; `none`
is the error of the encoder. -/
def dumps (style : Style) (value : Json) : Option (List Char) :=
  if printable value then some (print style 0 value) else none

end Encoder

section Decoder

def isJsonSpace (c : Char) : Bool := c = ' ' || c = '\t' || c = '\n' || c = '\r'

def skipSpace (text : List Char) : List Char := text.dropWhile isJsonSpace

def scanHex : List Char → Option (ℕ × List Char)
  | a :: b :: c :: d :: rest =>
      match hexValue a, hexValue b, hexValue c, hexValue d with
      | some a, some b, some c, some d => some (((a * 16 + b) * 16 + c) * 16 + d, rest)
      | _, _, _, _ => none
  | _ => none

def simpleEscape (c : Char) : Option Char :=
  match c with
  | '"' => some '"'
  | '\\' => some '\\'
  | '/' => some '/'
  | 'b' => some (Char.ofNat 8)
  | 'f' => some (Char.ofNat 12)
  | 'n' => some '\n'
  | 'r' => some '\r'
  | 't' => some '\t'
  | _ => none

/-- What stands for a lone surrogate, which is no character: by default nothing, and
the text is not read. -/
def noLone : ℕ → Option Char := fun _ => none

variable (lone : ℕ → Option Char)

/-- A `\u` escape after its marker. Two surrogate escapes are one character. -/
def scanUnicode (text : List Char) : Option (Char × List Char) :=
  match scanHex text with
  | none => none
  | some (n, rest) =>
      if 0xd800 ≤ n ∧ n ≤ 0xdbff then
        match rest with
        | '\\' :: 'u' :: low =>
            match scanHex low with
            | some (m, afterLow) =>
                if 0xdc00 ≤ m ∧ m ≤ 0xdfff then
                  some (Char.ofNat (0x10000 + (n - 0xd800) * 1024 + (m - 0xdc00)), afterLow)
                else (lone n).map fun c => (c, rest)
            | none => none
        | _ => (lone n).map fun c => (c, rest)
      else if 0xdc00 ≤ n ∧ n ≤ 0xdfff then (lone n).map fun c => (c, rest)
      else some (Char.ofNat n, rest)

/-- One item of a string body: a character, or the end of the string. -/
inductive StringItem
  | close (rest : List Char)
  | char (c : Char) (rest : List Char)
  | bad

def scanStringItem : List Char → StringItem
  | [] => .bad
  | '"' :: rest => .close rest
  | '\\' :: 'u' :: rest =>
      match scanUnicode lone rest with
      | some (c, rest) => .char c rest
      | none => .bad
  | '\\' :: e :: rest =>
      match simpleEscape e with
      | some c => .char c rest
      | none => .bad
  | '\\' :: [] => .bad
  | c :: rest => if c.toNat < 32 then .bad else .char c rest

/-- The body of a string up to its closing quote. -/
def scanString : ℕ → List Char → Option (List Char × List Char)
  | 0, _ => none
  | n + 1, text =>
      match scanStringItem lone text with
      | .close rest => some ([], rest)
      | .char c rest => (scanString n rest).map (fun p => (c :: p.1, p.2))
      | .bad => none

def scanNumber (text : List Char) : Option (Json × List Char) :=
  match scan text with
  | none => none
  | some (l, rest) =>
      if l.isInteger then
        if l.whole.length ≤ maxStrDigits then some (.int l.intValue, rest) else none
      else some (.float l.floatValue, rest)

def scanScalar : List Char → Option (Json × List Char)
  | 'n' :: 'u' :: 'l' :: 'l' :: rest => some (.null, rest)
  | 't' :: 'r' :: 'u' :: 'e' :: rest => some (.bool true, rest)
  | 'f' :: 'a' :: 'l' :: 's' :: 'e' :: rest => some (.bool false, rest)
  | 'N' :: 'a' :: 'N' :: rest => some (.float .nan, rest)
  | 'I' :: 'n' :: 'f' :: 'i' :: 'n' :: 'i' :: 't' :: 'y' :: rest =>
      some (.float (.infinity false), rest)
  | '-' :: 'I' :: 'n' :: 'f' :: 'i' :: 'n' :: 'i' :: 't' :: 'y' :: rest =>
      some (.float (.infinity true), rest)
  | text => scanNumber text

mutual

/-- One value at the start of a text. The fuel bounds nesting and length. -/
def parseValue : ℕ → List Char → Option (Json × List Char)
  | 0, _ => none
  | n + 1, text =>
      match text with
      | '"' :: rest =>
          (scanString lone (n + 1) rest).map (fun p => (.str (String.ofList p.1), p.2))
      | '[' :: rest =>
          match skipSpace rest with
          | ']' :: rest => some (.arr [], rest)
          | text => (parseItems n text).map (fun p => (.arr p.1, p.2))
      | '{' :: rest =>
          match skipSpace rest with
          | '}' :: rest => some (.obj [], rest)
          | text => (parseMembers n [] text).map (fun p => (.obj p.1, p.2))
      | text => scanScalar text

def parseItems : ℕ → List Char → Option (List Json × List Char)
  | 0, _ => none
  | n + 1, text =>
      match parseValue n text with
      | none => none
      | some (x, rest) =>
          match skipSpace rest with
          | ']' :: rest => some ([x], rest)
          | ',' :: rest => (parseItems n (skipSpace rest)).map (fun p => (x :: p.1, p.2))
          | _ => none

/-- The members of an object up to its closing bracket; a repeated key keeps
its place and takes the later value. -/
def parseMembers : ℕ → Fields → List Char → Option (Fields × List Char)
  | 0, _, _ => none
  | n + 1, members, '"' :: text =>
      match scanString lone (n + 1) text with
      | none => none
      | some (key, rest) =>
          match skipSpace rest with
          | ':' :: rest =>
              match parseValue n (skipSpace rest) with
              | none => none
              | some (x, rest) =>
                  let members := Fields.set members (String.ofList key) x
                  match skipSpace rest with
                  | '}' :: rest => some (members, rest)
                  | ',' :: rest => parseMembers n members (skipSpace rest)
                  | _ => none
          | _ => none
  | _ + 1, _, _ => none

end

/-- `json.loads(text)`; `none` is the error of the decoder. -/
def loadsWith (text : List Char) : Option Json :=
  match parseValue lone (text.length + 1) (skipSpace text) with
  | some (value, rest) => if (skipSpace rest).isEmpty then some value else none
  | none => none

def loads (text : List Char) : Option Json := loadsWith noLone text

end Decoder

end FailureResolver.JsonText

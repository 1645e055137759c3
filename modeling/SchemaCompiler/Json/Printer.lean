import SchemaCompiler.Json.Basic
import SchemaCompiler.Decimal.Layout

/-!
# Writing JSON

`Json.pretty` writes a value over several lines, indented by two spaces a level. An empty array and
an empty object are written as two brackets.

In a text the quote, the backslash and the characters below the space are escaped, the latter by
a letter where there is one and by four hexadecimal digits otherwise; every other character stands
for itself. A floating-point number without a finite value is written as `null`.
-/

namespace SchemaCompiler.Json

/-! ### Scalars -/

/-- A hexadecimal digit, in lower case. -/
def hexDigit (n : Nat) : Char :=
  if n < 10 then Char.ofNat ('0'.toNat + n) else Char.ofNat ('a'.toNat + (n - 10))

/-- A character as it stands between the quotes of a text. -/
def escapeChar (c : Char) : List Char :=
  match c with
  | '"' => ['\\', '"']
  | '\\' => ['\\', '\\']
  | '\x08' => ['\\', 'b']
  | '\x0c' => ['\\', 'f']
  | '\n' => ['\\', 'n']
  | '\r' => ['\\', 'r']
  | '\t' => ['\\', 't']
  | c =>
    if c.toNat < 32 then ['\\', 'u', '0', '0', hexDigit (c.toNat / 16), hexDigit (c.toNat % 16)]
    else [c]

/-- A text between its quotes. -/
def quote (s : String) : List Char :=
  '"' :: s.toList.flatMap escapeChar ++ ['"']

/-- An integer in decimal digits. -/
def integerText : Int → List Char
  | .ofNat n => Nat.toDigits 10 n
  | .negSucc n => '-' :: Nat.toDigits 10 (n + 1)

/-- A number; one without a finite value is `null`. -/
def numberText : Number → List Char
  | .integer n => integerText n
  | .float x => if x.isFinite then (floatText .json x).toList else ['n', 'u', 'l', 'l']

/-- A truth value. -/
def boolText (b : Bool) : List Char :=
  if b then ['t', 'r', 'u', 'e'] else ['f', 'a', 'l', 's', 'e']

/-! ### Over several lines -/

/-- A line break and the indentation of a level. -/
def lineBreak (level : Nat) : List Char :=
  '\n' :: List.replicate (2 * level) ' '

mutual

/-- A value whose first line is already indented by `level`. -/
def prettyChars (level : Nat) : Json → List Char
  | .null => ['n', 'u', 'l', 'l']
  | .bool b => boolText b
  | .number n => numberText n
  | .text s => quote s
  | .list [] => ['[', ']']
  | .list (item :: items) =>
    '[' :: lineBreak (level + 1) ++ prettyChars (level + 1) item ++
      prettyItems (level + 1) items ++ lineBreak level ++ [']']
  | .object [] => ['{', '}']
  | .object ((key, value) :: entries) =>
    '{' :: lineBreak (level + 1) ++ quote key ++ [':', ' '] ++ prettyChars (level + 1) value ++
      prettyEntries (level + 1) entries ++ lineBreak level ++ ['}']

/-- The items of an array after its first, each with the comma before it. -/
def prettyItems (level : Nat) : List Json → List Char
  | [] => []
  | item :: items => ',' :: lineBreak level ++ prettyChars level item ++ prettyItems level items

/-- The entries of an object after its first, each with the comma before it. -/
def prettyEntries (level : Nat) : List (String × Json) → List Char
  | [] => []
  | (key, value) :: entries =>
    ',' :: lineBreak level ++ quote key ++ [':', ' '] ++ prettyChars level value ++
      prettyEntries level entries

end

/-- A value over several lines, without a line break at its end. -/
def pretty (value : Json) : String :=
  .ofList (prettyChars 0 value)

end SchemaCompiler.Json

import SchemaCompiler.Tree.Basic

/-!
# Texts in JSON

`decodeText` reads what stands between quotes: it undoes the escapes up to the closing quote and
gives the text together with what follows. A character beyond the basic plane may be written as a
pair of surrogate escapes, and a surrogate outside a pair is a fault.

`skipText` only finds the closing quote. It notices broken escapes but not broken pairs.
-/

namespace SchemaCompiler.Json

/-- The value of a hexadecimal digit of either case. -/
def hexValue? (c : Char) : Option Nat :=
  if '0' ≤ c && c ≤ '9' then some (c.toNat - '0'.toNat)
  else if 'a' ≤ c && c ≤ 'f' then some (c.toNat - 'a'.toNat + 10)
  else if 'A' ≤ c && c ≤ 'F' then some (c.toNat - 'A'.toNat + 10)
  else none

/-- The fault of a text too short for the four digits of an escape, which is counted in bytes:
with four bytes left the digits are wrong, with fewer the text has ended. -/
def shortEscape (rest : List Char) : SyntaxFault :=
  if 4 ≤ (String.ofList rest).utf8ByteSize then .invalidEscape else .endInText

/-- The number that the four digits of an escape write. -/
def hexUnit? (a b c d : Char) : Option Nat := do
  let a ← hexValue? a
  let b ← hexValue? b
  let c ← hexValue? c
  let d ← hexValue? d
  return ((a * 16 + b) * 16 + c) * 16 + d

/-- The character of a one-letter escape. -/
def letterEscape? : Char → Option Char
  | '"' => some '"'
  | '\\' => some '\\'
  | '/' => some '/'
  | 'b' => some '\x08'
  | 'f' => some '\x0c'
  | 'n' => some '\n'
  | 'r' => some '\r'
  | 't' => some '\t'
  | _ => none

/-- Whether a code unit is the first half of a surrogate pair. -/
def isLeading (unit : Nat) : Bool := 0xD800 ≤ unit && unit ≤ 0xDBFF

/-- Whether a code unit is the second half of a surrogate pair. -/
def isTrailing (unit : Nat) : Bool := 0xDC00 ≤ unit && unit ≤ 0xDFFF

/-- The character of a surrogate pair. -/
def pairChar (leading trailing : Nat) : Char :=
  Char.ofNat (0x10000 + (leading - 0xD800) * 0x400 + (trailing - 0xDC00))

/-- Puts a character in front of a text that was read. -/
def prepend (c : Char) :
    Except SyntaxFault (List Char × List Char) → Except SyntaxFault (List Char × List Char)
  | .ok (chars, rest) => .ok (c :: chars, rest)
  | .error fault => .error fault

/-- The text up to the closing quote, and what follows the quote. -/
def decodeText : List Char → Except SyntaxFault (List Char × List Char)
  | [] => .error .endInText
  | c :: rest =>
    if c = '"' then .ok ([], rest)
    else if c = '\\' then
      match rest with
      | [] => .error .endInText
      | 'u' :: a :: b :: c :: d :: rest =>
        match hexUnit? a b c d with
        | none => .error .invalidEscape
        | some unit =>
          if isTrailing unit then .error .loneSurrogate
          else if isLeading unit then
            match rest with
            | '\\' :: 'u' :: a :: b :: c :: d :: rest =>
              match hexUnit? a b c d with
              | none => .error .invalidEscape
              | some trailing =>
                if isTrailing trailing then prepend (pairChar unit trailing) (decodeText rest)
                else .error .loneSurrogate
            | '\\' :: 'u' :: short => .error (shortEscape short)
            | [] | ['\\'] => .error .endInText
            | _ => .error .unfinishedPair
          else prepend (Char.ofNat unit) (decodeText rest)
      | 'u' :: short => .error (shortEscape short)
      | letter :: rest =>
        match letterEscape? letter with
        | some c => prepend c (decodeText rest)
        | none => .error .invalidEscape
    else if c.toNat < 32 then .error .controlCharacter
    else prepend c (decodeText rest)

/-- What follows the closing quote. -/
def skipText : List Char → Except SyntaxFault (List Char)
  | [] => .error .endInText
  | c :: rest =>
    if c = '"' then .ok rest
    else if c = '\\' then
      match rest with
      | [] => .error .endInText
      | 'u' :: a :: b :: c :: d :: rest =>
        match hexUnit? a b c d with
        | none => .error .invalidEscape
        | some _ => skipText rest
      | 'u' :: short => .error (shortEscape short)
      | letter :: rest =>
        match letterEscape? letter with
        | some _ => skipText rest
        | none => .error .invalidEscape
    else if c.toNat < 32 then .error .controlCharacter
    else skipText rest

end SchemaCompiler.Json

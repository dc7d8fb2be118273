import Envelope.Json.Basic
import Envelope.Text.Digits
import Envelope.Text.Hex

/-!
# Reading JSON text

A reader of the grammar of RFC 8259.  Its fuel is the length of the text, and
every value takes at least one character, so that it never runs out on a text
that the grammar admits.
-/

namespace Envelope
namespace Json

/-- Drops the blanks at the beginning. -/
def skipBlanks (text : List Char) : List Char :=
  text.dropWhile fun c => c = ' ' ∨ c = '\n' ∨ c = '\r' ∨ c = '\t'

/-- The code unit of four hexadecimal digits. -/
def codeUnit (a b c d : Char) : Option Nat := do
  let a ← Hex.value? a
  let b ← Hex.value? b
  let c ← Hex.value? c
  let d ← Hex.value? d
  return ((a * 16 + b) * 16 + c) * 16 + d

/-- The character of an escape letter. -/
def unescape : Char → Option Char
  | '"' => some '"'
  | '\\' => some '\\'
  | '/' => some '/'
  | 'b' => some '\x08'
  | 'f' => some '\x0c'
  | 'n' => some '\n'
  | 'r' => some '\r'
  | 't' => some '\t'
  | _ => none

/-- The rest of a string after its opening quotation mark, up to and without
the closing one, and what follows it. -/
def readString : List Char → Option (List Char × List Char)
  | '"' :: rest => some ([], rest)
  | '\\' :: 'u' :: a :: b :: c :: d :: '\\' :: 'u' :: e :: f :: g :: h :: rest => do
    let high ← codeUnit a b c d
    if 0xd800 ≤ high ∧ high < 0xdc00 then
      let low ← codeUnit e f g h
      if 0xdc00 ≤ low ∧ low < 0xe000 then
        let (text, rest) ← readString rest
        return (Char.ofNat (0x10000 + (high - 0xd800) * 0x400 + (low - 0xdc00)) :: text, rest)
      else
        none
    else if 0xdc00 ≤ high ∧ high < 0xe000 then
      none
    else
      let (text, rest) ← readString ('\\' :: 'u' :: e :: f :: g :: h :: rest)
      return (Char.ofNat high :: text, rest)
  | '\\' :: 'u' :: a :: b :: c :: d :: rest => do
    let unit ← codeUnit a b c d
    if 0xd800 ≤ unit ∧ unit < 0xe000 then
      none
    else
      let (text, rest) ← readString rest
      return (Char.ofNat unit :: text, rest)
  | '\\' :: letter :: rest => do
    let c ← unescape letter
    let (text, rest) ← readString rest
    return (c :: text, rest)
  | c :: rest =>
    if c.toNat < 32 then none
    else do
      let (text, rest) ← readString rest
      return (c :: text, rest)
  | [] => none

/-- The digits at the beginning, and what follows them. -/
def readDigits (text : List Char) : List Char × List Char :=
  (text.takeWhile Char.isDigit, text.dropWhile Char.isDigit)

/-- The exponent of a number, if there is one, and what follows it. -/
def readExponent (text : List Char) : Option (Option Int × List Char) :=
  match text with
  | [] => some (none, [])
  | c :: rest =>
    if c = 'e' ∨ c = 'E' then
      let (negative, rest) :=
        match rest with
        | '-' :: rest => (true, rest)
        | '+' :: rest => (false, rest)
        | rest => (false, rest)
      let (digits, rest) := readDigits rest
      let magnitude : Int := Digits.value digits
      if digits = [] then none
      else some (some (if negative then -magnitude else magnitude), rest)
    else
      some (none, text)

/-- A number after its sign, and what follows it. -/
def readNumber (negative : Bool) (text : List Char) : Option (Json × List Char) := do
  let (whole, rest) := readDigits text
  if whole = [] ∨ (whole.head? = some '0' ∧ 1 < whole.length) then none
  else
    match rest with
    | '.' :: rest =>
      let (fraction, rest) := readDigits rest
      if fraction = [] then none
      else
        let (exponent, rest) ← readExponent rest
        let value ← ofDecimal? negative (Decimal.ofWritten whole fraction (exponent.getD 0))
        return (value, rest)
    | rest =>
      let (exponent, rest) ← readExponent rest
      let value ←
        match exponent with
        | some exponent => ofDecimal? negative (Decimal.ofWritten whole [] exponent)
        | none => ofWhole? negative whole
      return (value, rest)

mutual

/-- A value, blanks before it skipped, and what follows it. -/
def readValue : Nat → List Char → Option (Json × List Char)
  | 0, _ => none
  | fuel + 1, text =>
    match skipBlanks text with
    | 'n' :: 'u' :: 'l' :: 'l' :: rest => some (null, rest)
    | 't' :: 'r' :: 'u' :: 'e' :: rest => some (bool true, rest)
    | 'f' :: 'a' :: 'l' :: 's' :: 'e' :: rest => some (bool false, rest)
    | '"' :: rest => do
      let (text, rest) ← readString rest
      return (string (String.ofList text), rest)
    | '[' :: rest =>
      match skipBlanks rest with
      | ']' :: rest => some (array [], rest)
      | rest => do
        let (item, rest) ← readValue fuel rest
        let (items, rest) ← readItems fuel rest
        return (array (item :: items), rest)
    | '\x7b' :: rest =>
      match skipBlanks rest with
      | '\x7d' :: rest => some (object [], rest)
      | rest => do
        let (field, rest) ← readField fuel rest
        let (fields, rest) ← readFields fuel rest
        return (object (field :: fields), rest)
    | '-' :: rest => readNumber true rest
    | rest => readNumber false rest

/-- The items after the first, up to the end of the array. -/
def readItems : Nat → List Char → Option (List Json × List Char)
  | 0, _ => none
  | fuel + 1, text =>
    match skipBlanks text with
    | ']' :: rest => some ([], rest)
    | ',' :: rest => do
      let (item, rest) ← readValue fuel rest
      let (items, rest) ← readItems fuel rest
      return (item :: items, rest)
    | _ => none

/-- One field, blanks before it skipped, and what follows it. -/
def readField : Nat → List Char → Option ((String × Json) × List Char)
  | 0, _ => none
  | fuel + 1, text =>
    match skipBlanks text with
    | '"' :: rest => do
      let (name, rest) ← readString rest
      match skipBlanks rest with
      | ':' :: rest =>
        let (value, rest) ← readValue fuel rest
        return ((String.ofList name, value), rest)
      | _ => none
    | _ => none

/-- The fields after the first, up to the end of the object. -/
def readFields : Nat → List Char → Option (List (String × Json) × List Char)
  | 0, _ => none
  | fuel + 1, text =>
    match skipBlanks text with
    | '\x7d' :: rest => some ([], rest)
    | ',' :: rest => do
      let (field, rest) ← readField fuel rest
      let (fields, rest) ← readFields fuel rest
      return (field :: fields, rest)
    | _ => none

end

/-- The value of a text, blanks around it allowed. -/
def parse (text : String) : Option Json :=
  match readValue (2 * text.length + 2) text.toList with
  | some (value, rest) => if skipBlanks rest = [] then some value else none
  | none => none

end Json
end Envelope

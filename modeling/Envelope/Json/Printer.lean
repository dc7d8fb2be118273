import Envelope.Json.Basic
import Envelope.Text.Hex

/-!
# Compact JSON text

The written form of a value: no blanks, fields in their order, and in strings
only quotation marks, backslashes and control characters below 32 escaped.
-/

namespace Envelope
namespace Json

/-- The written form of one character of a string. -/
def escape (c : Char) : List Char :=
  match c with
  | '"' => ['\\', '"']
  | '\\' => ['\\', '\\']
  | '\x08' => ['\\', 'b']
  | '\x0c' => ['\\', 'f']
  | '\n' => ['\\', 'n']
  | '\r' => ['\\', 'r']
  | '\t' => ['\\', 't']
  | c => if c.toNat < 32 then ['\\', 'u', '0', '0'] ++ Hex.ofByte (UInt8.ofNat c.toNat) else [c]

/-- The written form of a string. -/
def stringChars (text : String) : List Char :=
  '"' :: (text.toList.flatMap escape ++ ['"'])

mutual

/-- The characters of a value. -/
def chars : Json → List Char
  | null => ['n', 'u', 'l', 'l']
  | bool true => ['t', 'r', 'u', 'e']
  | bool false => ['f', 'a', 'l', 's', 'e']
  | integer n => (toString n).toList
  | real negative magnitude => (realText negative magnitude).toList
  | string s => stringChars s
  | array [] => ['[', ']']
  | array (item :: items) => '[' :: (chars item ++ itemsChars items)
  | object [] => ['\x7b', '\x7d']
  | object ((name, value) :: fields) =>
    '\x7b' :: (stringChars name ++ ':' :: (chars value ++ fieldsChars fields))

/-- The characters of the items after the first, up to the end of the array. -/
def itemsChars : List Json → List Char
  | [] => [']']
  | item :: items => ',' :: (chars item ++ itemsChars items)

/-- The characters of the fields after the first, up to the end of the object. -/
def fieldsChars : List (String × Json) → List Char
  | [] => ['\x7d']
  | (name, value) :: fields =>
    ',' :: (stringChars name ++ ':' :: (chars value ++ fieldsChars fields))

end

/-- The compact text of a value. -/
def render (value : Json) : String :=
  String.ofList value.chars

end Json
end Envelope

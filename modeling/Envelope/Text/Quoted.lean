import Envelope.Text.Printable

/-!
# Quoted text

The form in which messages show a text whose boundaries matter: in quotation
marks, with every character escaped that would not be visible as itself.
-/

namespace Envelope
namespace Text

/-- The lower-case hexadecimal digits of a number. -/
def hexDigits (n : Nat) : String :=
  String.ofList (Nat.toDigits 16 n)

/-- How a quoted text shows one character. -/
def showChar (c : Char) : String :=
  match c with
  | '\x00' => "\\0"
  | '\t' => "\\t"
  | '\n' => "\\n"
  | '\r' => "\\r"
  | '"' => "\\\""
  | '\\' => "\\\\"
  | c => if isPrintable c then c.toString else "\\u\x7b" ++ hexDigits c.toNat ++ "\x7d"

/-- A text in quotation marks. -/
def quoted (text : String) : String :=
  "\"" ++ String.join (text.toList.map showChar) ++ "\""

end Text
end Envelope

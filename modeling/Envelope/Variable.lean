import Envelope.Dict
import Envelope.Text.Digits

/-!
# Variables of the environment

The name of a variable is a path, in which upper and lower case are the same:
the name of a setting, and below it parts `.name` and items `[index]`.  A
variable that is named as a setting gives its text; one that is named as a
place below a setting makes it a map or a sequence.
-/

namespace Envelope
namespace Variable

/-! ### Paths -/

/-- A step down from a value. -/
inductive Step where
  | part (name : String)
  | item (index : Int)
deriving DecidableEq, Repr

/-- A setting and the way to a place below it. -/
structure Path where
  setting : String
  steps : List Step
deriving DecidableEq, Repr

/-- Whether a character may stand in the name of a setting or of a part. -/
def isNameChar (c : Char) : Bool :=
  c.isAlphanum || c == '_' || c == '-' || c == ' '

/-- The name at the beginning, and what follows it. -/
def readName (text : List Char) : Option (String × List Char) :=
  let name := text.takeWhile isNameChar
  if name = [] then none else some (String.ofList name, text.dropWhile isNameChar)

/-- Drops the spaces and tabulators at the beginning. -/
def skipSpaces (text : List Char) : List Char :=
  text.dropWhile fun c => c = ' ' ∨ c = '\t'

/-- The index at the beginning, with spaces around it and up to the closing
bracket, and what follows it.  It is a number of 64 bits with a sign. -/
def readIndex (text : List Char) : Option (Int × List Char) :=
  let (negative, text) :=
    match skipSpaces text with
    | '-' :: rest => (true, rest)
    | rest => (false, rest)
  let digits := text.takeWhile Char.isDigit
  let n : Int := Digits.value digits
  let index := if negative then -n else n
  if digits = [] ∨ index < Int64.minValue.toInt ∨ Int64.maxValue.toInt < index then none
  else
    match skipSpaces (text.dropWhile Char.isDigit) with
    | ']' :: rest => some (index, rest)
    | _ => none

/-- The steps that a whole text writes, at most as many as the fuel. -/
def readSteps : Nat → List Char → Option (List Step)
  | _, [] => some []
  | 0, _ => none
  | fuel + 1, '.' :: rest => do
    let (name, rest) ← readName rest
    let steps ← readSteps fuel rest
    return .part name :: steps
  | fuel + 1, '[' :: rest => do
    let (index, rest) ← readIndex rest
    let steps ← readSteps fuel rest
    return .item index :: steps
  | _, _ => none

/-- The path that a name writes, if it writes one.  Every step takes at least
one character. -/
def Path.ofName? (name : String) : Option Path := do
  let (setting, rest) ← readName name.toList
  let steps ← readSteps rest.length rest
  return ⟨setting, steps⟩

/-! ### What the environment holds -/

/-- The form of a value with places below it. -/
inductive Shape where
  | map
  | sequence
deriving DecidableEq, Repr

/-- What the environment holds for a setting. -/
inductive Entry where
  | text (value : String)
  | nested (shape : Shape)
deriving DecidableEq, Repr

/-- The setting that a variable is about and what it makes of it.  A name that
is no path is that of a setting. -/
def entry (name value : String) : String × Entry :=
  match Path.ofName? name with
  | none => (name, .text value)
  | some ⟨setting, []⟩ => (setting, .text value)
  | some ⟨setting, .part _ :: _⟩ => (setting, .nested .map)
  | some ⟨setting, .item _ :: _⟩ => (setting, .nested .sequence)

/-- The lower case of a character of a name.  The Kelvin sign is the only
character beyond ASCII with a lower case in ASCII. -/
def lowerChar (c : Char) : Char :=
  if c = '\u212a' then 'k' else c.toLower

/-- The variables by their names in lower case. -/
def lowerNames (environment : Properties) : Properties :=
  Dict.ofList (environment.entries.map fun (name, value) =>
    (String.ofList (name.toList.map lowerChar), value))

/-- What the environment holds, by setting.  The last variable about a setting
counts. -/
def entries (environment : Properties) : Dict Entry :=
  Dict.ofList ((lowerNames environment).entries.map fun (name, value) => entry name value)

end Variable
end Envelope

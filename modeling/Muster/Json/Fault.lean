import Muster.Decimal.Shortest
import Muster.Text.Quoted
import Muster.Text.Utf8

/-!
# What can be wrong with a JSON text

A fault is either one of the text itself, found while its characters are
read, or one of the value, found when a value does not fit the place it stands
in.  The wording of every fault is fixed by `Fault.message`.
-/

namespace Muster.Json

open Muster.Decimal Muster.Text

/-- The kind of value met where another one was expected.  Scalars are
reported with their value. -/
inductive Found
  | null
  | flag (value : Bool)
  | integer (value : Int)
  | float (value : Binary64)
  | text (value : String)
  | sequence
  | map
  deriving DecidableEq, Repr

namespace Found

def message : Found → String
  | null => "null"
  | flag value => "boolean `" ++ (if value then "true" else "false") ++ "`"
  | integer value => "integer `" ++ toString value ++ "`"
  | float value => "floating point `" ++ value.text ++ "`"
  | text value => "string " ++ quoted value
  | sequence => "sequence"
  | map => "map"

end Found

/-- What is wrong with a JSON text or with the value it holds. -/
inductive Fault
  /-- the text ends where a value or the rest of a word is due -/
  | endInValue
  /-- the text ends inside an object -/
  | endInObject
  /-- the text ends inside a list -/
  | endInList
  /-- the text ends inside a string -/
  | endInText
  /-- no value starts here -/
  | noValue
  /-- a word started like `true`, `false` or `null` goes on differently -/
  | badWord
  | noColon
  /-- neither a comma nor the end of the object -/
  | noObjectSeparator
  /-- neither a comma nor the end of the list -/
  | noListSeparator
  /-- a key that is no string -/
  | badKey
  /-- a comma before a closing bracket -/
  | trailingComma
  /-- something after the end of the value -/
  | trailingText
  | badNumber
  /-- a number beyond every float -/
  | hugeNumber
  | badEscape
  /-- a leading surrogate that no escape follows -/
  | endInSurrogate
  /-- a surrogate without its partner -/
  | loneSurrogate
  /-- a control character inside a string -/
  | controlCharacter
  /-- a string that is no UTF-8 -/
  | badUtf8
  /-- containers nested too deep -/
  | tooDeep
  | missingField (name : String)
  | duplicateField (name : String)
  | wrongType (found : Found) (expected : String)
  | wrongValue (found : Found) (expected : String)
  | unknownVariant (name : String) (known : List String)
  | wrongLength (length : Nat) (expected : String)
  deriving DecidableEq, Repr

def ticked (name : String) : String := "`" ++ name ++ "`"

namespace Fault

def message : Fault → String
  | endInValue => "EOF while parsing a value"
  | endInObject => "EOF while parsing an object"
  | endInList => "EOF while parsing a list"
  | endInText => "EOF while parsing a string"
  | noValue => "expected value"
  | badWord => "expected ident"
  | noColon => "expected `:`"
  | noObjectSeparator => "expected `,` or `\x7d`"
  | noListSeparator => "expected `,` or `]`"
  | badKey => "key must be a string"
  | trailingComma => "trailing comma"
  | trailingText => "trailing characters"
  | badNumber => "invalid number"
  | hugeNumber => "number out of range"
  | badEscape => "invalid escape"
  | endInSurrogate => "unexpected end of hex escape"
  | loneSurrogate => "lone leading surrogate in hex escape"
  | controlCharacter => "control character (\\u0000-\\u001F) found while parsing a string"
  | badUtf8 => "invalid unicode code point"
  | tooDeep => "recursion limit exceeded"
  | missingField name => "missing field " ++ ticked name
  | duplicateField name => "duplicate field " ++ ticked name
  | wrongType found expected => "invalid type: " ++ found.message ++ ", expected " ++ expected
  | wrongValue found expected => "invalid value: " ++ found.message ++ ", expected " ++ expected
  | unknownVariant name known =>
    "unknown variant " ++ ticked name ++ ", expected one of " ++ joined ", " (known.map ticked)
  | wrongLength length expected =>
    "invalid length " ++ decimal length ++ ", expected " ++ expected

end Fault

end Muster.Json

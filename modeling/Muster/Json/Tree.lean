import Muster.Json.Fault

/-!
# JSON values

A value is a tree.  Objects keep their members in the order they were written,
repeated keys included, because readers report the first faulty member.  The
compact writing of a tree has no blanks; strings escape the quote, the
backslash and the control characters and leave every other character as it is.
-/

namespace Muster.Json

open Muster.Decimal Muster.Text

/-- A number as the reader tells them apart: integers that fit 64 bits, with
or without a sign, and everything else. -/
inductive Number
  | natural (value : UInt64)
  | negative (value : Int)
  | float (value : Binary64)
  deriving DecidableEq, Repr

/-- A JSON value. -/
inductive Tree
  | null
  | flag (value : Bool)
  | number (value : Number)
  | text (value : String)
  | list (items : List Tree)
  | object (members : List (String × Tree))

def Number.found : Number → Found
  | natural value => .integer value.toNat
  | negative value => .integer value
  | float value => .float value

namespace Tree

def found : Tree → Found
  | null => .null
  | flag value => .flag value
  | number value => value.found
  | text value => .text value
  | list _ => .sequence
  | object _ => .map

end Tree

def spelled (s : String) : List UInt8 := utf8 s

/-- One character of a string as it is written. -/
def writtenChar (c : Char) : List UInt8 :=
  match c with
  | '"' => spelled "\\\""
  | '\\' => spelled "\\\\"
  | '\x08' => spelled "\\b"
  | '\t' => spelled "\\t"
  | '\n' => spelled "\\n"
  | '\x0c' => spelled "\\f"
  | '\r' => spelled "\\r"
  | c =>
    if c.toNat < 0x10 then spelled (String.ofList ("\\u000".toList ++ Nat.toDigits 16 c.toNat))
    else if c.toNat < 0x20 then spelled (String.ofList ("\\u00".toList ++ Nat.toDigits 16 c.toNat))
    else String.utf8EncodeChar c

def writtenText (s : String) : List UInt8 :=
  spelled "\"" ++ (s.toList.flatMap writtenChar ++ spelled "\"")

def Number.written : Number → List UInt8
  | natural value => spelled (decimal value.toNat)
  | negative value => spelled (toString value)
  | float value => spelled value.text

mutual

def Tree.written : Tree → List UInt8
  | .null => spelled "null"
  | .flag true => spelled "true"
  | .flag false => spelled "false"
  | .number value => value.written
  | .text value => writtenText value
  | .list items => spelled "[" ++ (writtenItems items ++ spelled "]")
  | .object members => spelled "\x7b" ++ (writtenMembers members ++ spelled "\x7d")

def writtenItems : List Tree → List UInt8
  | [] => []
  | [item] => item.written
  | item :: items => item.written ++ (spelled "," ++ writtenItems items)

def writtenMembers : List (String × Tree) → List UInt8
  | [] => []
  | [(key, value)] => writtenText key ++ (spelled ":" ++ value.written)
  | (key, value) :: members =>
    writtenText key ++ (spelled ":" ++ (value.written ++ (spelled "," ++ writtenMembers members)))

end

end Muster.Json

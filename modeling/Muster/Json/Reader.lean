import Muster.Json.Fault

/-!
# Reading one byte at a time

A reader takes the bytes still unread and either stops with a fault or yields
a value and the bytes after it.  This file holds the steps shared by every
reader of JSON: blanks, punctuation, the words `true`, `false` and `null`, and
the rules for what may stand between two items of a list or two members of an
object.  Repetition is bounded by the number of unread bytes, since each
repeated step reads at least one.
-/

namespace Muster.Json

def letter (byte : UInt8) : Char :=
  Char.ofUInt8 byte

abbrev Reader (α : Type) := StateT (List UInt8) (Except Fault) α

namespace Reader

def peek : Reader (Option Char) := do
  return (← get).head?.map letter

def skip : Reader Unit :=
  modify List.tail

def next (atEnd : Fault) : Reader UInt8 := do
  match ← get with
  | [] => throw atEnd
  | byte :: rest =>
    set rest
    return byte

def isBlank (byte : UInt8) : Bool :=
  letter byte = ' ' ∨ letter byte = '\t' ∨ letter byte = '\n' ∨ letter byte = '\r'

def blanks : Reader Unit :=
  modify (List.dropWhile isBlank)

/-- The first byte that is no blank, left unread. -/
def peekSolid : Reader (Option Char) := do
  blanks
  peek

/-- The rest of a word whose first letter told which one it is. -/
def word : List Char → Reader Unit
  | [] => pure ()
  | expected :: letters => do
    let byte ← next .endInValue
    if letter byte = expected then word letters else throw .badWord

/-- Repeats a step that says whether there is more, at most once for each byte of
`fuel`.  `atEnd` is thrown when the steps outlast the fuel, which a step that reads
at least one byte per turn never does. -/
def repeatUpTo {α : Type} (step : α → Reader (Option α)) (atEnd : Fault) :
    List UInt8 → α → Reader α
  | [], _ => throw atEnd
  | _ :: fuel, state => do
    match ← step state with
    | none => return state
    | some state => repeatUpTo step atEnd fuel state

/-- Repeats a step that reads at least one byte per turn.  The unread bytes are the fuel,
with one more for the last turn. -/
def iterate {α : Type} (step : α → Reader (Option α)) (atEnd : Fault) (state : α) : Reader α := do
  repeatUpTo step atEnd (0 :: (← get)) state

/-- Whether another list item follows.  The closing bracket is left unread. -/
def moreItems (isFirst : Bool) : Reader Bool := do
  match ← peekSolid with
  | none => throw .endInList
  | some ']' => return false
  | some c =>
    if isFirst then return true
    else if c = ',' then
      skip
      match ← peekSolid with
      | none => throw .endInValue
      | some ']' => throw .trailingComma
      | some _ => return true
    else throw .noListSeparator

/-- Whether another object member follows.  Its opening quote or the closing
bracket is left unread. -/
def moreMembers (isFirst : Bool) : Reader Bool := do
  match ← peekSolid with
  | none => throw .endInObject
  | some '\x7d' => return false
  | some c =>
    if isFirst then
      if c = '"' then return true else throw .badKey
    else if c = ',' then
      skip
      match ← peekSolid with
      | none => throw .endInValue
      | some '"' => return true
      | some '\x7d' => throw .trailingComma
      | some _ => throw .badKey
    else throw .noObjectSeparator

/-- The end of a list whose items have all been read. -/
def closeList : Reader Unit := do
  match ← peekSolid with
  | none => throw .endInList
  | some ']' => skip
  | some ',' =>
    skip
    match ← peekSolid with
    | some ']' => throw .trailingComma
    | _ => throw .trailingText
  | some _ => throw .trailingText

/-- The end of an object whose members have all been read. -/
def closeObject : Reader Unit := do
  match ← peekSolid with
  | none => throw .endInObject
  | some '\x7d' => skip
  | some ',' => throw .trailingComma
  | some _ => throw .trailingText

def colon : Reader Unit := do
  match ← peekSolid with
  | none => throw .endInObject
  | some ':' => skip
  | some _ => throw .noColon

/-- The items of a list up to its closing bracket, which is left unread. -/
def items {α : Type} (item : Reader α) (isFirst : Bool) : Reader (List α) := do
  let (_, found) ← iterate (fun (isFirst, found) => do
    if ← moreItems isFirst then
      let value ← item
      return some (false, value :: found)
    else return none) .endInList (isFirst, [])
  return found.reverse

/-- Runs a reader on a whole text.  Only blanks may follow the value. -/
def run {α : Type} (reader : Reader α) (bytes : List UInt8) : Except Fault α := do
  let (value, rest) ← StateT.run reader bytes
  if rest.all isBlank then return value else throw .trailingText

end Reader

end Muster.Json

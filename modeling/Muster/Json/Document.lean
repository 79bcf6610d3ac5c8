import Muster.Json.Numeral
import Muster.Json.String

/-!
# Reading and passing over values

`Reader.tree` reads any value into a tree, with a bound on how deep containers
nest.  `Reader.skipValue` passes over a value without keeping it.  It knows no
nesting bound: the brackets still open are kept in a list.
-/

namespace Muster.Json

namespace Reader

/-- What stands at the front: a scalar, which has been read, or a container,
whose opening bracket is left unread. -/
inductive Head
  | scalar (value : Tree)
  | sequence
  | map

def Head.found : Head → Found
  | scalar value => value.found
  | sequence => .sequence
  | map => .map

def head : Reader Head := do
  match ← peekSolid with
  | none => throw .endInValue
  | some 'n' => do skip; word ['u', 'l', 'l']; return .scalar .null
  | some 't' => do skip; word ['r', 'u', 'e']; return .scalar (.flag true)
  | some 'f' => do skip; word ['a', 'l', 's', 'e']; return .scalar (.flag false)
  | some '"' => return .scalar (.text (← text))
  | some '[' => return .sequence
  | some '\x7b' => return .map
  | some c =>
    if c = '-' ∨ c.isDigit then return .scalar (.number (← number)) else throw .noValue

/-- The members of an object up to its closing bracket, which is left unread. -/
def members {α : Type} (value : Reader α) : Reader (List (String × α)) := do
  let (_, found) ← iterate (fun (isFirst, found) => do
    if ← moreMembers isFirst then
      let key ← text
      colon
      return some (false, (key, ← value) :: found)
    else return none) .endInObject (true, [])
  return found.reverse

/-- Reads a value.  `inner` reads the values inside a container and is missing
where no container may be opened. -/
def treeWith (inner : Option (Reader Tree)) : Reader Tree := do
  match ← head, inner with
  | .scalar value, _ => return value
  | _, none => throw .tooDeep
  | .sequence, some inner => do
    skip
    let found ← items inner true
    closeList
    return .list found
  | .map, some inner => do
    skip
    let found ← members inner
    closeObject
    return .object found

/-- Reads a value in which at most `levels` containers nest. -/
def tree : Nat → Reader Tree
  | 0 => treeWith none
  | levels + 1 => treeWith (some (tree levels))

/-- The containers that may nest in one text. -/
def nestingLimit : Nat := 127

/-- An opening bracket. -/
inductive Bracket
  | list
  | object
  deriving DecidableEq

def skipKey : Reader Unit := do
  match ← peekSolid with
  | none => throw .endInObject
  | some '"' => skipText
  | some _ => throw .badKey
  colon

/-- Where a value has just ended inside the given open brackets, the innermost
first: closes every bracket that ends here and passes over the comma before the
next value.  `none` once all brackets are closed. -/
def skipSeparator (afterValue : Bool) (brackets : List Bracket) : Reader (Option (List Bracket)) :=
  match brackets with
  | [] => return none
  | bracket :: outer => do
    match ← peekSolid, bracket with
    | none, .list => throw .endInList
    | none, .object => throw .endInObject
    | some ']', .list => skip; skipSeparator true outer
    | some '\x7d', .object => skip; skipSeparator true outer
    | some c, _ =>
      if afterValue then
        if c ≠ ',' then
          throw (match bracket with | .list => .noListSeparator | .object => .noObjectSeparator)
        skip
      if bracket = .object then skipKey
      return some brackets

/-- One value, or the opening of one, inside the given open brackets. -/
def skipStep (brackets : List Bracket) : Reader (Option (List Bracket)) := do
  match ← peekSolid with
  | none => throw .endInValue
  | some 'n' => do skip; word ['u', 'l', 'l']; skipSeparator true brackets
  | some 't' => do skip; word ['r', 'u', 'e']; skipSeparator true brackets
  | some 'f' => do skip; word ['a', 'l', 's', 'e']; skipSeparator true brackets
  | some '"' => do skipText; skipSeparator true brackets
  | some '[' => do skip; skipSeparator false (.list :: brackets)
  | some '\x7b' => do skip; skipSeparator false (.object :: brackets)
  | some c =>
    if c = '-' ∨ c.isDigit then
      skipNumber
      skipSeparator true brackets
    else throw .noValue

def skipValue : Reader Unit := do
  let _ ← iterate skipStep .endInValue []

end Reader

end Muster.Json

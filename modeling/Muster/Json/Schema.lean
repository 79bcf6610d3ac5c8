import Muster.Json.Document

/-!
# Schemas

A schema says how values of a type are laid out in JSON.  One description per
record serves four purposes: writing a value, reading it from a tree, reading
it straight from bytes, and knowing its fields.

A record is written as an object with its fields in declaration order.  It is
read from an object with the fields in any order, unknown ones passed over, or
from a list of the fields in declaration order.  Faults come in the order of the text: the
first key that repeats or whose value does not fit decides, and a missing field
is noticed at the end of the object.
-/

namespace Muster.Json

open Muster.Text

/-- The types of single values. -/
inductive Scalar : Type → Type 1
  | u8 : Scalar UInt8
  | u16 : Scalar UInt16
  | u64 : Scalar UInt64
  | flag : Scalar Bool
  | text : Scalar String
  /-- a text that names a file -/
  | path : Scalar String

namespace Scalar

def expected : {α : Type} → Scalar α → String
  | _, u8 => "u8"
  | _, u16 => "u16"
  | _, u64 => "u64"
  | _, flag => "a boolean"
  | _, text => "a string"
  | _, path => "path string"

def toTree : {α : Type} → Scalar α → α → Tree
  | _, u8, value => .number (.natural value.toUInt64)
  | _, u16, value => .number (.natural value.toUInt64)
  | _, u64, value => .number (.natural value)
  | _, flag, value => .flag value
  | _, text, value => .text value
  | _, path, value => .text value

/-- An unsigned integer below `bound`.  Other integers are out of range;
everything else has the wrong type. -/
def unsigned (bound : Nat) (expected : String) : Tree → Except Fault UInt64
  | .number (.natural value) =>
    if value.toNat < bound then .ok value else .error (.wrongValue (.integer value.toNat) expected)
  | .number (.negative value) => .error (.wrongValue (.integer value) expected)
  | value => .error (.wrongType value.found expected)

def ofTree : {α : Type} → Scalar α → Tree → Except Fault α
  | _, u8, value => (unsigned (Nat.pow 2 8) u8.expected value).map UInt64.toUInt8
  | _, u16, value => (unsigned (Nat.pow 2 16) u16.expected value).map UInt64.toUInt16
  | _, u64, value => unsigned (Nat.pow 2 64) u64.expected value
  | _, flag, .flag value => .ok value
  | _, text, .text value => .ok value
  | _, path, .text value => .ok value
  | _, scalar, value => .error (.wrongType value.found scalar.expected)

end Scalar

/-- When a field may be left out. -/
structure Presence (α : Type) where
  /-- the value of an absent field; without one the field is required -/
  default? : Option α
  /-- the values that are written by leaving the field out -/
  hidden : α → Bool

namespace Presence

def required {α : Type} : Presence α := ⟨none, fun _ => false⟩

/-- Always written; when absent it has the given value. -/
def defaulted {α : Type} (value : α) : Presence α := ⟨some value, fun _ => false⟩

def optional {α : Type} : Presence (Option α) := ⟨some none, Option.isNone⟩

def ifSet : Presence Bool := ⟨some false, (! ·)⟩

end Presence

mutual

/-- The layout of a type in JSON. -/
inductive Schema : Type → Type 1
  | scalar {α : Type} (type : Scalar α) : Schema α
  /-- one of the given names; the value is written as a name, and may be read
  from an object with the name as its only key and a null -/
  | symbol (names : List String) : Schema (Fin names.length)
  | list {α : Type} (item : Schema α) : Schema (List α)
  /-- a value or null -/
  | optional {α : Type} (value : Schema α) : Schema (Option α)
  /-- a record with the given title and fields, which hold its parts -/
  | record {parts α : Type} (title : String) (fields : Fields parts)
      (build : parts → α) (split : α → parts) : Schema α

/-- The fields of a record, in declaration order. -/
inductive Fields : Type → Type 1
  | nil : Fields Unit
  | cons {α rest : Type} (name : String) (presence : Presence α) (value : Schema α)
      (others : Fields rest) : Fields (α × rest)

end

namespace Fields

def count : {parts : Type} → Fields parts → Nat
  | _, nil => 0
  | _, cons _ _ _ others => others.count + 1

/-- The values of the fields that have been read so far. -/
def Slots : {parts : Type} → Fields parts → Type
  | _, nil => Unit
  | _, @cons α _ _ _ _ others => Option α × others.Slots

def noSlots : {parts : Type} → (fields : Fields parts) → fields.Slots
  | _, nil => ()
  | _, cons _ _ _ others => (none, others.noSlots)

/-- The parts of a record whose object has ended. -/
def finish : {parts : Type} → (fields : Fields parts) → fields.Slots → Except Fault parts
  | _, nil, _ => .ok ()
  | _, cons name presence _ others, slots =>
    match Option.or slots.1 presence.default? with
    | none => .error (.missingField name)
    | some value => (others.finish slots.2).map fun parts => (value, parts)

/-- What a list of the fields should look like. -/
def expectedLength {parts : Type} (fields : Fields parts) (title : String) : String :=
  "struct " ++ title ++ " with " ++
    (if fields.count = 1 then "1 element" else decimal fields.count ++ " elements")

end Fields

/-- What remains after `count` items of a list that should have ended. -/
def expectedItems (count : Nat) : String :=
  if count = 1 then "1 element in sequence" else decimal count ++ " elements in sequence"

def symbolOf (names : List String) (name : String) : Except Fault (Fin names.length) :=
  match names.finIdxOf? name with
  | some index => .ok index
  | none => .error (.unknownVariant name names)

/-! ## Writing -/

mutual

def Schema.toTree : {α : Type} → Schema α → α → Tree
  | _, .scalar type, value => type.toTree value
  | _, .symbol names, index => .text (names.get index)
  | _, .list item, values => .list (values.map item.toTree)
  | _, .optional _, none => .null
  | _, .optional value, some x => value.toTree x
  | _, .record _ fields _ split, x => .object (fields.toMembers (split x))

def Fields.toMembers : {parts : Type} → Fields parts → parts → List (String × Tree)
  | _, .nil, _ => []
  | _, .cons name presence value others, (x, parts) =>
    if presence.hidden x then others.toMembers parts
    else (name, value.toTree x) :: others.toMembers parts

end

/-! ## Reading from a tree -/

mutual

def Schema.ofTree : {α : Type} → Schema α → Tree → Except Fault α
  | _, .scalar type, tree => type.ofTree tree
  | _, .symbol names, .text name => symbolOf names name
  | _, .symbol names, .object [(name, value)] => do
    let index ← symbolOf names name
    match value with
    | .null | .object [] => return index
    | value => throw (.wrongType value.found "unit")
  | _, .symbol _, .object _ => .error (.wrongValue .map "map with a single key")
  | _, .symbol _, tree => .error (.wrongType tree.found "string or map")
  | _, .list item, .list trees => trees.mapM item.ofTree
  | _, .list _, tree => .error (.wrongType tree.found "a sequence")
  | _, .optional _, .null => .ok none
  | _, .optional value, tree => (value.ofTree tree).map some
  | _, .record _ fields build _, .object members => do
    let slots ← members.foldlM (fun slots (member : String × Tree) =>
      fields.store member.1 member.2 slots) fields.noSlots
    return build (← fields.finish slots)
  | _, .record title fields build _, .list trees => do
    let (parts, rest) ← fields.ofTrees (fields.expectedLength title) 0 trees
    if rest.isEmpty then return build parts
    else throw (.wrongLength trees.length (expectedItems fields.count))
  | _, .record title _ _ _, tree => .error (.wrongType tree.found ("struct " ++ title))

/-- Puts the value of a key into its slot.  Unknown keys are passed over. -/
def Fields.store : {parts : Type} → (fields : Fields parts) → String → Tree → fields.Slots →
    Except Fault fields.Slots
  | _, .nil, _, _, _ => .ok ()
  | _, .cons name _ value others, key, tree, slots =>
    if key = name then
      match slots.1 with
      | some _ => .error (.duplicateField name)
      | none => (value.ofTree tree).map fun x => (some x, slots.2)
    else (others.store key tree slots.2).map fun rest => (slots.1, rest)

/-- The parts of a record from a list, starting at the given position, and the
items left over. -/
def Fields.ofTrees : {parts : Type} → Fields parts → String → Nat → List Tree →
    Except Fault (parts × List Tree)
  | _, .nil, _, _, trees => .ok ((), trees)
  | _, .cons _ _ value others, expected, position, tree :: trees => do
    let x ← value.ofTree tree
    let (parts, rest) ← others.ofTrees expected (position + 1) trees
    return ((x, parts), rest)
  | _, .cons _ presence _ others, expected, position, [] =>
    match presence.default? with
    | none => .error (.wrongLength position expected)
    | some x => do
      let (parts, rest) ← others.ofTrees expected (position + 1) []
      return ((x, parts), rest)

end

/-! ## Reading from bytes -/

section Scan

open Reader

/-- A name, or an object with the name as its only key and a null. -/
def scanSymbol (names : List String) : Reader (Fin names.length) := do
  match ← peekSolid with
  | none => throw .endInValue
  | some '"' => symbolOf names (← text)
  | some '\x7b' =>
    skip
    let index ← match ← head with
      | .scalar (.text name) => symbolOf names name
      | misplaced => throw (.wrongType misplaced.found "variant identifier")
    colon
    match ← head with
    | .scalar .null => pure ()
    | misplaced => throw (.wrongType misplaced.found "unit")
    match ← peekSolid with
    | none => throw .endInObject
    | some '\x7d' => skip
    | some _ => throw .noValue
    return index
  | some _ => throw .noValue

mutual

/-- Reads a value straight from bytes: what does not fit is reported before
anything behind it is looked at. -/
def Schema.scan : {α : Type} → Schema α → Reader α
  | _, .scalar type => do
    match ← head with
    | .scalar tree => type.ofTree tree
    | misplaced => throw (.wrongType misplaced.found type.expected)
  | _, .symbol names => scanSymbol names
  | _, .list item => do
    match ← head with
    | .sequence =>
      skip
      let found ← items item.scan true
      closeList
      return found
    | misplaced => throw (.wrongType misplaced.found "a sequence")
  | _, .optional value => do
    if (← peekSolid) = some 'n' then
      skip
      word ['u', 'l', 'l']
      return none
    else return some (← value.scan)
  | _, .record title fields build _ => do
    match ← head with
    | .sequence =>
      skip
      let parts ← fields.scanItems (fields.expectedLength title) 0
      closeList
      return build parts
    | .map =>
      skip
      let (_, slots) ← iterate (fun (isFirst, slots) => do
        if ← moreMembers isFirst then
          let key ← text
          return some (false, ← fields.scanMember key slots)
        else return none) .endInObject (true, fields.noSlots)
      closeObject
      return build (← fields.finish slots)
    | misplaced => throw (.wrongType misplaced.found ("struct " ++ title))

/-- Reads the colon and the value of a key into its slot.  The value of an
unknown key is passed over. -/
def Fields.scanMember : {parts : Type} → (fields : Fields parts) → String → fields.Slots →
    Reader fields.Slots
  | _, .nil, _, _ => do
    colon
    skipValue
    return ()
  | _, .cons name _ value others, key, slots =>
    if key = name then
      match slots.1 with
      | some _ => throw (.duplicateField name)
      | none => do
        colon
        let x ← value.scan
        return (some x, slots.2)
    else do
      let rest ← others.scanMember key slots.2
      return (slots.1, rest)

/-- Reads the parts of a record from the items of a list, starting at the given
position.  The closing bracket is left unread. -/
def Fields.scanItems : {parts : Type} → Fields parts → String → Nat → Reader parts
  | _, .nil, _, _ => return ()
  | _, .cons _ presence value others, expected, position => do
    let x ← if ← moreItems (position = 0) then value.scan
      else match presence.default? with
        | none => throw (.wrongLength position expected)
        | some x => pure x
    return (x, ← others.scanItems expected (position + 1))

end

end Scan

/-! ## Records and tagged types -/

/-- A record type with its fields. -/
structure Record (α : Type) : Type 1 where
  {parts : Type}
  title : String
  fields : Fields parts
  build : parts → α
  split : α → parts

namespace Record

def schema {α : Type} (record : Record α) : Schema α :=
  .record record.title record.fields record.build record.split

def toMembers {α : Type} (record : Record α) (x : α) : List (String × Tree) :=
  record.fields.toMembers (record.split x)

end Record

/-- One case of a tagged type: its tag and what else it holds. -/
inductive Case (α : Type) : Type 1
  /-- nothing but the tag -/
  | bare (tag : String) (value : α)
  /-- a record, whose fields stand beside the tag -/
  | holding {β : Type} (tag : String) (record : Record β) (wrap : β → α)

namespace Case

def tag {α : Type} : Case α → String
  | bare tag _ => tag
  | holding tag _ _ => tag

/-- The value of a case from the rest of its object or list. -/
def ofTree {α : Type} : Case α → Tree → Except Fault α
  | bare _ value, .list trees =>
    if trees.isEmpty then .ok value else .error (.wrongLength trees.length (expectedItems 0))
  | bare _ value, _ => .ok value
  | holding _ record wrap, tree => (record.schema.ofTree tree).map wrap

end Case

/-- A type with several cases, told apart by a member named `type`, or by the
first item of a list. -/
structure Tagged (α : Type) : Type 1 where
  title : String
  cases : List (Case α)

namespace Tagged

def tagName : String := "type"

def tags {α : Type} (tagged : Tagged α) : List String :=
  tagged.cases.map Case.tag

def case {α : Type} (tagged : Tagged α) (index : Fin tagged.tags.length) : Case α :=
  tagged.cases.get ⟨index, by simpa [tags] using index.isLt⟩

section Scan

open Reader

def scanTag {α : Type} (tagged : Tagged α) : Reader (Fin tagged.tags.length) := do
  match ← head with
  | .scalar (.text tag) => symbolOf tagged.tags tag
  | misplaced => throw (.wrongType misplaced.found "variant identifier")

def inner : Reader Tree := tree (nestingLimit - 1)

/-- Reads one member of the object of a tagged type: the tag is noted, every other member
is kept for later, the last one first. -/
def scanMember {α : Type} (tagged : Tagged α)
    (seen : Option (Fin tagged.tags.length) × List (String × Tree)) :
    Reader (Option (Fin tagged.tags.length) × List (String × Tree)) := do
  let key ← text
  if key = tagName then
    if seen.1.isSome then throw (.duplicateField tagName)
    colon
    return (some (← tagged.scanTag), seen.2)
  else
    colon
    return (seen.1, (key, ← inner) :: seen.2)

/-- Reads a tagged value.  All of its text is read before any field is looked at; only
the tag is judged where it stands. -/
def scan {α : Type} (tagged : Tagged α) : Reader α := do
  match ← head with
  | .scalar value =>
    throw (.wrongType value.found ("internally tagged enum " ++ tagged.title))
  | .sequence =>
    skip
    if ← moreItems true then
      let index ← tagged.scanTag
      let trees ← items inner false
      closeList
      (tagged.case index).ofTree (.list trees)
    else throw (.missingField tagName)
  | .map =>
    skip
    let (_, seen) ← iterate (fun (isFirst, seen) => do
      if ← moreMembers isFirst then return some (false, ← tagged.scanMember seen)
      else return none) .endInObject (true, (none, []))
    match seen with
    | (none, _) => throw (.missingField tagName)
    | (some index, members) =>
      closeObject
      (tagged.case index).ofTree (.object members.reverse)

end Scan

/-- The tree of a case: the tag and then the other members. -/
def toTree (tag : String) (members : List (String × Tree)) : Tree :=
  .object ((tagName, .text tag) :: members)

end Tagged

end Muster.Json

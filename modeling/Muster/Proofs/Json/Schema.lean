import Mathlib.Data.List.Forall2
import Mathlib.Data.List.Nodup
import Mathlib.Data.List.Perm.Basic
import Muster.Json.Schema
import Muster.Proofs.Json.Tree

/-!
# Values are read from the trees that show them

An object shows a record in any order of its members.  Members that belong to no field may
stand among them, and a field may be left out if its value is the one it gets when it is
absent.  A list shows a record by its fields in declaration order, and may end early.  What a
schema writes is one of these trees.

A schema is lawful if what it leaves out can be filled in again: a field that is
hidden has the value it gets when it is absent, no two fields share a name, nothing
but an absent value is written as null, and a record is rebuilt from its parts.  Then
every value is read back from every tree that shows it, in all of its fields.

The induction is on the schema.  For a record it goes along the fields: the member of a
field finds its slot by its name, and every other member leaves that slot alone.
-/

namespace Muster.Json

/-! ## Lawful schemas -/

def Schema.isOptional : {α : Type} → Schema α → Bool
  | _, .optional _ => true
  | _, _ => false

def Fields.names : {parts : Type} → Fields parts → List String
  | _, .nil => []
  | _, .cons name _ _ others => name :: others.names

/-- Whether a field that is left out gets its value back. -/
def Presence.Lawful {α : Type} (presence : Presence α) : Prop :=
  ∀ x, presence.hidden x = true → presence.default? = some x

mutual

def Schema.Lawful : {α : Type} → Schema α → Prop
  | _, .scalar _ => True
  | _, .symbol names => names.Nodup
  | _, .list item => item.Lawful
  | _, .optional value => value.isOptional = false ∧ value.Lawful
  | _, .record _ fields build split => fields.Lawful ∧ ∀ x, build (split x) = x

def Fields.Lawful : {parts : Type} → Fields parts → Prop
  | _, .nil => True
  | _, .cons name presence value others =>
    presence.Lawful ∧ value.Lawful ∧ name ∉ others.names ∧ others.Lawful

end

theorem Presence.Lawful.required {α : Type} : (Presence.required : Presence α).Lawful :=
  fun _ hhidden => by contradiction

theorem Presence.Lawful.defaulted {α : Type} (value : α) : (Presence.defaulted value).Lawful :=
  fun _ hhidden => by contradiction

theorem Presence.Lawful.optional {α : Type} : (Presence.optional : Presence (Option α)).Lawful := by
  rintro (_ | x) hhidden
  · rfl
  · contradiction

theorem Presence.Lawful.ifSet : Presence.ifSet.Lawful := by
  rintro (_ | _) hhidden
  · rfl
  · contradiction

/-! ## Trees that show a value -/

mutual

/-- Whether a tree shows a value. -/
def Schema.Shows : {α : Type} → Schema α → α → Tree → Prop
  | _, .scalar type, x, tree => tree = type.toTree x
  | _, .symbol names, index, tree => tree = .text (names.get index)
  | _, .list item, values, tree =>
    ∃ trees, tree = .list trees ∧ List.Forall₂ (fun x tree => item.Shows x tree) values trees
  | _, .optional _, none, tree => tree = .null
  | _, .optional value, some x, tree => value.Shows x tree
  | _, .record _ fields _ split, x, tree =>
    (∃ members known unknown, tree = .object members ∧ members.Perm (known ++ unknown) ∧
      fields.Shows (split x) known ∧ ∀ member ∈ unknown, member.1 ∉ fields.names) ∨
    ∃ trees, tree = .list trees ∧ fields.Lists (split x) trees

/-- Whether some members show the parts of a record, in declaration order. -/
def Fields.Shows : {parts : Type} → Fields parts → parts → List (String × Tree) → Prop
  | _, .nil, _, known => known = []
  | _, .cons name presence value others, (x, parts), known =>
    (presence.default? = some x ∧ others.Shows parts known) ∨
      ∃ tree later, known = (name, tree) :: later ∧ value.Shows x tree ∧
        others.Shows parts later

/-- Whether some trees show the parts of a record without their names. -/
def Fields.Lists : {parts : Type} → Fields parts → parts → List Tree → Prop
  | _, .nil, _, trees => trees = []
  | _, .cons _ presence value others, (x, parts), trees =>
    (trees = [] ∧ presence.default? = some x ∧ others.Lists parts []) ∨
      ∃ tree later, trees = tree :: later ∧ value.Shows x tree ∧ others.Lists parts later

end

theorem Fields.Shows.mem_names : {parts : Type} → {fields : Fields parts} → {x : parts} →
    {known : List (String × Tree)} → fields.Shows x known →
      ∀ member ∈ known, member.1 ∈ fields.names
  | _, .nil, _, _, hshows, member, hmember => by
    obtain rfl := hshows
    contradiction
  | _, .cons name presence value others, (x, parts), known, hshows, member, hmember => by
    rcases hshows with ⟨_, hothers⟩ | ⟨tree, later, rfl, _, hothers⟩
    · exact List.mem_cons_of_mem _ (hothers.mem_names member hmember)
    · rcases List.mem_cons.mp hmember with rfl | hlater
      · exact List.mem_cons_self
      · exact List.mem_cons_of_mem _ (hothers.mem_names member hlater)

/-- The members of an object may be reordered. -/
theorem Schema.Shows.perm {α : Type} {record : Record α} {x : α}
    {members others : List (String × Tree)} (hshows : record.schema.Shows x (.object members))
    (hperm : others.Perm members) : record.schema.Shows x (.object others) := by
  rcases hshows with ⟨_, known, unknown, ⟨⟩, hmembers, hknown, hunknown⟩ | ⟨trees, htree, _⟩
  · exact .inl ⟨others, known, unknown, rfl, hperm.trans hmembers, hknown, hunknown⟩
  · cases htree

theorem Schema.Shows.ne_null {α : Type} {schema : Schema α} {x : α} {tree : Tree}
    (hshows : schema.Shows x tree) (hrequired : schema.isOptional = false) : tree ≠ .null := by
  rintro rfl
  cases schema with
  | scalar type => cases type <;> cases hshows
  | symbol names => cases hshows
  | list item =>
      obtain ⟨trees, htree, _⟩ := hshows
      cases htree
  | optional => contradiction
  | record title fields build split =>
      rcases hshows with ⟨members, known, unknown, htree, _⟩ | ⟨trees, htree, _⟩ <;> cases htree

/-! ## The written tree is one of them -/

mutual

theorem Schema.shows_toTree : {α : Type} → (schema : Schema α) → schema.Lawful → (x : α) →
    schema.Shows x (schema.toTree x)
  | _, .scalar type, _, x => by
    rw [Schema.toTree, Schema.Shows]
  | _, .symbol names, _, index => by
    rw [Schema.toTree, Schema.Shows]
  | _, .list item, hlawful, values => by
    rw [Schema.toTree, Schema.Shows]
    refine ⟨_, rfl, ?_⟩
    rw [List.forall₂_map_right_iff, List.forall₂_same]
    exact fun x _ => item.shows_toTree hlawful x
  | _, .optional value, _, none => by
    rw [Schema.toTree, Schema.Shows]
  | _, .optional value, hlawful, some x => by
    rw [Schema.toTree, Schema.Shows]
    exact value.shows_toTree hlawful.2 x
  | _, .record title fields build split, hlawful, x => by
    rw [Schema.toTree, Schema.Shows]
    refine .inl ⟨_, _, [], rfl, ?_, fields.shows_toMembers hlawful.1 (split x), ?_⟩
    · rw [List.append_nil]
    · exact fun _ hmember => by contradiction

theorem Fields.shows_toMembers : {parts : Type} → (fields : Fields parts) → fields.Lawful →
    (x : parts) → fields.Shows x (fields.toMembers x)
  | _, .nil, _, _ => by
    rw [Fields.toMembers, Fields.Shows]
  | _, .cons name presence value others, hlawful, (x, parts) => by
    have hothers := others.shows_toMembers hlawful.2.2.2 parts
    rw [Fields.toMembers, Fields.Shows]
    split
    next hhidden => exact .inl ⟨hlawful.1 x hhidden, hothers⟩
    · exact .inr ⟨_, _, rfl, value.shows_toTree hlawful.2.1 x, hothers⟩

end

/-! ## Scalars and symbols -/

theorem Scalar.unsigned_natural {bound : Nat} {value : UInt64} (hbound : value.toNat < bound)
    (expected : String) : unsigned bound expected (.number (.natural value)) = .ok value := by
  rw [unsigned, if_pos hbound]

theorem Scalar.ofTree_toTree {α : Type} (type : Scalar α) (x : α) :
    type.ofTree (type.toTree x) = .ok x := by
  cases type with
  | u8 =>
      have hbound : x.toUInt64.toNat < Nat.pow 2 8 := by
        rw [UInt8.toNat_toUInt64]
        exact x.toNat_lt
      simp only [toTree, ofTree, unsigned_natural hbound]
      exact congrArg Except.ok (UInt8.toUInt8_toUInt64 x)
  | u16 =>
      have hbound : x.toUInt64.toNat < Nat.pow 2 16 := by
        rw [UInt16.toNat_toUInt64]
        exact x.toNat_lt
      simp only [toTree, ofTree, unsigned_natural hbound]
      exact congrArg Except.ok (UInt16.toUInt16_toUInt64 x)
  | u64 => exact unsigned_natural x.toNat_lt _
  | flag => rfl
  | text => rfl
  | path => rfl

theorem symbolOf_get {names : List String} (hnames : names.Nodup) (index : Fin names.length) :
    symbolOf names (names.get index) = .ok index := by
  have hfound : names.finIdxOf? (names.get index) = some index := by
    rw [List.finIdxOf?_eq_some_iff]
    refine ⟨rfl, ?_⟩
    intro other hbefore hsame
    have heq : other = index := List.nodup_iff_injective_get.mp hnames hsame
    exact absurd heq (Fin.ne_of_lt hbefore)
  rw [symbolOf, hfound]

theorem Schema.ofTree_optional {α : Type} (value : Schema α) {tree : Tree}
    (hsome : tree ≠ .null) :
    (Schema.optional value).ofTree tree = (value.ofTree tree).map some := by
  cases tree with
  | null => contradiction
  | _ => simp [ofTree]

/-! ## Records -/

namespace Fields

/-- The slots of a record with one more field. -/
def slot {α rest : Type} {name : String} {presence : Presence α} {value : Schema α}
    {others : Fields rest} (x? : Option α) (slots : others.Slots) :
    (Fields.cons name presence value others).Slots :=
  (x?, slots)

section Cons

variable {α rest : Type} {name : String} {presence : Presence α} {value : Schema α}
  {others : Fields rest}

theorem store_slot_self (tree : Tree) (slots : others.Slots) :
    (Fields.cons name presence value others).store name tree (slot none slots) =
      (value.ofTree tree).map fun x => slot (some x) slots := by
  rw [store, if_pos rfl]
  rfl

theorem store_slot_others {key : String} (hother : key ≠ name) (tree : Tree) (x? : Option α)
    (slots : others.Slots) :
    (Fields.cons name presence value others).store key tree (slot x? slots) =
      (others.store key tree slots).map (slot x?) := by
  rw [store, if_neg hother]
  rfl

/-- Members that belong to other fields leave the slot of a field alone. -/
theorem foldlM_store_others {members : List (String × Tree)}
    (hothers : ∀ member ∈ members, member.1 ≠ name) (x? : Option α) (slots : others.Slots) :
    members.foldlM (fun slots member =>
        (Fields.cons name presence value others).store member.1 member.2 slots)
      (slot x? slots) =
      (members.foldlM (fun slots member => others.store member.1 member.2 slots) slots).map
        (slot x?) := by
  induction members generalizing slots with
  | nil => rfl
  | cons member members ih =>
      rw [List.forall_mem_cons] at hothers
      rw [List.foldlM_cons, List.foldlM_cons, store_slot_others hothers.1]
      cases others.store member.1 member.2 slots with
      | error fault => rfl
      | ok slots => exact ih hothers.2 slots

end Cons

end Fields

/-! ## Reading back -/

theorem mapM_eq_ok {α β : Type} {f : β → Except Fault α} {values : List α} {trees : List β}
    (hvalues : List.Forall₂ (fun x tree => f tree = .ok x) values trees) :
    trees.mapM f = .ok values := by
  induction hvalues with
  | nil => rfl
  | cons hvalue _ ih =>
      rw [List.mapM_cons, hvalue, ih]
      rfl

mutual

theorem Schema.ofTree_shows : {α : Type} → (schema : Schema α) → schema.Lawful → {x : α} →
    {tree : Tree} → schema.Shows x tree → schema.ofTree tree = .ok x
  | _, .scalar type, _, x, tree, hshows => by
    obtain rfl := hshows
    rw [Schema.ofTree]
    exact type.ofTree_toTree x
  | _, .symbol names, hlawful, index, tree, hshows => by
    obtain rfl := hshows
    rw [Schema.ofTree]
    exact symbolOf_get hlawful index
  | _, .list item, hlawful, values, tree, hshows => by
    obtain ⟨trees, rfl, hitems⟩ := hshows
    rw [Schema.ofTree]
    exact mapM_eq_ok (hitems.imp fun _ _ hitem => item.ofTree_shows hlawful hitem)
  | _, .optional value, _, none, tree, hshows => by
    obtain rfl := hshows
    rw [Schema.ofTree]
  | _, .optional value, hlawful, some x, tree, hshows => by
    rw [Schema.Shows] at hshows
    rw [Schema.ofTree_optional value (hshows.ne_null hlawful.1),
      value.ofTree_shows hlawful.2 hshows]
    rfl
  | _, .record title fields build split, hlawful, x, tree, hshows => by
    rcases hshows with ⟨members, known, unknown, rfl, hperm, hknown, hunknown⟩ |
      ⟨trees, rfl, hlists⟩
    · obtain ⟨slots, hstored, hfinish⟩ := fields.foldlM_shows hlawful.1 hknown hunknown hperm
      rw [Schema.ofTree, hstored]
      change (fields.finish slots).map build = .ok x
      rw [hfinish]
      exact congrArg Except.ok (hlawful.2 x)
    · rw [Schema.ofTree, fields.ofTrees_lists hlawful.1 hlists]
      exact congrArg Except.ok (hlawful.2 x)

/-- The members of an object fill the slots with the parts of a record. -/
theorem Fields.foldlM_shows : {parts : Type} → (fields : Fields parts) → fields.Lawful →
    {x : parts} → {members known unknown : List (String × Tree)} → fields.Shows x known →
    (∀ member ∈ unknown, member.1 ∉ fields.names) → members.Perm (known ++ unknown) →
      ∃ slots, members.foldlM (fun slots member => fields.store member.1 member.2 slots)
        fields.noSlots = .ok slots ∧ fields.finish slots = .ok x
  | _, .nil, _, (), members, _, _, _, _, hperm => by
    refine ⟨(), ?_, rfl⟩
    clear hperm
    induction members with
    | nil => rfl
    | cons member members ih => exact ih
  | _, .cons name presence value others, hlawful, (x, parts), members, known, unknown, hshows,
      hunknown, hperm => by
    obtain ⟨_, hvalue, hname, hothers⟩ := hlawful
    have hunnamed : ∀ member ∈ unknown, member.1 ≠ name ∧ member.1 ∉ others.names :=
      fun member hmember => List.ne_and_not_mem_of_not_mem_cons (hunknown member hmember)
    have hrest : ∀ later : List (String × Tree), others.Shows parts later →
        ∀ member ∈ later ++ unknown, member.1 ≠ name := by
      rintro later hlater member hmember rfl
      rcases List.mem_append.mp hmember with hmember | hmember
      · exact hname (hlater.mem_names member hmember)
      · exact (hunnamed member hmember).1 rfl
    change ∃ slots, members.foldlM _ (Fields.slot none others.noSlots) = _ ∧ _
    rcases hshows with ⟨hdefault, hshows⟩ | ⟨tree, later, rfl, hshown, hshows⟩
    · obtain ⟨slots, hstored, hfinish⟩ := others.foldlM_shows hothers hshows
        (fun member hmember => (hunnamed member hmember).2) hperm
      refine ⟨Fields.slot none slots, ?_, ?_⟩
      · rw [Fields.foldlM_store_others
          (fun member hmember => hrest known hshows member (hperm.subset hmember)), hstored]
        rfl
      · simp only [Fields.slot, Fields.finish, Option.none_or, hdefault, hfinish]
        rfl
    · obtain ⟨before, behind, rfl⟩ :=
        List.append_of_mem (hperm.symm.subset (List.mem_cons_self (a := (name, tree))))
      have hwithout : (before ++ behind).Perm (later ++ unknown) :=
        (List.perm_cons _).mp (List.perm_middle.symm.trans hperm)
      obtain ⟨slots, hstored, hfinish⟩ := others.foldlM_shows hothers hshows
        (fun member hmember => (hunnamed member hmember).2) hwithout
      have hnames : ∀ member ∈ before ++ behind, member.1 ≠ name :=
        fun member hmember => hrest later hshows member (hwithout.subset hmember)
      refine ⟨Fields.slot (some x) slots, ?_, ?_⟩
      · rw [List.foldlM_append] at hstored ⊢
        rw [Fields.foldlM_store_others
          (fun member hmember => hnames member (List.mem_append_left _ hmember))]
        cases hbefore : before.foldlM
            (fun slots member => others.store member.1 member.2 slots) others.noSlots with
        | error fault =>
            rw [hbefore] at hstored
            contradiction
        | ok first =>
            rw [hbefore] at hstored
            change List.foldlM _ (Fields.slot none first) _ = _
            rw [List.foldlM_cons, Fields.store_slot_self, value.ofTree_shows hvalue hshown]
            change List.foldlM _ (Fields.slot (some x) first) _ = _
            rw [Fields.foldlM_store_others
              (fun member hmember => hnames member (List.mem_append_right _ hmember))]
            change List.foldlM _ first behind = _ at hstored
            rw [hstored]
            rfl
      · simp only [Fields.slot, Fields.finish, Option.some_or, hfinish]
        rfl

/-- The items of a list are the parts of a record, and none is left over. -/
theorem Fields.ofTrees_lists : {parts : Type} → (fields : Fields parts) → fields.Lawful →
    {x : parts} → {trees : List Tree} → fields.Lists x trees →
    {expected : String} → {position : Nat} →
      fields.ofTrees expected position trees = .ok (x, [])
  | _, .nil, _, (), trees, hlists, _, _ => by
    obtain rfl := hlists
    rw [Fields.ofTrees]
  | _, .cons name presence value others, hlawful, (x, parts), trees, hlists, expected,
      position => by
    rcases hlists with ⟨rfl, hdefault, hothers⟩ | ⟨tree, later, rfl, hshown, hothers⟩
    · rw [Fields.ofTrees, hdefault]
      simp only [others.ofTrees_lists hlawful.2.2.2 hothers]
      rfl
    · rw [Fields.ofTrees, value.ofTree_shows hlawful.2.1 hshown]
      change (others.ofTrees expected (position + 1) later >>= _) = _
      rw [others.ofTrees_lists hlawful.2.2.2 hothers]
      rfl

end

theorem Schema.ofTree_toTree {α : Type} {schema : Schema α} (hlawful : schema.Lawful) (x : α) :
    schema.ofTree (schema.toTree x) = .ok x :=
  schema.ofTree_shows hlawful (schema.shows_toTree hlawful x)

/-! ## How deep values nest -/

mutual

/-- How many containers nest in the values of a schema. -/
def Schema.depth : {α : Type} → Schema α → Nat
  | _, .scalar _ => 0
  | _, .symbol _ => 0
  | _, .list item => item.depth + 1
  | _, .optional value => value.depth
  | _, .record _ fields _ _ => fields.depth + 1

def Fields.depth : {parts : Type} → Fields parts → Nat
  | _, .nil => 0
  | _, .cons _ _ value others => max value.depth others.depth

end

mutual

theorem Schema.fits_toTree : {α : Type} → (schema : Schema α) → {levels : Nat} →
    schema.depth ≤ levels → (x : α) → (schema.toTree x).Fits levels
  | _, .scalar type, levels, _, x => by
    rw [Schema.toTree]
    cases type <;> cases levels <;> trivial
  | _, .symbol names, levels, _, index => by
    rw [Schema.toTree]
    cases levels <;> trivial
  | _, .list item, levels, hdepth, values => by
    obtain ⟨inner, rfl⟩ := Nat.exists_eq_add_of_le' (Nat.le_trans (Nat.le_add_left 1 _) hdepth)
    rw [Schema.toTree]
    intro tree htree
    obtain ⟨x, _, rfl⟩ := List.mem_map.mp htree
    exact item.fits_toTree (Nat.le_of_succ_le_succ hdepth) x
  | _, .optional value, levels, _, none => by
    rw [Schema.toTree]
    cases levels <;> trivial
  | _, .optional value, levels, hdepth, some x => by
    rw [Schema.toTree]
    exact value.fits_toTree hdepth x
  | _, .record title fields build split, levels, hdepth, x => by
    obtain ⟨inner, rfl⟩ := Nat.exists_eq_add_of_le' (Nat.le_trans (Nat.le_add_left 1 _) hdepth)
    rw [Schema.toTree]
    exact fields.fits_toMembers (Nat.le_of_succ_le_succ hdepth) (split x)

theorem Fields.fits_toMembers : {parts : Type} → (fields : Fields parts) → {levels : Nat} →
    fields.depth ≤ levels → (x : parts) → ∀ member ∈ fields.toMembers x, member.2.Fits levels
  | _, .nil, _, _, _, _, hmember => by contradiction
  | _, .cons name presence value others, levels, hdepth, (x, parts), member, hmember => by
    have hvalue : value.depth ≤ levels := Nat.le_trans (Nat.le_max_left _ _) hdepth
    have hothers : others.depth ≤ levels := Nat.le_trans (Nat.le_max_right _ _) hdepth
    rw [Fields.toMembers] at hmember
    split at hmember
    · exact others.fits_toMembers hothers parts member hmember
    · rcases List.mem_cons.mp hmember with rfl | hrest
      · exact value.fits_toTree hvalue x
      · exact others.fits_toMembers hothers parts member hrest

end

end Muster.Json

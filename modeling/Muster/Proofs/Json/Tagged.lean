import Muster.Proofs.Json.Schema

/-!
# Tagged values are read from the trees that show them

A tagged value is shown by an object with its tag and the members of its case, in any order,
or by a list that starts with the tag.  It is written as an object whose first member is the
tag.  The reader of an object notes the tag, keeps every other member as a tree, and turns to
the case of the tag once the object has ended.  Nothing is lost on the way if no other member
is named like the tag and the members nest one level less than a whole text may.
-/

namespace Muster.Json

/-- Whether what stands beside the tag shows a value of a case. -/
def Case.Shows {α : Type} : Case α → α → Tree → Prop
  | bare _ value, x, tree => x = value ∧ ∀ trees, tree = .list trees → trees = []
  | holding _ record wrap, x, tree => ∃ y, x = wrap y ∧ record.schema.Shows y tree

def Case.Lawful {α : Type} : Case α → Prop
  | bare _ _ => True
  | holding _ record _ => record.schema.Lawful

theorem Case.Shows.perm {α : Type} {case : Case α} {x : α} {members others : List (String × Tree)}
    (hshows : case.Shows x (.object members)) (hperm : others.Perm members) :
    case.Shows x (.object others) := by
  cases case with
  | bare tag value => exact ⟨hshows.1, fun _ htree => by contradiction⟩
  | holding tag record wrap =>
      obtain ⟨y, rfl, hshows⟩ := hshows
      exact ⟨y, rfl, hshows.perm hperm⟩

theorem Case.ofTree_shows {α : Type} {case : Case α} (hlawful : case.Lawful) {x : α} {tree : Tree}
    (hshows : case.Shows x tree) : case.ofTree tree = .ok x := by
  cases case with
  | bare tag value =>
      obtain ⟨rfl, hnothing⟩ := hshows
      cases tree with
      | list trees =>
          rw [hnothing trees rfl]
          rfl
      | _ => rfl
  | holding tag record wrap =>
      obtain ⟨y, rfl, hshows⟩ := hshows
      rw [ofTree, record.schema.ofTree_shows hlawful hshows]
      rfl

namespace Tagged

open Reader

variable {α β : Type} {tagged : Tagged α} {index : Fin tagged.tags.length}
  {rest : List UInt8}

structure Lawful (tagged : Tagged α) : Prop where
  tags : tagged.tags.Nodup
  cases : ∀ index, (tagged.case index).Lawful

/-- Whether a tree shows a tagged value. -/
def Shows (tagged : Tagged α) (x : α) (tree : Tree) : Prop :=
  ∃ index : Fin tagged.tags.length,
    (∃ members others : List (String × Tree), tree = .object members ∧
      members.Perm ((tagName, .text (tagged.case index).tag) :: others) ∧
      (∀ member ∈ others, member.1 ≠ tagName) ∧ (tagged.case index).Shows x (.object others)) ∨
    ∃ trees : List Tree, tree = .list (.text (tagged.case index).tag :: trees) ∧
      (tagged.case index).Shows x (.list trees)

/-- Whether a frame spells a tagged value. -/
def Spells (tagged : Tagged α) (x : α) (frame : List UInt8) : Prop :=
  ∃ part : Padded Tree, tagged.Shows x part.value ∧
    part.Proper (Tree.Spells nestingLimit) ∧ frame = part.bytes

theorem get_tags (tagged : Tagged α) (index : Fin tagged.tags.length) :
    tagged.tags.get index = (tagged.case index).tag := by
  exact List.getElem_map _

theorem symbolOf_tag (htags : tagged.tags.Nodup) (index : Fin tagged.tags.length) :
    symbolOf tagged.tags (tagged.case index).tag = .ok index := by
  rw [← get_tags]
  exact symbolOf_get htags index

/-! ## Members -/

/-- The members read so far, the last one first, and the tag if it is among them. -/
abbrev Seen (tagged : Tagged α) :=
  Option (Fin tagged.tags.length) × List (String × Tree)

/-- What is made of a member. -/
def note (tagged : Tagged α) (seen : tagged.Seen) (member : String × Tree) :
    Option tagged.Seen :=
  if member.1 = tagName then
    match seen.1, member.2 with
    | none, .text tag => (symbolOf tagged.tags tag).toOption.map fun index => (some index, seen.2)
    | _, _ => none
  else some (seen.1, member :: seen.2)

theorem foldlM_note {members : List (String × Tree)}
    (hkeys : ∀ member ∈ members, member.1 ≠ tagName) (seen : tagged.Seen) :
    members.foldlM tagged.note seen = some (seen.1, members.reverse ++ seen.2) := by
  induction members generalizing seen with
  | nil => rfl
  | cons member members ih =>
      rw [List.forall_mem_cons] at hkeys
      rw [List.foldlM_cons, note, if_neg hkeys.1]
      change List.foldlM _ _ _ = _
      rw [ih hkeys.2, List.reverse_cons, List.append_assoc]
      rfl

theorem note_tag (htags : tagged.tags.Nodup) (index : Fin tagged.tags.length)
    (found : List (String × Tree)) :
    tagged.note (none, found) (tagName, .text (tagged.case index).tag) =
      some (some index, found) := by
  rw [note, if_pos rfl]
  simp only [symbolOf_tag htags index]
  rfl

/-- The tag is found wherever it stands, and the other members are kept in their order. -/
theorem exists_foldlM_note (htags : tagged.tags.Nodup) {members others : List (String × Tree)}
    (hperm : members.Perm ((tagName, .text (tagged.case index).tag) :: others))
    (hkeys : ∀ member ∈ others, member.1 ≠ tagName) :
    ∃ kept : List (String × Tree), kept.Perm others ∧
      members.foldlM tagged.note (none, []) = some (some index, kept.reverse) := by
  obtain ⟨before, behind, rfl⟩ := List.append_of_mem (hperm.symm.subset List.mem_cons_self)
  have hkept : (before ++ behind).Perm others :=
    (List.perm_cons _).mp (List.perm_middle.symm.trans hperm)
  have hplain : ∀ member ∈ before ++ behind, member.1 ≠ tagName :=
    fun member hmember => hkeys member (hkept.subset hmember)
  refine ⟨before ++ behind, hkept, ?_⟩
  rw [List.foldlM_append,
    foldlM_note fun member hmember => hplain member (List.mem_append_left _ hmember)]
  change List.foldlM _ _ _ = _
  rw [List.foldlM_cons, List.append_nil, note_tag htags]
  change List.foldlM _ _ _ = _
  rw [foldlM_note fun member hmember => hplain member (List.mem_append_right _ hmember),
    List.reverse_append]

theorem reads_scanTag {tag : String} (htag : symbolOf tagged.tags tag = .ok index)
    {bytes : List UInt8} (hspells : SpellsText tag bytes) (rest : List UInt8) :
    Reads tagged.scanTag (bytes ++ rest) index rest :=
  .bind (reads_head_text hspells rest) (.lift htag rest)

theorem reads_scanMember {member : String × Tree} {bytes : List UInt8}
    (hspells : SpellsMember (Tree.Spells (nestingLimit - 1)) member bytes)
    {seen later : tagged.Seen} (hnote : tagged.note seen member = some later)
    (hends : EndsNumber rest) : Reads (tagged.scanMember seen) (bytes ++ rest) later rest := by
  obtain ⟨key, before, behind, value, hkey, hbefore, hbehind, hvalue, rfl⟩ := hspells
  simp only [List.append_assoc, List.cons_append]
  refine .bind (reads_text hkey _) ?_
  unfold note at hnote
  split at hnote
  next htagged =>
    rw [if_pos htagged]
    split at hnote
    next tag hseen htext =>
      obtain ⟨index, htag, rfl⟩ := Option.map_eq_some_iff.mp hnote
      have hindex : symbolOf tagged.tags tag = .ok index := by
        cases hsymbol : symbolOf tagged.tags tag with
        | error fault =>
            rw [hsymbol] at htag
            contradiction
        | ok found =>
            rw [hsymbol] at htag
            rw [Option.some.inj htag]
      rw [htext] at hvalue
      rw [hseen, if_neg (by simp)]
      refine .bind (passes_colon.reads hbefore (reads_colon _)) ?_
      have htagRead := reads_scanTag hindex (Tree.spells_text.mp hvalue) rest
      exact .bind ((passes_head.bind _).reads hbehind htagRead) (.pure _ rest)
    · contradiction
  next hother =>
    obtain rfl := Option.some.inj hnote
    rw [if_neg hother]
    refine .bind (passes_colon.reads hbefore (reads_colon _)) ?_
    exact .bind ((passes_tree _).reads hbehind (reads_tree _ _ _ hvalue rest hends))
      (.pure _ rest)

/-! ## Values -/

theorem reads_scan_object (hlawful : tagged.Lawful) {members others : List (String × Tree)}
    (hperm : members.Perm ((tagName, .text (tagged.case index).tag) :: others))
    (hkeys : ∀ member ∈ others, member.1 ≠ tagName) {x : α}
    (hshows : (tagged.case index).Shows x (.object others)) {bytes : List UInt8}
    (hspells : (Tree.object members).Spells nestingLimit bytes) (rest : List UInt8) :
    Reads tagged.scan (bytes ++ rest) x rest := by
  obtain ⟨inner, hinner, rfl⟩ :
    ∃ inner, SpellsAll (SpellsMember (Tree.Spells (nestingLimit - 1))) 0x7D members inner ∧
      bytes = 0x7B :: inner := hspells
  obtain ⟨kept, hkept, hnoted⟩ := exists_foldlM_note hlawful.tags hperm hkeys
  have hloops : Loops (memberTurn tagged.scanMember) tagged.note
      (SpellsMember (Tree.Spells (nestingLimit - 1))) 0x7D :=
    loops_members fun _ _ hspells _ _ hnote _ hends => reads_scanMember hspells hnote hends
  obtain ⟨isFirst, hturns⟩ := hloops.turns hinner hnoted rest
  have hvalue : (tagged.case index).ofTree (.object kept.reverse.reverse) = .ok x := by
    rw [List.reverse_reverse]
    exact Case.ofTree_shows (hlawful.cases index) (hshows.perm hkept)
  exact .bind (reads_head_object _) (.bind (reads_skip _ _)
    (.bind (hturns.iterate _) (.bind (reads_closeObject rest) (.lift hvalue rest))))

theorem reads_scan_list (hlawful : tagged.Lawful) {trees : List Tree} {x : α}
    (hshows : (tagged.case index).Shows x (.list trees)) {bytes : List UInt8}
    (hspells : (Tree.list (.text (tagged.case index).tag :: trees)).Spells nestingLimit bytes)
    (rest : List UInt8) : Reads tagged.scan (bytes ++ rest) x rest := by
  obtain ⟨inner, ⟨parts, last, hvalues, hparts, hlast, rfl⟩, rfl⟩ :
    ∃ inner, SpellsAll (Tree.Spells (nestingLimit - 1)) 0x5D
      (.text (tagged.case index).tag :: trees) inner ∧ bytes = 0x5B :: inner := hspells
  obtain ⟨⟨_, before, core, behind⟩, parts, rfl, rfl, rfl⟩ := List.map_eq_cons_iff.mp hvalues
  rw [List.forall_mem_cons] at hparts
  obtain ⟨⟨hbefore, hcore, hbehind⟩, hparts⟩ := hparts
  have hlater := reads_items_later (fun _ _ => startsItem_of_spells)
    (reads_tree (nestingLimit - 1)) hparts hbehind hlast rest
  have hmore := (passes_moreItems true).reads hbefore
    (reads_moreItems_first (startsItem_of_spells hcore)
      (behind ++ (parts.flatMap (fun part => 0x2C :: part.bytes) ++ (last ++ 0x5D :: rest))))
  have htag := symbolOf_tag hlawful.tags index
  have hfirst := reads_scanTag htag (Tree.spells_text.mp hcore)
    (behind ++ (parts.flatMap (fun part => 0x2C :: part.bytes) ++ (last ++ 0x5D :: rest)))
  have hvalue := Case.ofTree_shows (hlawful.cases index) hshows
  simp only [List.map_cons, separated, List.flatMap_map, Padded.bytes, List.append_assoc,
    List.cons_append, List.nil_append]
  refine .bind (reads_head_list _) (.bind (reads_skip _ _) (.bind hmore (.bind hfirst ?_)))
  exact .bind hlater (.bind (reads_closeList rest) (.lift hvalue rest))

theorem run_scan (hlawful : tagged.Lawful) {x : α} {frame : List UInt8}
    (hspells : tagged.Spells x frame) : tagged.scan.run frame = .ok x := by
  obtain ⟨⟨tree, before, core, behind⟩, hshows, ⟨hbefore, hcore, hbehind⟩, rfl⟩ := hspells
  have hscan : Reads tagged.scan (core ++ behind) x behind := by
    rcases hshows with ⟨index, ⟨members, others, rfl, hperm, hkeys, hcase⟩ | ⟨trees, rfl, hcase⟩⟩
    · exact reads_scan_object hlawful hperm hkeys hcase hcore behind
    · exact reads_scan_list hlawful hcase hcore behind
  exact ((passes_head.bind _).reads hbefore hscan).run hbehind

/-! ## The written tree is one of them -/

theorem spells_written {x : α} {tree : Tree} (hshows : tagged.Shows x tree)
    (hfits : tree.Fits nestingLimit) : tagged.Spells x tree.written :=
  ⟨⟨tree, [], tree.written, []⟩, hshows, ⟨blank_nil, Tree.spells_written hfits, blank_nil⟩,
    (List.append_nil _).symm⟩

theorem fits_toTree {tag : String} {members : List (String × Tree)}
    (hfits : ∀ member ∈ members, member.2.Fits (nestingLimit - 1)) :
    (toTree tag members).Fits nestingLimit := by
  intro member hmember
  rcases List.mem_cons.mp hmember with rfl | hmember
  · trivial
  · exact hfits member hmember

theorem spells_bare (index : Fin tagged.tags.length) {tag : String} {value : α}
    (hcase : tagged.case index = .bare tag value) :
    tagged.Spells value (toTree tag []).written := by
  refine spells_written ⟨index, .inl ⟨_, [], rfl, ?_, List.forall_mem_nil _, ?_⟩⟩
    (fits_toTree (List.forall_mem_nil _))
  · rw [hcase]
    exact List.Perm.refl _
  · rw [hcase]
    exact ⟨rfl, fun _ htree => by contradiction⟩

theorem spells_holding (index : Fin tagged.tags.length) {tag : String} {record : Record β}
    {wrap : β → α} (hcase : tagged.case index = .holding tag record wrap)
    (hlawful : tagged.Lawful) (hnames : tagName ∉ record.fields.names)
    (hdepth : record.schema.depth ≤ nestingLimit) (x : β) :
    tagged.Spells (wrap x) (toTree tag (record.toMembers x)).written := by
  have hrecord := hlawful.cases index
  rw [hcase] at hrecord
  refine spells_written ⟨index, .inl ⟨_, record.toMembers x, rfl, ?_, ?_, ?_⟩⟩ (fits_toTree ?_)
  · rw [hcase]
    exact List.Perm.refl _
  · rintro member hmember hkey
    exact hnames (hkey ▸ (record.fields.shows_toMembers hrecord.1 _).mem_names member hmember)
  · rw [hcase]
    exact ⟨x, rfl, record.schema.shows_toTree hrecord x⟩
  · exact record.fields.fits_toMembers (Nat.le_sub_of_add_le hdepth) (record.split x)

end Tagged

end Muster.Json

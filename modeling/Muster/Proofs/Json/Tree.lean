import Muster.Proofs.Json.Number

/-!
# Trees are read as they are spelled

A tree may be spelled with blanks around every value, key and bracket.  Items and members
are separated by single commas, so that a loop reads one of them per turn and stops at the
closing bracket.  How deep the reader may go is bounded: a tree is spelled within so many
levels if its containers do not nest deeper.  The compact writing of a tree is the spelling
without blanks.

What stands behind a value matters for numbers only: their last digit must not be
followed by something that goes on a number.  Commas, closing brackets and blanks never do.
-/

namespace Muster.Json

open Text

theorem endsNumber_comma (rest : List UInt8) : EndsNumber (0x2C :: rest) := by
  rintro byte ⟨⟩
  decide

theorem endsNumber_bracket (rest : List UInt8) : EndsNumber (0x5D :: rest) := by
  rintro byte ⟨⟩
  decide

theorem endsNumber_brace (rest : List UInt8) : EndsNumber (0x7D :: rest) := by
  rintro byte ⟨⟩
  decide

theorem endsNumber_blank {blanks rest : List UInt8} (hblank : Blank blanks)
    (hend : EndsNumber rest) : EndsNumber (blanks ++ rest) := by
  cases blanks with
  | nil => exact hend
  | cons byte blanks =>
      rintro byte ⟨⟩
      have hbyte : Reader.isBlank byte = true := List.all_eq_true.mp hblank byte List.mem_cons_self
      unfold Reader.isBlank at hbyte
      unfold Reader.isDigit
      rcases of_decide_eq_true hbyte with heq | heq | heq | heq <;>
      · rw [heq]
        decide

/-! ## Lists of texts -/

/-- Texts with a comma between neighbours. -/
def separated : List (List UInt8) → List UInt8
  | [] => []
  | text :: texts => text ++ texts.flatMap (0x2C :: ·)

def writtenMember (member : String × Tree) : List UInt8 :=
  writtenText member.1 ++ 0x3A :: member.2.written

theorem writtenItems_eq (items : List Tree) :
    writtenItems items = separated (items.map Tree.written) := by
  induction items with
  | nil => rfl
  | cons item items ih =>
      cases items with
      | nil => simp [writtenItems, separated]
      | cons next items =>
          rw [writtenItems, ih]
          · rfl
          · simp

theorem writtenMembers_eq (members : List (String × Tree)) :
    writtenMembers members = separated (members.map writtenMember) := by
  induction members with
  | nil => rfl
  | cons member members ih =>
      cases members with
      | nil =>
          simp [writtenMembers, separated, writtenMember]
          rfl
      | cons next members =>
          rw [writtenMembers, ih]
          · simp [writtenMember, separated]
            rfl
          · simp

theorem Tree.written_list (items : List Tree) :
    (Tree.list items).written = 0x5B :: (separated (items.map Tree.written) ++ [0x5D]) := by
  rw [Tree.written, writtenItems_eq]
  rfl

theorem Tree.written_object (members : List (String × Tree)) :
    (Tree.object members).written =
      0x7B :: (separated (members.map writtenMember) ++ [0x7D]) := by
  rw [Tree.written, writtenMembers_eq]
  rfl

/-! ## Spellings of a tree -/

/-- A value with its spelling and the blanks on both sides. -/
structure Padded (α : Type) where
  value : α
  before : List UInt8
  core : List UInt8
  behind : List UInt8

namespace Padded

variable {α : Type}

def bytes (part : Padded α) : List UInt8 :=
  part.before ++ (part.core ++ part.behind)

structure Proper (spells : α → List UInt8 → Prop) (part : Padded α) : Prop where
  before : Blank part.before
  core : spells part.value part.core
  behind : Blank part.behind

end Padded

/-- Whether some bytes spell values one after the other, with commas in between, up to a
closing bracket. -/
def SpellsAll {α : Type} (spells : α → List UInt8 → Prop) (close : UInt8) (values : List α)
    (bytes : List UInt8) : Prop :=
  ∃ (parts : List (Padded α)) (last : List UInt8), parts.map Padded.value = values ∧
    (∀ part ∈ parts, part.Proper spells) ∧ Blank last ∧
    bytes = separated (parts.map Padded.bytes) ++ (last ++ [close])

/-- Whether some bytes spell a key, a colon and a value. -/
def SpellsMember (spells : Tree → List UInt8 → Prop) (member : String × Tree)
    (bytes : List UInt8) : Prop :=
  ∃ key before behind value : List UInt8, SpellsText member.1 key ∧ Blank before ∧
    Blank behind ∧ spells member.2 value ∧
    bytes = key ++ (before ++ 0x3A :: (behind ++ value))

/-- Whether some bytes spell a tree whose containers nest at most so deep. -/
def Tree.Spells : Nat → Tree → List UInt8 → Prop
  | _, .null, bytes => bytes = Tree.null.written
  | _, .flag value, bytes => bytes = (Tree.flag value).written
  | _, .number value, bytes => SpellsNumber value bytes
  | _, .text s, bytes => SpellsText s bytes
  | 0, .list _, _ | 0, .object _, _ => False
  | levels + 1, .list items, bytes =>
    ∃ inner, SpellsAll (Tree.Spells levels) 0x5D items inner ∧ bytes = 0x5B :: inner
  | levels + 1, .object members, bytes =>
    ∃ inner, SpellsAll (SpellsMember (Tree.Spells levels)) 0x7D members inner ∧
      bytes = 0x7B :: inner

namespace Tree

variable {levels : Nat} {bytes : List UInt8}

theorem spells_null : Tree.null.Spells levels bytes ↔ bytes = Tree.null.written := by
  cases levels <;> rfl

theorem spells_flag {value : Bool} :
    (Tree.flag value).Spells levels bytes ↔ bytes = (Tree.flag value).written := by
  cases levels <;> rfl

theorem spells_number {value : Number} :
    (Tree.number value).Spells levels bytes ↔ SpellsNumber value bytes := by
  cases levels <;> rfl

theorem spells_text {s : String} : (Tree.text s).Spells levels bytes ↔ SpellsText s bytes := by
  cases levels <;> rfl

end Tree

/-! ## The writing is one of them -/

/-- Whether the containers of a tree nest at most so deep and all its numbers are counts. -/
def Tree.Fits : Nat → Tree → Prop
  | _, .null | _, .flag _ | _, .text _ => True
  | _, .number (.natural _) => True
  | _, .number _ => False
  | 0, .list _ | 0, .object _ => False
  | levels + 1, .list items => ∀ item ∈ items, item.Fits levels
  | levels + 1, .object members => ∀ member ∈ members, member.2.Fits levels

theorem spellsAll_separated {α : Type} {spells : α → List UInt8 → Prop}
    {text : α → List UInt8} {values : List α}
    (hspells : ∀ value ∈ values, spells value (text value)) (close : UInt8) :
    SpellsAll spells close values (separated (values.map text) ++ [close]) := by
  refine ⟨values.map fun value => ⟨value, [], text value, []⟩, [], ?_, ?_, blank_nil, ?_⟩
  · rw [List.map_map]
    exact List.map_id _
  · intro part hpart
    obtain ⟨value, hvalue, rfl⟩ := List.mem_map.mp hpart
    exact ⟨blank_nil, hspells value hvalue, blank_nil⟩
  · rw [List.map_map]
    congr 2
    apply List.map_congr_left
    intro value _
    exact (List.append_nil _).symm

theorem spellsMember_written {spells : Tree → List UInt8 → Prop} {member : String × Tree}
    (hvalue : spells member.2 member.2.written) : SpellsMember spells member (writtenMember member) :=
  ⟨_, [], [], _, spellsText_written _, blank_nil, blank_nil, hvalue, rfl⟩

theorem Tree.spells_written : {levels : Nat} → {value : Tree} → value.Fits levels →
    value.Spells levels value.written
  | 0, .null, _ | _ + 1, .null, _ => rfl
  | 0, .flag _, _ | _ + 1, .flag _, _ => rfl
  | 0, .text s, _ | _ + 1, .text s, _ => spellsText_written s
  | 0, .number (.natural count), _ | _ + 1, .number (.natural count), _ =>
    spellsNumber_written count
  | 0, .number (.negative _), hfits | _ + 1, .number (.negative _), hfits => hfits.elim
  | 0, .number (.float _), hfits | _ + 1, .number (.float _), hfits => hfits.elim
  | _ + 1, .list items, hfits =>
    ⟨_, spellsAll_separated (fun item hitem => spells_written (hfits item hitem)) 0x5D,
      written_list items⟩
  | _ + 1, .object members, hfits =>
    ⟨_, spellsAll_separated
      (fun member hmember => spellsMember_written (spells_written (hfits member hmember))) 0x7D,
      written_object members⟩

namespace Reader

theorem StartsItem.length_pos {text : List UInt8} (hstart : StartsItem text) :
    0 < text.length := by
  obtain ⟨byte, bytes, rfl, _⟩ := hstart
  exact Nat.succ_pos _

/-! ## Loops over items and members -/

section Loops

variable {α σ : Type} {step : Bool × σ → Reader (Option (Bool × σ))}
  {next : σ → α → Option σ} {spells : α → List UInt8 → Prop} {close : UInt8}
  {rest : List UInt8}

/-- What a loop makes of separated values: how it stops at the closing bracket, and what a
turn does with a value that can be added to the state. -/
structure Loops (step : Bool × σ → Reader (Option (Bool × σ))) (next : σ → α → Option σ)
    (spells : α → List UInt8 → Prop) (close : UInt8) : Prop where
  passes : ∀ state, Passes (step state)
  ends : ∀ rest, EndsNumber (close :: rest)
  stop : ∀ state rest, Reads (step state) (close :: rest) none (close :: rest)
  long : ∀ value text, spells value text → 0 < text.length
  first : ∀ value text, spells value text → ∀ state later, next state value = some later →
    ∀ rest, EndsNumber rest → Reads (step (true, state)) (text ++ rest) (some (false, later)) rest
  turn : ∀ value text, spells value text → ∀ state later, next state value = some later →
    ∀ blanks, Blank blanks → ∀ rest, EndsNumber rest →
      Reads (step (false, state)) (0x2C :: (blanks ++ (text ++ rest))) (some (false, later)) rest

namespace Loops

variable (hloops : Loops step next spells close)

include hloops

theorem endsNumber_later {last : List UInt8} (hlast : Blank last) (parts : List (Padded α))
    (rest : List UInt8) :
    EndsNumber (parts.flatMap (fun part => 0x2C :: part.bytes) ++ (last ++ close :: rest)) := by
  cases parts with
  | nil =>
      rw [List.flatMap_nil, List.nil_append]
      exact endsNumber_blank hlast (hloops.ends rest)
  | cons part parts => exact endsNumber_comma _

/-- All turns but the first one. -/
theorem turns_later {parts : List (Padded α)} (hparts : ∀ part ∈ parts, part.Proper spells)
    {last : List UInt8} (hlast : Blank last) {state final : σ}
    (hfinal : parts.foldlM (fun state part => next state part.value) state = some final)
    (rest : List UInt8) :
    Turns step (parts.flatMap (fun part => 0x2C :: part.bytes) ++ (last ++ close :: rest))
      (false, state) (false, final) (close :: rest) := by
  induction parts generalizing state with
  | nil =>
      obtain rfl := Option.some.inj hfinal
      rw [List.flatMap_nil, List.nil_append]
      exact (Turns.stop (hloops.stop (false, state) rest)).behind (hloops.passes _) hlast
  | cons part parts ih =>
      rw [List.forall_mem_cons] at hparts
      rw [List.foldlM_cons] at hfinal
      obtain ⟨later, hlater, hfinal⟩ := Option.bind_eq_some_iff.mp hfinal
      obtain ⟨hbefore, hcore, hbehind⟩ := hparts.1
      have hends := endsNumber_blank hbehind (hloops.endsNumber_later hlast parts rest)
      simp only [List.flatMap_cons, Padded.bytes, List.cons_append, List.append_assoc]
      refine .turn (hloops.turn _ _ hcore state later hlater _ hbefore _ hends) ?_
        ((ih hparts.2 hfinal).behind (hloops.passes _) hbehind)
      simp only [List.length_cons, List.length_append]
      omega

/-- All turns over values with commas in between. -/
theorem turns {values : List α} {bytes : List UInt8}
    (hspells : SpellsAll spells close values bytes) {start final : σ}
    (hfinal : values.foldlM next start = some final) (rest : List UInt8) :
    ∃ isFirst, Turns step (bytes ++ rest) (true, start) (isFirst, final) (close :: rest) := by
  obtain ⟨parts, last, rfl, hparts, hlast, rfl⟩ := hspells
  rw [List.foldlM_map] at hfinal
  rw [List.append_assoc, List.append_assoc, List.singleton_append]
  cases parts with
  | nil =>
      obtain rfl := Option.some.inj hfinal
      rw [List.map_nil, separated, List.nil_append]
      exact ⟨true, (Turns.stop (hloops.stop (true, start) rest)).behind (hloops.passes _) hlast⟩
  | cons part parts =>
      rw [List.forall_mem_cons] at hparts
      rw [List.foldlM_cons] at hfinal
      obtain ⟨later, hlater, hfinal⟩ := Option.bind_eq_some_iff.mp hfinal
      obtain ⟨hbefore, hcore, hbehind⟩ := hparts.1
      have hends := endsNumber_blank hbehind (hloops.endsNumber_later hlast parts rest)
      have hlong := hloops.long _ _ hcore
      simp only [List.map_cons, separated, List.flatMap_map, Padded.bytes, List.append_assoc]
      refine ⟨false, Turns.behind (hloops.passes _) hbefore
        (.turn (hloops.first _ _ hcore start later hlater _ hends) ?_
          ((hloops.turns_later hparts.2 hlast hfinal rest).behind (hloops.passes _) hbehind))⟩
      simp only [List.length_append]
      omega

end Loops

end Loops

/-- One turn of `items`. -/
def itemTurn {α : Type} (item : Reader α) (state : Bool × List α) :
    Reader (Option (Bool × List α)) := do
  if ← moreItems state.1 then
    let value ← item
    return some (false, value :: state.2)
  else return none

/-- One turn over an object whose members are read by a body. -/
def memberTurn {σ : Type} (body : σ → Reader σ) (state : Bool × σ) :
    Reader (Option (Bool × σ)) := do
  if ← moreMembers state.1 then return some (false, ← body state.2)
  else return none

/-- The body of `members`. -/
def gatherMember {α : Type} (value : Reader α) (found : List (String × α)) :
    Reader (List (String × α)) := do
  let key ← text
  colon
  return (key, ← value) :: found

theorem items_eq {α : Type} (item : Reader α) (isFirst : Bool) :
    items item isFirst = (do
      let state ← iterate (itemTurn item) .endInList (isFirst, [])
      return state.2.reverse) :=
  rfl

theorem members_eq {α : Type} (value : Reader α) :
    members value = (do
      let state ← iterate (memberTurn (gatherMember value)) .endInObject (true, [])
      return state.2.reverse) := by
  have hturn : memberTurn (gatherMember value) = fun state => do
      if ← moreMembers state.1 then
        let key ← text
        colon
        return some (false, (key, ← value) :: state.2)
      else return none := by
    funext state
    simp only [memberTurn, gatherMember, bind_assoc, pure_bind]
  rw [hturn]
  rfl

/-- Whether a reader reads every value from its spellings. -/
def ReadsSpelled {α : Type} (reader : Reader α) (spells : α → List UInt8 → Prop) : Prop :=
  ∀ value bytes, spells value bytes → ∀ rest, EndsNumber rest →
    Reads reader (bytes ++ rest) value rest

/-- What has been found is kept in reverse. -/
def gather {α : Type} (found : List α) (value : α) : Option (List α) :=
  some (value :: found)

theorem foldlM_gather {α : Type} (values : List α) :
    values.foldlM gather [] = some values.reverse := by
  have hpure := List.foldlM_pure (m := Option) (l := values)
    (f := fun found value => value :: found) (b := [])
  rw [List.foldl_flip_cons_eq_append', List.append_nil] at hpure
  exact hpure

section Items

variable {α : Type} {item : Reader α} {spells : α → List UInt8 → Prop}

theorem loops_items (hstart : ∀ value text, spells value text → StartsItem text)
    (hitem : ReadsSpelled item spells) : Loops (itemTurn item) gather spells 0x5D where
  passes := fun state => (passes_moreItems state.1).bind _
  ends := endsNumber_bracket
  stop := fun state rest => .bind (reads_moreItems_end state.1 rest) (.pure none _)
  long := fun value text hspells => (hstart value text hspells).length_pos
  first := by
    rintro value text hspells state _ ⟨⟩ rest hends
    exact .bind (reads_moreItems_first (hstart value text hspells) rest)
      (.bind (hitem value text hspells rest hends) (.pure _ rest))
  turn := by
    rintro value text hspells state _ ⟨⟩ blanks hblank rest hends
    exact .bind (reads_moreItems hblank (hstart value text hspells) rest)
      (.bind (hitem value text hspells rest hends) (.pure _ rest))

theorem reads_items (hstart : ∀ value text, spells value text → StartsItem text)
    (hitem : ReadsSpelled item spells) {values : List α} {bytes : List UInt8}
    (hspells : SpellsAll spells 0x5D values bytes) (rest : List UInt8) :
    Reads (items item true) (bytes ++ rest) values (0x5D :: rest) := by
  obtain ⟨isFirst, hturns⟩ :=
    (loops_items hstart hitem).turns hspells (foldlM_gather values) rest
  rw [items_eq]
  refine .bind (hturns.iterate _) ?_
  rw [List.reverse_reverse]
  exact .pure values _

/-- The items behind the first one, which has been read already. -/
theorem reads_items_later (hstart : ∀ value text, spells value text → StartsItem text)
    (hitem : ReadsSpelled item spells) {parts : List (Padded α)}
    (hparts : ∀ part ∈ parts, part.Proper spells) {blanks last : List UInt8}
    (hblank : Blank blanks) (hlast : Blank last) (rest : List UInt8) :
    Reads (items item false)
      (blanks ++ (parts.flatMap (fun part => 0x2C :: part.bytes) ++ (last ++ 0x5D :: rest)))
      (parts.map Padded.value) (0x5D :: rest) := by
  have hfound := foldlM_gather (parts.map Padded.value)
  rw [List.foldlM_map] at hfound
  have hturns := (loops_items hstart hitem).turns_later hparts hlast hfound rest
  rw [items_eq]
  refine .bind ((hturns.behind ((passes_moreItems _).bind _) hblank).iterate _) ?_
  rw [List.reverse_reverse]
  exact .pure _ _

end Items

section Members

variable {value : Reader Tree} {spells : Tree → List UInt8 → Prop} (hpasses : Passes value)

theorem exists_cons_of_spellsMember {member : String × Tree} {bytes : List UInt8}
    (hspells : SpellsMember spells member bytes) : ∃ later, bytes = 0x22 :: later := by
  obtain ⟨key, before, behind, value, ⟨parts, _, _, rfl⟩, _, _, _, rfl⟩ := hspells
  exact ⟨_, rfl⟩

theorem loops_members {σ : Type} {body : σ → Reader σ} {next : σ → String × Tree → Option σ}
    (hbody : ∀ member text, SpellsMember spells member text → ∀ state later,
      next state member = some later → ∀ rest, EndsNumber rest →
        Reads (body state) (text ++ rest) later rest) :
    Loops (memberTurn body) next (SpellsMember spells) 0x7D where
  passes := fun state => (passes_moreMembers state.1).bind _
  ends := endsNumber_brace
  stop := fun state rest => .bind (reads_moreMembers_end state.1 rest) (.pure none _)
  long := by
    intro member text hspells
    obtain ⟨later, rfl⟩ := exists_cons_of_spellsMember hspells
    exact Nat.succ_pos _
  first := by
    intro member text hspells state later hlater rest hends
    have hmember := hbody member text hspells state later hlater rest hends
    obtain ⟨bytes, rfl⟩ := exists_cons_of_spellsMember hspells
    exact .bind (reads_moreMembers_first _) (.bind hmember (.pure _ rest))
  turn := by
    intro member text hspells state later hlater blanks hblank rest hends
    have hmember := hbody member text hspells state later hlater rest hends
    obtain ⟨bytes, rfl⟩ := exists_cons_of_spellsMember hspells
    exact .bind (reads_moreMembers hblank _) (.bind hmember (.pure _ rest))

include hpasses

theorem reads_gatherMember (hvalue : ReadsSpelled value spells) {member : String × Tree}
    {bytes : List UInt8} (hspells : SpellsMember spells member bytes) (found : List (String × Tree))
    {rest : List UInt8} (hends : EndsNumber rest) :
    Reads (gatherMember value found) (bytes ++ rest) (member :: found) rest := by
  obtain ⟨key, before, behind, text, hkey, hbefore, hbehind, htext, rfl⟩ := hspells
  simp only [List.append_assoc, List.cons_append]
  refine .bind (reads_text hkey _) ?_
  refine .bind (passes_colon.reads hbefore (reads_colon _)) ?_
  exact .bind (hpasses.reads hbehind (hvalue _ _ htext rest hends)) (.pure _ rest)

theorem reads_members (hvalue : ReadsSpelled value spells) {found : List (String × Tree)}
    {bytes : List UInt8} (hspells : SpellsAll (SpellsMember spells) 0x7D found bytes)
    (rest : List UInt8) : Reads (members value) (bytes ++ rest) found (0x7D :: rest) := by
  have hloops : Loops (memberTurn (gatherMember value)) gather (SpellsMember spells) 0x7D := by
    refine loops_members ?_
    rintro member text hmember found _ ⟨⟩ rest hends
    exact reads_gatherMember hpasses hvalue hmember found hends
  obtain ⟨isFirst, hturns⟩ := hloops.turns hspells (foldlM_gather found) rest
  rw [members_eq]
  refine .bind (hturns.iterate _) ?_
  rw [List.reverse_reverse]
  exact .pure found _

end Members

/-! ## Values -/

theorem passes_head : Passes head :=
  passes_peekSolid.bind _

theorem passes_tree (levels : Nat) : Passes (tree levels) := by
  cases levels <;> exact passes_head.bind _

theorem reads_head_null (rest : List UInt8) :
    Reads head (Tree.null.written ++ rest) (.scalar .null) rest :=
  .bind (reads_peekSolid rfl _) (.bind (reads_skip _ _)
    (.bind (reads_word [0x75, 0x6C, 0x6C] rest) (.pure _ rest)))

theorem reads_head_flag (value : Bool) (rest : List UInt8) :
    Reads head ((Tree.flag value).written ++ rest) (.scalar (.flag value)) rest := by
  cases value with
  | true =>
      exact .bind (reads_peekSolid rfl _) (.bind (reads_skip _ _)
        (.bind (reads_word [0x72, 0x75, 0x65] rest) (.pure _ rest)))
  | false =>
      exact .bind (reads_peekSolid rfl _) (.bind (reads_skip _ _)
        (.bind (reads_word [0x61, 0x6C, 0x73, 0x65] rest) (.pure _ rest)))

theorem reads_head_text {s : String} {bytes : List UInt8} (hspells : SpellsText s bytes)
    (rest : List UInt8) : Reads head (bytes ++ rest) (.scalar (.text s)) rest := by
  have htext := reads_text hspells rest
  obtain ⟨parts, _, _, rfl⟩ := hspells
  exact .bind (reads_peekSolid rfl _) (.bind htext (.pure _ rest))

theorem reads_head_list (rest : List UInt8) :
    Reads head (0x5B :: rest) .sequence (0x5B :: rest) :=
  .bind (reads_peekSolid rfl _) (.pure _ _)

theorem reads_head_object (rest : List UInt8) :
    Reads head (0x7B :: rest) .map (0x7B :: rest) :=
  .bind (reads_peekSolid rfl _) (.pure _ _)

theorem isBlank_of_numberStart {byte : UInt8} (hstart : letter byte = '-' ∨ isDigit byte = true) :
    isBlank byte = false := by
  rcases hstart with hminus | hdigit
  · rw [isBlank, hminus]
    rfl
  · rw [isBlank, decide_eq_false_iff_not]
    rintro (heq | heq | heq | heq) <;> exact letter_ne_of_isDigit hdigit rfl heq

theorem reads_head_number {value : Number} {bytes : List UInt8}
    (hspells : SpellsNumber value bytes) {rest : List UInt8} (hend : EndsNumber rest) :
    Reads head (bytes ++ rest) (.scalar (.number value)) rest := by
  have hnumber := reads_number hspells hend
  obtain ⟨byte, later, rfl, hstart⟩ := exists_cons_of_spellsNumber hspells
  refine .bind (reads_peekSolid (isBlank_of_numberStart hstart) _) ?_
  rcases hstart with hminus | hdigit
  · rw [hminus]
    exact .bind hnumber (.pure _ rest)
  · split
    case h_1 => contradiction
    case h_8 heq =>
      obtain rfl := Option.some.inj heq
      rw [if_pos (.inr (by simpa only [isDigit] using hdigit))]
      exact .bind hnumber (.pure _ rest)
    -- every other letter that a value may start with is no digit
    all_goals
      rename_i heq
      exact absurd (Option.some.inj heq) (letter_ne_of_isDigit hdigit rfl)

theorem startsItem_of_spells {levels : Nat} {value : Tree} {bytes : List UInt8}
    (hspells : value.Spells levels bytes) : StartsItem bytes := by
  cases value with
  | null =>
      rw [Tree.spells_null.mp hspells]
      exact ⟨_, _, rfl, by decide, by decide⟩
  | flag value =>
      rw [Tree.spells_flag.mp hspells]
      cases value <;> exact ⟨_, _, rfl, by decide, by decide⟩
  | text s =>
      obtain ⟨parts, _, _, rfl⟩ := Tree.spells_text.mp hspells
      exact ⟨_, _, rfl, by decide, by decide⟩
  | number value =>
      obtain ⟨byte, later, rfl, hstart⟩ :=
        exists_cons_of_spellsNumber (Tree.spells_number.mp hspells)
      refine ⟨byte, later, rfl, isBlank_of_numberStart hstart, ?_⟩
      rcases hstart with hminus | hdigit
      · rw [hminus]
        decide
      · exact letter_ne_of_isDigit hdigit rfl
  | list items =>
      cases levels with
      | zero => exact hspells.elim
      | succ levels =>
          obtain ⟨inner, _, rfl⟩ := hspells
          exact ⟨_, _, rfl, by decide, by decide⟩
  | object members =>
      cases levels with
      | zero => exact hspells.elim
      | succ levels =>
          obtain ⟨inner, _, rfl⟩ := hspells
          exact ⟨_, _, rfl, by decide, by decide⟩

theorem reads_tree_scalar {value : Tree} {input rest : List UInt8}
    (hhead : Reads head input (.scalar value) rest) (levels : Nat) :
    Reads (tree levels) input value rest := by
  cases levels <;> exact .bind hhead (.pure value rest)

theorem reads_tree_list {levels : Nat} (hitem : ReadsSpelled (tree levels) (Tree.Spells levels))
    {items : List Tree} {inner : List UInt8}
    (hspells : SpellsAll (Tree.Spells levels) 0x5D items inner) (rest : List UInt8) :
    Reads (tree (levels + 1)) (0x5B :: (inner ++ rest)) (.list items) rest := by
  refine .bind (reads_head_list _) (.bind (reads_skip _ _) ?_)
  exact .bind (reads_items (fun _ _ => startsItem_of_spells) hitem hspells rest)
    (.bind (reads_closeList rest) (.pure _ rest))

theorem reads_tree_object {levels : Nat}
    (hvalue : ReadsSpelled (tree levels) (Tree.Spells levels))
    {members : List (String × Tree)} {inner : List UInt8}
    (hspells : SpellsAll (SpellsMember (Tree.Spells levels)) 0x7D members inner)
    (rest : List UInt8) :
    Reads (tree (levels + 1)) (0x7B :: (inner ++ rest)) (.object members) rest := by
  refine .bind (reads_head_object _) (.bind (reads_skip _ _) ?_)
  exact .bind (reads_members (passes_tree levels) hvalue hspells rest)
    (.bind (reads_closeObject rest) (.pure _ rest))

/-- A tree is read from each of its spellings. -/
theorem reads_tree (levels : Nat) : ReadsSpelled (tree levels) (Tree.Spells levels) := by
  intro value bytes hspells rest hends
  cases value with
  | null =>
      rw [Tree.spells_null.mp hspells]
      exact reads_tree_scalar (reads_head_null rest) levels
  | flag value =>
      rw [Tree.spells_flag.mp hspells]
      exact reads_tree_scalar (reads_head_flag value rest) levels
  | number value =>
      exact reads_tree_scalar (reads_head_number (Tree.spells_number.mp hspells) hends) levels
  | text s => exact reads_tree_scalar (reads_head_text (Tree.spells_text.mp hspells) rest) levels
  | list items =>
      cases levels with
      | zero => exact hspells.elim
      | succ levels =>
          obtain ⟨inner, hinner, rfl⟩ := hspells
          exact reads_tree_list (reads_tree levels) hinner rest
  | object members =>
      cases levels with
      | zero => exact hspells.elim
      | succ levels =>
          obtain ⟨inner, hinner, rfl⟩ := hspells
          exact reads_tree_object (reads_tree levels) hinner rest

end Reader

end Muster.Json

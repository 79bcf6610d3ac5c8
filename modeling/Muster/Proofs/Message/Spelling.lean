import Muster.Proofs.Message.RoundTrip

/-!
# Frames from elsewhere mean the same

Another program may put the members of an object in another order, space them out, escape
what needs no escape, write null for what is absent, leave out what is empty and add members
that are unknown here.  A frame that spells a message in such a way is read as that message.
-/

namespace Muster

open Json

theorem Json.Tagged.decodeWith_of_spells {α : Type} {tagged : Tagged α}
    (hlawful : tagged.Lawful) {x : α} {frame : Frame} (hspells : tagged.Spells x frame)
    (hsize : frame.length ≤ Frame.maxSize) : Frame.decodeWith tagged.scan frame = .ok x := by
  have hrun := run_scan hlawful hspells
  refine Frame.decodeWith_eq_ok ?_ hsize hrun
  rintro rfl
  contradiction

/-- Every frame that spells a message and is not too large is read as that message, and the
encoding of a message is one of the frames that spell it. -/
theorem spellings_are_read :
    (∀ request : Request, Request.layout.Spells request request.encode ∧
      ∀ frame : Frame, Request.layout.Spells request frame → frame.length ≤ Frame.maxSize →
        Request.decode frame = .ok request) ∧
    ∀ response : Response, Response.layout.Spells response response.encode ∧
      ∀ frame : Frame, Response.layout.Spells response frame → frame.length ≤ Frame.maxSize →
        Response.decode frame = .ok response :=
  ⟨fun request => ⟨request.spells_encode,
      fun _ hspells hsize => Tagged.decodeWith_of_spells Request.layout_lawful hspells hsize⟩,
    fun response => ⟨response.spells_encode,
      fun _ hspells hsize => Tagged.decodeWith_of_spells Response.layout_lawful hspells hsize⟩⟩

/-! ## A loose frame -/

def looseMessage : Envelope where
  cluster := "k😀"
  sender := none
  destination := none
  payload := []
  correlation := none
  relay := none

/-- The number -1500, spelled as a decimal fraction with an exponent. -/
def looseNumber : Number :=
  .float ⟨true, ⟨6597069766656000, -42⟩⟩

/-- The tag in the middle, a null that nobody needs and a member that is unknown. -/
def looseMembers : List (String × Tree) :=
  [("sender", .null), ("x", .list [.number looseNumber, .null]), ("type", .text "message"),
    ("cluster", .text "k😀")]

def looseParts : List (Padded (String × Tree)) := [
  ⟨("sender", .null), [], writtenMember ("sender", .null), []⟩,
  ⟨("x", .list [.number looseNumber, .null]), [],
    writtenText "x" ++ ([0x20] ++ 0x3A :: ([] ++ spelled "[-1.5E+3 , null]")), []⟩,
  ⟨("type", .text "message"), [0x0A], writtenMember ("type", .text "message"), []⟩,
  ⟨("cluster", .text "k😀"), [],
    writtenText "cluster" ++ ([] ++ 0x3A :: ([0x20] ++ spelled "\"\\u006b\\uD83D\\uDE00\"")),
    []⟩]

def looseFrame : Frame :=
  spelled (" \x7b\"sender\":null,\"x\" :[-1.5E+3 , null],\n\"type\":\"message\"," ++
    "\"cluster\": \"\\u006b\\uD83D\\uDE00\"\x7d\n")

theorem looseMembers_show :
    Request.layout.Shows (.message looseMessage) (.object looseMembers) := by
  refine ⟨⟨4, by decide⟩, .inl ⟨_, looseMembers.eraseIdx 2, rfl, ?_, by decide, looseMessage,
    rfl, ?_⟩⟩
  · exact @List.perm_middle _ _ [_, _] _
  · refine .inl ⟨_, [("cluster", .text "k😀"), ("sender", .null)],
      [("x", .list [.number looseNumber, .null])], rfl, ?_, ?_, by decide⟩
    · exact @List.perm_append_comm _ [_, _] [_]
    · exact .inr ⟨_, _, rfl, rfl, .inr ⟨_, _, rfl, rfl,
        .inl ⟨rfl, .inl ⟨rfl, .inl ⟨rfl, .inl ⟨rfl, rfl⟩⟩⟩⟩⟩⟩

theorem looseNumber_spells : SpellsNumber looseNumber (spelled "-1.5E+3") :=
  ⟨⟨true, [0x31], some [0x35], some ⟨0x45, some 0x2B, [0x33]⟩⟩,
    ⟨by decide +kernel, by decide, by decide +kernel,
      by rintro _ ⟨⟩; exact ⟨.inr rfl, by rintro _ ⟨⟩; exact .inl rfl, by decide +kernel⟩⟩,
    rfl, by decide +kernel⟩

theorem looseList_spells (levels : Nat) :
    (Tree.list [.number looseNumber, .null]).Spells (levels + 1)
      (spelled "[-1.5E+3 , null]") := by
  refine ⟨spelled "-1.5E+3 , null]", ⟨[⟨_, [], spelled "-1.5E+3", [0x20]⟩,
    ⟨_, [0x20], spelled "null", []⟩], [], rfl, ?_, rfl, rfl⟩, rfl⟩
  rw [List.forall_mem_cons, List.forall_mem_singleton]
  exact ⟨⟨rfl, Tree.spells_number.mpr looseNumber_spells, rfl⟩,
    ⟨rfl, Tree.spells_null.mpr rfl, rfl⟩⟩

theorem looseCluster_spells : SpellsText "k😀" (spelled "\"\\u006b\\uD83D\\uDE00\"") := by
  refine ⟨[('k', spelled "\\u006b"), ('😀', spelled "\\uD83D\\uDE00")], rfl, ?_, rfl⟩
  rw [List.forall_mem_cons, List.forall_mem_singleton]
  exact ⟨.code rfl rfl, @SpellsChar.pair '😀' (spelled "D83D") (spelled "DE00") 0xD83D 0xDE00
    rfl rfl rfl rfl rfl rfl rfl⟩

theorem looseParts_proper :
    ∀ part ∈ looseParts, part.Proper (SpellsMember (Tree.Spells 126)) := by
  rw [looseParts, List.forall_mem_cons, List.forall_mem_cons, List.forall_mem_cons,
    List.forall_mem_singleton]
  refine ⟨⟨rfl, ?_, rfl⟩, ⟨rfl, ?_, rfl⟩, ⟨rfl, ?_, rfl⟩, ⟨rfl, ?_, rfl⟩⟩
  · exact spellsMember_written (Tree.spells_null.mpr rfl)
  · exact ⟨_, [0x20], [], _, spellsText_written _, rfl, rfl, looseList_spells 125, rfl⟩
  · exact spellsMember_written (Tree.spells_text.mpr (spellsText_written _))
  · exact ⟨_, [], [0x20], _, spellsText_written _, rfl, rfl,
      Tree.spells_text.mpr looseCluster_spells, rfl⟩

theorem looseFrame_spells : Request.layout.Spells (.message looseMessage) looseFrame :=
  ⟨⟨.object looseMembers, [0x20],
      0x7B :: (separated (looseParts.map Padded.bytes) ++ ([] ++ [0x7D])), [0x0A]⟩,
    looseMembers_show, ⟨rfl, ⟨_, ⟨looseParts, [], rfl, looseParts_proper, rfl, rfl⟩, rfl⟩, rfl⟩,
    by decide +kernel⟩

theorem spellings_are_read_loosely :
    Request.layout.Spells (.message looseMessage) looseFrame ∧
      looseFrame.length ≤ Frame.maxSize ∧ looseFrame ≠ (Request.message looseMessage).encode ∧
      Request.decode looseFrame = .ok (.message looseMessage) := by
  have hsize : looseFrame.length ≤ Frame.maxSize := by decide +kernel
  exact ⟨looseFrame_spells, hsize, by decide +kernel,
    (spellings_are_read.1 _).2 _ looseFrame_spells hsize⟩

end Muster

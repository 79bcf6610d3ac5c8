import Muster.Proofs.Message.Spelling

/-!
# What is relayed can be read, unless it has grown too large

A message is read from the frame it came in and written again for those who receive it.
Whatever the first frame looked like, the second one is the encoding of the message, and it is
read as the same message if it may be sent at all.  Only its size is in question: the size of a
frame is checked where it is read, and not where it is written.

A frame may be much shorter than the encoding of its message.  Fields that have their default
value need not be there, and a record may be given as a list, without the names of its fields.
-/

namespace Muster

open Json

/-! ## Sizes -/

namespace Json

theorem length_separated {texts : List (List UInt8)} (hsome : texts ≠ []) :
    (separated texts).length + 1 = (texts.map fun text => text.length + 1).sum := by
  cases texts with
  | nil => contradiction
  | cons text texts =>
      simp only [separated, List.length_append, List.length_flatMap, List.length_cons,
        List.map_cons, List.sum_cons]
      omega

theorem Tree.length_written_list {items : List Tree} (hsome : items ≠ []) :
    (Tree.list items).written.length =
      (items.map fun item => item.written.length + 1).sum + 1 := by
  have hlength := @length_separated (items.map Tree.written) (by simpa using hsome)
  rw [List.map_map] at hlength
  rw [written_list, List.length_cons, List.length_append, List.length_singleton, hlength]
  rfl

theorem Tree.length_written_object {members : List (String × Tree)} (hsome : members ≠ []) :
    (Tree.object members).written.length =
      (members.map fun member =>
        (writtenText member.1).length + member.2.written.length + 2).sum + 1 := by
  have hlength := @length_separated (members.map writtenMember) (by simpa using hsome)
  have hmember : ((fun text : List UInt8 => text.length + 1) ∘ writtenMember) =
      fun member => (writtenText member.1).length + member.2.written.length + 2 := by
    funext member
    simp only [Function.comp_apply, writtenMember, List.length_append, List.length_cons]
    omega
  rw [List.map_map, hmember] at hlength
  rw [written_object, List.length_cons, List.length_append, List.length_singleton, hlength]

end Json

theorem Frame.decodeWith_tooLarge {α : Type} (reader : Reader α) {frame : Frame}
    (hsize : maxSize < frame.length) :
    decodeWith reader frame = .error (.tooLarge frame.length) := by
  have hsome : frame.isEmpty = false := by
    rw [List.isEmpty_eq_false_iff]
    exact List.ne_nil_of_length_pos (Nat.zero_lt_of_lt hsize)
  rw [decodeWith, hsome, if_neg Bool.false_ne_true, if_pos hsize]

theorem Frame.length_le_of_decodeWith {α : Type} {reader : Reader α} {frame : Frame} {value : α}
    (hdecode : decodeWith reader frame = .ok value) : frame.length ≤ maxSize := by
  by_contra hsize
  rw [decodeWith_tooLarge reader (Nat.lt_of_not_le hsize)] at hdecode
  contradiction

/-! ## Relaying -/

theorem Response.encode_message (envelope : Envelope) :
    (message envelope).encode = (Request.message envelope).encode :=
  rfl

/-- A message that has been accepted is passed on in the frame in which a member would have
sent it.  Those who receive it read the same message exactly if that frame is not too large,
and it never is if it is no longer than the one that was accepted. -/
theorem relayed_iff_not_too_large {frame : Frame} {envelope : Envelope}
    (haccepted : Request.decode frame = .ok (.message envelope)) :
    let relayed := (Response.message envelope).encode
    relayed = (Request.message envelope).encode ∧
      (Response.decode relayed = .ok (.message envelope) ↔ relayed.length ≤ Frame.maxSize) ∧
      (Frame.maxSize < relayed.length →
        Response.decode relayed = .error (.tooLarge relayed.length)) ∧
      (relayed.length ≤ frame.length → Response.decode relayed = .ok (.message envelope)) := by
  intro relayed
  have hread : relayed.length ≤ Frame.maxSize →
      Response.decode relayed = .ok (.message envelope) :=
    fun hsize => Response.decode_encode hsize
  refine ⟨Response.encode_message envelope, ⟨Frame.length_le_of_decodeWith, hread⟩,
    Frame.decodeWith_tooLarge _, fun hshorter => ?_⟩
  exact hread (Nat.le_trans hshorter (Frame.length_le_of_decodeWith haccepted))

/-! ## A message that grows -/

/-- A message that excludes some members, all of them the same. -/
def crowded (count : Nat) : Envelope where
  cluster := "k"
  sender := none
  destination := none
  payload := []
  correlation := some ⟨0, 0, 0, List.replicate count (.ofUuid ⟨0, 0⟩)⟩
  relay := none

/-- An address without the names of its fields. -/
def bareAddress : Tree :=
  .list [.number (.natural 0), .number (.natural 0)]

/-- The message, with every record as a list of its fields. -/
def crowdedList (count : Nat) : List Tree :=
  [.text "k", .null, .null, .list [], .list [.number (.natural 0), .number (.natural 0),
    .number (.natural 0), .list (List.replicate count bareAddress)]]

def crowdedFrame (count : Nat) : Frame :=
  (Tree.list (.text "message" :: crowdedList count)).written

theorem bareAddress_shows :
    Address.record.schema.Shows (.ofUuid ⟨0, 0⟩) bareAddress :=
  .inr ⟨_, rfl, .inr ⟨_, _, rfl, rfl, .inr ⟨_, _, rfl, rfl,
    .inl ⟨rfl, rfl, .inl ⟨rfl, rfl, .inl ⟨rfl, rfl, rfl⟩⟩⟩⟩⟩⟩

theorem crowdedList_shows (count : Nat) :
    Envelope.record.schema.Shows (crowded count) (.list (crowdedList count)) := by
  have hexclusions : (Schema.list Address.record.schema).Shows
      (List.replicate count (.ofUuid ⟨0, 0⟩)) (.list (List.replicate count bareAddress)) := by
    refine ⟨_, rfl, ?_⟩
    induction count with
    | zero => exact .nil
    | succ count ih => exact .cons bareAddress_shows ih
  have hheader : CorrelationHeader.record.schema.Shows
      ⟨0, 0, 0, List.replicate count (.ofUuid ⟨0, 0⟩)⟩
      (.list [.number (.natural 0), .number (.natural 0), .number (.natural 0),
        .list (List.replicate count bareAddress)]) :=
    .inr ⟨_, rfl, .inr ⟨_, _, rfl, rfl, .inr ⟨_, _, rfl, rfl, .inr ⟨_, _, rfl, rfl,
      .inr ⟨_, _, rfl, hexclusions, rfl⟩⟩⟩⟩⟩
  exact .inr ⟨_, rfl, .inr ⟨_, _, rfl, rfl, .inr ⟨_, _, rfl, rfl, .inr ⟨_, _, rfl, rfl,
    .inr ⟨_, _, rfl, ⟨[], rfl, .nil⟩, .inr ⟨_, _, rfl, hheader, .inl ⟨rfl, rfl, rfl⟩⟩⟩⟩⟩⟩⟩

theorem crowdedList_fits (count : Nat) :
    (Tree.list (.text "message" :: crowdedList count)).Fits Reader.nestingLimit := by
  have haddresses : ∀ item ∈ List.replicate count bareAddress, item.Fits 124 := by
    intro item hitem
    rw [List.eq_of_mem_replicate hitem]
    simp [bareAddress, Tree.Fits]
  simpa [Reader.nestingLimit, crowdedList, Tree.Fits] using haddresses

theorem decode_crowdedFrame {count : Nat}
    (hsize : (crowdedFrame count).length ≤ Frame.maxSize) :
    Request.decode (crowdedFrame count) = .ok (.message (crowded count)) := by
  refine Tagged.decodeWith_of_spells Request.layout_lawful ?_ hsize
  exact Tagged.spells_written ⟨⟨4, by decide⟩, .inr ⟨_, rfl, _, rfl, crowdedList_shows count⟩⟩
    (crowdedList_fits count)

theorem length_crowdedFrame (count : Nat) :
    (crowdedFrame (count + 1)).length = 6 * (count + 1) + 38 := by
  have hitems : (Tree.list (List.replicate (count + 1) bareAddress)).written.length =
      6 * (count + 1) + 1 := by
    have hitem : bareAddress.written.length = 5 := by decide
    rw [Tree.length_written_list (by simp), List.map_replicate, List.sum_replicate_nat, hitem,
      Nat.mul_comm]
  have hcount : (Tree.number (.natural 0)).written.length = 1 := by decide
  have hkind : (Tree.text "message").written.length = 9 := by decide
  have hcluster : (Tree.text "k").written.length = 3 := by decide
  have hnull : Tree.null.written.length = 4 := by decide
  have hpayload : (Tree.list []).written.length = 2 := by decide
  rw [crowdedFrame, crowdedList, Tree.length_written_list (by simp)]
  simp only [List.map_cons, List.map_nil, List.sum_cons, List.sum_nil, hkind, hcluster, hnull,
    hpayload]
  rw [Tree.length_written_list (by simp)]
  simp only [List.map_cons, List.map_nil, List.sum_cons, List.sum_nil, hcount, hitems]
  omega

theorem length_written_exclusions (count : Nat) :
    (Tree.list ((List.replicate (count + 1) (Address.ofUuid ⟨0, 0⟩)).map
      Address.record.schema.toTree)).written.length = 27 * (count + 1) + 1 := by
  have hitem : (Address.record.schema.toTree (.ofUuid ⟨0, 0⟩)).written.length = 26 := by decide
  rw [Tree.length_written_list (by simp), List.map_replicate, List.map_replicate,
    List.sum_replicate_nat, hitem, Nat.mul_comm]

theorem length_encode_crowded (count : Nat) :
    (Response.message (crowded (count + 1))).encode.length = 27 * (count + 1) + 126 := by
  have hexclusions := length_written_exclusions count
  have hmembers : (Response.message (crowded (count + 1))).toTree = .object [
      ("type", .text "message"), ("cluster", .text "k"), ("payload", .list []),
      ("correlationHeader", .object [("type", .number (.natural 0)),
        ("requestId", .number (.natural 0)), ("correlationId", .number (.natural 0)),
        ("exclusionList", .list ((List.replicate (count + 1) (Address.ofUuid ⟨0, 0⟩)).map
          Address.record.schema.toTree))])] := rfl
  have hkind : (Tree.text "message").written.length = 9 := by decide
  have hcluster : (Tree.text "k").written.length = 3 := by decide
  have hpayload : (Tree.list []).written.length = 2 := by decide
  have hcount : (Tree.number (.natural 0)).written.length = 1 := by decide
  have hkeys : (writtenText "type").length = 6 ∧ (writtenText "cluster").length = 9 ∧
      (writtenText "payload").length = 9 ∧ (writtenText "correlationHeader").length = 19 ∧
      (writtenText "requestId").length = 11 ∧ (writtenText "correlationId").length = 15 ∧
      (writtenText "exclusionList").length = 15 := by
    decide
  rw [Response.encode, hmembers, Tree.length_written_object (by simp)]
  simp only [List.map_cons, List.map_nil, List.sum_cons, List.sum_nil, hkind, hcluster, hpayload,
    hkeys]
  rw [Tree.length_written_object (by simp)]
  simp only [List.map_cons, List.map_nil, List.sum_cons, List.sum_nil, hcount, hexclusions, hkeys]
  omega

/-- With one member excluded the frame grows as well, and may still be sent. -/
theorem relayed_iff_not_too_large_crowded :
    let relayed := (Response.message (crowded 1)).encode
    Request.decode (crowdedFrame 1) = .ok (.message (crowded 1)) ∧
      (crowdedFrame 1).length < relayed.length ∧
      relayed = (Request.message (crowded 1)).encode ∧
      (Response.decode relayed = .ok (.message (crowded 1)) ↔ relayed.length ≤ Frame.maxSize) ∧
      (Frame.maxSize < relayed.length →
        Response.decode relayed = .error (.tooLarge relayed.length)) ∧
      (relayed.length ≤ (crowdedFrame 1).length →
        Response.decode relayed = .ok (.message (crowded 1))) := by
  intro relayed
  have hframe : (crowdedFrame 1).length = 44 := length_crowdedFrame 0
  have hrelayed : relayed.length = 153 := length_encode_crowded 0
  have haccepted : Request.decode (crowdedFrame 1) = .ok (.message (crowded 1)) := by
    apply decode_crowdedFrame
    rw [hframe]
    decide
  refine ⟨haccepted, ?_, relayed_iff_not_too_large haccepted⟩
  rw [hframe, hrelayed]
  decide

/-- A message of eleven megabytes is accepted, and what is passed on is too large to be read. -/
theorem relayed_too_large :
    (crowdedFrame 1941803).length = 11650856 ∧
      Request.decode (crowdedFrame 1941803) = .ok (.message (crowded 1941803)) ∧
      (Response.message (crowded 1941803)).encode.length = 52428807 ∧
      Response.decode (Response.message (crowded 1941803)).encode =
        .error (.tooLarge 52428807) := by
  have hframe : (crowdedFrame 1941803).length = 11650856 := length_crowdedFrame 1941802
  have hrelayed : (Response.message (crowded 1941803)).encode.length = 52428807 :=
    length_encode_crowded 1941802
  refine ⟨hframe, decode_crowdedFrame ?_, hrelayed, ?_⟩
  · rw [hframe]
    decide
  · rw [← hrelayed]
    refine Frame.decodeWith_tooLarge _ ?_
    rw [hrelayed]
    decide

end Muster

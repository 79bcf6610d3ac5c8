import Muster.Message.Frame
import Muster.Proofs.Json.Tagged

/-!
# Messages survive the wire

Every request and every response is read back from its frame in all of its fields, as
long as the frame may be sent.  The records state their own layout; all that has to be
said about each of them here is that it is lawful, that no field of a record beside a tag
is named like the tag, and that it does not nest too deep.
-/

namespace Muster

open Json

/-! ## Records -/

theorem Address.record_lawful : Address.record.schema.Lawful :=
  ⟨⟨.required, trivial, by decide,
    .required, trivial, by decide,
    .optional, ⟨rfl, trivial⟩, by decide,
    .optional, ⟨rfl, trivial⟩, by decide,
    .ifSet, trivial, by decide, trivial⟩, fun _ => rfl⟩

theorem View.record_lawful : View.record.schema.Lawful :=
  ⟨⟨.required, trivial, by decide,
    .required, Address.record_lawful, by decide,
    .required, Address.record_lawful, by decide, trivial⟩, fun _ => rfl⟩

theorem CorrelationHeader.record_lawful : CorrelationHeader.record.schema.Lawful :=
  ⟨⟨.required, trivial, by decide,
    .required, trivial, by decide,
    .required, trivial, by decide,
    .defaulted [], Address.record_lawful, by decide, trivial⟩, fun _ => rfl⟩

theorem RelayKind.ofIndex_index (kind : RelayKind) : ofIndex kind.index = kind := by
  cases kind <;> rfl

theorem RelayHeader.record_lawful : RelayHeader.record.schema.Lawful := by
  refine ⟨⟨.required, ?_, by decide,
    .optional, ⟨rfl, Address.record_lawful⟩, by decide,
    .optional, ⟨rfl, Address.record_lawful⟩, by decide,
    .defaulted [], trivial, by decide, trivial⟩, fun header => ?_⟩
  · change RelayKind.names.Nodup
    decide
  · change (⟨.ofIndex header.kind.index, _, _, _⟩ : RelayHeader) = header
    rw [RelayKind.ofIndex_index]

theorem Envelope.record_lawful : Envelope.record.schema.Lawful :=
  ⟨⟨.required, trivial, by decide,
    .optional, ⟨rfl, Address.record_lawful⟩, by decide,
    .optional, ⟨rfl, Address.record_lawful⟩, by decide,
    .defaulted [], trivial, by decide,
    .optional, ⟨rfl, CorrelationHeader.record_lawful⟩, by decide,
    .optional, ⟨rfl, RelayHeader.record_lawful⟩, by decide, trivial⟩, fun _ => rfl⟩

theorem JoinRequest.record_lawful : JoinRequest.record.schema.Lawful :=
  ⟨⟨.required, trivial, by decide,
    .required, Address.record_lawful, by decide, trivial⟩, fun _ => rfl⟩

theorem LeaveRequest.record_lawful : LeaveRequest.record.schema.Lawful :=
  ⟨⟨.required, trivial, by decide,
    .required, Address.record_lawful, by decide, trivial⟩, fun _ => rfl⟩

theorem RegisterViewRequest.record_lawful : RegisterViewRequest.record.schema.Lawful :=
  ⟨⟨.required, trivial, by decide,
    .required, View.record_lawful, by decide,
    .required, Address.record_lawful, by decide, trivial⟩, fun _ => rfl⟩

theorem GetViewRequest.record_lawful : GetViewRequest.record.schema.Lawful :=
  ⟨⟨.required, trivial, by decide, trivial⟩, fun _ => rfl⟩

theorem GetViewResponse.record_lawful : GetViewResponse.record.schema.Lawful :=
  ⟨⟨.defaulted none, ⟨rfl, View.record_lawful⟩, by decide, trivial⟩, fun _ => rfl⟩

theorem DumpResponse.record_lawful : DumpResponse.record.schema.Lawful :=
  ⟨⟨.required, trivial, by decide, trivial⟩, fun _ => rfl⟩

/-! ## Frames -/

theorem Json.Tagged.written_toTree_ne_nil (tag : String) (members : List (String × Tree)) :
    (Tagged.toTree tag members).written ≠ [] := by
  rw [Tagged.toTree, Tree.written_object]
  exact List.cons_ne_nil _ _

theorem Frame.decodeWith_eq_ok {α : Type} {reader : Reader α} {frame : Frame} {value : α}
    (hsome : frame ≠ []) (hsize : frame.length ≤ maxSize)
    (hrun : reader.run frame = .ok value) : decodeWith reader frame = .ok value := by
  rw [decodeWith, if_neg (by simpa using hsome), if_neg (Nat.not_lt.mpr hsize), hrun]

/-! ## Requests and responses -/

namespace Request

theorem tags_nodup : layout.tags.Nodup := by
  decide

theorem layout_lawful : layout.Lawful where
  tags := tags_nodup
  cases := by
    rintro ⟨position, hposition⟩
    change position < 6 at hposition
    match position, hposition with
    | 0, _ => exact JoinRequest.record_lawful
    | 1, _ => exact LeaveRequest.record_lawful
    | 2, _ => exact RegisterViewRequest.record_lawful
    | 3, _ => exact GetViewRequest.record_lawful
    | 4, _ => exact Envelope.record_lawful
    | 5, _ => trivial

/-- The encoding of a request is one of its spellings. -/
theorem spells_encode (request : Request) : layout.Spells request request.encode := by
  cases request with
  | join request =>
      exact Tagged.spells_holding ⟨0, by decide⟩ rfl layout_lawful (by decide) (by decide) request
  | leave request =>
      exact Tagged.spells_holding ⟨1, by decide⟩ rfl layout_lawful (by decide) (by decide) request
  | registerView request =>
      exact Tagged.spells_holding ⟨2, by decide⟩ rfl layout_lawful (by decide) (by decide) request
  | getView request =>
      exact Tagged.spells_holding ⟨3, by decide⟩ rfl layout_lawful (by decide) (by decide) request
  | message envelope =>
      exact Tagged.spells_holding ⟨4, by decide⟩ rfl layout_lawful (by decide) (by decide) envelope
  | dump => exact Tagged.spells_bare ⟨5, by decide⟩ rfl

theorem run_scan (request : Request) : layout.scan.run request.encode = .ok request :=
  Tagged.run_scan layout_lawful request.spells_encode

theorem decode_encode {request : Request} (hsize : request.encode.length ≤ Frame.maxSize) :
    decode request.encode = .ok request :=
  Frame.decodeWith_eq_ok (Tagged.written_toTree_ne_nil _ _) hsize request.run_scan

end Request

namespace Response

theorem tags_nodup : layout.tags.Nodup := by
  decide

theorem layout_lawful : layout.Lawful where
  tags := tags_nodup
  cases := by
    rintro ⟨position, hposition⟩
    change position < 6 at hposition
    match position, hposition with
    | 0, _ => exact View.record_lawful
    | 1, _ => exact Envelope.record_lawful
    | 2, _ => trivial
    | 3, _ => trivial
    | 4, _ => exact GetViewResponse.record_lawful
    | 5, _ => exact DumpResponse.record_lawful

/-- The encoding of a response is one of its spellings. -/
theorem spells_encode (response : Response) : layout.Spells response response.encode := by
  cases response with
  | view current =>
      exact Tagged.spells_holding ⟨0, by decide⟩ rfl layout_lawful (by decide) (by decide) current
  | message envelope =>
      exact Tagged.spells_holding ⟨1, by decide⟩ rfl layout_lawful (by decide) (by decide) envelope
  | registerViewAck => exact Tagged.spells_bare ⟨2, by decide⟩ rfl
  | leaveAck => exact Tagged.spells_bare ⟨3, by decide⟩ rfl
  | getViewResponse response =>
      exact Tagged.spells_holding ⟨4, by decide⟩ rfl layout_lawful (by decide) (by decide) response
  | dumpResponse response =>
      exact Tagged.spells_holding ⟨5, by decide⟩ rfl layout_lawful (by decide) (by decide) response

theorem run_scan (response : Response) :
    layout.scan.run response.encode = .ok response :=
  Tagged.run_scan layout_lawful response.spells_encode

theorem decode_encode {response : Response}
    (hsize : response.encode.length ≤ Frame.maxSize) :
    decode response.encode = .ok response :=
  Frame.decodeWith_eq_ok (Tagged.written_toTree_ne_nil _ _) hsize response.run_scan

end Response

/-- Whatever may be sent is read back unchanged. -/
theorem wire_loses_nothing :
    (∀ request : Request, request.encode.length ≤ Frame.maxSize →
      Request.decode request.encode = .ok request) ∧
    ∀ response : Response, response.encode.length ≤ Frame.maxSize →
      Response.decode response.encode = .ok response :=
  ⟨fun _ hsize => Request.decode_encode hsize, fun _ hsize => Response.decode_encode hsize⟩

/-- A member with a name that needs escapes, coordinating no site. -/
def escapedMember : Address :=
  ⟨⟨18446744073709551615, 7⟩, some "a\"\\\n\u0001é😀", none, true⟩

def escapedMessage : Envelope where
  cluster := "k"
  sender := some escapedMember
  destination := none
  payload := [0, 255]
  correlation := some ⟨1, 9, 2, [escapedMember]⟩
  relay := some ⟨.sitesUp, none, some escapedMember, ["north"]⟩

theorem wire_loses_nothing_escaped :
    (Request.message escapedMessage).encode.length ≤ Frame.maxSize ∧
    (Response.message escapedMessage).encode.length ≤ Frame.maxSize ∧
    Request.decode (Request.message escapedMessage).encode = .ok (.message escapedMessage) ∧
    Response.decode (Response.message escapedMessage).encode =
      .ok (.message escapedMessage) := by
  have hrequest : (Request.message escapedMessage).encode.length ≤ Frame.maxSize := by
    decide +kernel
  have hresponse : (Response.message escapedMessage).encode.length ≤ Frame.maxSize := by
    decide +kernel
  exact ⟨hrequest, hresponse, wire_loses_nothing.1 _ hrequest, wire_loses_nothing.2 _ hresponse⟩

end Muster

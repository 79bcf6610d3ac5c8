import Muster.Message.Envelope

/-!
# Responses

What the relay sends to a member.  Views and relayed messages come unasked;
every other response answers one request.
-/

namespace Muster

open Json

/-- The current view of a cluster, if it has members. -/
structure GetViewResponse where
  view : Option View
  deriving DecidableEq, Repr

/-- A listing of every cluster. -/
structure DumpResponse where
  text : String
  deriving DecidableEq, Repr

/-- An absent view is written as null, and may be left out. -/
def GetViewResponse.record : Record GetViewResponse where
  title := "GetViewResponse"
  fields := .cons "view" (.defaulted none) (.optional View.record.schema) .nil
  build := fun (view, ()) => ⟨view⟩
  split := fun response => (response.view, ())

def DumpResponse.record : Record DumpResponse where
  title := "DumpResponse"
  fields := .cons "text" .required (.scalar .text) .nil
  build := fun (text, ()) => ⟨text⟩
  split := fun response => (response.text, ())

/-- A response of the relay. -/
inductive Response
  | view (view : View)
  | message (envelope : Envelope)
  | registerViewAck
  | leaveAck
  | getViewResponse (response : GetViewResponse)
  | dumpResponse (response : DumpResponse)
  deriving DecidableEq, Repr

namespace Response

def layout : Tagged Response where
  title := "Response"
  cases := [
    .holding "view" View.record view,
    .holding "message" Envelope.record message,
    .bare "registerViewAck" registerViewAck,
    .bare "leaveAck" leaveAck,
    .holding "getViewResponse" GetViewResponse.record getViewResponse,
    .holding "dumpResponse" DumpResponse.record dumpResponse]

def tag : Response → String
  | view _ => "view"
  | message _ => "message"
  | registerViewAck => "registerViewAck"
  | leaveAck => "leaveAck"
  | getViewResponse _ => "getViewResponse"
  | dumpResponse _ => "dumpResponse"

def toMembers : Response → List (String × Tree)
  | view current => View.record.toMembers current
  | message envelope => Envelope.record.toMembers envelope
  | registerViewAck => []
  | leaveAck => []
  | getViewResponse response => GetViewResponse.record.toMembers response
  | dumpResponse response => DumpResponse.record.toMembers response

def toTree (response : Response) : Tree :=
  Tagged.toTree response.tag response.toMembers

def bare : Response → Response
  | view current => view current.bare
  | message envelope => message envelope.bare
  | getViewResponse response => getViewResponse ⟨response.view.map View.bare⟩
  | response => response

end Response

end Muster

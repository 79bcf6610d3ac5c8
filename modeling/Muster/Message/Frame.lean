import Muster.Message.Request
import Muster.Message.Response

/-!
# Frames

A frame is the bytes of one message on the wire.  Frames without bytes and
frames beyond the size limit are refused before they are read.
-/

namespace Muster

open Json Text

abbrev Frame := List UInt8

/-- Why a frame is refused. -/
inductive FrameError
  | empty
  | tooLarge (size : Nat)
  | malformed (fault : Fault)
  deriving DecidableEq, Repr

namespace Frame

def maxSize : Nat := 50 * 1024 * 1024

def decodeWith {α : Type} (reader : Reader α) (frame : Frame) : Except FrameError α :=
  if frame.isEmpty then .error .empty
  else if maxSize < frame.length then .error (.tooLarge frame.length)
  else match reader.run frame with
    | .ok value => .ok value
    | .error fault => .error (.malformed fault)

def text? (frame : Frame) : Option String :=
  ofUtf8? frame

end Frame

def FrameError.message : FrameError → String
  | empty => "Empty frame"
  | tooLarge size =>
    "Frame exceeds max size (" ++ decimal size ++ " > " ++ decimal Frame.maxSize ++ ")"
  | malformed fault => "Malformed frame: " ++ fault.message

def Json.Record.encode {α : Type} (record : Record α) (x : α) : Frame :=
  (record.schema.toTree x).written

def Json.Record.decode {α : Type} (record : Record α) (frame : Frame) : Except FrameError α :=
  Frame.decodeWith record.schema.scan frame

def RelayKind.encode (kind : RelayKind) : Frame :=
  (RelayKind.schema.toTree kind.index).written

def RelayKind.decode (frame : Frame) : Except FrameError RelayKind :=
  (Frame.decodeWith RelayKind.schema.scan frame).map RelayKind.ofIndex

def Request.encode (request : Request) : Frame :=
  request.toTree.written

def Request.decode (frame : Frame) : Except FrameError Request :=
  Frame.decodeWith Request.layout.scan frame

def Response.encode (response : Response) : Frame :=
  response.toTree.written

def Response.decode (frame : Frame) : Except FrameError Response :=
  Frame.decodeWith Response.layout.scan frame

end Muster

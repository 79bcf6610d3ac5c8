import Muster.Message.Envelope

/-!
# Requests

What a member asks of the relay.
-/

namespace Muster

open Json

structure JoinRequest where
  cluster : String
  address : Address
  deriving DecidableEq, Repr

structure LeaveRequest where
  cluster : String
  address : Address
  deriving DecidableEq, Repr

/-- Seeds a cluster with a view known elsewhere. -/
structure RegisterViewRequest where
  cluster : String
  view : View
  address : Address
  deriving DecidableEq, Repr

structure GetViewRequest where
  cluster : String
  deriving DecidableEq, Repr

def JoinRequest.record : Record JoinRequest where
  title := "JoinRequest"
  fields :=
    .cons "cluster" .required (.scalar .text) <|
    .cons "address" .required Address.record.schema .nil
  build := fun (cluster, address, ()) => ⟨cluster, address⟩
  split := fun request => (request.cluster, request.address, ())

def LeaveRequest.record : Record LeaveRequest where
  title := "LeaveRequest"
  fields :=
    .cons "cluster" .required (.scalar .text) <|
    .cons "address" .required Address.record.schema .nil
  build := fun (cluster, address, ()) => ⟨cluster, address⟩
  split := fun request => (request.cluster, request.address, ())

def RegisterViewRequest.record : Record RegisterViewRequest where
  title := "RegisterViewRequest"
  fields :=
    .cons "cluster" .required (.scalar .text) <|
    .cons "view" .required View.record.schema <|
    .cons "address" .required Address.record.schema .nil
  build := fun (cluster, view, address, ()) => ⟨cluster, view, address⟩
  split := fun request => (request.cluster, request.view, request.address, ())

def GetViewRequest.record : Record GetViewRequest where
  title := "GetViewRequest"
  fields := .cons "cluster" .required (.scalar .text) .nil
  build := fun (cluster, ()) => ⟨cluster⟩
  split := fun request => (request.cluster, ())

/-- A request of a member. -/
inductive Request
  /-- enter a cluster; a new member is announced in a view -/
  | join (request : JoinRequest)
  /-- leave a cluster; always acknowledged -/
  | leave (request : LeaveRequest)
  /-- seed a cluster; acknowledged, and nobody else is told -/
  | registerView (request : RegisterViewRequest)
  /-- ask for the current view of a cluster -/
  | getView (request : GetViewRequest)
  /-- relay a message -/
  | message (envelope : Envelope)
  /-- list every cluster -/
  | dump
  deriving DecidableEq, Repr

namespace Request

def layout : Tagged Request where
  title := "Request"
  cases := [
    .holding "join" JoinRequest.record join,
    .holding "leave" LeaveRequest.record leave,
    .holding "registerView" RegisterViewRequest.record registerView,
    .holding "getView" GetViewRequest.record getView,
    .holding "message" Envelope.record message,
    .bare "dump" dump]

def tag : Request → String
  | join _ => "join"
  | leave _ => "leave"
  | registerView _ => "registerView"
  | getView _ => "getView"
  | message _ => "message"
  | dump => "dump"

def cluster? : Request → Option String
  | join request => some request.cluster
  | leave request => some request.cluster
  | registerView request => some request.cluster
  | getView request => some request.cluster
  | message envelope => some envelope.cluster
  | dump => none

def toMembers : Request → List (String × Tree)
  | join request => JoinRequest.record.toMembers request
  | leave request => LeaveRequest.record.toMembers request
  | registerView request => RegisterViewRequest.record.toMembers request
  | getView request => GetViewRequest.record.toMembers request
  | message envelope => Envelope.record.toMembers envelope
  | dump => []

def toTree (request : Request) : Tree :=
  Tagged.toTree request.tag request.toMembers

def bare : Request → Request
  | join request => join { request with address := request.address.bare }
  | leave request => leave { request with address := request.address.bare }
  | registerView request =>
    registerView { request with view := request.view.bare, address := request.address.bare }
  | getView request => getView request
  | message envelope => message envelope.bare
  | dump => dump

end Request

end Muster

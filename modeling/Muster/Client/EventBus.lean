import Muster.Message.Envelope

/-!
# Events and their handlers

Views and messages are handed to the handlers subscribed at that moment, in the
order of their subscriptions.  A handler may drop subscriptions and make new
ones while it runs; who is called is settled before the first one is.
Subscriptions are held under names, and taking a name again drops what it held
before, after the new subscription has been made.

A handler may also own subscriptions, which are dropped when it is destroyed.
It is there as long as it is subscribed or an event is on its way to it.  A
handler that nobody refers to any more is destroyed where its subscription
ends, and this is under the lock of the bus.  If it owns a subscription, that
one is to be ended under the same lock.  Then the holder of the lock waits for
it, and so does everybody else from then on: the bus is stuck.
-/

namespace Muster

/-- What a client tells its application. -/
inductive Event
  | view (view : View)
  | message (envelope : Envelope)
  deriving DecidableEq, Repr

/-- The events that a handler cares for. -/
inductive Interest
  | any
  | views
  | messages
  deriving DecidableEq, Repr

def Interest.covers : Interest → Event → Bool
  | any, _ => true
  | views, .view _ => true
  | messages, .message _ => true
  | _, _ => false

mutual

/-- A handler with the name of its subscription. -/
inductive Handler
  | mk (name : String) (interest : Interest) (reactions : List Reaction)

/-- What a handler does after it has been called. -/
inductive Reaction
  | drop (name : String)
  | subscribe (handler : Handler)
  /-- the subscription held under one name passes to the handler held under another -/
  | entrust (name owner : String)

end

namespace Handler

def name : Handler → String
  | mk name _ _ => name

def interest : Handler → Interest
  | mk _ interest _ => interest

def reactions : Handler → List Reaction
  | mk _ _ reactions => reactions

end Handler

/-- The handlers of a client. -/
structure EventBus where
  /-- the subscriptions in the order they were made, with their numbers -/
  subscriptions : List (Nat × Handler)
  /-- the number of the next subscription -/
  nextId : Nat
  /-- the numbers of the subscriptions held under each name -/
  held : List (String × Nat)
  /-- the numbers of the subscriptions that handlers own, each after that of the owner -/
  owned : List (Nat × Nat)
  /-- the numbers of the handlers that an event is on its way to -/
  lent : List Nat
  /-- whether the holder of the lock waits for it -/
  isStuck : Bool
  /-- the calls of handlers so far -/
  calls : List (String × Event)

namespace EventBus

def empty : EventBus := ⟨[], 0, [], [], [], false, []⟩

def size (bus : EventBus) : Nat :=
  bus.subscriptions.length

/-- Whether a handler is still there. -/
def isAlive (bus : EventBus) (id : Nat) : Bool :=
  bus.subscriptions.any (fun subscription => subscription.1 = id) || bus.lent.contains id

/-- Ends a subscription under the lock.  If nobody else refers to its handler, that one is
destroyed before the lock is given back. -/
def unsubscribe (bus : EventBus) (id : Nat) : EventBus :=
  if bus.isStuck then bus
  else { bus with
    subscriptions := bus.subscriptions.filter fun subscription => subscription.1 ≠ id
    isStuck := !bus.lent.contains id && bus.owned.any fun owning => owning.1 = id }

/-- Takes subscriptions from those who hold them. -/
def take (bus : EventBus) (ids : List Nat) : EventBus :=
  { bus with
    held := bus.held.filter fun entry => entry.2 ∉ ids
    owned := bus.owned.filter fun owning => owning.2 ∉ ids }

/-- Drops subscriptions one after the other. -/
def discard (bus : EventBus) (ids : List Nat) : EventBus :=
  if bus.isStuck then bus else ids.foldl unsubscribe (bus.take ids)

/-- Drops the subscription held under a name.  Other names mean nothing. -/
def drop (bus : EventBus) (name : String) : EventBus :=
  bus.discard (bus.held.lookup name).toList

/-- Makes a subscription and holds it under the handler's name. -/
def subscribe (bus : EventBus) (handler : Handler) : EventBus :=
  if bus.isStuck then bus
  else
    let added := { bus with
      subscriptions := bus.subscriptions ++ [(bus.nextId, handler)]
      nextId := bus.nextId + 1 }
    let freed := added.drop handler.name
    { freed with held := (handler.name, bus.nextId) :: freed.held }

/-- Lets a handler own a subscription. -/
def pass (bus : EventBus) (id owner : Nat) : EventBus :=
  if bus.isStuck then bus
  else { bus.take [id] with owned := (bus.take [id]).owned ++ [(owner, id)] }

def entrust (bus : EventBus) (name owner : String) : EventBus :=
  match bus.held.lookup name, bus.held.lookup owner with
  | some id, some owner => bus.pass id owner
  | _, _ => bus

def react (bus : EventBus) : Reaction → EventBus
  | .drop name => bus.drop name
  | .subscribe handler => bus.subscribe handler
  | .entrust name owner => bus.entrust name owner

/-- Calls one handler, if it cares for the event. -/
def call (event : Event) (bus : EventBus) (handler : Handler) : EventBus :=
  if !bus.isStuck && handler.interest.covers event then
    handler.reactions.foldl react { bus with calls := bus.calls ++ [(handler.name, event)] }
  else bus

/-- Refers to every handler that is subscribed now. -/
def lend (bus : EventBus) : EventBus :=
  { bus with lent := bus.subscriptions.map Prod.fst ++ bus.lent }

/-- Gives up one reference to a handler. -/
def release (bus : EventBus) (id : Nat) : EventBus :=
  { bus with lent := bus.lent.erase id }

/-- What a handler owns, if nobody refers to it any more. -/
def left (bus : EventBus) (id : Nat) : List Nat :=
  if bus.isAlive id then [] else (bus.owned.filter fun owning => owning.1 = id).map Prod.snd

/-- Gives up the reference to a handler that has been called.  If it was the last one, the
handler drops what it owns. -/
def giveBack (bus : EventBus) (id : Nat) : EventBus :=
  if bus.isStuck then bus
  else (bus.release id).discard ((bus.release id).left id)

/-- Calls a handler that has been lent. -/
def serve (event : Event) (bus : EventBus) (subscription : Nat × Handler) : EventBus :=
  (bus.call event subscription.2).giveBack subscription.1

/-- Hands an event to every handler that is subscribed now. -/
def emit (bus : EventBus) (event : Event) : EventBus :=
  if bus.isStuck then bus
  else bus.subscriptions.foldl (serve event) bus.lend

end EventBus

end Muster

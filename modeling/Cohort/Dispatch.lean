import Cohort.Message.Basic

/-!
Which handler gets a message: the one registered for its kind, else the default, else none.
-/

namespace Cohort

/-- Handlers of type `α` by message kind, each kind at most once. -/
structure Dispatcher (α : Type) where
  handlers : List (MessageKind × α) := []
  fallback : Option α := none

namespace Dispatcher

variable {α : Type}

def find? (d : Dispatcher α) (kind : MessageKind) : Option α := d.handlers.lookup kind

/-- Registers a handler and gives back the one it replaces. -/
def register (d : Dispatcher α) (kind : MessageKind) (handler : α) : Dispatcher α × Option α :=
  ({ d with handlers := (kind, handler) :: d.handlers.filter (·.1 != kind) }, d.find? kind)

def unregister (d : Dispatcher α) (kind : MessageKind) : Dispatcher α × Option α :=
  ({ d with handlers := d.handlers.filter (·.1 != kind) }, d.find? kind)

def setDefault (d : Dispatcher α) (handler : α) : Dispatcher α := { d with fallback := some handler }

def isRegistered (d : Dispatcher α) (kind : MessageKind) : Bool := (d.find? kind).isSome

/-- The handler of a message; without one the message is dropped. -/
def route (d : Dispatcher α) (message : Message) : Option α :=
  (d.find? message.kind).or d.fallback

end Dispatcher

end Cohort

/-!
# Assertions

`SRV_ASSERT` throws where its condition fails (`asserts.h`). A member function that throws
keeps what it has changed so far, so an `Outcome` carries the objects in either case.
-/
namespace ServerLib

/-- What `SRV_ASSERT` throws: the text of the condition and the message behind it. -/
structure LogicError where
  test : String
  note : String := ""
  deriving DecidableEq, Repr

/-- The objects a member function has changed when it returns or throws. -/
inductive Outcome (α : Type) where
  | returned (state : α)
  | thrown (error : LogicError) (state : α)
  deriving Repr

namespace Outcome

variable {α β : Type}

/-- The call of a member of `β` seen as a part of `α`. -/
def map (f : α → β) : Outcome α → Outcome β
  | returned state => returned (f state)
  | thrown error state => thrown error (f state)

/-- The next statement, unless the one before has thrown. -/
def bind (outcome : Outcome α) (next : α → Outcome α) : Outcome α :=
  match outcome with
  | returned state => next state
  | thrown error state => thrown error state

def state : Outcome α → α
  | returned state => state
  | thrown _ state => state

def threw : Outcome α → Bool
  | returned _ => false
  | thrown _ _ => true

def error : Outcome α → Option LogicError
  | returned _ => none
  | thrown error _ => some error

@[simp] theorem map_returned (f : α → β) (state : α) :
    (returned state).map f = returned (f state) := rfl

@[simp] theorem map_thrown (f : α → β) (error : LogicError) (state : α) :
    (thrown error state).map f = thrown error (f state) := rfl

@[simp] theorem bind_returned (state : α) (next : α → Outcome α) :
    (returned state).bind next = next state := rfl

@[simp] theorem bind_thrown (error : LogicError) (state : α) (next : α → Outcome α) :
    (thrown error state).bind next = thrown error state := rfl

end Outcome

end ServerLib

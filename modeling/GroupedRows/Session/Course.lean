import GroupedRows.Session.State

/-!
# Calls and their courses

A call may send notices before it ends, and what their receivers do to the session is
not up to the call. Its course tells the two apart: either it has ended with an answer,
or a notice goes out and it goes on with whatever session the receivers leave.
-/

namespace GroupedRows

/-- How a notice is sent. -/
abbrev Emit := Notice → Session → Session

/-- What a call does from some session on. -/
inductive Course (α : Type) where
  | ended (answer : α) (s : Session)
  /-- A notice goes out from a session; its receivers leave another one for the rest. -/
  | sends (n : Notice) (s : Session) (rest : Session → Course α)

namespace Course

variable {α β : Type}

/-- Goes on after the end with another course. -/
def andThen (f : α → Session → Course β) : Course α → Course β
  | ended answer s => f answer s
  | sends n s rest => sends n s fun s => (rest s).andThen f

/-- Answer and session at the end if `emit` sends the notices. -/
def finish (emit : Emit) : Course α → α × Session
  | ended answer s => (answer, s)
  | sends n s rest => (rest (emit n s)).finish emit

/-- What follows starts where the first course ends. -/
theorem finish_andThen (emit : Emit) (f : α → Session → Course β) (c : Course α) :
    (c.andThen f).finish emit =
      (f (c.finish emit).1 (c.finish emit).2).finish emit := by
  induction c with
  | ended answer s => rfl
  | sends n s rest ih => exact ih (emit n s)

end Course

/-- A call with an answer of a type. -/
structure Call (α : Type) where
  /-- The course that the call takes from a session. -/
  start : Session → Course α

namespace Call

variable {α β : Type}

instance : Monad Call where
  pure answer := ⟨fun s => .ended answer s⟩
  bind m f := ⟨fun s => (m.start s).andThen fun answer => (f answer).start⟩

/-- The session as it is. -/
def read : Call Session := ⟨fun s => .ended s s⟩

/-- Changes the session. -/
def change (f : Session → Session) : Call Unit := ⟨fun s => .ended () (f s)⟩

/-- Sends a notice. -/
def send (n : Notice) : Call Unit := ⟨fun s => .sends n s fun s => .ended () s⟩

/-- Answer and session at the end if `emit` sends the notices. -/
def run (emit : Emit) (m : Call α) (s : Session) : α × Session := (m.start s).finish emit

@[simp] theorem run_pure (emit : Emit) (answer : α) (s : Session) :
    run emit (pure answer) s = (answer, s) := rfl

@[simp] theorem run_bind (emit : Emit) (m : Call α) (f : α → Call β) (s : Session) :
    run emit (m >>= f) s = run emit (f (run emit m s).1) (run emit m s).2 :=
  Course.finish_andThen emit _ (m.start s)

@[simp] theorem run_read (emit : Emit) (s : Session) : run emit read s = (s, s) := rfl

@[simp] theorem run_change (emit : Emit) (f : Session → Session) (s : Session) :
    run emit (change f) s = ((), f s) := rfl

@[simp] theorem run_send (emit : Emit) (n : Notice) (s : Session) :
    run emit (send n) s = ((), emit n s) := rfl

end Call

end GroupedRows

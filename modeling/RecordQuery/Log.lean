/-!
# Results with a log

An operation may report what it did: its value comes with the messages it logged, in order.
-/

namespace RecordQuery

/-- How much attention a message asks for. -/
inductive Log.Level where
  | trace
  | debug
  | warn
deriving DecidableEq, Repr

/-- One logged message. -/
structure Log.Entry where
  level : Log.Level
  message : String
deriving DecidableEq, Repr

/-- A value, and what was logged on the way to it. -/
structure Logged (α : Type) where
  value : α
  log : List Log.Entry

namespace Logged

/-- Logs one message that follows single steps. -/
def trace (message : String) : Logged Unit := ⟨(), [⟨.trace, message⟩]⟩
/-- Logs one message about a whole operation. -/
def debug (message : String) : Logged Unit := ⟨(), [⟨.debug, message⟩]⟩
/-- Logs one message about something amiss. -/
def warn (message : String) : Logged Unit := ⟨(), [⟨.warn, message⟩]⟩

instance : Monad Logged where
  pure a := ⟨a, []⟩
  bind x f := ⟨(f x.value).value, x.log ++ (f x.value).log⟩

@[simp] theorem value_pure {α : Type} (a : α) : (pure a : Logged α).value = a := rfl

@[simp] theorem log_pure {α : Type} (a : α) : (pure a : Logged α).log = [] := rfl

@[simp] theorem value_bind {α β : Type} (x : Logged α) (f : α → Logged β) :
    (x >>= f).value = (f x.value).value := rfl

@[simp] theorem log_bind {α β : Type} (x : Logged α) (f : α → Logged β) :
    (x >>= f).log = x.log ++ (f x.value).log := rfl

@[simp] theorem value_map {α β : Type} (f : α → β) (x : Logged α) :
    (f <$> x).value = f x.value := rfl

end Logged

end RecordQuery

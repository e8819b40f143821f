import Rebuild.Error
import Rebuild.Log

/-!
# Answers with their log

An answer is what was logged on the way and then a value or a failure. Lines that were logged before
a failure stay: they are often what explains it.
-/

namespace Rebuild

/-- Log lines in order, and how the work ended. -/
structure Reported (α : Type) where
  lines : List LogLine
  outcome : Except Error α

namespace Reported

variable {α β : Type}

/-- A value, with nothing to tell. -/
def done (value : α) : Reported α := ⟨[], .ok value⟩

/-- A failure, with nothing to tell. -/
def failed (error : Error) : Reported α := ⟨[], .error error⟩

/-- A result without a log. -/
def ofExcept (outcome : Except Error α) : Reported α := ⟨[], outcome⟩

/-- One line. -/
def log (level : Level) (text : String) : Reported Unit := ⟨[⟨level, text⟩], .ok ()⟩

/-- Lines in order. -/
def logAll (lines : List LogLine) : Reported Unit := ⟨lines, .ok ()⟩

/-- First one piece of work, then what it leads to. After a failure nothing follows. -/
def andThen (first : Reported α) (next : α → Reported β) : Reported β :=
  match first.outcome with
  | .ok value => ⟨first.lines ++ (next value).lines, (next value).outcome⟩
  | .error error => ⟨first.lines, .error error⟩

instance : Monad Reported where
  pure := done
  bind := andThen

end Reported

end Rebuild

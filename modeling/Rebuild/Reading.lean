import Rebuild.FileSystem
import Rebuild.Reported

/-!
# Work that reads a file system

Scans and comparisons look at a file system many times, and it may change between two looks. So such
work is described apart from any file system: as a tree whose nodes ask a question, with a branch
for each answer, or write a log line. It is then run in a file system that stands still, or in one
that others change before a question and after a line.
-/

namespace Rebuild

/-- A look at a file system. -/
inductive Question where
  /-- What a path leads to. -/
  | status (path : Path)
  /-- What a path names, which may be a link. -/
  | kind (path : Path)
  /-- What a path leads to, if it can be opened. -/
  | handle (path : Path)
  /-- What is in a directory. -/
  | listing (path : Path)
  /-- The text of a file. -/
  | text (path : Path)

/-- What is seen. -/
def Question.Answer : Question → Type
  | status _ => Except FileSystem.Fault FileSystem.Status
  | kind _ => Except FileSystem.Fault FileSystem.Kind
  | handle _ => Except FileSystem.Fault Location
  | listing _ => Except FileSystem.Fault (List (FileName × FileSystem.Kind))
  | text _ => Except FileSystem.Fault String

/-- The answer of a file system. -/
def FileSystem.answer (fs : FileSystem) : (q : Question) → q.Answer
  | .status path => fs.status path
  | .kind path => fs.kind path
  | .handle path => fs.handle path
  | .listing path => fs.listing path
  | .text path => fs.text path

/-- Work that asks questions and writes log lines until it ends with a value or a failure. -/
inductive Reading (α : Type) where
  | ended (outcome : Except Error α)
  | ask (q : Question) (next : q.Answer → Reading α)
  | write (line : LogLine) (next : Reading α)

namespace Reading

variable {α β : Type}

/-- First one piece of work, then what it leads to. After a failure nothing follows. -/
def andThen (next : α → Reading β) : Reading α → Reading β
  | ended (.ok value) => next value
  | ended (.error error) => ended (.error error)
  | ask q rest => ask q fun answer => (rest answer).andThen next
  | write line rest => write line (rest.andThen next)

instance : Monad Reading where
  pure value := ended (.ok value)
  bind work next := work.andThen next

/-- Ends the work. -/
def fail (error : Error) : Reading α := ended (.error error)

/-- Asks one question. -/
def look (q : Question) : Reading q.Answer := ask q fun answer => ended (.ok answer)

/-- Writes one line. -/
def log (level : Level) (text : String) : Reading Unit := write ⟨level, text⟩ (ended (.ok ()))

/-- Work that is done without looking. -/
def ofReported (r : Reported α) : Reading α :=
  r.lines.foldr write (ended r.outcome)

/-- A result without looking. -/
def ofExcept (outcome : Except Error α) : Reading α := ended outcome

/-- The work done in a file system that stands still. -/
def on (fs : FileSystem) : Reading α → Reported α
  | ended outcome => ⟨[], outcome⟩
  | ask q next => (next (fs.answer q)).on fs
  | write line next => ⟨line :: (next.on fs).lines, (next.on fs).outcome⟩

/-- When others can change the file system: before a question is answered, and after a line is
written. -/
inductive Moment where
  | before (q : Question)
  | after (line : LogLine)

/-- What others do at a moment, with a memory of their own. -/
abbrev Others (σ : Type) := Moment → σ → FileSystem → σ × FileSystem

/-- The work done while others change the file system, with the memory and the file system that they
leave. -/
def amid {σ : Type} (others : Others σ) (memory : σ) (fs : FileSystem) :
    Reading α → Reported α × σ × FileSystem
  | ended outcome => (⟨[], outcome⟩, memory, fs)
  | ask q next =>
    let (memory, fs) := others (.before q) memory fs
    (next (fs.answer q)).amid others memory fs
  | write line next =>
    let (memory, fs) := others (.after line) memory fs
    let (rest, memory, fs) := next.amid others memory fs
    (⟨line :: rest.lines, rest.outcome⟩, memory, fs)

end Reading

end Rebuild

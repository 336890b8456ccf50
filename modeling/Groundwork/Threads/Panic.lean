/-!
# Panics

A piece of work that runs on a thread either finishes or panics with something that may be a text.
-/

namespace Groundwork.Threads

/-- What a panic carries. -/
inductive Panic where
  | text (s : String)
  | other
deriving DecidableEq, Repr

/-- The text shown for a panic that carries none. -/
def Panic.placeholder : String := "<non-string panic payload>"

/-- What a panic is reported as. -/
def Panic.message : Panic → String
  | .text s => s
  | .other => placeholder

/-- How a task ends. -/
inductive Task where
  | finishes
  | panics (p : Panic)
deriving DecidableEq, Repr

end Groundwork.Threads

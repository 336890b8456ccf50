import Groundwork.Text.Digits
import Groundwork.Text.Pieces
import Groundwork.Text.Quoted

/-!
# Thread name formats

A format is a text in which every placeholder, an opening brace with the closing brace right after
it, stands for the number of a thread. There are no other braces in it, and no NUL.

* `isFormat` is the test, `fill` replaces the placeholders.
* `NameFormat` is a text that passes the test; `NameFormat.name` is the name of one thread.
-/

namespace Groundwork.Threads

/-- The reasons why a thread factory cannot be set up as asked. -/
inductive SetupError where
  | invalidNameFormat (format : String)
  | zeroStackSize
deriving DecidableEq, Repr

/-- The wording of a refusal. -/
def SetupError.message : SetupError → String
  | .invalidNameFormat format =>
    "invalid thread name format " ++ Text.quoted format ++
      ": only `\x7b\x7d` placeholders are allowed"
  | .zeroStackSize => "thread stack size must be non-zero"

/-- Whether every brace belongs to a placeholder and no character is NUL. -/
def isFormat : List Char → Bool
  | [] => true
  | '{' :: rest =>
    match rest with
    | '}' :: rest => isFormat rest
    | _ => false
  | c :: rest => c != '}' && c != '\x00' && isFormat rest

/-- What stands for the number of a thread. -/
def placeholder : List Char := ['{', '}']

/-- The text with `number` in place of every placeholder. -/
def fill (number : List Char) (s : List Char) : List Char :=
  Text.replaced placeholder number s

/-- A text that names threads by their numbers. -/
structure NameFormat where
  chars : List Char
  isFormat_chars : isFormat chars = true

namespace NameFormat

/-- The format of a text, if it is one. -/
def ofString (s : String) : Except SetupError NameFormat :=
  if h : isFormat s.toList = true then .ok ⟨s.toList, h⟩ else .error (.invalidNameFormat s)

/-- The name of the thread with a number. -/
def name (f : NameFormat) (n : Nat) : String :=
  String.ofList (fill (Text.decimal n) f.chars)

end NameFormat

end Groundwork.Threads

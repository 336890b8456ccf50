import Groundwork.Report
import Groundwork.Text.Quoted

/-!
# The command line

The program takes a command and its arguments: `parse` describes the addresses of literals,
`classify` reports on the IPv4 addresses inside an IPv6 address, and `uri` describes the address of
a URI host.

* `Command.ofArguments` reads the arguments from left to right; an argument that begins with a
  hyphen and goes on is an option, unless it stands after `--`. The options that ask for the version
  or for how to call the program take effect as soon as they are read.
* `Command.run` gives the lines to print and, if the command fails, what went wrong.
* `runWith` puts a reader of arguments and `Command.run` together to an exit code and the texts for
  the two output streams; `run` does so with `Command.ofArguments`.
-/

namespace Groundwork.CommandLine

/-- The name and version that the program gives for itself. -/
def version : String := "trove-cli 0.1.0"

/-- How to call the program. -/
def usage : String :=
  "Usage: parse <ADDRS>... | classify <ADDR> | uri <HOST>"

/-! ## Options -/

/-- Whether an argument is an option: it begins with a hyphen and goes on. -/
def isOption (arg : String) : Bool :=
  match arg.toList with
  | '-' :: _ :: _ => true
  | _ => false

/-- Whether an option is `long`, or begins with the short option of a letter; short options may
stand together, and the first of them takes effect. -/
def isFlag (long : String) (letter : Char) (arg : String) : Bool :=
  arg = long || ['-', letter].isPrefixOf arg.toList

/-- Whether an argument asks for the version. -/
def asksForVersion (arg : String) : Bool := isFlag "--version" 'V' arg

/-- Whether an argument asks how to call the program. -/
def asksForUsage (arg : String) : Bool := isFlag "--help" 'h' arg

/-- Why the arguments of a command are not read to their end: one of them is out of place, or asks
how to call the program. -/
inductive Interruption where
  | malformed
  | usageAsked
deriving DecidableEq, Repr

/-- The values among the arguments of a command that has room for so many, or for any number. The
first `--` is no value, and all that stands after it is. -/
def values (room : Option Nat) : List String → Except Interruption (List String)
  | [] => .ok []
  | arg :: more =>
    if arg = "--" then
      if room.any (· < more.length) then .error .malformed else .ok more
    else if asksForUsage arg then .error .usageAsked
    else if isOption arg ∨ room = some 0 then .error .malformed
    else (values (room.map (· - 1)) more).map (arg :: ·)

/-! ## Commands -/

/-- The names of commands. -/
inductive Verb where
  | parse
  | classify
  | uri
deriving DecidableEq, Repr

/-- What the program is asked to do. -/
inductive Command where
  | parse (texts : List String)
  | classify (text : String)
  | uri (host : String)
  | showVersion
  | showUsage
deriving DecidableEq, Repr

namespace Verb

/-- The verb of a name. -/
def ofName? : String → Option Verb
  | "parse" => some .parse
  | "classify" => some .classify
  | "uri" => some .uri
  | _ => none

/-- How many values there is room for, if not for any number. -/
def room : Verb → Option Nat
  | .parse => none
  | .classify | .uri => some 1

/-- The command of a verb and its values, if there are as many as it needs. -/
def command? : Verb → List String → Option Command
  | .parse, text :: more => some (.parse (text :: more))
  | .classify, [text] => some (.classify text)
  | .uri, [host] => some (.uri host)
  | _, _ => none

end Verb

/-- Whether there is help on the arguments after `help`: on the program, on a command, or on `help`
itself. -/
def isHelpTopic : List String → Bool
  | [] => true
  | [topic] => topic = "help" || (Verb.ofName? topic).isSome
  | _ => false

/-- The command of a list of arguments, if it is well formed. -/
def Command.ofArguments : List String → Option Command
  | [] => none
  | first :: args =>
    match Verb.ofName? first with
    | some verb =>
      match values verb.room args with
      | .ok vs => verb.command? vs
      | .error .usageAsked => some .showUsage
      | .error .malformed => none
    | none =>
      if asksForVersion first then some .showVersion
      else if asksForUsage first ∨ (first = "help" ∧ isHelpTopic args) then some .showUsage
      else none

/-! ## Running a command -/

/-- What went wrong: what was being done, and why it failed, if there is more to say. -/
structure Failure where
  context : String
  cause : Option AddressError
deriving DecidableEq, Repr

/-- The failure to read an address literal. -/
def Failure.parsing (text : String) (cause : AddressError) : Failure :=
  ⟨"parsing " ++ Text.quoted text, some cause⟩

/-- The failure to read a URI host. -/
def Failure.parsingHost (host : String) (cause : AddressError) : Failure :=
  ⟨"parsing URI host " ++ Text.quoted host, some cause⟩

/-- The failure to classify an IPv4 address. -/
def Failure.nothingEmbedded (v : Address.IPv4) : Failure :=
  ⟨v.text ++ " is an IPv4 address; nothing is embedded", none⟩

/-- The text with four spaces in front of each of its lines. -/
def indented (s : String) : String :=
  String.ofList ("    ".toList ++ s.toList.flatMap fun c =>
    if c = '\n' then "\n    ".toList else [c])

/-- The report of a failure. -/
def Failure.report (f : Failure) : String :=
  let cause := match f.cause with
    | some e => "\n\nCaused by:\n" ++ indented e.message
    | none => ""
  "Error: " ++ f.context ++ cause ++ "\n"

/-- The blocks of lines about the addresses of literals, up to the first text that is no literal. -/
def describeAll : List String → List String × Option Failure
  | [] => ([], none)
  | text :: more =>
    match Address.ofLiteral text with
    | .ok a =>
      let later := describeAll more
      (Report.description a ++ later.1, later.2)
    | .error e => ([], some (.parsing text e))

/-- The lines that a command prints, and what went wrong if it fails. -/
def Command.run : Command → List String × Option Failure
  | .parse texts => describeAll texts
  | .classify text =>
    match Address.ofLiteral text with
    | .ok (.v6 v) => (Report.classification v, none)
    | .ok (.v4 v) => ([], some (.nothingEmbedded v))
    | .error e => ([], some (.parsing text e))
  | .uri host =>
    match Address.ofHost host with
    | .ok a => (Report.description a, none)
    | .error e => ([], some (.parsingHost host e))
  | .showVersion => ([version], none)
  | .showUsage => ([usage], none)

/-! ## Running the program -/

/-- An exit code and the texts for standard output and standard error. -/
structure Result where
  code : UInt8
  output : String
  errors : String
deriving DecidableEq, Repr

/-- The code of a call that is not well formed. -/
def usageErrorCode : UInt8 := 2

/-- Lines with a line feed at the end of each. -/
def ofLines (lines : List String) : String :=
  String.join (lines.map (· ++ "\n"))

/-- What comes of a command. -/
def Command.result (command : Command) : Result :=
  match command.run with
  | (lines, none) => ⟨0, ofLines lines, ""⟩
  | (lines, some failure) => ⟨1, ofLines lines, failure.report⟩

/-- What comes of calling the program with arguments that are read in some way. -/
def runWith (ofArguments : List String → Option Command) (args : List String) : Result :=
  match ofArguments args with
  | none => ⟨usageErrorCode, "", usage ++ "\n"⟩
  | some command => command.result

/-- What comes of calling the program with arguments. -/
def run (args : List String) : Result :=
  runWith Command.ofArguments args

end Groundwork.CommandLine

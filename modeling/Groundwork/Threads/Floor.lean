import Groundwork.Threads.Factory

/-!
# Threads side by side

A workshop joins each thread before anything else is ordered. On a floor, the threads of a workshop
run side by side and end in any order, while more is ordered; what a handler notes of a thread is
noted when the thread ends.

* `Work` is what runs on a thread, `Work.guarded` work with a handler around it. `Launch.work` is
  what a launch hands on.
* `Thread` is a thread that was started, `Thread.joined?` what joining it tells.
* `Floor` is a workshop with all its threads, `Event` an order or the end of a thread.
* `Payload` is what a panic carries, with the two kinds of texts apart.
-/

namespace Groundwork.Threads

/-! ## Work -/

/-- What comes of work: what was noted, and the panic that came out of it, if there was one. -/
structure Ending where
  notes : List Note
  panic : Option Panic
deriving DecidableEq, Repr

/-- Work that can be done on a thread of any name. -/
abbrev Work := (thread : Option String) → Ending

namespace Work

/-- A task by itself notes nothing. -/
def ofTask : Task → Work
  | .finishes => fun _ => ⟨[], none⟩
  | .panics p => fun _ => ⟨[], some p⟩

/-- Work with a handler around it: a panic that comes out of the work is caught, and the handler
notes it with the name of the thread that it came out on. -/
def guarded (tag : String) (work : Work) : Work := fun thread =>
  let inner := work thread
  match inner.panic with
  | some p => ⟨inner.notes ++ [⟨tag, thread.getD "<unnamed>", p.message⟩], none⟩
  | none => inner

end Work

/-- The work that is handed on: the task, with the handler around it if there is one. -/
def Launch.work (l : Launch) : Work :=
  match l.handler with
  | some tag => (Work.ofTask l.task).guarded tag
  | none => .ofTask l.task

/-! ## Floors -/

/-- A thread that was started: what for, under which name, and whether it has ended. -/
structure Thread where
  launch : Launch
  name : Option String
  ended : Bool

namespace Thread

/-- What comes of the work on the thread. -/
def ending (t : Thread) : Ending :=
  t.launch.work t.name

/-- The panic that joining the thread tells, if any; whoever joins it waits until it has ended. -/
def joined? (t : Thread) : Option (Option Panic) :=
  if t.ended then some t.ending.panic else none

end Thread

namespace Workshop

/-- The launch that an order makes, and the message of the system if the system cannot give a
thread. -/
def launch? (w : Workshop) : Order → Option (Launch × Option String)
  | .spawn index task systemRefusal =>
    w.factories[index]?.map fun f => ((f.launch task).1, systemRefusal)
  | .defaultSpawn task systemRefusal => some (⟨none, ⟨none, none⟩, none, task⟩, systemRefusal)
  | _ => none

/-- The thread that an order starts, if one is asked for and granted. -/
def thread? (w : Workshop) (order : Order) : Option Thread :=
  (w.launch? order).bind fun asked =>
    (asked.1.start w.calls asked.2).1.toOption.map fun name => ⟨asked.1, name, false⟩

end Workshop

/-- A workshop and all threads that were started in it, the oldest first. The notes are those of the
threads that have ended. -/
structure Floor where
  workshop : Workshop
  threads : List Thread

/-- What happens on a floor. -/
inductive Event where
  | order (order : Order)
  | ends (thread : Nat)

/-- The order that an event is. -/
def Event.order? : Event → Option Order
  | .order o => some o
  | .ends _ => none

namespace Floor

/-- A floor on which nothing has happened. -/
def initial : Floor := ⟨.initial, []⟩

/-- The floor after an event. An order is performed, but whoever gives it does not wait for the
thread. A thread ends once. -/
def happens (f : Floor) : Event → Floor
  | .order order =>
    { workshop := { (f.workshop.perform order).2 with notes := f.workshop.notes }
      threads := f.threads ++ (f.workshop.thread? order).toList }
  | .ends index =>
    match f.threads[index]? with
    | none => f
    | some t =>
      if t.ended then f
      else
        { workshop := { f.workshop with notes := f.workshop.notes ++ t.ending.notes }
          threads := f.threads.set index { t with ended := true } }

/-- The floor after events one after the other. -/
def after (f : Floor) (events : List Event) : Floor :=
  events.foldl happens f

end Floor

/-! ## Two kinds of texts -/

/-- What a panic carries: a text that is part of the program, a text that was put together, or
something else. -/
inductive Payload where
  | literal (s : String)
  | composed (s : String)
  | other
deriving DecidableEq, Repr

namespace Payload

/-- The text that is part of the program, if the payload is one. -/
def literal? : Payload → Option String
  | .literal s => some s
  | _ => none

/-- The text that was put together, if the payload is one. -/
def composed? : Payload → Option String
  | .composed s => some s
  | _ => none

/-- What a payload is reported as. It is taken for the one kind of text, then for the other. -/
def message (p : Payload) : String :=
  match p.literal? with
  | some s => s
  | none => match p.composed? with
    | some s => s
    | none => Panic.placeholder

/-- The panic, whatever the kind of its text. -/
def panic : Payload → Panic
  | .literal s => .text s
  | .composed s => .text s
  | .other => .other

end Payload

/-- The task that ends well, or panics with a payload. -/
def Task.ofPayload : Option Payload → Task
  | none => .finishes
  | some p => .panics p.panic

end Groundwork.Threads

import ShaderBundle.Notice

/-! What a session shows to the outside, in order: text on the two output streams, calls on file
observers, waits. Observers belong to the outside: a call on one is an event and no more, and it is
assumed to return. -/
namespace ShaderBundle

/-- Who is to hear of the changes in a directory, and whether of those in its subdirectories too. -/
structure Listener where
  handler : Nat
  recursive : Bool
  deriving DecidableEq, Repr

inductive ObserverCall
  | unscheduleAll
  | schedule (listener : Listener) (directory : String)
  | start
  | stop
  | join
  deriving DecidableEq, Repr

inductive Event
  | output (text : String)
  | error (text : String)
  | observer (number : Nat) (call : ObserverCall)
  | wait
  deriving DecidableEq, Repr

namespace Event

def line (text : String) : Event := .output (text ++ "\n")

def errorLine (text : String) : Event := .error (text ++ "\n")

def notices (wanted : Bool) (notices : List Notice) : List Event :=
  (Notice.lines wanted notices).map line

def outputText (events : List Event) : String :=
  String.join (events.filterMap fun e => match e with
    | .output text => some text
    | _ => none)

def errorText (events : List Event) : String :=
  String.join (events.filterMap fun e => match e with
    | .error text => some text
    | _ => none)

end Event

end ShaderBundle

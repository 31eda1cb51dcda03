import ShaderBundle.Assembler
import ShaderBundle.Event

/-! A watcher bundles a shader anew when one of its module files has changed. Observers report
changes at any time; a report of a watched file only marks a reload as pending, and the next poll
performs it. A load that fails leaves the source and the watched files of the last good one. -/
namespace ShaderBundle

/-- What follows a reload. -/
inductive Reaction
  | none
  | accept
  | refuse (message : String)
  | save (path : String) (announce : Bool)
  deriving DecidableEq, Repr

structure Watcher where
  tree : FileTree
  assembler : Assembler
  root : String
  reaction : Reaction
  verbose : Bool
  source : Option String := none
  /-- Normal absolute paths, each once. -/
  watched : List String := []
  pending : Bool := false
  /-- The number of the observer in use. -/
  observer : Option Nat := none
  /-- How many observers were made. Each comes with a handler of its number, and the last handler
  stays in force. -/
  observers : Nat := 0
  /-- The sources handed to the reaction. -/
  reloads : List String := []

inductive FileEvent
  | modified (path : String)
  | created (path : String)
  | deleted (path : String)
  | moved (path destination : String)
  deriving DecidableEq, Repr

/-- The path that a report is about; the loss of a file is no reason to reload. -/
def FileEvent.concerns : FileEvent → Option String
  | .modified path => some path
  | .created path => some path
  | .deleted _ => none
  | .moved _ destination => some destination

namespace Watcher

structure Step (α : Type) where
  watcher : Watcher
  events : List Event
  result : Except Failure α

def Step.precededBy {α : Type} (events : List Event) (s : Step α) : Step α :=
  { s with events := events ++ s.events }

def Step.map {α β : Type} (f : α → β) (s : Step α) : Step β :=
  ⟨s.watcher, s.events, s.result.map f⟩

def silent (w : Watcher) : Step Unit := ⟨w, [], .ok ()⟩

/-- A list in increasing order, each member once. -/
def sortedOnce (xs : List String) : List String := xs.eraseDups.mergeSort (fun a b => a ≤ b)

def pathOf (w : Watcher) (path : String) : String := Path.absolute w.tree.workingPath path

def isWatched (w : Watcher) (path : String) : Bool := w.watched.contains (w.pathOf path)

def load (w : Watcher) : Step String :=
  let loaded := Assembler.load w.tree w.assembler w.root
  let events := Event.notices w.assembler.verbose loaded.notices
  match loaded.result with
  | .error e => ⟨{ w with assembler := loaded.assembler }, events, .error (.assembly e)⟩
  | .ok source =>
    let watched := sortedOnce (loaded.assembler.sorted.map fun m => w.pathOf m.id)
    ⟨{ w with assembler := loaded.assembler, source := some source, watched }, events,
      .ok source⟩

def directories (w : Watcher) : List String := sortedOnce (w.watched.map Path.parent)

def listener (w : Watcher) : Listener where
  handler := w.observers
  recursive := false

/-- Puts the observer on the directories of the watched files and on no others. That it takes each of
them, and does not fail on one that is gone, is assumed. -/
def scheduling (w : Watcher) (observer : Nat) : List Event :=
  .observer observer .unscheduleAll ::
    w.directories.map fun directory => .observer observer (.schedule w.listener directory)

def unavailable : String :=
  "INFO: Hot-reloading disabled. `watchdog` not installed. Run 'pip install watchdog'."

/-- Makes an observer and starts it on the watched files, where observers can be had. That the
observer schedules and starts without a failure is assumed. -/
def observe (available : Bool) (w : Watcher) : Step Bool :=
  if available then
    let number := w.observers + 1
    let started := { w with observer := some number, observers := number }
    ⟨started,
      started.scheduling number ++ [.observer number .start] ++
        Event.notices w.verbose [.watching w.watched.length w.root],
      .ok true⟩
  else ⟨w, [.line unavailable], .ok false⟩

def start (available : Bool) (w : Watcher) : Step Bool :=
  match w.source with
  | some _ => observe available w
  | none =>
    let loaded := w.load
    match loaded.result with
    | .error e => ⟨loaded.watcher, loaded.events, .error e⟩
    | .ok _ => (observe available loaded.watcher).precededBy loaded.events

def react (source : String) (w : Watcher) : Step Bool :=
  let told := { w with reloads := w.reloads ++ [source] }
  match w.reaction with
  | .none => ⟨w, [], .ok true⟩
  | .accept => ⟨told, [], .ok true⟩
  | .refuse message => ⟨told, [], .error (.reaction message)⟩
  | .save path announce =>
    match w.tree.write path (Text.utf8Bytes source) with
    | .error fault => ⟨told, [], .error (.file fault)⟩
    | .ok tree =>
      ⟨{ told with tree }, Event.notices announce [.wrote path], .ok true⟩

def reloadFailed (e : Failure) : Event :=
  .errorLine ("ERROR: Failed to reassemble shader. Keeping previous source. Details:\n" ++ e.message)

def reschedule (w : Watcher) : List Event :=
  match w.observer with
  | some number => w.scheduling number
  | none => []

/-- Reloads once if a reload is pending; tells whether there is a new source. -/
def poll (w : Watcher) : Step Bool :=
  if w.pending then
    let loaded := { w with pending := false }.load
    let events := Event.notices w.verbose [.changed w.root] ++ loaded.events
    match loaded.result with
    | .error e => ⟨loaded.watcher, events ++ [reloadFailed e], .ok false⟩
    | .ok source =>
      (react source loaded.watcher).precededBy (events ++ loaded.watcher.reschedule)
  else ⟨w, [], .ok false⟩

/-- That the observer stops and can be joined is assumed. -/
def stop (w : Watcher) : Step Unit :=
  match w.observer with
  | none => w.silent
  | some number =>
    ⟨{ w with observer := none }, [.observer number .stop, .observer number .join], .ok ()⟩

/-- Before the first start no handler hears of a change. -/
def deliver (event : FileEvent) (w : Watcher) : Watcher :=
  if w.observers ≠ 0 && event.concerns.any w.isWatched then { w with pending := true }
  else w

def setIncludeRoot (path : String) (w : Watcher) : Step Unit :=
  match Assembler.setIncludeRoot w.tree w.assembler path with
  | .error e => ⟨w, [], .error e⟩
  | .ok assembler => { w with assembler }.silent

def changeTree (change : FileTree.Change) (w : Watcher) : Step Unit :=
  match w.tree.apply change with
  | .error fault => ⟨w, [], .error (.file fault)⟩
  | .ok tree => { w with tree }.silent

/-- What can happen in a session. -/
inductive Action
  | start (available : Bool)
  | load
  | poll
  | stop
  | markPending
  | report (event : FileEvent)
  | includeRoot (path : String)
  | change (change : FileTree.Change)
  deriving DecidableEq, Repr

inductive Answer
  | done
  | flag (value : Bool)
  | source (text : String)
  deriving DecidableEq, Repr

def perform (w : Watcher) : Action → Step Answer
  | .start available => (w.start available).map .flag
  | .load => w.load.map .source
  | .poll => w.poll.map .flag
  | .stop => w.stop.map fun _ => .done
  | .markPending => { w with pending := true }.silent.map fun _ => .done
  | .report event => (w.deliver event).silent.map fun _ => .done
  | .includeRoot path => (w.setIncludeRoot path).map fun _ => .done
  | .change change => (w.changeTree change).map fun _ => .done

structure Session where
  watcher : Watcher
  trace : List Event

/-- A session goes on after an action that fails. -/
def run (w : Watcher) : List Action → Session
  | [] => ⟨w, []⟩
  | action :: rest =>
    let step := w.perform action
    let later := run step.watcher rest
    ⟨later.watcher, step.events ++ later.trace⟩

end Watcher

end ShaderBundle

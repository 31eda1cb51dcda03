import ShaderBundle.CommandLine.Usage
import ShaderBundle.Watcher

/-! A run of the command: bundle the root module, write the source, answer questions about its lines,
and on request keep watching. -/
namespace ShaderBundle.CommandLine

/-- Where a run stands: what it has shown, the files as it leaves them and its exit code. -/
structure Outcome where
  tree : FileTree
  events : List Event
  result : Except Failure Nat

def Outcome.precededBy (events : List Event) (o : Outcome) : Outcome :=
  { o with events := events ++ o.events }

namespace Command

def nonempty? : Given String → Option String
  | .value text => if text = "" then none else some text
  | .absent | .emptied => none

/-- Without a choice files are read as UTF-8. -/
def encodingOf : Given String → Option String
  | .absent => some "utf-8"
  | .emptied => none
  | .value name => some name

/-- The source on standard output ends its last line. -/
def printed (source : String) : String :=
  if source.toList.getLast? = some '\n' then source else source ++ "\n"

/-- Writes the source to the output file, or prints it. -/
def write (tree : FileTree) (source : String) (output : Option String) (verbose : Bool) :
    FileTree × List Event × Except Failure Unit :=
  match output with
  | none => (tree, [.output (printed source)], .ok ())
  | some path =>
    match tree.write path (Text.utf8Bytes source) with
    | .error fault => (tree, [], .error (.file fault))
    | .ok written => (written, Event.notices verbose [.wrote path], .ok ())

def rangeText (r : LineRange) : String := toString (r.first + 1) ++ "-" ++ toString (r.last + 1)

/-- A row of the block table; lines count from one. -/
def blockRow (b : SourceBlock) : String :=
  rangeText b.bundled ++ " -> " ++ b.moduleId ++ ":" ++ rangeText b.inModule

/-- The origin of a line, both counted from one, with the exit code. -/
def mapping (a : Assembler) (line : Int) : Event × Nat :=
  match a.mapLine (line - 1) with
  | none =>
    (.errorLine ("WARNING: Assembled line " ++ toString line ++ " does not map to a module line."), 1)
  | some (m, moduleLine) => (.line (m.id ++ ":" ++ toString (moduleLine + 1)), 0)

def mappingOf (a : Assembler) : Given Int → Except Failure (List Event × Nat)
  | .absent => .ok ([], 0)
  | .emptied => .error .lineEmptied
  | .value line =>
    let (event, code) := mapping a line
    .ok ([event], code)

def report (e : AssemblyError) : Event := .errorLine ("ERROR: " ++ e.message)

def assembler (tree : FileTree) (args : Arguments) : Except Failure Assembler :=
  Assembler.create tree (some (.files (encodingOf args.encoding)))
    ((nonempty? args.includeRoot).getD "") args.verbose

/-- The part of a run before it watches: the assembler with its shader, and the exit code so far. -/
structure Bundled where
  tree : FileTree
  events : List Event
  result : Except Failure (Nat × Option Assembler)

/-- A failed bundling ends the run with code 1. -/
def bundle (tree : FileTree) (args : Arguments) : Bundled :=
  match assembler tree args with
  | .error (.assembly e) => ⟨tree, [report e], .ok (1, none)⟩
  | .error failure => ⟨tree, [], .error failure⟩
  | .ok a =>
    let loaded := Assembler.load tree a args.root
    let progress := Event.notices args.verbose loaded.notices
    match loaded.result with
    | .error e => ⟨tree, progress ++ [report e], .ok (1, none)⟩
    | .ok source =>
      let output := nonempty? args.output
      let (written, saved, outcome) :=
        if output.isSome || (args.map = .absent && !args.blocks) then
          write tree source output args.verbose
        else (tree, [], .ok ())
      match outcome with
      | .error failure => ⟨written, progress ++ saved, .error failure⟩
      | .ok () =>
        match mappingOf loaded.assembler args.map with
        | .error failure => ⟨written, progress ++ saved, .error failure⟩
        | .ok (mapped, code) =>
          let rows :=
            if args.blocks then loaded.assembler.blocks.map fun b => Event.line (blockRow b) else []
          ⟨written, progress ++ saved ++ mapped ++ rows, .ok (code, some loaded.assembler)⟩

/-- The watcher of a run saves each new source to the output file. -/
def watcher (tree : FileTree) (a : Assembler) (args : Arguments) (output : String) : Watcher where
  tree
  assembler := a
  root := args.root
  reaction := .save output args.verbose
  verbose := true

/-- Performs actions until one fails. -/
def performAll (w : Watcher) : List Watcher.Action → Watcher.Step Unit
  | [] => w.silent
  | action :: rest =>
    let step := w.perform action
    match step.result with
    | .error failure => ⟨step.watcher, step.events, .error failure⟩
    | .ok _ => (performAll step.watcher rest).precededBy step.events

/-- Polls and waits in turn. What happens during each wait is given; the wait after the last is
interrupted, and that ends the loop. -/
def pollLoop (w : Watcher) : List (List Watcher.Action) → Watcher.Step Unit
  | [] =>
    let polled := w.poll
    match polled.result with
    | .error failure => ⟨polled.watcher, polled.events, .error failure⟩
    | .ok _ => ⟨polled.watcher, polled.events ++ [.wait], .ok ()⟩
  | tick :: rest =>
    let polled := w.poll
    match polled.result with
    | .error failure => ⟨polled.watcher, polled.events, .error failure⟩
    | .ok _ =>
      let waited := performAll polled.watcher tick
      let events := polled.events ++ [.wait] ++ waited.events
      match waited.result with
      | .error failure => ⟨waited.watcher, events, .error failure⟩
      | .ok () => (pollLoop waited.watcher rest).precededBy events

/-- Watches from the start of the observer to its stop, which follows a failure as well. -/
def watch (available : Bool) (ticks : List (List Watcher.Action)) (w : Watcher) : Outcome :=
  let started := w.start available
  match started.result with
  | .error failure => ⟨started.watcher.tree, started.events, .error failure⟩
  | .ok false => ⟨started.watcher.tree, started.events, .ok 1⟩
  | .ok true =>
    let looped := pollLoop started.watcher ticks
    let stopped := looped.watcher.stop
    ⟨stopped.watcher.tree, started.events ++ looped.events ++ stopped.events,
      looped.result.map fun _ => 0⟩

def execute (available : Bool) (ticks : List (List Watcher.Action)) (tree : FileTree)
    (args : Arguments) : Outcome :=
  let output := nonempty? args.output
  if args.watch && output.isNone then
    ⟨tree, [.errorLine "ERROR: --watch requires --output."], .ok 2⟩
  else
    let bundled := bundle tree args
    match bundled.result, output with
    | .error failure, _ => ⟨bundled.tree, bundled.events, .error failure⟩
    | .ok (_, some a), some path =>
      if args.watch then
        (watch available ticks (watcher bundled.tree a args path)).precededBy bundled.events
      else ⟨bundled.tree, bundled.events, bundled.result.map Prod.fst⟩
    | .ok (code, _), _ => ⟨bundled.tree, bundled.events, .ok code⟩

/-- A run with its arguments. Whether observers can be had, and what happens while it watches, is
given from outside. -/
def run (available : Bool) (ticks : List (List Watcher.Action)) (tree : FileTree)
    (arguments : List String) : Outcome :=
  match parse arguments with
  | .error .help => ⟨tree, [.output helpText], .ok 0⟩
  | .error (.usage e) => ⟨tree, [.error e.report], .ok 2⟩
  | .ok args => execute available ticks tree args

end Command

end ShaderBundle.CommandLine

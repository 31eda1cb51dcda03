import ShaderBundle.CommandLine.Command

/-! The program. It copies the files that a run asks for into a tree, performs the run on the tree,
and carries texts and changed files out. While it watches it looks at the files itself, four times a
second, in place of an observer. -/
namespace ShaderBundle.Main

open CommandLine

/-- Copies the file or folder at a path; what is not there is left out. -/
def copyIn (tree : FileTree) (path : String) : IO FileTree := do
  try
    let real ← IO.FS.realPath path
    if ← real.isDir then
      return (tree.makeFolders path).toOption.getD tree
    let content ← IO.FS.readBinFile path
    return (tree.writeDeep path content.toList).toOption.getD tree
  catch _ => return tree

/-- Copies modules until a run asks for no further one. -/
partial def copyModules (args : Arguments) (includeRoot : String) (asked : List String)
    (tree : FileTree) : IO FileTree := do
  let run := assemble (tree.library (Command.encodingOf args.encoding)) args.root includeRoot
  match run.requests.filter fun id => !asked.contains id with
  | [] => return tree
  | new =>
    let grown ← new.foldlM copyIn tree
    copyModules args includeRoot (asked ++ new) grown

def snapshot (args : Arguments) : IO FileTree := do
  let here := (← IO.currentDir).toString
  let there : FileTree := { workingDirectory := FileTree.names here }
  let start ← copyIn there here
  let includeRoot := (Command.nonempty? args.includeRoot).getD ""
  let output := (Command.nonempty? args.output).toList
  let named := includeRoot :: output.map (fun path => Path.parent (Path.absolute here path)) ++ output
  let tree ← (named.filter (· ≠ "")).foldlM copyIn start
  copyModules args includeRoot [] tree

def carryOut (before after : FileTree) (events : List Event) : IO Unit := do
  for (path, content) in before.changedSince after do
    IO.FS.writeBinFile path ⟨content.toArray⟩
  IO.print (Event.outputText events)
  IO.eprint (Event.errorText events)
  (← IO.getStdout).flush

def finish (result : Except Failure Nat) : IO UInt32 := do
  match result with
  | .ok code => return code.toUInt32
  | .error failure =>
    IO.eprintln failure.message
    return 1

/-- Reports of the watched files that are not as they were. -/
def reports (before after : Watcher) : List FileEvent :=
  (before.watched.filter fun path =>
    before.tree.node? (FileTree.names path) ≠ after.tree.node? (FileTree.names path)).map .modified

partial def watchOn (args : Arguments) (w : Watcher) : IO UInt32 := do
  let polled := w.poll
  carryOut w.tree polled.watcher.tree polled.events
  match polled.result with
  | .error failure => finish (.error failure)
  | .ok _ =>
    IO.sleep 250
    let seen := { polled.watcher with tree := ← snapshot args }
    watchOn args ((reports polled.watcher seen).foldl (fun w report => w.deliver report) seen)

def watch (args : Arguments) (tree : FileTree) (output : String) : IO UInt32 := do
  let bundled := Command.bundle tree args
  carryOut tree bundled.tree bundled.events
  match bundled.result with
  | .error failure => finish (.error failure)
  | .ok (code, none) => finish (.ok code)
  | .ok (_, some assembler) =>
    let started := (Command.watcher bundled.tree assembler args output).start true
    carryOut bundled.tree started.watcher.tree started.events
    match started.result with
    | .error failure => finish (.error failure)
    | .ok _ => watchOn args started.watcher

def run (arguments : List String) : IO UInt32 := do
  match parse arguments with
  | .error _ =>
    let outcome := Command.run false [] {} arguments
    carryOut {} {} outcome.events
    finish outcome.result
  | .ok args =>
    let tree ← snapshot args
    match args.watch, Command.nonempty? args.output with
    | true, some output => watch args tree output
    | _, _ =>
      let outcome := Command.execute false [] tree args
      carryOut tree outcome.tree outcome.events
      finish outcome.result

end ShaderBundle.Main

def main (arguments : List String) : IO UInt32 := ShaderBundle.Main.run arguments

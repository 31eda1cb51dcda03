import ShaderBundle.CommandLine.Command
import ShaderBundle.Proofs.Assembly.Lookups
import ShaderBundle.Proofs.FileTree.Writes
import ShaderBundle.Proofs.Shader.Source
import ShaderBundle.Proofs.Text.Numeral
import ShaderBundle.Proofs.Watcher.Session

/-! A run of the command that does not watch. A run that fails leaves all files alone and shows no more than
its progress and the failure. One that succeeds writes the source to the output file and nowhere else, or
else shows it, unless it was asked about its lines. -/
namespace ShaderBundle.CommandLine.Command

open Text

variable {tree written : FileTree} {args : Arguments} {a : Assembler} {s : Shader}

def progress (tree : FileTree) (args : Arguments) (a : Assembler) : List Event :=
  Event.notices args.verbose (a.bundling tree args.root).notices

def placing (args : Arguments) (source : String) : List Event :=
  match nonempty? args.output with
  | some path => Event.notices args.verbose [.wrote path]
  | none => if args.map = .absent && !args.blocks then [.output (printed source)] else []

def rows (args : Arguments) (s : Shader) : List Event :=
  if args.blocks then s.blocks.map fun b => .line (blockRow b) else []

/-- What a run shows once it has a source, with an assembler that holds the shader. -/
def shown (args : Arguments) (a : Assembler) (s : Shader) : List Event :=
  placing args s.source ++ match mappingOf a args.map with
    | .error _ => []
    | .ok (mapped, _) => mapped ++ rows args s

/-- A run takes its settings and bundles its root, and the output file, if there is one, can be written. -/
structure Delivers (tree : FileTree) (args : Arguments) (a : Assembler) (s : Shader)
    (written : FileTree) : Prop where
  set : assembler tree args = .ok a
  bundled : (a.bundling tree args.root).result = .ok s
  saved : match nonempty? args.output with
    | none => written = tree
    | some path => tree.write path (utf8Bytes s.source) = .ok written

/-! ### Runs that fail -/

theorem isFolder_error {path : String} {fault : FileFault} (failed : tree.isFolder path = .error fault) :
    ∃ spelled, fault = .nameTooLong spelled := by
  unfold FileTree.isFolder at failed
  split at failed
  · simp at failed
  · exact ⟨_, (Except.error.inj failed).symm⟩
  · simp at failed

/-- An include root is refused unless it is the path of a directory, and a path that is too long is a fault of
its own. -/
theorem assembler_error {failure : Failure} (refused : assembler tree args = .error failure) :
    (∃ path, failure = .assembly (.path (.notDirectory path))) ∨
    ∃ path, failure = .file (.nameTooLong path) := by
  unfold assembler Assembler.create at refused
  dsimp only at refused
  split at refused
  · simp at refused
  unfold Assembler.setIncludeRoot ModuleSource.library at refused
  dsimp only [FileTree.library, FileTree.libraryWithin, FileTree.isBare] at refused
  cases asked : tree.isFolder ((nonempty? args.includeRoot).getD "") with
  | error fault =>
    obtain ⟨path, rfl⟩ := isFolder_error asked
    rw [asked] at refused
    exact .inr ⟨path, (Except.error.inj refused).symm⟩
  | ok folder =>
    rw [asked] at refused
    cases bare : (folder || Path.isBare ((nonempty? args.includeRoot).getD "")) with
    | true => simp [Except.map, bare] at refused
    | false =>
      simp only [Except.map, bare] at refused
      exact .inl ⟨_, (Except.error.inj refused).symm⟩

theorem assembler_of_long {root path : String} (asked : args.includeRoot = .value root)
    (some : root ≠ "") (long : tree.isFolder root = .error (.nameTooLong path)) :
    assembler tree args = .error (.file (.nameTooLong path)) := by
  have given : (nonempty? args.includeRoot).getD "" = root := by
    simp [nonempty?, asked, some]
  unfold assembler Assembler.create
  rw [given, if_neg some]
  simp [Assembler.setIncludeRoot, ModuleSource.library, FileTree.library, FileTree.libraryWithin,
    FileTree.isBare, long, Except.map]

theorem bundle_refused {e : AssemblyError} (refused : assembler tree args = .error (.assembly e)) :
    bundle tree args = ⟨tree, [report e], .ok (1, none)⟩ := by
  unfold bundle
  rw [refused]

theorem bundle_broken {fault : FileFault} (broken : assembler tree args = .error (.file fault)) :
    bundle tree args = ⟨tree, [], .error (.file fault)⟩ := by
  unfold bundle
  rw [broken]

theorem bundle_failed {e : AssemblyError} (set : assembler tree args = .ok a)
    (failed : (a.bundling tree args.root).result = .error e) :
    bundle tree args = ⟨tree, progress tree args a ++ [report e], .ok (1, none)⟩ := by
  unfold bundle
  rw [set]
  dsimp only
  rw [Assembler.load_eq]
  dsimp only
  rw [failed]
  rfl

/-- A bundling that fails has at most loaded its modules. -/
theorem notices_of_error {e : AssemblyError} (failed : (a.bundling tree args.root).result = .error e) :
    ∀ notice ∈ (a.bundling tree args.root).notices, ∃ count, notice = .loaded count args.root := by
  unfold Assembler.bundling at failed ⊢
  cases given : a.source.map (·.library tree) with
  | none => simp [assemble?]
  | some lib =>
    rw [given] at failed
    unfold assemble? assemble at failed ⊢
    dsimp only at failed ⊢
    split
    · simp
    · split
      · simp
      · simp_all

/-! ### Runs that succeed -/

theorem place_of_delivers (delivers : Delivers tree args a s written) :
    (if (nonempty? args.output).isSome || (args.map = .absent && !args.blocks) then
      write tree s.source (nonempty? args.output) args.verbose
    else (tree, [], .ok ())) = (written, placing args s.source, .ok ()) := by
  have saved := delivers.saved
  unfold placing write
  cases output : nonempty? args.output with
  | some path =>
    rw [output] at saved
    dsimp only at saved
    simp [saved]
  | none =>
    rw [output] at saved
    dsimp only at saved ⊢
    rw [saved, Option.isSome_none, Bool.false_or]
    split <;> rfl

theorem bundle_of_delivers (delivers : Delivers tree args a s written) :
    let last := a.after (.ok s)
    bundle tree args = ⟨written, progress tree args a ++ shown args last s,
      (mappingOf last args.map).map fun (_, code) => (code, some last)⟩ := by
  intro last
  have blocks : last.blocks = s.blocks := by
    simp [last, Assembler.blocks, Assembler.shader_after_ok delivers.bundled]
  unfold bundle shown
  rw [delivers.set]
  dsimp only
  rw [Assembler.load_eq]
  dsimp only
  rw [delivers.bundled]
  dsimp only [Except.map]
  rw [place_of_delivers delivers, blocks]
  dsimp only
  cases mappingOf last args.map <;> simp [progress, rows, last]

theorem bundle_unsaved {path : String} {fault : FileFault} (set : assembler tree args = .ok a)
    (bundled : (a.bundling tree args.root).result = .ok s) (output : nonempty? args.output = some path)
    (failed : tree.write path (utf8Bytes s.source) = .error fault) :
    bundle tree args = ⟨tree, progress tree args a, .error (.file fault)⟩ := by
  unfold bundle
  rw [set]
  dsimp only
  rw [Assembler.load_eq]
  dsimp only
  rw [bundled, output]
  simp [write, failed, Except.map, progress]

theorem printed_eq (laid : s.Laid) : printed s.source = if s.source = "" then "\n" else s.source := by
  rcases laid.source_ends with empty | ends
  · simp [printed, empty]
  · have some : s.source ≠ "" := by
      intro empty
      simp [empty] at ends
    rw [printed, if_pos ends, if_neg some]

theorem breaks_rangeText (r : LineRange) : breaks (rangeText r) = 0 := by
  rw [rangeText, breaks_append, breaks_append, breaks_toString, breaks_toString]
  rfl

/-- A row of the block table is not the source. -/
theorem blockRow_ne_source (laid : s.Laid) {b : SourceBlock} (member : b ∈ s.blocks) :
    Event.line (blockRow b) ≠ .output (if s.source = "" then "\n" else s.source) := by
  rintro same
  refine laid.ne_source member ?_ (Event.output.inj same)
  simp only [blockRow, breaks_append, breaks_rangeText]
  rw [show breaks " -> " = 0 by decide, show breaks ":" = 0 by decide, show breaks "\n" = 1 by decide]
  omega

theorem mappingOf_value (a : Assembler) (line : Int) :
    mappingOf a (.value line) = .ok ([(mapping a line).1], (mapping a line).2) := rfl

/-- The answer about a line is that of the block in which it stands. -/
theorem mapping_eq (laid : s.Laid) (shader : a.shader = some s) (line : Int) : mapping a line =
    match s.blocks.find? (·.contains (line - 1)) with
    | none => (.errorLine ("WARNING: Assembled line " ++ toString line ++ " does not map to a module line."), 1)
    | some b => (.line (b.moduleId ++ ":" ++ toString (b.mapLine (line - 1) + 1)), 0) := by
  have same : a.mapLine (line - 1) = s.mapLine (line - 1) := by simp [Assembler.mapLine, shader]
  unfold mapping
  rw [same]
  rcases laid.mapLine_cases (line - 1) with ⟨outside, none⟩ | ⟨b, m, -, block, found, mapped⟩
  · rw [none, outside]
  · rw [mapped, block]
    dsimp only
    rw [(laid.mem_of_find? found).2]

/-- The origin of a line, once the shader of the assembler is known. -/
theorem mapping_cases (laid : s.Laid) (shader : a.shader = some s) (line : Int) :
    ((∀ b ∈ s.blocks, b.contains (line - 1) = false) ∧ (mapping a line).2 = 1 ∧
      ∃ text, (mapping a line).1 = .error text) ∨
    ∃ b ∈ s.blocks, b.contains (line - 1) = true ∧
      mapping a line = (.line (b.moduleId ++ ":" ++ toString (b.mapLine (line - 1) + 1)), 0) := by
  rw [mapping_eq laid shader]
  cases block : s.blocks.find? (·.contains (line - 1)) with
  | none => exact .inl ⟨by simpa using block, rfl, _, rfl⟩
  | some b => exact .inr ⟨b, List.mem_of_find?_eq_some block, by simpa using List.find?_some block, rfl⟩

theorem source_not_mem_rows (laid : s.Laid) :
    .output (if s.source = "" then "\n" else s.source) ∉ rows args s := by
  intro member
  unfold rows at member
  split at member
  · obtain ⟨b, inShader, same⟩ := List.mem_map.mp member
    exact blockRow_ne_source laid inShader same
  · simp at member

theorem mapping_ne_source (laid : s.Laid) (shader : a.shader = some s) (line : Int) :
    (mapping a line).1 ≠ .output (if s.source = "" then "\n" else s.source) := by
  rcases mapping_cases laid shader line with ⟨-, -, text, same⟩ | ⟨b, member, -, same⟩
  · rw [same]
    exact Event.noConfusion
  · rw [same]
    intro source
    refine laid.ne_source member ?_ (Event.output.inj source)
    simp only [breaks_append, breaks_toString]
    rw [show breaks ":" = 0 by decide, show breaks "\n" = 1 by decide]

/-- A run without an output file shows the source and nothing else, unless it is asked about its lines. -/
theorem shown_of_asked (laid : s.Laid) (shader : a.shader = some s) (none : nonempty? args.output = none) :
    let source := Event.output (if s.source = "" then "\n" else s.source)
    (args.map = .absent ∧ args.blocks = false → shown args a s = [source]) ∧
    (source ∈ shown args a s → args.map = .absent ∧ args.blocks = false) := by
  intro source
  have last : source ∉ rows args s := source_not_mem_rows laid
  unfold shown placing
  rw [none, printed_eq laid]
  dsimp only
  constructor
  · rintro ⟨map, blocks⟩
    simp [map, blocks, mappingOf, rows, source]
  · cases map : args.map with
    | absent =>
      cases blocks : args.blocks with
      | false => simp
      | true => simp [mappingOf, last]
    | emptied => simp [mappingOf]
    | value line =>
      have other : source ≠ (mapping a line).1 := (mapping_ne_source laid shader line).symm
      rw [mappingOf_value]
      simp [last, other]

/-- The exit code that answers a question about a line. -/
theorem mappingOf_code (laid : s.Laid) (shader : a.shader = some s) (asked : Given Int) :
    (mappingOf a asked).map Prod.snd = match asked with
      | .absent => .ok 0
      | .emptied => .error .lineEmptied
      | .value line => .ok (if ∀ b ∈ s.blocks, b.contains (line - 1) = false then 1 else 0) := by
  cases asked with
  | absent => rfl
  | emptied => rfl
  | value line =>
    rw [mappingOf_value]
    dsimp only [Except.map]
    rcases mapping_cases laid shader line with ⟨outside, code, -⟩ | ⟨b, member, inside, same⟩
    · rw [if_pos outside, code]
    · have contained : ¬ ∀ b ∈ s.blocks, b.contains (line - 1) = false := fun outside => by
        simp [outside b member] at inside
      rw [if_neg contained, same]

theorem execute_once_eq (available : Bool) (ticks : List (List Watcher.Action)) (once : args.watch = false) :
    execute available ticks tree args =
      ⟨(bundle tree args).tree, (bundle tree args).events, (bundle tree args).result.map Prod.fst⟩ := by
  unfold execute
  simp only [once, Bool.false_and, Bool.false_eq_true, if_false]
  cases result : (bundle tree args).result with
  | error failure => rfl
  | ok answer =>
    obtain ⟨code, last⟩ := answer
    cases last <;> cases nonempty? args.output <;> rfl

/-- A run that does not watch. If an include root is refused or the root cannot be bundled, the run ends with
code 1, leaves all files as they were and shows nothing but its progress and the fault. A source goes into
the output file, and no other file changes; without an output file it is shown as it is, the empty one as a
line feed, exactly if the run is not asked about its lines. Then the code is 1 if it was asked for a line
that no block contains, and otherwise 0.

Three runs end without a code: one whose include root has a path that is too long, one whose output file
cannot be written, and one whose question about a line was emptied. There are no others in a tree without
links and permissions, when the texts can be encoded and what is shown can be written. -/
theorem execute_once (available : Bool) (ticks : List (List Watcher.Action)) (tree : FileTree)
    (args : Arguments) (once : args.watch = false) :
    let o := execute available ticks tree args
    (∀ failure, assembler tree args = .error failure → o.tree = tree ∧
      ((∃ e, failure = .assembly e ∧ o.events = [report e] ∧ o.result = .ok 1) ∨
        ∃ path, failure = .file (.nameTooLong path) ∧ o.events = [] ∧ o.result = .error failure)) ∧
    (∀ a e, assembler tree args = .ok a → (a.bundling tree args.root).result = .error e →
      o.tree = tree ∧ o.events = progress tree args a ++ [report e] ∧ o.result = .ok 1 ∧
      ∀ notice ∈ (a.bundling tree args.root).notices, ∃ count, notice = .loaded count args.root) ∧
    (∀ a s path fault, assembler tree args = .ok a → (a.bundling tree args.root).result = .ok s →
      nonempty? args.output = some path → tree.write path (utf8Bytes s.source) = .error fault →
      o.tree = tree ∧ o.events = progress tree args a ∧ o.result = .error (.file fault)) ∧
    ∀ a s written, Delivers tree args a s written →
      o.tree = written ∧
      (∀ path, nonempty? args.output = some path → written.read path = .ok (utf8Bytes s.source) ∧
        ∃ place, tree.locate path = .ok place ∧ ∀ other ≠ place, written.node? other = tree.node? other) ∧
      (nonempty? args.output = none → written = tree ∧
        let source := Event.output (if s.source = "" then "\n" else s.source)
        ∃ shown, o.events = progress tree args a ++ shown ∧
          (args.map = .absent ∧ args.blocks = false → shown = [source]) ∧
          (source ∈ shown → args.map = .absent ∧ args.blocks = false)) ∧
      o.result = match args.map with
        | .absent => .ok 0
        | .emptied => .error .lineEmptied
        | .value line => .ok (if ∀ b ∈ s.blocks, b.contains (line - 1) = false then 1 else 0) := by
  rw [execute_once_eq available ticks once]
  refine ⟨fun failure refused => ?_, fun a e set failed => ?_, fun a s path fault set bundled output failed => ?_,
    fun a s written delivers => ?_⟩
  · rcases assembler_error refused with ⟨path, rfl⟩ | ⟨path, rfl⟩
    · rw [bundle_refused refused]
      exact ⟨rfl, .inl ⟨_, rfl, rfl, rfl⟩⟩
    · rw [bundle_broken refused]
      exact ⟨rfl, .inr ⟨path, rfl, rfl, rfl⟩⟩
  · rw [bundle_failed set failed]
    exact ⟨rfl, rfl, rfl, notices_of_error failed⟩
  · rw [bundle_unsaved set bundled output failed]
    exact ⟨rfl, rfl, rfl⟩
  · have laid := Assembler.laid_of_bundling delivers.bundled
    have shader := Assembler.shader_after_ok delivers.bundled
    have saved := delivers.saved
    rw [bundle_of_delivers delivers, ← mappingOf_code laid shader]
    refine ⟨rfl, fun path output => ?_, fun output => ?_, ?_⟩
    · rw [output] at saved
      obtain ⟨place, located, -⟩ := FileTree.write_ok saved
      refine ⟨FileTree.read_write saved, place, located, fun other away => ?_⟩
      rw [FileTree.node?_write saved located, if_neg away]
    · rw [output] at saved
      exact ⟨saved, _, rfl, shown_of_asked laid shader output⟩
    · cases mappingOf (a.after (.ok s)) args.map <;> rfl

def outward : Arguments :=
  { root := "m", includeRoot := .absent, output := .value "o", encoding := .absent, map := .absent,
    blocks := false, watch := false, verbose := false }

def filed (content source : String) : FileTree :=
  { nodes := [(["m"], .file (utf8Bytes content)), (["o"], .file (utf8Bytes source))] }

theorem write_desk : (Watcher.desk "x").write "o" (utf8Bytes Watcher.deskShader.source) =
    .ok (filed "x" Watcher.deskShader.source) := by
  decide +kernel

/-- A run that is asked for a marker line besides. -/
theorem execute_once_of_marker :
    let o := execute false [] (Watcher.desk "x") { outward with map := .value 1 }
    o.tree.read "o" = .ok (utf8Bytes Watcher.deskShader.source) ∧
    o.tree.node? ["m"] = some (.file (utf8Bytes "x")) ∧ o.result = .ok 1 := by
  intro o
  obtain ⟨-, -, -, succeeds⟩ :=
    execute_once false [] (Watcher.desk "x") { outward with map := .value 1 } rfl
  obtain ⟨tree, file, -, result⟩ := succeeds Watcher.attended.assembler Watcher.deskShader
    (filed "x" Watcher.deskShader.source) ⟨rfl, Watcher.bundling_attended, write_desk⟩
  obtain ⟨read, -⟩ := file "o" rfl
  have marker : ∀ b ∈ Watcher.deskShader.blocks, b.contains (1 - 1) = false := by decide +kernel
  refine ⟨?_, ?_, result.trans (congrArg Except.ok (if_pos marker))⟩
  · rw [tree, read]
  · rw [tree]
    decide +kernel

/-- An include root whose name is too long is refused by the files themselves, and the run ends without a
code. -/
theorem include_root_too_long :
    let root := String.ofList (List.replicate 255 'x') ++ ".d"
    let o := execute false [] (Watcher.desk "x") { outward with includeRoot := .value root, output := .absent }
    Path.isBare root = false ∧ o.result = .error (.file (.nameTooLong root)) ∧ o.events = [] := by
  intro root o
  have text : root.toList = List.replicate 255 'x' ++ ['.', 'd'] := by
    rw [String.toList_append, String.toList_ofList]
    rfl
  have some : root ≠ "" := by
    rw [← String.toList_inj.ne, text]
    decide +kernel
  have step : Path.IsStep root.toList := by
    rw [text]
    exact ⟨by decide +kernel, by decide +kernel, by decide +kernel⟩
  have long : (Watcher.desk "x").isFolder root = .error (.nameTooLong root) := by
    refine FileTree.isFolder_longName rfl step ?_ ?_ ?_
    · rw [← String.toList_inj.ne, text]
      decide +kernel
    · rw [text]
      decide +kernel
    · change 255 < (String.ofList (List.replicate 255 'x') ++ ".d").utf8ByteSize
      decide +kernel
  have run : o = _ := execute_once_eq false [] rfl
  refine ⟨?_, ?_⟩
  · rw [Path.isBare, text]
    decide +kernel
  · rw [run, bundle_broken (assembler_of_long rfl some long)]
    exact ⟨rfl, rfl⟩

end ShaderBundle.CommandLine.Command

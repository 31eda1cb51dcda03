import ShaderBundle.Proofs.Assembly.Identifiers
import ShaderBundle.Proofs.CommandLine.Switches
import ShaderBundle.Proofs.CommandLine.Watch
import ShaderBundle.Proofs.Workbench.View

/-! The block table and the question about a line. A row of the table can be read off its text, and the rows
are apart. So a line has an origin exactly if it stands in a row, which is then the only one, and the row says
which origin it is. -/
namespace ShaderBundle.CommandLine

open Text

@[ext]
structure Row where
  first : Int
  last : Int
  id : String
  top : Int
  bottom : Int

namespace Row

def text (r : Row) : String :=
  toString r.first ++ "-" ++ toString r.last ++ " -> " ++ r.id ++ ":" ++ toString r.top ++ "-" ++
    toString r.bottom

def ofBlock (b : SourceBlock) : Row :=
  ⟨b.bundled.first + 1, b.bundled.last + 1, b.moduleId, b.inModule.first + 1, b.inModule.last + 1⟩

def origin (r : Row) (line : Int) : Int := line - r.first + r.top

theorem text_ofBlock (b : SourceBlock) : (ofBlock b).text = Command.blockRow b := by
  simp only [text, ofBlock, Command.blockRow, Command.rangeText, String.append_assoc]

/-- The origin of a line is told by an id and a number, which follows the last colon. -/
theorem place_unique {id id' : String} {k k' : Int} (same : id ++ ":" ++ toString k = id' ++ ":" ++ toString k') :
    id = id' ∧ k = k' := by
  have chars := congrArg String.toList same
  simp only [String.toList_append, List.append_assoc] at chars
  obtain ⟨ids, lines⟩ := last_colon_unique (colon_not_mem_toString k) (colon_not_mem_toString k') chars
  exact ⟨String.toList_inj.mp ids, toString_injective (String.toList_inj.mp lines)⟩

theorem toList_text (r : Row) : r.text.toList =
    (toString r.first).toList ++ '-' :: ((toString r.last).toList ++ ' ' :: '-' :: '>' :: ' ' ::
      (r.id.toList ++ ':' :: ((toString r.top).toList ++ '-' :: (toString r.bottom).toList))) := by
  simp [text]

/-- The numbers end where a row has something else, and the id ends at the last colon. -/
theorem text_injective : Function.Injective text := by
  intro r q same
  have chars := congrArg String.toList same
  rw [toList_text, toList_text] at chars
  obtain ⟨first, -, chars⟩ := toString_unique (by decide) (by decide) chars
  obtain ⟨last, -, chars⟩ := toString_unique (by decide) (by decide) chars
  simp only [List.cons.injEq, true_and] at chars
  have free (m n : Int) : ':' ∉ (toString m).toList ++ '-' :: (toString n).toList := by
    rw [List.mem_append, List.mem_cons]
    simp only [colon_not_mem_toString, false_or, or_false]
    decide
  obtain ⟨id, chars⟩ := last_colon_unique (free _ _) (free _ _) chars
  obtain ⟨top, -, chars⟩ := toString_unique (by decide) (by decide) chars
  exact Row.ext first last (String.toList_inj.mp id) top (toString_injective (String.toList_inj.mp chars))

end Row

structure Covers (table : List String) (line : Int) (index : Nat) (row : Row) : Prop where
  listed : table[index]? = some row.text
  first : row.first ≤ line
  last : line ≤ row.last

/-- The answer about a line, with its exit code, agrees with a table. It is an origin exactly if a row of the
line leads there, and that there is none exactly if no row has the line. A line has one row at most, and is led
to a line between the row's top and bottom. -/
structure Agrees (table : List String) (line : Int) (answer : Event × Nat) : Prop where
  mapped (id : String) (k : Int) : answer = (.line (id ++ ":" ++ toString k), 0) ↔
    ∃ index row, Covers table line index row ∧ row.id = id ∧ row.origin line = k
  unique {i j : Nat} {r q : Row} : Covers table line i r → Covers table line j q → i = j ∧ r = q
  within {index : Nat} {row : Row} : Covers table line index row →
    row.top ≤ row.origin line ∧ row.origin line ≤ row.bottom
  unmapped : answer =
      (.errorLine ("WARNING: Assembled line " ++ toString line ++ " does not map to a module line."), 1) ↔
    ∀ index row, ¬ Covers table line index row

variable {s : Shader} {a : Assembler} {line : Int}

def tableOf (s : Shader) : List String := s.blocks.map Command.blockRow

theorem covers_iff {index : Nat} {row : Row} : Covers (tableOf s) line index row ↔
    ∃ b, s.blocks[index]? = some b ∧ b.contains (line - 1) = true ∧ row = .ofBlock b := by
  constructor
  · rintro ⟨listed, first, last⟩
    rw [tableOf, List.getElem?_map, Option.map_eq_some_iff] at listed
    obtain ⟨b, block, same⟩ := listed
    obtain rfl : Row.ofBlock b = row := Row.text_injective ((Row.text_ofBlock b).trans same)
    refine ⟨b, block, ?_, rfl⟩
    rw [Shader.contains_iff]
    simp only [Row.ofBlock] at first last
    omega
  · rintro ⟨b, block, inside, rfl⟩
    rw [Shader.contains_iff] at inside
    refine ⟨?_, ?_, ?_⟩
    · rw [tableOf, List.getElem?_map, block, Row.text_ofBlock]
      rfl
    · simp only [Row.ofBlock]
      omega
    · simp only [Row.ofBlock]
      omega

theorem origin_ofBlock (b : SourceBlock) (line : Int) :
    (Row.ofBlock b).origin line = b.mapLine (line - 1) + 1 := by
  simp only [Row.origin, Row.ofBlock, SourceBlock.mapLine]
  omega

/-- Two rows of one line are one row, since the blocks are apart. -/
theorem covers_unique (laid : s.Laid) {i j : Nat} {r q : Row} (left : Covers (tableOf s) line i r)
    (right : Covers (tableOf s) line j q) : i = j ∧ r = q := by
  have apart := List.pairwise_iff_getElem.mp (laid.blocks ▸ Shader.blocksOf_apart s.sorted)
  obtain ⟨b, atLeft, inside, rfl⟩ := covers_iff.mp left
  obtain ⟨c, atRight, inside', rfl⟩ := covers_iff.mp right
  obtain ⟨i_lt, rfl⟩ := List.getElem?_eq_some_iff.mp atLeft
  obtain ⟨j_lt, rfl⟩ := List.getElem?_eq_some_iff.mp atRight
  rw [Shader.contains_iff] at inside inside'
  have same : i = j := by
    rcases lt_trichotomy i j with before | same | behind
    · have gap := apart i j i_lt j_lt before
      omega
    · exact same
    · have gap := apart j i j_lt i_lt behind
      omega
  subst same
  exact ⟨rfl, rfl⟩

/-- A row stands for as many lines of its module as of the bundle. -/
theorem within_of_covers (laid : s.Laid) {index : Nat} {row : Row} (covers : Covers (tableOf s) line index row) :
    row.top ≤ row.origin line ∧ row.origin line ≤ row.bottom := by
  obtain ⟨b, block, inside, rfl⟩ := covers_iff.mp covers
  have member := List.mem_of_getElem? block
  rw [laid.blocks] at member
  obtain ⟨-, extent⟩ := Shader.extent_of_mem_blocksOf member
  rw [Shader.contains_iff] at inside
  simp only [Row.origin, Row.ofBlock]
  omega

theorem agrees_mapping (laid : s.Laid) (shader : a.shader = some s) (line : Int) :
    Agrees (tableOf s) line (Command.mapping a line) := by
  rw [Command.mapping_eq laid shader]
  cases block : s.blocks.find? (·.contains (line - 1)) with
  | none =>
    have none (index : Nat) (row : Row) : ¬ Covers (tableOf s) line index row := by
      intro covers
      obtain ⟨b, atIndex, inside, -⟩ := covers_iff.mp covers
      exact List.find?_eq_none.mp block b (List.mem_of_getElem? atIndex) inside
    refine ⟨fun id k => ⟨fun same => ?_, fun ⟨index, row, covers, _⟩ => absurd covers (none index row)⟩,
      covers_unique laid, within_of_covers laid, iff_of_true rfl none⟩
    exact absurd (congrArg Prod.snd same) Nat.one_ne_zero
  | some b =>
    obtain ⟨index, atIndex⟩ := List.mem_iff_getElem?.mp (List.mem_of_find?_eq_some block)
    have inside := List.find?_some block
    have covers : Covers (tableOf s) line index (.ofBlock b) := covers_iff.mpr ⟨b, atIndex, inside, rfl⟩
    dsimp only
    rw [← origin_ofBlock]
    refine ⟨fun id k => ⟨fun same => ?_, ?_⟩, covers_unique laid, within_of_covers laid,
      iff_of_false (fun same => absurd (congrArg Prod.snd same) Nat.zero_ne_one) fun none => none _ _ covers⟩
    · have texts := (String.append_left_inj _).mp (Event.output.inj (congrArg Prod.fst same))
      exact ⟨index, _, covers, Row.place_unique texts⟩
    · rintro ⟨other, row, others, rfl, rfl⟩
      rw [(covers_unique laid others covers).2]
      rfl

/-! ### Runs -/

namespace Command

variable {tree written : FileTree} {args : Arguments}

/-- What a run shows before it says something about lines. -/
def opening (tree : FileTree) (args : Arguments) (a : Assembler) : List Event :=
  progress tree args a ++ match nonempty? args.output with
    | some path => Event.notices args.verbose [.wrote path]
    | none => []

/-- A run that is asked about a line or for the table leaves the source to its output file. -/
theorem placing_of_asked (asked : args.map ≠ .absent ∨ args.blocks = true) (source : String) :
    progress tree args a ++ placing args source = opening tree args a := by
  have unplaced : (args.map = .absent && !args.blocks) = false := by
    rcases asked with question | table
    · simp [question]
    · simp [table]
  unfold opening placing
  rw [unplaced]
  cases nonempty? args.output <;> rfl

theorem rows_eq (args : Arguments) (s : Shader) :
    rows args s = if args.blocks then (tableOf s).map .line else [] := by
  unfold rows tableOf
  rw [List.map_map]
  rfl

/-- A run shows this and, if it does not watch, nothing else, and then it ends with this code. -/
structure Tells (o : Outcome) (watching : Bool) (events : List Event) (code : Nat) : Prop where
  shown : events <+: o.events
  ended : watching = false → o.events = events ∧ o.result = .ok code

theorem tells_execute (available : Bool) (ticks : List (List Watcher.Action)) {code : Nat}
    (bundled : (bundle tree args).result = .ok (code, some a))
    (permitted : args.watch = true → nonempty? args.output ≠ none) :
    Tells (execute available ticks tree args) args.watch (bundle tree args).events code := by
  cases watch : args.watch with
  | false =>
    rw [execute_once_eq available ticks watch, bundled]
    exact ⟨List.prefix_rfl, fun _ => ⟨rfl, rfl⟩⟩
  | true =>
    obtain ⟨path, output⟩ := Option.ne_none_iff_exists'.mp (permitted watch)
    rw [execute_watched watch output, bundled]
    exact ⟨List.prefix_append _ _, fun once => nomatch once⟩

theorem tells_of_asked (available : Bool) (ticks : List (List Watcher.Action))
    (delivers : Delivers tree args a s written) (asked : args.map ≠ .absent ∨ args.blocks = true)
    (permitted : args.watch = true → nonempty? args.output ≠ none) {mapped : List Event} {code : Nat}
    (answered : mappingOf (a.after (.ok s)) args.map = .ok (mapped, code)) :
    Tells (execute available ticks tree args) args.watch (opening tree args a ++ mapped ++ rows args s) code := by
  have bundled := bundle_of_delivers delivers
  have events : (bundle tree args).events = opening tree args a ++ mapped ++ rows args s := by
    rw [bundled, shown, answered, ← placing_of_asked asked s.source]
    simp only [List.append_assoc]
  rw [← events]
  have result : (bundle tree args).result = .ok (code, some (a.after (.ok s))) := by
    rw [bundled, answered]
    rfl
  exact tells_execute available ticks result permitted

/-! ### The table as it is printed -/

theorem assembler_eq (set : assembler tree args = .ok a) : a =
    { source := some (.files (encodingOf args.encoding)),
      includeRoot := (nonempty? args.includeRoot).getD "", verbose := args.verbose } := by
  unfold assembler Assembler.create at set
  dsimp only at set
  split at set
  · rename_i empty
    rw [empty]
    exact (Except.ok.inj set).symm
  · exact (Assembler.setIncludeRoot_ok set).2

theorem oneLine_blockRow {b : SourceBlock} (free : OneLine b.moduleId) : OneLine (blockRow b) := by
  have numbers (n : Int) : OneLine (toString n) := List.count_eq_zero.mp (breaks_toString n)
  have ranges (r : LineRange) : OneLine (rangeText r) :=
    ((numbers _).append (by simp [OneLine])).append (numbers _)
  exact (((ranges _).append (by simp [OneLine])).append free |>.append (by simp [OneLine])).append (ranges _)

theorem outputText_lines (lines : List String) : Event.outputText (lines.map .line) = endLines lines := by
  unfold Event.outputText endLines
  rw [List.filterMap_map, ← List.filterMap_eq_map]
  rfl

/-- Where no id holds a line feed, the lines of the table are its rows. -/
theorem splitLines_table (delivers : Delivers tree args a s written) (freeRoot : OneLine args.root)
    (freeIncludes : OneLine ((nonempty? args.includeRoot).getD "")) :
    splitLines (Event.outputText ((tableOf s).map .line)) = tableOf s := by
  rw [outputText_lines]
  refine splitLines_endLines fun row member => ?_
  obtain ⟨b, block, rfl⟩ := List.mem_map.mp member
  have bundled := delivers.bundled
  obtain ⟨m, inShader, found⟩ := (Assembler.laid_of_bundling bundled).find?_block block
  have named := ((Assembler.laid_of_bundling bundled).mem_of_find? found).2
  rw [assembler_eq delivers.set] at bundled
  exact oneLine_blockRow (named ▸ oneLine_id_of_assemble freeIncludes freeRoot bundled inShader)

/-- Runs about the lines of a bundle. Of one run the table is shown, and another is asked where a line comes
from. The answer agrees with the table, and so does the code with which the run ends unless it watches. Any
line of few enough digits can be asked for; another one ends the run with a fault of its arguments. The rows of
the table are the lines that are printed, as long as there is no line feed in the root or the include root. -/
theorem answer_agrees_with_table (available : Bool) (ticks : List (List Watcher.Action))
    (delivers : Delivers tree args a s written) (unasked : args.map = .absent)
    (permitted : args.watch = true → nonempty? args.output ≠ none) (line : Int) :
    let table := (tableOf s).map Event.line
    (∃ answer code, Agrees (tableOf s) line (answer, code) ∧ ∀ words,
      (parse words = .ok { args with blocks := true } →
        Tells (run available ticks tree words) args.watch (opening tree args a ++ table) 0) ∧
      (parse words = .ok { args with map := .value line } →
        Tells (run available ticks tree words) args.watch
          (opening tree args a ++ [answer] ++ if args.blocks then table else []) code)) ∧
    (∀ words, parse words = .ok args →
      parse ("--blocks" :: words) = .ok { args with blocks := true } ∧
      ((toString line.natAbs).length ≤ digitLimit →
        parse ("--map" :: toString line :: words) = .ok { args with map := .value line }) ∧
      (digitLimit < (toString line.natAbs).length →
        run available ticks tree ("--map" :: toString line :: words) =
          ⟨tree, [.error (UsageError.notAnInteger .map (toString line)).report], .ok 2⟩)) ∧
    (OneLine args.root → OneLine ((nonempty? args.includeRoot).getD "") →
      splitLines (Event.outputText table) = tableOf s) := by
  intro table
  have shader := Assembler.shader_after_ok delivers.bundled
  have laid := Assembler.laid_of_bundling delivers.bundled
  refine ⟨⟨_, _, agrees_mapping laid shader line, fun words => ⟨fun parsed => ?_, fun parsed => ?_⟩⟩,
    fun words parsed => ⟨?_, fun short => ?_, fun long => ?_⟩, splitLines_table delivers⟩
  · have listing : Delivers tree { args with blocks := true } a s written :=
      ⟨delivers.set, delivers.bundled, delivers.saved⟩
    have unanswered : mappingOf (a.after (.ok s)) args.map = .ok ([], 0) := by
      rw [unasked]
      rfl
    have told := tells_of_asked available ticks listing (.inr rfl) permitted unanswered
    rw [rows_eq, if_pos rfl, List.append_nil] at told
    rw [run, parsed]
    exact told
  · have asking : Delivers tree { args with map := .value line } a s written :=
      ⟨delivers.set, delivers.bundled, delivers.saved⟩
    have told := tells_of_asked available ticks asking (.inl nofun) permitted (mappingOf_value _ line)
    rw [rows_eq] at told
    rw [run, parsed]
    exact told
  · rw [parse_cons_blocks, parsed]
    simp only [Except.map, Arguments.wishing, unasked, Given.orElse, Bool.or_true]
  · rw [parse_cons_map short, parsed]
    simp only [Except.map, Arguments.wishing, unasked, Given.orElse, Bool.or_false]
  · rw [run, parse_cons_map_long long parsed]

def inward : Arguments := { outward with output := .absent }

theorem parse_inward : parse ["m"] = .ok inward := by decide +kernel

theorem delivers_inward :
    Delivers (Watcher.desk "x") inward Watcher.attended.assembler Watcher.deskShader (Watcher.desk "x") :=
  ⟨rfl, Watcher.bundling_attended, rfl⟩

/-- The only line of a module, which stands behind its marker. -/
theorem answer_agrees_with_table_of_desk :
    let run := run false [] (Watcher.desk "x")
    tableOf Watcher.deskShader = ["2-2 -> m:1-1"] ∧
    (run ["--blocks", "m"]).events = [.line "2-2 -> m:1-1"] ∧ (run ["--blocks", "m"]).result = .ok 0 ∧
    (run ["--map", "2", "m"]).events = [.line "m:1"] ∧ (run ["--map", "2", "m"]).result = .ok 0 := by
  intro run
  have table : tableOf Watcher.deskShader = ["2-2 -> m:1-1"] := by decide +kernel
  obtain ⟨⟨answer, code, agrees, told⟩, read, -⟩ :=
    answer_agrees_with_table false [] delivers_inward rfl nofun 2
  obtain ⟨listing, asking, -⟩ := read ["m"] parse_inward
  have covers : Covers (tableOf Watcher.deskShader) 2 0 ⟨2, 2, "m", 1, 1⟩ := ⟨by rw [table]; rfl, le_rfl, le_rfl⟩
  obtain ⟨rfl, rfl⟩ := Prod.mk.inj ((agrees.mapped "m" 1).mpr ⟨0, _, covers, rfl, rfl⟩)
  have listed := (told _).1 listing |>.ended rfl
  have asked := (told _).2 (asking (by decide)) |>.ended rfl
  rw [table] at listed
  exact ⟨table, listed.1, listed.2, asked.1, asked.2⟩

/-- A line of one digit too many stands in no row, and the answer is neither an origin nor that there is none:
the arguments are refused before there is a bundle. -/
theorem long_line_refused :
    let line : Int := 10 ^ digitLimit
    let run := run false [] (Watcher.desk "x")
    (run ["--blocks", "m"]).events = (tableOf Watcher.deskShader).map .line ∧
    (∀ index row, ¬ Covers (tableOf Watcher.deskShader) line index row) ∧
    (run ["--map", toString line, "m"]).result = .ok 2 ∧
    (run ["--map", toString line, "m"]).events =
      [.error (UsageError.notAnInteger .map (toString line)).report] := by
  have long : digitLimit < (toString ((10 : Int) ^ digitLimit).natAbs).length := by
    rw [Int.natAbs_pow, show (10 : Int).natAbs = 10 from rfl, length_toString_pow]
    exact Nat.lt_succ_self digitLimit
  have power {k : Nat} (more : 2 < k) : (2 : Int) < 10 ^ k :=
    mod_cast more.trans (Nat.lt_pow_self (by decide))
  have beyond : (2 : Int) < 10 ^ digitLimit := power (by decide)
  generalize (10 : Int) ^ digitLimit = line at long beyond ⊢
  have refused : parse ["--map", toString line, "m"] = .error (.usage (.notAnInteger .map (toString line))) :=
    parse_cons_map_long long parse_inward
  have listing : parse ["--blocks", "m"] = .ok { inward with blocks := true } := by
    rw [parse_cons_blocks, parse_inward]
    rfl
  have delivers : Delivers (Watcher.desk "x") { inward with blocks := true } Watcher.attended.assembler
      Watcher.deskShader (Watcher.desk "x") :=
    ⟨delivers_inward.set, delivers_inward.bundled, rfl⟩
  have listed := (tells_of_asked false [] delivers (.inr rfl) nofun rfl).ended rfl
  rw [rows_eq, if_pos rfl] at listed
  refine ⟨?_, fun index row covers => ?_, ?_, ?_⟩
  · rw [run, listing]
    exact listed.1
  · obtain ⟨b, block, inside, -⟩ := covers_iff.mp covers
    have last : ∀ b ∈ Watcher.deskShader.blocks, b.bundled.last = 1 := by decide +kernel
    have bound := (Shader.contains_iff.mp inside).2
    rw [last b (List.mem_of_getElem? block)] at bound
    omega
  · rw [run, refused]
  · rw [run, refused]

end Command

end ShaderBundle.CommandLine

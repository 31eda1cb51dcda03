import ShaderBundle.CommandLine.Arguments
import ShaderBundle.Proofs.Text.Numeral
import Mathlib.Data.List.TakeDrop

/-! Switches in front of other arguments. What such a switch sets stands beside all that is read behind it,
so it has the same meaning in front of any arguments. -/
namespace ShaderBundle.CommandLine

open Text

/-- A switch takes its values first, and then all behind them is read. -/
theorem read_use (r : Reading) (u : SwitchUse) (rest : List Token) :
    read r (.use u :: rest) = match valued u rest with
      | .error e => .error (.usage e)
      | .ok (uses, behind) => (r.setAll uses).bind fun next => read next behind := by
  rw [read, if_pos (by simp [Token.isSwitch])]
  split <;> rename_i given <;> rw [given]
  dsimp only
  split <;> rename_i set <;> rw [set] <;> rfl

/-- A change to what has been read that no further argument sees or undoes. -/
structure Steady (f : Reading → Reading) : Prop where
  root (r : Reading) : (f r).root = r.root
  rooted (r : Reading) (root : String) : { f r with root := some root } = f { r with root := some root }
  leave (r : Reading) (texts : List String) : (f r).leave texts = f (r.leave texts)
  set (r : Reading) (switch : Switch) (value : String) : (f r).set switch value = (r.set switch value).map f

namespace Steady

variable {f : Reading → Reading} (steady : Steady f)

include steady

theorem setAll (r : Reading) (uses : List (Switch × String)) :
    (f r).setAll uses = (r.setAll uses).map f := by
  induction uses generalizing r with
  | nil => rfl
  | cons use rest ih =>
    obtain ⟨switch, value⟩ := use
    rw [Reading.setAll, Reading.setAll, steady.set]
    cases r.set switch value with
    | error refusal => rfl
    | ok next => exact ih next

theorem readLast (r : Reading) (ts : List Token) : readLast (f r) ts = f (readLast r ts) := by
  unfold CommandLine.readLast
  rw [steady.root]
  split <;> simp only [steady.rooted, steady.leave]

/-- A steady change may be made before the words are read or behind. -/
theorem read (r : Reading) (ts : List Token) : read (f r) ts = (read r ts).map f := by
  fun_induction CommandLine.read r ts with
  | case1 r more => simp at more
  | case2 r text rest none more ih =>
    rw [CommandLine.read, if_pos more, steady.root, none]
    dsimp only
    rw [steady.rooted, ih]
  | case3 r text rest root given more ih =>
    rw [CommandLine.read, if_pos more, steady.root, given]
    dsimp only
    rw [steady.leave, ih]
  | case4 r text rest more ih | case5 r rest more ih => rw [CommandLine.read, if_pos more, steady.leave, ih]
  | case6 r u rest e wrong =>
    rw [read_use, wrong]
    rfl
  | case7 r u rest uses behind given refusal refused =>
    rw [read_use, given]
    dsimp only
    rw [steady.setAll, refused]
    rfl
  | case8 r u rest uses behind given next set more ih =>
    rw [read_use, given]
    dsimp only
    rw [steady.setAll, set]
    exact ih
  | case9 r ts last =>
    unfold CommandLine.read
    rw [if_neg last, steady.readLast]
    rfl

end Steady

/-! ### The switches about lines -/

def Given.orElse {α : Type} : Given α → Given α → Given α
  | .absent, other => other
  | given, _ => given

/-- A question in front counts unless another one is asked behind it, and a wish for the table is kept. -/
def Reading.wishing (question : Given Int) (table : Bool) (r : Reading) : Reading :=
  { r with map := r.map.orElse question, blocks := r.blocks || table }

def Arguments.wishing (question : Given Int) (table : Bool) (args : Arguments) : Arguments :=
  { args with map := args.map.orElse question, blocks := args.blocks || table }

variable {question : Given Int} {table : Bool} {arguments : List String} {args : Arguments} {line : Int}

theorem steady_wishing : Steady (Reading.wishing question table) where
  root _ := rfl
  rooted _ _ := rfl
  leave _ _ := rfl
  set r switch value := by
    cases switch with
    | map =>
      unfold Reading.set
      dsimp only
      split
      · rfl
      · split <;> rfl
    | _ => rfl

theorem arguments_wishing (r : Reading) :
    (r.wishing question table).arguments = r.arguments.map (Arguments.wishing question table) := by
  unfold Reading.arguments Reading.wishing
  dsimp only
  split
  · rfl
  · split <;> rfl

theorem parse_eq (arguments : List String) :
    parse arguments = ((tokens arguments).mapError .usage).bind fun ts => (read {} ts).bind Reading.arguments := by
  unfold parse
  cases tokens arguments with
  | error e => rfl
  | ok ts =>
    dsimp only [Except.mapError, Except.bind]
    cases read {} ts <;> rfl

/-- Words in front of any other arguments, if they are read without these and set no more than a wish. -/
theorem parse_append (front : List String) (words : List Token)
    (told : tokens (front ++ arguments) = (tokens arguments).map (words ++ ·))
    (taken : ∀ ts, read {} (words ++ ts) = read (Reading.wishing question table {}) ts) :
    parse (front ++ arguments) = (parse arguments).map (Arguments.wishing question table) := by
  rw [parse_eq, parse_eq, told]
  cases tokens arguments with
  | error e => rfl
  | ok ts =>
    change (read {} (words ++ ts)).bind Reading.arguments =
      ((read {} ts).bind Reading.arguments).map (Arguments.wishing question table)
    rw [taken, steady_wishing.read]
    cases read {} ts with
    | error refusal => rfl
    | ok r => exact arguments_wishing r

theorem tokens_cons_use {argument : String} {u : SwitchUse} (word : Word.of argument = .use u)
    (other : argument ≠ doubleDashText) (rest : List String) :
    tokens (argument :: rest) = (tokens rest).map (.use u :: ·) := by
  rw [tokens, if_neg other, word]

theorem tokens_cons_plain {argument : String} (word : Word.of argument = .plain)
    (other : argument ≠ doubleDashText) (rest : List String) :
    tokens (argument :: rest) = (tokens rest).map (.plain argument :: ·) := by
  rw [tokens, if_neg other, word]

theorem valued_alone {switch : Switch} (alone : switch.takesValue = false) (rest : List Token) :
    valued ⟨switch, true, none⟩ rest = .ok ([(switch, "")], rest) := by
  simp [valued, unpack, alone]

theorem valued_given {switch : Switch} (takes : switch.takesValue = true) (value : String) (rest : List Token) :
    valued ⟨switch, true, none⟩ (.plain value :: rest) = .ok ([(switch, value)], rest) := by
  simp [valued, unpack, takes]

/-- The table can be asked for in front of any other arguments. -/
theorem parse_cons_blocks (arguments : List String) :
    parse ("--blocks" :: arguments) = (parse arguments).map (Arguments.wishing .absent true) := by
  have word : Word.of "--blocks" = .use ⟨.blocks, true, none⟩ := by decide +kernel
  refine parse_append ["--blocks"] [.use ⟨.blocks, true, none⟩]
    (tokens_cons_use word (by decide) arguments) fun ts => ?_
  rw [List.singleton_append, read_use, valued_alone rfl]
  rfl

/-! ### A line as an argument -/

/-- No switch is spelled with a digit behind the dash. -/
theorem spelled?_digit {c : Char} (digit : c.isDigit = true) (rest : List Char) :
    Switch.spelled? ('-' :: c :: rest) = none := by
  have letters : ∀ entry ∈ Switch.dictionary, (entry.1[1]?).all (!·.isDigit) = true := by decide +kernel
  refine List.lookup_eq_none_iff.mpr fun entry member => bne_iff_ne.mpr fun same => ?_
  have other := letters entry member
  rw [← same] at other
  simp [digit] at other

theorem span_of_all {kind : Char → Bool} {cs : List Char} (all : ∀ c ∈ cs, kind c = true) :
    cs.span kind = (cs, []) := by
  rw [List.span_eq_takeWhile_dropWhile, List.takeWhile_eq_self_iff.mpr all, List.dropWhile_eq_nil_iff.mpr all]

theorem isNegativeNumber_toDigits (n : Nat) : Word.isNegativeNumber ('-' :: Nat.toDigits 10 n) = true := by
  have ascii : ∀ c ∈ Nat.toDigits 10 n, c.isDigit = true := fun c => isDigit_of_mem_toDigits
  have last : (Nat.toDigits 10 n).getLast? ≠ some '\n' := fun last =>
    absurd (ascii _ (List.mem_of_getLast? last)) (by decide)
  simp only [Word.isNegativeNumber, if_neg last, span_of_all fun c member => isDigit_of_ascii (ascii c member)]
  simp

/-- A number is no switch, and neither is one with a minus sign. -/
theorem of_toString (n : Int) : Word.of (toString n) = .plain := by
  unfold Word.of
  cases n with
  | ofNat n =>
    obtain ⟨c, rest, begins, ascii⟩ := exists_cons_toDigits n
    have other : c ≠ '-' := by
      rintro rfl
      exact absurd ascii (by decide)
    rw [Int.ofNat_eq_natCast, toList_toString_natCast, begins]
    simp [Word.ofChars, other]
  | negSucc n =>
    have negative := isNegativeNumber_toDigits (n + 1)
    have whole : Word.atEquals ('-' :: Nat.toDigits 10 (n + 1)) = ('-' :: Nat.toDigits 10 (n + 1), none) := by
      unfold Word.atEquals
      rw [span_of_all]
      intro c member
      rcases List.mem_cons.mp member with rfl | member
      · decide
      · rw [decide_eq_true_iff]
        rintro rfl
        exact absurd (isDigit_of_mem_toDigits member) (by decide)
    obtain ⟨c, rest, begins, ascii⟩ := exists_cons_toDigits (n + 1)
    have other : c ≠ '-' := by
      rintro rfl
      exact absurd ascii (by decide)
    rw [begins] at negative whole
    rw [toList_toString_negSucc, begins]
    simp [Word.ofChars, Word.ofShort, Word.isLong, spelled?_digit ascii, whole, negative, other.symm]

theorem toString_ne_doubleDash (n : Int) : toString n ≠ doubleDashText := by
  intro same
  have plain := of_toString n
  rw [same] at plain
  exact absurd plain (by decide +kernel)

theorem tokens_cons_map (line : Int) (arguments : List String) : tokens ("--map" :: toString line :: arguments) =
    (tokens arguments).map ([.use ⟨.map, true, none⟩, .plain (toString line)] ++ ·) := by
  have word : Word.of "--map" = .use ⟨.map, true, none⟩ := by decide +kernel
  rw [tokens_cons_use word (by decide), tokens_cons_plain (of_toString line) (toString_ne_doubleDash line)]
  cases tokens arguments <;> rfl

theorem set_map (r : Reading) (line : Int) : r.set .map (toString line) =
    if digitLimit < (toString line.natAbs).length then
      .error (.usage (.notAnInteger .map (toString line)))
    else .ok { r with map := .value line } := by
  simp only [Reading.set, if_neg (toString_ne_doubleDash line), integer?_toString]
  by_cases long : digitLimit < (toString line.natAbs).length
  · rw [if_pos long, if_pos long]
  · rw [if_neg long, if_neg long]

/-- A line of few enough digits can be asked for in front of any other arguments. -/
theorem parse_cons_map (short : (toString line.natAbs).length ≤ digitLimit) (arguments : List String) :
    parse ("--map" :: toString line :: arguments) =
      (parse arguments).map (Arguments.wishing (.value line) false) := by
  refine parse_append ["--map", toString line] _ (tokens_cons_map line arguments) fun ts => ?_
  rw [List.cons_append, read_use, List.singleton_append, valued_given rfl]
  simp only [Reading.setAll, set_map, if_neg (Nat.not_lt.mpr short)]
  rfl

/-- One of more digits is refused, whatever else is asked for. -/
theorem parse_cons_map_long (long : digitLimit < (toString line.natAbs).length)
    (parsed : parse arguments = .ok args) :
    parse ("--map" :: toString line :: arguments) = .error (.usage (.notAnInteger .map (toString line))) := by
  rw [parse_eq] at parsed ⊢
  rw [tokens_cons_map]
  cases told : tokens arguments with
  | error e =>
    rw [told] at parsed
    cases parsed
  | ok ts =>
    change (read {} (.use ⟨.map, true, none⟩ :: .plain (toString line) :: ts)).bind _ = _
    rw [read_use, valued_given rfl]
    simp only [Reading.setAll, set_map, if_pos long]
    rfl

end ShaderBundle.CommandLine

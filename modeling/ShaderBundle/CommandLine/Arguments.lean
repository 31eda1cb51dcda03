import ShaderBundle.CommandLine.Switch
import ShaderBundle.Text.Numeral
import ShaderBundle.Text.Quoted

/-! The arguments of a run. Switches may stand anywhere; the first plain word is the root module, and
behind a double dash every word is plain.

The releases of the argument parser differ in two corners, in which it is read here as in 3.11.0. There a
double dash attached to a switch empties its value, and a letter that is no switch but attached to one
without a value is refused as an ignored value. In later ones, 3.11.10 among them, the double dash is
the value itself, and the letter is reported as an unrecognized argument. -/
namespace ShaderBundle.CommandLine

/-- A value that was given, or was given and emptied: a double dash attached to a switch is no value in
release 3.11.0. -/
inductive Given (α : Type)
  | absent
  | emptied
  | value (a : α)
  deriving DecidableEq, Repr

structure Arguments where
  root : String
  includeRoot : Given String
  output : Given String
  encoding : Given String
  map : Given Int
  blocks : Bool
  watch : Bool
  verbose : Bool
  deriving DecidableEq, Repr

inductive UsageError
  | ambiguous (argument : String) (candidates : List String)
  | valueMissing (switch : Switch)
  | valueIgnored (switch : Switch) (value : String)
  | notAnInteger (switch : Switch) (value : String)
  | rootMissing
  | unrecognized (arguments : List String)
  deriving DecidableEq, Repr

def UsageError.message : UsageError → String
  | .ambiguous argument candidates =>
    "ambiguous option: " ++ argument ++ " could match " ++ String.intercalate ", " candidates
  | .valueMissing switch => "argument " ++ switch.shown ++ ": expected one argument"
  | .valueIgnored switch value =>
    "argument " ++ switch.shown ++ ": ignored explicit argument " ++ Text.quoted value
  | .notAnInteger switch value =>
    "argument " ++ switch.shown ++ ": invalid int value: " ++ Text.quoted value
  | .rootMissing => "the following arguments are required: root"
  | .unrecognized arguments => "unrecognized arguments: " ++ String.intercalate " " arguments

/-- Why arguments lead to no run. -/
inductive Refusal
  | help
  | usage (e : UsageError)
  deriving DecidableEq, Repr

/-- An argument with its reading; the first double dash is no argument. -/
inductive Token
  | plain (text : String)
  | use (u : SwitchUse)
  | unknown (text : String)
  | doubleDash
  deriving DecidableEq, Repr

def Token.isSwitch : Token → Bool
  | .use _ | .unknown _ => true
  | .plain _ | .doubleDash => false

def doubleDashText : String := "--"

/-- An ambiguous argument refuses all. -/
def tokens : List String → Except UsageError (List Token)
  | [] => .ok []
  | argument :: rest =>
    if argument = doubleDashText then .ok (.doubleDash :: rest.map .plain)
    else match Word.of argument with
      | .ambiguous candidates => .error (.ambiguous argument candidates)
      | .plain => (tokens rest).map (.plain argument :: ·)
      | .use u => (tokens rest).map (.use u :: ·)
      | .unknown => (tokens rest).map (.unknown argument :: ·)

/-- What has been read so far. -/
structure Reading where
  root : Option String := none
  includeRoot : Given String := .absent
  output : Given String := .absent
  encoding : Given String := .absent
  map : Given Int := .absent
  blocks : Bool := false
  watch : Bool := false
  verbose : Bool := false
  extras : List String := []

/-- As in release 3.11.0; in 3.11.10 the double dash is kept. -/
def givenText (value : String) : Given String :=
  if value = doubleDashText then .emptied else .value value

/-- As in release 3.11.0; in 3.11.10 a double dash for a line number is refused like any other text that
is none. -/
def Reading.set (r : Reading) (switch : Switch) (value : String) : Except Refusal Reading :=
  match switch with
  | .help => .error .help
  | .includeRoot => .ok { r with includeRoot := givenText value }
  | .output => .ok { r with output := givenText value }
  | .encoding => .ok { r with encoding := givenText value }
  | .map =>
    if value = doubleDashText then .ok { r with map := .emptied }
    else match Text.integer? value with
      | some line => .ok { r with map := .value line }
      | none => .error (.usage (.notAnInteger .map value))
  | .blocks => .ok { r with blocks := true }
  | .watch => .ok { r with watch := true }
  | .verbose => .ok { r with verbose := true }

def Reading.setAll (r : Reading) : List (Switch × String) → Except Refusal Reading
  | [] => .ok r
  | (switch, value) :: rest =>
    match r.set switch value with
    | .error refusal => .error refusal
    | .ok next => next.setAll rest

/-- The switches of one argument, and the last of them if it still waits for a value. Short switches
without a value may be followed by others in the same argument. A letter that is none of them is an
ignored value as in release 3.11.0; in 3.11.10 it is an unrecognized argument. -/
def unpack (switch : Switch) (long : Bool) :
    Option (List Char) → Except UsageError (List (Switch × String) × Option Switch)
  | none => if switch.takesValue then .ok ([], some switch) else .ok ([(switch, "")], none)
  | some value =>
    if switch.takesValue then .ok ([(switch, String.ofList value)], none)
    else match value with
      | [] => .error (.valueIgnored switch "")
      | c :: rest =>
        if long then .error (.valueIgnored switch (String.ofList (c :: rest)))
        else match Switch.spelled? ['-', c] with
          | none => .error (.valueIgnored switch (String.ofList (c :: rest)))
          | some next =>
            match unpack next false (if rest = [] then none else some rest) with
            | .error e => .error e
            | .ok (uses, last) => .ok ((switch, "") :: uses, last)
  termination_by value => (value.map List.length).getD 0
  decreasing_by
    cases rest <;> simp

/-- The switches of one argument with their values, and the words behind. -/
def valued (u : SwitchUse) (rest : List Token) :
    Except UsageError (List (Switch × String) × List Token) :=
  match unpack u.switch u.long u.attached, rest with
  | .error e, _ => .error e
  | .ok (uses, none), rest => .ok (uses, rest)
  | .ok (uses, some switch), .plain value :: behind => .ok (uses ++ [(switch, value)], behind)
  | .ok (_, some switch), _ => .error (.valueMissing switch)

theorem length_le_of_valued {u : SwitchUse} {rest behind : List Token}
    {uses : List (Switch × String)} (h : valued u rest = .ok (uses, behind)) :
    behind.length ≤ rest.length := by
  unfold valued at h
  split at h <;> simp_all

def Token.text : Token → String
  | .plain text => text
  | .unknown text => text
  | .doubleDash => doubleDashText
  | .use _ => ""

def Reading.leave (r : Reading) (texts : List String) : Reading := { r with extras := r.extras ++ texts }

/-- The words behind the last switch. The root may have the double dash on either side; any other
double dash is left over. -/
def readLast (r : Reading) (ts : List Token) : Reading :=
  match r.root, ts with
  | none, .plain root :: .doubleDash :: rest => { r with root }.leave (rest.map Token.text)
  | none, .plain root :: rest => { r with root }.leave (rest.map Token.text)
  | none, .doubleDash :: .plain root :: rest => { r with root }.leave (rest.map Token.text)
  | _, rest => r.leave (rest.map Token.text)

set_option linter.unusedVariables false in
def read (r : Reading) (ts : List Token) : Except Refusal Reading :=
  if ts.any Token.isSwitch then
    match ts with
    | [] => .ok r
    | .plain text :: rest =>
      match r.root with
      | none => read { r with root := some text } rest
      | some _ => read (r.leave [text]) rest
    | .unknown text :: rest => read (r.leave [text]) rest
    | .doubleDash :: rest => read (r.leave [doubleDashText]) rest
    | .use u :: rest =>
      match hu : valued u rest with
      | .error e => .error (.usage e)
      | .ok (uses, behind) =>
        match r.setAll uses with
        | .error refusal => .error refusal
        | .ok next => read next behind
  else .ok (readLast r ts)
  termination_by ts.length
  decreasing_by
    all_goals simp_wf
    have := length_le_of_valued hu
    omega

def Reading.arguments (r : Reading) : Except Refusal Arguments :=
  match r.root with
  | none => .error (.usage .rootMissing)
  | some root =>
    if r.extras ≠ [] then .error (.usage (.unrecognized r.extras))
    else .ok ⟨root, r.includeRoot, r.output, r.encoding, r.map, r.blocks, r.watch, r.verbose⟩

def parse (arguments : List String) : Except Refusal Arguments :=
  match tokens arguments with
  | .error e => .error (.usage e)
  | .ok ts =>
    match read {} ts with
    | .error refusal => .error refusal
    | .ok r => r.arguments

end ShaderBundle.CommandLine

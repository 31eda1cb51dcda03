import ShaderBundle.Proofs.Text.Blank

/-! Regular expressions with groups. They are matched by trying: of two alternatives the first one before the
second, of a repetition one more turn before none, and what follows decides whether a way is given up. The ways
that are tried are all the ways there are to take a text apart. -/
namespace ShaderBundle.Text

inductive Regex (γ : Type)
  | one (kind : Char → Bool)
  | nothing
  | seq (first second : Regex γ)
  | either (first second : Regex γ)
  | many (body : Regex γ)
  | group (name : γ) (body : Regex γ)

/-- A way to begin a text: what is taken of it, what each group took, the latest one first, and the rest. -/
structure Way (γ : Type) where
  taken : List Char
  groups : List (γ × List Char)
  rest : List Char
  deriving DecidableEq, Repr

namespace Way

variable {γ : Type}

def stay (cs : List Char) : Way γ := ⟨[], [], cs⟩

def andThen (w v : Way γ) : Way γ := ⟨w.taken ++ v.taken, v.groups ++ w.groups, v.rest⟩

/-- An expression is anchored to the end of the text; a line feed may stand there still. -/
def Ends (w : Way γ) : Prop := w.rest = [] ∨ w.rest = ['\n']

instance (w : Way γ) : Decidable w.Ends := inferInstanceAs (Decidable (_ ∨ _))

end Way

namespace Regex

variable {γ : Type}

def all : List (Regex γ) → Regex γ := List.foldr seq nothing

def char (c : Char) : Regex γ := one (· == c)

def word (text : String) : Regex γ := all (text.toList.map char)

def some (body : Regex γ) : Regex γ := seq body (many body)

def optional (body : Regex γ) : Regex γ := either body nothing

def dot : Regex γ := one (· != '\n')

/-- At most so many turns, each of which takes something. -/
def turns (step : List Char → List (Way γ)) : Nat → List Char → List (Way γ)
  | 0, cs => [.stay cs]
  | count + 1, cs =>
    ((step cs).filter (·.taken ≠ [])).flatMap
      (fun w => (turns step count w.rest).map w.andThen) ++ [.stay cs]

/-- All ways to begin a text, in the order in which they are tried. A repetition has no more turns than
the text has characters. -/
def ways : Regex γ → List Char → List (Way γ)
  | one kind, c :: rest => if kind c then [⟨[c], [], rest⟩] else []
  | one _, [] => []
  | nothing, cs => [.stay cs]
  | seq first second, cs => (ways first cs).flatMap fun w => (ways second w.rest).map w.andThen
  | either first second, cs => ways first cs ++ ways second cs
  | many body, cs => turns (ways body) cs.length cs
  | group name body, cs => (ways body cs).map fun w => { w with groups := (name, w.taken) :: w.groups }

def matchings (r : Regex γ) (cs : List Char) : List (Way γ) := (r.ways cs).filter (·.Ends)

def match? (r : Regex γ) (cs : List Char) : Option (Way γ) := (r.matchings cs).head?

/-- How a text can be taken apart, whatever is tried first. -/
inductive Matches : Regex γ → List Char → List (γ × List Char) → Prop
  | one {kind : Char → Bool} {c : Char} (fits : kind c = true) : Matches (one kind) [c] []
  | nothing : Matches nothing [] []
  | seq {first second : Regex γ} {cs ds : List Char} {gs hs : List (γ × List Char)}
    (front : Matches first cs gs) (back : Matches second ds hs) :
    Matches (seq first second) (cs ++ ds) (hs ++ gs)
  | first {first second : Regex γ} {cs : List Char} {gs : List (γ × List Char)}
    (matched : Matches first cs gs) : Matches (either first second) cs gs
  | second {first second : Regex γ} {cs : List Char} {gs : List (γ × List Char)}
    (matched : Matches second cs gs) : Matches (either first second) cs gs
  | stop {body : Regex γ} : Matches (many body) [] []
  | turn {body : Regex γ} {cs ds : List Char} {gs hs : List (γ × List Char)} (some : cs ≠ [])
    (front : Matches body cs gs) (back : Matches (many body) ds hs) :
    Matches (many body) (cs ++ ds) (hs ++ gs)
  | group {name : γ} {body : Regex γ} {cs : List Char} {gs : List (γ × List Char)}
    (matched : Matches body cs gs) : Matches (group name body) cs ((name, cs) :: gs)

variable {r first second body : Regex γ} {cs : List Char} {gs : List (γ × List Char)} {w : Way γ}

/-! ### What an expression matches -/

@[simp] theorem matches_one_iff {kind : Char → Bool} :
    Matches (one kind : Regex γ) cs gs ↔ ∃ c, kind c = true ∧ cs = [c] ∧ gs = [] := by
  constructor
  · rintro ⟨fits⟩
    exact ⟨_, fits, rfl, rfl⟩
  · rintro ⟨c, fits, rfl, rfl⟩
    exact .one fits

@[simp] theorem matches_nothing_iff : Matches (nothing : Regex γ) cs gs ↔ cs = [] ∧ gs = [] := by
  constructor
  · rintro ⟨⟩
    exact ⟨rfl, rfl⟩
  · rintro ⟨rfl, rfl⟩
    exact .nothing

theorem matches_seq_iff : Matches (seq first second) cs gs ↔
    ∃ front hs back ks, Matches first front hs ∧ Matches second back ks ∧
      cs = front ++ back ∧ gs = ks ++ hs := by
  constructor
  · intro matched
    cases matched with
    | seq front back => exact ⟨_, _, _, _, front, back, rfl, rfl⟩
  · rintro ⟨front, hs, back, ks, left, right, rfl, rfl⟩
    exact .seq left right

theorem matches_either_iff :
    Matches (either first second) cs gs ↔ Matches first cs gs ∨ Matches second cs gs := by
  constructor
  · intro matched
    cases matched with
    | first matched => exact .inl matched
    | second matched => exact .inr matched
  · rintro (matched | matched)
    · exact .first matched
    · exact .second matched

theorem matches_group_iff {name : γ} :
    Matches (group name body) cs gs ↔ ∃ hs, Matches body cs hs ∧ gs = (name, cs) :: hs := by
  constructor
  · intro matched
    cases matched with
    | group matched => exact ⟨_, matched, rfl⟩
  · rintro ⟨hs, matched, rfl⟩
    exact .group matched

theorem matches_optional_iff : Matches (optional body) cs gs ↔ Matches body cs gs ∨ cs = [] ∧ gs = [] := by
  rw [optional, matches_either_iff, matches_nothing_iff]

theorem matches_all_cons_iff {rest : List (Regex γ)} : Matches (all (r :: rest)) cs gs ↔
    ∃ front hs back ks, Matches r front hs ∧ Matches (all rest) back ks ∧
      cs = front ++ back ∧ gs = ks ++ hs :=
  matches_seq_iff

@[simp] theorem matches_char_iff {c : Char} : Matches (char c : Regex γ) cs gs ↔ cs = [c] ∧ gs = [] := by
  simp [char]

@[simp] theorem matches_word_iff {text : String} :
    Matches (word text : Regex γ) cs gs ↔ cs = text.toList ∧ gs = [] := by
  rw [word]
  generalize text.toList = letters
  induction letters generalizing cs gs with
  | nil => exact matches_nothing_iff
  | cons c rest ih =>
    rw [List.map_cons, matches_all_cons_iff]
    constructor
    · rintro ⟨front, hs, back, ks, left, right, rfl, rfl⟩
      obtain ⟨rfl, rfl⟩ := matches_char_iff.mp left
      obtain ⟨rfl, rfl⟩ := ih.mp right
      exact ⟨rfl, rfl⟩
    · rintro ⟨rfl, rfl⟩
      exact ⟨[c], [], rest, [], matches_char_iff.mpr ⟨rfl, rfl⟩, ih.mpr ⟨rfl, rfl⟩, rfl, rfl⟩

/-- A repetition of single characters takes any run of them. -/
@[simp] theorem matches_many_one_iff {kind : Char → Bool} :
    Matches (many (one kind) : Regex γ) cs gs ↔ (∀ c ∈ cs, kind c = true) ∧ gs = [] := by
  constructor
  · generalize pattern : (many (one kind) : Regex γ) = r
    intro matched
    induction matched with
    | stop => simp
    | turn _ front _ _ ih =>
      obtain rfl := many.inj pattern
      obtain ⟨c, fits, rfl, rfl⟩ := matches_one_iff.mp front
      obtain ⟨others, rfl⟩ := ih pattern
      exact ⟨List.forall_mem_cons.mpr ⟨fits, others⟩, rfl⟩
    | _ => cases pattern
  · rintro ⟨fits, rfl⟩
    induction cs with
    | nil => exact .stop
    | cons c rest ih =>
      obtain ⟨head, tail⟩ := List.forall_mem_cons.mp fits
      exact .turn (List.cons_ne_nil c []) (.one head) (ih tail)

@[simp] theorem matches_some_one_iff {kind : Char → Bool} :
    Matches (some (one kind) : Regex γ) cs gs ↔ cs ≠ [] ∧ (∀ c ∈ cs, kind c = true) ∧ gs = [] := by
  rw [some, matches_seq_iff]
  constructor
  · rintro ⟨front, hs, back, ks, left, right, rfl, rfl⟩
    obtain ⟨c, fits, rfl, rfl⟩ := matches_one_iff.mp left
    obtain ⟨others, rfl⟩ := matches_many_one_iff.mp right
    exact ⟨List.cons_ne_nil c back, List.forall_mem_cons.mpr ⟨fits, others⟩, rfl⟩
  · rintro ⟨filled, fits, rfl⟩
    obtain ⟨c, rest, rfl⟩ := List.exists_cons_of_ne_nil filled
    obtain ⟨head, tail⟩ := List.forall_mem_cons.mp fits
    exact ⟨[c], [], rest, [], .one head, matches_many_one_iff.mpr ⟨tail, rfl⟩, rfl, rfl⟩

/-! ### Sequences by their first part -/

section Sequences

variable {rest : List (Regex γ)}

@[simp] theorem matches_all_nil_iff : Matches (all [] : Regex γ) cs gs ↔ cs = [] ∧ gs = [] :=
  matches_nothing_iff

/-- A first part without groups that takes texts of one kind. -/
theorem matches_plain_cons_iff {holds : List Char → Prop}
    (plain : ∀ cs gs, Matches r cs gs ↔ holds cs ∧ gs = []) : Matches (all (r :: rest)) cs gs ↔
      ∃ front back, holds front ∧ Matches (all rest) back gs ∧ cs = front ++ back := by
  rw [matches_all_cons_iff]
  constructor
  · rintro ⟨front, hs, back, ks, left, right, rfl, rfl⟩
    obtain ⟨fits, rfl⟩ := (plain _ _).mp left
    exact ⟨front, back, fits, by rwa [List.append_nil], rfl⟩
  · rintro ⟨front, back, fits, right, rfl⟩
    exact ⟨front, [], back, gs, (plain _ _).mpr ⟨fits, rfl⟩, right, rfl, (List.append_nil gs).symm⟩

theorem matches_char_cons_iff {c : Char} : Matches (all (char c :: rest)) cs gs ↔
    ∃ back, Matches (all rest) back gs ∧ cs = c :: back := by
  rw [matches_plain_cons_iff fun _ _ => matches_char_iff]
  simp

theorem matches_word_cons_iff {text : String} : Matches (all (word text :: rest)) cs gs ↔
    ∃ back, Matches (all rest) back gs ∧ cs = text.toList ++ back := by
  rw [matches_plain_cons_iff fun _ _ => matches_word_iff]
  simp

theorem matches_many_cons_iff {kind : Char → Bool} : Matches (all (many (one kind) :: rest)) cs gs ↔
    ∃ front back, (∀ c ∈ front, kind c = true) ∧ Matches (all rest) back gs ∧ cs = front ++ back :=
  matches_plain_cons_iff fun _ _ => matches_many_one_iff

theorem matches_some_cons_iff {kind : Char → Bool} : Matches (all (some (one kind) :: rest)) cs gs ↔
    ∃ front back, (front ≠ [] ∧ ∀ c ∈ front, kind c = true) ∧ Matches (all rest) back gs ∧
      cs = front ++ back :=
  matches_plain_cons_iff fun _ _ => by rw [matches_some_one_iff, and_assoc]

/-- A first part that is a group around a part without groups. -/
theorem matches_group_cons_iff {name : γ} {holds : List Char → Prop}
    (plain : ∀ cs gs, Matches body cs gs ↔ holds cs ∧ gs = []) :
    Matches (all (group name body :: rest)) cs gs ↔
      ∃ front back hs, holds front ∧ Matches (all rest) back hs ∧ cs = front ++ back ∧
        gs = hs ++ [(name, front)] := by
  rw [matches_all_cons_iff]
  constructor
  · rintro ⟨front, hs, back, ks, left, right, rfl, rfl⟩
    obtain ⟨inner, matched, rfl⟩ := matches_group_iff.mp left
    obtain ⟨fits, rfl⟩ := (plain _ _).mp matched
    exact ⟨front, back, ks, fits, right, rfl, rfl⟩
  · rintro ⟨front, back, hs, fits, right, rfl, rfl⟩
    exact ⟨front, _, back, hs, .group ((plain _ _).mpr ⟨fits, rfl⟩), right, rfl, rfl⟩

def Accepts (r : Regex γ) (cs : List Char) : Prop := ∃ gs, Matches r cs gs

theorem Accepts.cons {front back : List Char} (first : Accepts r front) (others : Accepts (all rest) back) :
    Accepts (all (r :: rest)) (front ++ back) := by
  obtain ⟨gs, left⟩ := first
  obtain ⟨hs, right⟩ := others
  exact ⟨hs ++ gs, .seq left right⟩

theorem Accepts.behind (c : Char) {back : List Char} (others : Accepts (all rest) back) :
    Accepts (all (char c :: rest)) (c :: back) :=
  Accepts.cons ⟨[], matches_char_iff.mpr ⟨rfl, rfl⟩⟩ others

end Sequences

/-! ### What is tried -/

def Sound (r : Regex γ) (cs : List Char) (w : Way γ) : Prop :=
  cs = w.taken ++ w.rest ∧ Matches r w.taken w.groups

theorem sound_stay (body : Regex γ) (cs : List Char) : Sound (many body) cs (.stay cs) := ⟨rfl, .stop⟩

theorem mem_turns_iff {step : List Char → List (Way γ)}
    (exact : ∀ cs w, w ∈ step cs ↔ Sound body cs w) {count : Nat} (enough : cs.length ≤ count) :
    w ∈ turns step count cs ↔ Sound (many body) cs w := by
  induction count generalizing cs w with
  | zero =>
    obtain rfl := List.eq_nil_of_length_eq_zero (Nat.le_zero.mp enough)
    rw [turns, List.mem_singleton]
    refine ⟨fun same => same ▸ sound_stay body [], fun ⟨split, matched⟩ => ?_⟩
    obtain ⟨taken, groups, rest⟩ := w
    obtain ⟨none, rfl⟩ : taken = [] ∧ rest = [] := List.append_eq_nil_iff.mp split.symm
    dsimp only at matched
    cases matched with
    | stop => rfl
    | turn filled => exact absurd (List.append_eq_nil_iff.mp none).1 filled
  | succ count ih =>
    rw [turns, List.mem_append, List.mem_singleton, List.mem_flatMap]
    constructor
    · rintro (⟨u, tried, later⟩ | rfl)
      · obtain ⟨v, more, rfl⟩ := List.mem_map.mp later
        obtain ⟨member, filled⟩ := List.mem_filter.mp tried
        obtain ⟨rfl, front⟩ := (exact _ u).mp member
        have taken : u.taken ≠ [] := by simpa using filled
        have shorter := List.length_pos_of_ne_nil taken
        rw [List.length_append] at enough
        obtain ⟨split, back⟩ := (ih (by omega)).mp more
        refine ⟨?_, .turn taken front back⟩
        rw [split]
        exact (List.append_assoc ..).symm
      · exact sound_stay body cs
    · rintro ⟨rfl, matched⟩
      obtain ⟨taken, groups, rest⟩ := w
      dsimp only at matched enough ⊢
      cases matched with
      | stop => exact .inr rfl
      | @turn _ front back gs hs filled left right =>
        have shorter := List.length_pos_of_ne_nil filled
        simp only [List.length_append] at enough
        have later : ⟨back, hs, rest⟩ ∈ turns step count (back ++ rest) :=
          (ih (by rw [List.length_append]; omega)).mpr ⟨rfl, right⟩
        have now : ⟨front, gs, back ++ rest⟩ ∈ step (front ++ back ++ rest) :=
          (exact _ _).mpr ⟨List.append_assoc .., left⟩
        exact .inl ⟨_, List.mem_filter.mpr ⟨now, by simpa using filled⟩,
          List.mem_map.mpr ⟨_, later, rfl⟩⟩

/-- The ways that are tried are those that there are. -/
theorem mem_ways_iff : w ∈ r.ways cs ↔ Sound r cs w := by
  induction r generalizing cs w with
  | one kind =>
    obtain ⟨taken, groups, rest⟩ := w
    simp only [Sound, matches_one_iff]
    cases cs with
    | nil =>
      refine ⟨fun tried => absurd tried List.not_mem_nil, ?_⟩
      rintro ⟨split, c, -, rfl, -⟩
      simp at split
    | cons head tail =>
      rw [ways, List.mem_ite_nil_right, List.mem_singleton, Way.mk.injEq]
      constructor
      · rintro ⟨fits, rfl, rfl, rfl⟩
        exact ⟨rfl, head, fits, rfl, rfl⟩
      · rintro ⟨split, c, fits, rfl, rfl⟩
        obtain ⟨rfl, rfl⟩ := List.cons.inj split
        exact ⟨fits, rfl, rfl, rfl⟩
  | nothing =>
    obtain ⟨taken, groups, rest⟩ := w
    rw [ways, List.mem_singleton, Way.stay, Way.mk.injEq, Sound, matches_nothing_iff]
    constructor
    · rintro ⟨rfl, rfl, rfl⟩
      exact ⟨rfl, rfl, rfl⟩
    · rintro ⟨rfl, rfl, rfl⟩
      exact ⟨rfl, rfl, rfl⟩
  | seq first second ihFirst ihSecond =>
    rw [ways, List.mem_flatMap]
    constructor
    · rintro ⟨u, left, later⟩
      obtain ⟨v, right, rfl⟩ := List.mem_map.mp later
      obtain ⟨rfl, matched⟩ := ihFirst.mp left
      obtain ⟨split, matched'⟩ := ihSecond.mp right
      refine ⟨?_, .seq matched matched'⟩
      rw [split]
      exact (List.append_assoc ..).symm
    · rintro ⟨rfl, matched⟩
      obtain ⟨taken, groups, rest⟩ := w
      obtain ⟨front, gs, back, hs, left, right, rfl, rfl⟩ := matches_seq_iff.mp matched
      exact ⟨⟨front, gs, back ++ rest⟩, ihFirst.mpr ⟨List.append_assoc .., left⟩,
        List.mem_map.mpr ⟨⟨back, hs, rest⟩, ihSecond.mpr ⟨rfl, right⟩, rfl⟩⟩
  | either first second ihFirst ihSecond =>
    rw [ways, List.mem_append, ihFirst, ihSecond, Sound, Sound, Sound, matches_either_iff, and_or_left]
  | many body ih => exact mem_turns_iff (fun _ _ => ih) (Nat.le_refl _)
  | group name body ih =>
    rw [ways, List.mem_map]
    constructor
    · rintro ⟨u, tried, rfl⟩
      obtain ⟨split, matched⟩ := ih.mp tried
      exact ⟨split, .group matched⟩
    · rintro ⟨split, matched⟩
      obtain ⟨taken, groups, rest⟩ := w
      dsimp only at split matched
      obtain ⟨hs, inner, rfl⟩ := matches_group_iff.mp matched
      exact ⟨⟨taken, hs, rest⟩, ih.mpr ⟨split, inner⟩, rfl⟩

/-- A text that ends in no blank is matched as a whole or not at all. -/
theorem mem_matchings_iff (solid : Solid cs) :
    w ∈ r.matchings cs ↔ w.taken = cs ∧ w.rest = [] ∧ Matches r cs w.groups := by
  rw [matchings, List.mem_filter, mem_ways_iff, decide_eq_true_iff]
  constructor
  · rintro ⟨⟨split, matched⟩, ends⟩
    have done : w.rest = [] := by
      refine ends.resolve_right fun feed => ?_
      have last := solid.last '\n' (by rw [split, feed, List.getLast?_concat]; rfl)
      exact absurd last (by decide)
    rw [done, List.append_nil] at split
    exact ⟨split.symm, done, split ▸ matched⟩
  · rintro ⟨rfl, done, matched⟩
    exact ⟨⟨by rw [done, List.append_nil], matched⟩, .inl done⟩

end Regex

end ShaderBundle.Text

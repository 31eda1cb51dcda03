import ShaderBundle.Proofs.Module.Delimiters
import ShaderBundle.Proofs.Text.Regex

/-! Include directives as patterns. Between its delimiters a pattern can read a backslash alone or together with
the character behind it, so that a line is tried in many ways; all of them come to the same target, the one
that is found by going once along the line. -/
namespace ShaderBundle.Directive

open Text
open Text.Regex (Matches matches_seq_iff matches_either_iff matches_group_iff matches_all_cons_iff)

variable {kind kind' : IncludeKind} {target cs : List Char} {gs : List (Unit × List Char)}

def bodyPattern : Regex Unit := .many (.either (.seq (.char '\\') .dot) (.one (· != '"')))

def pattern (kind : IncludeKind) : Regex Unit :=
  .all [.word "#include", .some (.one isBlank), .char kind.opening, .group () bodyPattern, .char kind.closing]

def found? (line : List Char) (kind : IncludeKind) : Option (IncludeKind × List Char) :=
  ((pattern kind).match? line).bind fun w => (w.groups.lookup ()).map (kind, ·)

/-- What stands between the first character that is no blank behind the keyword and the last one of the line. -/
def inner (line : List Char) : List Char := (trimStart (line.drop "#include".length)).tail.dropLast

theorem quotesEscaped_mono (behind : Bool) (escaped : quotesEscaped false cs = true) :
    quotesEscaped behind cs = true := by
  cases cs with
  | nil => rfl
  | cons c rest =>
    rw [quotesEscaped, Bool.or_false, Bool.and_eq_true] at escaped
    rw [quotesEscaped, escaped.1, escaped.2, Bool.true_or, Bool.true_and]

/-- Behind a backslash the check is the same unless a quote follows. -/
theorem quotesEscaped_of_no_quote {behind : Bool} (other : cs.head? ≠ some '"')
    (escaped : quotesEscaped behind cs = true) : quotesEscaped false cs = true := by
  cases cs with
  | nil => rfl
  | cons c rest =>
    have plain : (c != '"') = true := by simpa using other
    rw [quotesEscaped, plain, Bool.true_or, Bool.true_and] at escaped
    rw [quotesEscaped, plain, escaped]
    rfl

/-- Whichever way it is taken apart, a body has a backslash in front of each quote. -/
theorem quotesEscaped_of_matches (matched : Matches bodyPattern cs gs) :
    quotesEscaped false cs = true ∧ gs = [] := by
  generalize same : bodyPattern = r at matched
  induction matched with
  | stop => exact ⟨rfl, rfl⟩
  | turn _ front _ _ ih =>
    obtain rfl := Regex.many.inj same
    obtain ⟨later, rfl⟩ := ih same
    rcases matches_either_iff.mp front with pair | single
    · obtain ⟨slash, hs, next, ks, left, right, rfl, rfl⟩ := matches_seq_iff.mp pair
      obtain ⟨rfl, rfl⟩ := Regex.matches_char_iff.mp left
      obtain ⟨c, -, rfl, rfl⟩ := Regex.matches_one_iff.mp right
      refine ⟨?_, rfl⟩
      have behind := quotesEscaped_mono (c == '\\') later
      simpa [quotesEscaped] using behind
    · obtain ⟨c, plain, rfl, rfl⟩ := Regex.matches_one_iff.mp single
      refine ⟨?_, rfl⟩
      have behind := quotesEscaped_mono (c == '\\') later
      simpa [quotesEscaped] using ⟨by simpa using plain, behind⟩
  | _ => cases same

/-- And there is a way to take such a body apart. -/
theorem matches_of_quotesEscaped (escaped : quotesEscaped false cs = true) :
    Matches bodyPattern cs [] := by
  induction length : cs.length using Nat.strongRecOn generalizing cs with
  | ind n ih =>
    subst length
    cases cs with
    | nil => exact .stop
    | cons c rest =>
      rw [quotesEscaped, Bool.or_false, Bool.and_eq_true] at escaped
      obtain ⟨plain, later⟩ := escaped
      by_cases pair : c = '\\' ∧ rest.head? = some '"'
      · obtain ⟨rfl, quote⟩ := pair
        obtain ⟨tail, rfl⟩ := List.head?_eq_some_iff.mp quote
        have front : Matches (.either (.seq (.char '\\') .dot) (.one (· != '"')) : Regex Unit)
            ['\\', '"'] [] :=
          .first (.seq (Regex.matches_char_iff.mpr ⟨rfl, rfl⟩) (.one (by decide)))
        have back : Matches bodyPattern tail [] :=
          ih tail.length (by simp only [List.length_cons]; omega) (by simpa [quotesEscaped] using later) rfl
        exact .turn (List.cons_ne_nil _ _) front back
      · have front : Matches (.either (.seq (.char '\\') .dot) (.one (· != '"')) : Regex Unit) [c] [] :=
          .second (.one plain)
        have rest' : quotesEscaped false rest = true := by
          by_cases slash : c = '\\'
          · exact quotesEscaped_of_no_quote (fun quote => pair ⟨slash, quote⟩) later
          · rwa [beq_false_of_ne slash] at later
        exact .turn (List.cons_ne_nil c []) front (ih rest.length (by simp) rest' rfl)

theorem matches_bodyPattern_iff :
    Matches bodyPattern cs gs ↔ quotesEscaped false cs = true ∧ gs = [] := by
  refine ⟨quotesEscaped_of_matches, ?_⟩
  rintro ⟨escaped, rfl⟩
  exact matches_of_quotesEscaped escaped

theorem matches_pattern_iff :
    Matches (pattern kind) cs gs ↔ ∃ target, Includes kind target cs ∧ gs = [((), target)] := by
  have body : ∀ cs gs, Matches bodyPattern cs gs ↔ quotesEscaped false cs = true ∧ gs = [] :=
    fun _ _ => matches_bodyPattern_iff
  constructor
  · intro matched
    obtain ⟨_, fromGap, rfl⟩ := Regex.matches_word_cons_iff.mp matched
    obtain ⟨gap, _, ⟨filled, blank⟩, fromOpening, rfl⟩ := Regex.matches_some_cons_iff.mp fromGap
    obtain ⟨_, fromTarget, rfl⟩ := Regex.matches_char_cons_iff.mp fromOpening
    obtain ⟨target, _, _, escaped, fromClosing, rfl, rfl⟩ :=
      (Regex.matches_group_cons_iff body).mp fromTarget
    obtain ⟨_, done, rfl⟩ := Regex.matches_char_cons_iff.mp fromClosing
    obtain ⟨rfl, rfl⟩ := Regex.matches_all_nil_iff.mp done
    exact ⟨target, ⟨escaped, gap, filled, blank, rfl⟩, rfl⟩
  · rintro ⟨target, ⟨escaped, gap, filled, blank, rfl⟩, rfl⟩
    have fromClosing : Matches (.all [.char kind.closing] : Regex Unit) [kind.closing] [] :=
      Regex.matches_char_cons_iff.mpr ⟨[], .nothing, rfl⟩
    have fromTarget : Matches (.all [.group () bodyPattern, .char kind.closing]) (target ++ [kind.closing])
        [((), target)] :=
      (Regex.matches_group_cons_iff body).mpr ⟨target, _, [], escaped, fromClosing, rfl, rfl⟩
    refine Regex.matches_word_cons_iff.mpr ⟨_, Regex.matches_some_cons_iff.mpr ?_, rfl⟩
    exact ⟨gap, _, ⟨filled, blank⟩, Regex.matches_char_cons_iff.mpr ⟨_, fromTarget, rfl⟩, rfl⟩

/-- What is written between the delimiters is what stands there. -/
theorem Includes.eq_inner (included : Includes kind target cs) : target = inner cs := by
  obtain ⟨gap, -, blank, rfl⟩ := included.written
  have keyword : "#include".length = "#include".toList.length := rfl
  rw [inner, keyword, List.drop_left, trimStart_blanks blank, trimStart_cons _ (isBlank_opening kind),
    List.tail_cons, List.dropLast_concat]

section Solid

variable (solid : Solid cs)

include solid

theorem mem_matchings_iff {w : Way Unit} : w ∈ (pattern kind).matchings cs ↔
    w.taken = cs ∧ w.rest = [] ∧ ∃ target, Includes kind target cs ∧ w.groups = [((), target)] := by
  rw [Regex.mem_matchings_iff solid, matches_pattern_iff]

theorem exists_matching_iff :
    (∃ w ∈ (pattern kind).matchings cs, w.groups = [((), target)]) ↔ Includes kind target cs := by
  constructor
  · rintro ⟨w, member, groups⟩
    obtain ⟨-, -, target', included, groups'⟩ := (mem_matchings_iff solid).mp member
    obtain rfl : target' = target := by simpa using groups'.symm.trans groups
    exact included
  · intro included
    exact ⟨⟨cs, [((), target)], []⟩, (mem_matchings_iff solid).mpr ⟨rfl, rfl, target, included, rfl⟩, rfl⟩

/-- A pattern leads to what its first way has found, as all its ways have. -/
theorem found?_eq_some_iff :
    found? cs kind = some (kind', target) ↔ kind = kind' ∧ Includes kind target cs := by
  rw [found?, Option.bind_eq_some_iff]
  constructor
  · rintro ⟨w, first, taken⟩
    obtain ⟨-, -, target', included, groups⟩ :=
      (mem_matchings_iff solid).mp (List.mem_of_head? first)
    rw [groups] at taken
    obtain ⟨rfl, rfl⟩ := Prod.mk.inj (Option.some.inj taken)
    exact ⟨rfl, included⟩
  · rintro ⟨rfl, included⟩
    obtain ⟨w, member, -⟩ := (exists_matching_iff solid).mpr included
    obtain ⟨first, rest, ways⟩ := List.exists_cons_of_ne_nil (List.ne_nil_of_mem member)
    have head : first ∈ (pattern kind).matchings cs := by rw [ways]; exact List.mem_cons_self
    obtain ⟨-, -, target', included', groups⟩ := (mem_matchings_iff solid).mp head
    refine ⟨first, by rw [Regex.match?, ways]; rfl, ?_⟩
    rw [groups, included.unique included']
    rfl

/-- Trying the patterns one after the other, whichever is the first, comes to the reading of the line. -/
theorem include?_eq_findSome? {kinds : List IncludeKind} (all : ∀ kind, kind ∈ kinds) :
    include? cs = kinds.findSome? (found? cs) := by
  cases search : kinds.findSome? (found? cs) with
  | none =>
    refine Option.eq_none_iff_forall_ne_some.mpr fun ⟨kind, target⟩ read => ?_
    have led : found? cs kind = some (kind, target) :=
      (found?_eq_some_iff solid).mpr ⟨rfl, include?_eq_some_iff.mp read⟩
    rw [List.findSome?_eq_none_iff.mp search kind (all kind)] at led
    cases led
  | some found =>
    obtain ⟨kind', target⟩ := found
    obtain ⟨kind, -, led⟩ := List.exists_of_findSome?_eq_some search
    obtain ⟨rfl, included⟩ := (found?_eq_some_iff solid).mp led
    exact include?_eq_some_iff.mpr included

end Solid

/-- The patterns of the two kinds of include come to one reading of a trimmed line. A kind's pattern can be
matched with a target exactly if the line is the keyword, blanks, and the target between the delimiters of
that kind, with a backslash directly in front of each quote inside the target. However it is matched, the
target is all that stands between the delimiters, and the other pattern cannot be matched. So what is found by
trying the patterns one after the other is what the line is read as. -/
theorem include_patterns (line : String) :
    let cs := trim line.toList
    (∀ kind target, (∃ w ∈ (pattern kind).matchings cs, w.groups = [((), target)]) ↔
      (∃ gap, gap ≠ [] ∧ AllBlank gap ∧
        cs = "#include".toList ++ (gap ++ kind.opening :: (target ++ [kind.closing]))) ∧
      Guarded '"' target) ∧
    (∀ kind, ∀ w ∈ (pattern kind).matchings cs, w.taken = cs ∧ w.rest = [] ∧
      w.groups = [((), inner cs)]) ∧
    (∀ kind kind', (pattern kind).matchings cs ≠ [] → (pattern kind').matchings cs ≠ [] → kind = kind') ∧
    include? cs = [IncludeKind.relative, .absolute].findSome? (found? cs) := by
  intro cs
  have solid : Solid cs := solid_trim line.toList
  have read {kind : IncludeKind} (some : (pattern kind).matchings cs ≠ []) :
      ∃ target, Includes kind target cs := by
    obtain ⟨w, member⟩ := List.exists_mem_of_ne_nil _ some
    obtain ⟨-, -, target, included, -⟩ := (mem_matchings_iff solid).mp member
    exact ⟨target, included⟩
  refine ⟨fun kind target => ?_, fun kind w member => ?_, fun kind kind' left right => ?_, ?_⟩
  · rw [exists_matching_iff solid, ← quotesEscaped_iff]
    exact ⟨fun included => ⟨included.written, included.escaped⟩, fun ⟨written, escaped⟩ => ⟨escaped, written⟩⟩
  · obtain ⟨taken, rest, target, included, groups⟩ := (mem_matchings_iff solid).mp member
    rw [included.eq_inner] at groups
    exact ⟨taken, rest, groups⟩
  · obtain ⟨target, included⟩ := read left
    obtain ⟨target', included'⟩ := read right
    exact included.unique_kind included'
  · exact include?_eq_findSome? solid fun kind => by cases kind <;> simp

/-- A backslash is taken alone or with the letter behind it: two ways, and one target. -/
example : ((pattern .relative).matchings "#include \"\\a\"".toList).map (·.groups) =
    [[((), ['\\', 'a'])], [((), ['\\', 'a'])]] := by
  decide +kernel

end ShaderBundle.Directive

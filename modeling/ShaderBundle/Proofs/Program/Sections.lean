import ShaderBundle.Program
import ShaderBundle.Proofs.CompilerLog.Legible
import ShaderBundle.Proofs.Shader.LineMap
import ShaderBundle.Proofs.Text.Breaks

/-! Messages by section. The pass over a message carries the shader in charge along; here a line is
told from the nearest title before it alone, and the pass is shown to do the same. -/
namespace ShaderBundle.Stages

open Text CompilerLog

variable {stages stages' : Stages} {start : Option Shader} {line name : String}
  {lines rest : List String}

def titleBefore? (lines : List String) (k : Nat) : Option String :=
  (lines.take k).reverse.findSome? title?

def chargeFrom (stages : Stages) (start : Option Shader) (lines : List String) (k : Nat) :
    Option Shader :=
  match titleBefore? lines k with
  | some name => stages.lookup name
  | none => start

/-- The shader in charge of line `k` of a message. -/
def charge? (stages : Stages) (lines : List String) (k : Nat) : Option Shader :=
  stages.chargeFrom stages.sole? lines k

def chargedFrom (stages : Stages) (start : Option Shader) (lines : List String) : List String :=
  (lines.zipIdx.filter fun (line, k) =>
    (title? line).isNone && (stages.chargeFrom start lines k).isSome).map (·.1)

def charged (stages : Stages) (lines : List String) : List String :=
  stages.chargedFrom stages.sole? lines

structure Rewrites (stages : Stages) (lines rewritten : List String) : Prop where
  length : rewritten.length = lines.length
  title : ∀ (k : Nat) (line : String), lines[k]? = some line → (title? line).isSome →
    rewritten[k]? = some line
  charged : ∀ (k : Nat) (line : String) (s : Shader), lines[k]? = some line → title? line = none →
    stages.charge? lines k = some s → ∃ text, remapLine s line = .ok text ∧ rewritten[k]? = some text
  free : ∀ (k : Nat) (line : String), lines[k]? = some line → stages.charge? lines k = none →
    rewritten[k]? = some line

def rewrite (charge : Option Shader) (line : String) : Except TooManyDigits String :=
  if (title? line).isSome then .ok line
  else match charge with
  | some s => remapLine s line
  | none => .ok line

def next (stages : Stages) (charge : Option Shader) (line : String) : Option Shader :=
  match title? line with
  | some name => stages.lookup name
  | none => charge

theorem titleBefore?_succ (line : String) (rest : List String) (k : Nat) :
    titleBefore? (line :: rest) (k + 1) = (titleBefore? rest k).or (title? line) := by
  unfold titleBefore?
  rw [List.take_succ_cons, List.reverse_cons, List.findSome?_append]
  simp

@[simp] theorem chargeFrom_zero (stages : Stages) (start : Option Shader) (lines : List String) :
    stages.chargeFrom start lines 0 = start := rfl

theorem chargeFrom_succ (stages : Stages) (start : Option Shader) (line : String)
    (rest : List String) (k : Nat) :
    stages.chargeFrom start (line :: rest) (k + 1) =
      stages.chargeFrom (stages.next start line) rest k := by
  unfold chargeFrom next
  rw [titleBefore?_succ]
  cases titleBefore? rest k with
  | none => rw [Option.none_or]
  | some name => rw [Option.some_or]

theorem chargedFrom_cons (stages : Stages) (start : Option Shader) (line : String)
    (rest : List String) :
    stages.chargedFrom start (line :: rest) =
      (if (title? line).isNone && start.isSome then [line] else []) ++
        stages.chargedFrom (stages.next start line) rest := by
  have shift : rest.zipIdx 1 = rest.zipIdx.map fun (line, k) => (line, k + 1) := List.zipIdx_succ
  unfold chargedFrom
  rw [List.zipIdx_cons, shift, List.filter_cons, List.filter_map]
  simp only [Function.comp_def, chargeFrom_succ, chargeFrom_zero]
  split <;> simp [Function.comp_def]

theorem remapSections_cons (stages : Stages) (start : Option Shader) (line : String)
    (rest : List String) :
    stages.remapSections start (line :: rest) = (do
      let first ← rewrite start line
      let others ← stages.remapSections (stages.next start line) rest
      return first :: others) := by
  unfold rewrite next
  rw [remapSections]
  cases title? line with
  | some name =>
    dsimp only
    cases stages.remapSections (stages.lookup name) rest <;> rfl
  | none => cases start <;> rfl

section Outcomes

variable {α β : Type} {first : Except TooManyDigits α} {b : β}

theorem bind_ok {more : α → Except TooManyDigits β} (done : first >>= more = .ok b) :
    ∃ a, first = .ok a ∧ more a = .ok b := by
  cases first with
  | error e => cases done
  | ok a => exact ⟨a, rfl, done⟩

theorem map_eq_ok_iff {f : α → β} : first.map f = .ok b ↔ ∃ a, first = .ok a ∧ f a = b := by
  cases first <;> simp [Except.map]

end Outcomes

theorem remapSections_eq_ok_iff {out : List String} :
    stages.remapSections start lines = .ok out ↔ out.length = lines.length ∧
      ∀ (k : Nat) (line : String), lines[k]? = some line →
        ∃ text, rewrite (stages.chargeFrom start lines k) line = .ok text ∧ out[k]? = some text := by
  induction lines generalizing start out with
  | nil =>
    rw [remapSections]
    cases out <;> simp
  | cons line rest ih =>
    rw [remapSections_cons]
    constructor
    · intro done
      obtain ⟨first, rewritten, done⟩ := bind_ok done
      obtain ⟨others, rewritten', done⟩ := bind_ok done
      obtain rfl : first :: others = out := Except.ok.inj done
      obtain ⟨length, each⟩ := ih.mp rewritten'
      refine ⟨by simp [length], fun k line' place => ?_⟩
      cases k with
      | zero =>
        obtain rfl : line = line' := by simpa using place
        exact ⟨first, rewritten, rfl⟩
      | succ k =>
        rw [chargeFrom_succ]
        exact each k line' place
    · rintro ⟨length, each⟩
      obtain ⟨first, others, rfl⟩ := List.exists_cons_of_length_eq_add_one length
      obtain ⟨text, rewritten, same⟩ := each 0 line rfl
      obtain rfl : first = text := by simpa using same
      have behind : stages.remapSections (stages.next start line) rest = .ok others := by
        refine ih.mpr ⟨by simpa using length, fun k line' place => ?_⟩
        rw [← chargeFrom_succ]
        exact each (k + 1) line' place
      rw [chargeFrom_zero] at rewritten
      rw [rewritten, behind]
      rfl

theorem rewrite_title (charge : Option Shader) (title : (title? line).isSome) :
    rewrite charge line = .ok line := if_pos title

theorem rewrite_line (charge : Option Shader) (plain : title? line = none) :
    rewrite charge line = match charge with
      | some s => remapLine s line
      | none => .ok line := if_neg (by simp [plain])

/-- The pass rewrites each line as its section tells. -/
theorem remapSections_eq_ok_iff_rewrites {out : List String} :
    stages.remapSections stages.sole? lines = .ok out ↔ stages.Rewrites lines out := by
  rw [remapSections_eq_ok_iff]
  constructor
  · rintro ⟨length, each⟩
    refine ⟨length, fun k line place title => ?_, fun k line s place plain charge => ?_,
      fun k line place free => ?_⟩
    · obtain ⟨text, rewritten, same⟩ := each k line place
      rw [rewrite_title _ title] at rewritten
      cases rewritten
      exact same
    · obtain ⟨text, rewritten, same⟩ := each k line place
      rw [rewrite_line _ plain, show stages.chargeFrom stages.sole? lines k = some s from charge]
        at rewritten
      exact ⟨text, rewritten, same⟩
    · obtain ⟨text, rewritten, same⟩ := each k line place
      have kept : rewrite (stages.chargeFrom stages.sole? lines k) line = .ok line := by
        rw [show stages.chargeFrom stages.sole? lines k = none from free]
        exact ite_self _
      cases kept.symm.trans rewritten
      exact same
  · intro rewrites
    refine ⟨rewrites.length, fun k line place => ?_⟩
    cases title : title? line with
    | some name =>
      have titled : (title? line).isSome := by simp [title]
      exact ⟨line, rewrite_title _ titled, rewrites.title k line place titled⟩
    | none =>
      rw [rewrite_line _ title]
      cases charge : stages.chargeFrom stages.sole? lines k with
      | some s => exact rewrites.charged k line s place title charge
      | none => exact ⟨line, rfl, rewrites.free k line place charge⟩

theorem settled_rewrite (charge : Option Shader) (line : String) :
    Settled (rewrite charge line)
      ((if (title? line).isNone && charge.isSome then [line] else []).findSome? excess?) := by
  cases title : title? line with
  | some name =>
    rw [rewrite_title charge (by simp [title])]
    exact .ok line
  | none =>
    rw [rewrite_line charge title]
    cases charge with
    | some s => simpa using settled_remapLine s line
    | none => exact .ok line

/-- The pass is given up at the first line in excess that some shader is in charge of. -/
theorem settled_remapSections (stages : Stages) (start : Option Shader) (lines : List String) :
    Settled (stages.remapSections start lines)
      ((stages.chargedFrom start lines).findSome? excess?) := by
  induction lines generalizing start with
  | nil => exact .ok []
  | cons line rest ih =>
    rw [remapSections_cons, chargedFrom_cons, List.findSome?_append]
    exact (settled_rewrite start line).bind fun first => (ih _).map (first :: ·)

theorem settled_remapMessage (stages : Stages) (message : String) :
    Settled (stages.remapMessage message)
      ((stages.charged (breakLines message)).findSome? excess?) :=
  (settled_remapSections stages stages.sole? (breakLines message)).map joinLines

theorem isSome_sole?_iff (stages : Stages) : stages.sole?.isSome ↔ stages.length = 1 := by
  rcases stages with _ | ⟨first, _ | ⟨second, others⟩⟩ <;> simp [sole?]

/-! Which lines some stage is in charge of depends on the names of the stages only. -/

section Independence

variable (names : (stages'.map Prod.fst).Perm (stages.map Prod.fst))

include names

theorem isSome_lookup (name : String) :
    (stages'.lookup name).isSome = (stages.lookup name).isSome := by
  have known : ∀ stages : Stages, (stages.lookup name).isSome ↔ name ∈ stages.map Prod.fst := by
    intro stages
    rw [List.lookup_isSome_iff, List.mem_map]
    refine exists_congr fun entry => and_congr_right fun _ => ?_
    rw [beq_iff_eq, eq_comm]
  rw [Bool.eq_iff_iff, known, known, names.mem_iff]

theorem isSome_sole? : stages'.sole?.isSome = stages.sole?.isSome := by
  have length := names.length_eq
  rw [List.length_map, List.length_map] at length
  rw [Bool.eq_iff_iff, isSome_sole?_iff, isSome_sole?_iff, length]

theorem isSome_charge? (lines : List String) (k : Nat) :
    (stages'.charge? lines k).isSome = (stages.charge? lines k).isSome := by
  unfold charge? chargeFrom
  cases titleBefore? lines k with
  | some name => exact isSome_lookup names name
  | none => exact isSome_sole? names

theorem charged_congr (lines : List String) : stages'.charged lines = stages.charged lines := by
  have same := isSome_charge? names lines
  unfold charge? at same
  unfold charged chargedFrom
  simp only [same]

theorem remapMessage_eq_error_iff (message : String) (e : TooManyDigits) :
    stages'.remapMessage message = .error e ↔ stages.remapMessage message = .error e := by
  rw [(settled_remapMessage stages' message).eq_error_iff,
    (settled_remapMessage stages message).eq_error_iff, charged_congr names]

end Independence

/-- The stage named `name` is in charge of line `k`. -/
def InSection (stages : Stages) (lines : List String) (name : String) (k : Nat) : Prop :=
  titleBefore? lines k = some name ∨
    titleBefore? lines k = none ∧ stages.map Prod.fst = [name]

theorem charge?_of_inSection {k : Nat} (inSection : stages.InSection lines name k) :
    stages.charge? lines k = stages.lookup name := by
  unfold charge? chargeFrom
  rcases inSection with title | ⟨none, only⟩
  · rw [title]
  · rw [none]
    obtain ⟨⟨first, s⟩, rfl, rfl⟩ := List.map_eq_singleton_iff.mp only
    exact (List.lookup_cons_self).symm

/-- What becomes of a line is told by the shader in charge of it. -/
theorem Rewrites.eq_of_charge? {rewritten rewritten' : List String} {k : Nat}
    (left : stages.Rewrites lines rewritten) (right : stages'.Rewrites lines rewritten')
    (charge : stages'.charge? lines k = stages.charge? lines k) : rewritten'[k]? = rewritten[k]? := by
  by_cases inside : k < lines.length
  · have place := List.getElem?_eq_getElem inside
    cases title : title? lines[k] with
    | some name =>
      have titled : (title? lines[k]).isSome := by simp [title]
      rw [left.title k _ place titled, right.title k _ place titled]
    | none =>
      cases found : stages.charge? lines k with
      | none => rw [left.free k _ place found, right.free k _ place (charge.trans found)]
      | some s =>
        obtain ⟨text, remapped, atLeft⟩ := left.charged k _ s place title found
        obtain ⟨text', remapped', atRight⟩ := right.charged k _ s place title (charge.trans found)
        cases remapped.symm.trans remapped'
        rw [atLeft, atRight]
  · have outside : lines.length ≤ k := not_lt.mp inside
    rw [List.getElem?_eq_none (right.length ▸ outside), List.getElem?_eq_none (left.length ▸ outside)]

/-- The lines of a stage's sections do not depend on the shaders of the other stages. -/
theorem Rewrites.eq_of_inSection {rewritten rewritten' : List String} {k : Nat}
    (left : stages.Rewrites lines rewritten) (right : stages'.Rewrites lines rewritten')
    (names : (stages'.map Prod.fst).Perm (stages.map Prod.fst))
    (agree : stages'.lookup name = stages.lookup name) (inSection : stages.InSection lines name k) :
    rewritten'[k]? = rewritten[k]? := by
  have inSection' : stages'.InSection lines name k :=
    inSection.imp_right fun ⟨first, only⟩ => ⟨first, List.perm_singleton.mp (only ▸ names)⟩
  refine left.eq_of_charge? right ?_
  rw [charge?_of_inSection inSection, charge?_of_inSection inSection', agree]

/-! A title closes the section before it: what stands behind does not depend on what stands before. -/

theorem remapSections_of_title (start other : Option Shader) (title : title? line = some name)
    (rest : List String) :
    stages.remapSections start (line :: rest) = stages.remapSections other (line :: rest) := by
  rw [remapSections, remapSections, title]

theorem remapSections_append (start other : Option Shader) (title : title? line = some name)
    (front back : List String) :
    stages.remapSections start (front ++ line :: back) = (do
      let first ← stages.remapSections start front
      let second ← stages.remapSections other (line :: back)
      return first ++ second) := by
  induction front generalizing start with
  | nil =>
    rw [List.nil_append, remapSections_of_title start other title]
    cases stages.remapSections other (line :: back) <;> rfl
  | cons head rest ih =>
    rw [List.cons_append, remapSections_cons, remapSections_cons, ih]
    simp only [bind_assoc, pure_bind, List.cons_append]

theorem rewrite_empty (charge : Option Shader) : rewrite charge "" = .ok "" := by
  have plain : title? "" = none := by decide
  have nothing : LogEntry.of? "" = none := by decide
  rw [rewrite_line charge plain]
  cases charge with
  | none => rfl
  | some s =>
    have none : diagnostic? s "" = .ok none := by rw [diagnostic?, nothing]
    simp only [remapLine, none]

theorem ne_nil_of_remapSections {out : List String} (some : lines ≠ [])
    (done : stages.remapSections start lines = .ok out) : out ≠ [] := by
  have length := (remapSections_eq_ok_iff.mp done).1
  rintro rfl
  exact some (List.length_eq_zero_iff.mp length.symm)

/-- The lines of a message in front of another one. An empty message there is an empty line. -/
theorem remapSections_front (stages : Stages) (front : String) :
    ∃ lines, lines ≠ [] ∧
      (Unbroken front → ∀ back, breakLines (front ++ "\n" ++ back) = lines ++ breakLines back) ∧
      (stages.remapSections stages.sole? lines).map joinLines = stages.remapMessage front := by
  by_cases empty : front = ""
  · subst empty
    refine ⟨[""], by simp, fun _ back => by simpa using breakLines_feed back, ?_⟩
    rw [remapSections_cons, rewrite_empty]
    rfl
  · exact ⟨breakLines front, by simpa [breakLines] using breakChars_ne_nil (by simpa using empty),
      fun ends back => breakLines_append empty ends back, rfl⟩

/-- Two messages put behind each other are remapped each for itself, where the second one opens with
a title. -/
theorem remapMessage_append {front back : String} (ends : Unbroken front)
    (opens : ((breakLines back).head?.bind title?).isSome) :
    stages.remapMessage (front ++ "\n" ++ back) = (do
      let first ← stages.remapMessage front
      let second ← stages.remapMessage back
      return first ++ "\n" ++ second) := by
  obtain ⟨line, rest, name, broken, title⟩ :
      ∃ line rest name, breakLines back = line :: rest ∧ title? line = some name := by
    obtain ⟨name, opens⟩ := Option.isSome_iff_exists.mp opens
    obtain ⟨line, first, title⟩ := Option.bind_eq_some_iff.mp opens
    obtain ⟨rest, split⟩ := List.head?_eq_some_iff.mp first
    exact ⟨line, rest, name, split, title⟩
  obtain ⟨lead, some, split, same⟩ := remapSections_front stages front
  rw [← same, remapMessage, remapMessage, split ends back, broken,
    remapSections_append stages.sole? stages.sole? title]
  cases before : stages.remapSections stages.sole? lead with
  | error e => rfl
  | ok first =>
    cases behind : stages.remapSections stages.sole? (line :: rest) with
    | error e => rfl
    | ok second =>
      have joined := joinLines_append (ne_nil_of_remapSections some before)
        (ne_nil_of_remapSections (List.cons_ne_nil line rest) behind)
      exact congrArg Except.ok joined

/-- A message is remapped line by line, each line by the shader of the section it stands in, if no such
line has a line number of too many digits. The other stages have no part in a section, and sections can
be remapped one by one. -/
theorem remapMessage_by_section (stages : Stages) (message : String) :
    let lines := breakLines message
    (∀ out, stages.remapMessage message = .ok out ↔
      ∃ rewritten, stages.Rewrites lines rewritten ∧ joinLines rewritten = out) ∧
    ((∃ out, stages.remapMessage message = .ok out) ↔
      ∀ line ∈ stages.charged lines, Legible line) ∧
    (∀ stages' : Stages, (stages'.map Prod.fst).Perm (stages.map Prod.fst) →
      (∀ e, stages'.remapMessage message = .error e ↔ stages.remapMessage message = .error e) ∧
      ∀ name, stages'.lookup name = stages.lookup name → ∀ rewritten rewritten',
        stages.Rewrites lines rewritten → stages'.Rewrites lines rewritten' →
        ∀ k, stages.InSection lines name k → rewritten'[k]? = rewritten[k]?) ∧
    ∀ back, Unbroken message → ((breakLines back).head?.bind title?).isSome →
      stages.remapMessage (message ++ "\n" ++ back) = (do
        let first ← stages.remapMessage message
        let second ← stages.remapMessage back
        return first ++ "\n" ++ second) := by
  intro lines
  refine ⟨fun out => ?_, ?_, fun stages' names => ⟨fun e => ?_, ?_⟩, fun back => ?_⟩
  · rw [remapMessage, map_eq_ok_iff]
    exact exists_congr fun rewritten => and_congr_left fun _ => remapSections_eq_ok_iff_rewrites
  · rw [(settled_remapMessage stages message).exists_ok_iff, findSome?_excess?_eq_none_iff]
  · exact remapMessage_eq_error_iff names message e
  · intro name agree rewritten rewritten' left right k inSection
    exact left.eq_of_inSection right names agree inSection
  · exact remapMessage_append

/-- A message about a program of two stages, the same message about another program with the first one
of the two, and a message put behind it. -/
theorem remapMessage_by_section_of_two :
    let s := Shader.ofSorted "m" MemoryStore.pairModules MemoryStore.pairModules.reverse
    let stages : Stages := [("vertex_shader", s), ("fragment_shader", s)]
    let stages' : Stages := [("fragment_shader", .ofSorted "m" [] []), ("vertex_shader", s)]
    let front := "vertex_shader\nERROR: 0:3: x\nfragment_shader\nERROR: 0:3: x"
    let back := " vertex_shader \r\nERROR: 0:2: y"
    (stages'.map Prod.fst).Perm (stages.map Prod.fst) ∧
      stages'.lookup "vertex_shader" = stages.lookup "vertex_shader" ∧
      Unbroken front ∧ ((breakLines back).head?.bind title?).isSome ∧
      stages.InSection (breakLines front) "vertex_shader" 1 ∧
      stages.remapMessage front ≠ stages'.remapMessage front ∧
      (∃ rewritten rewritten', stages.Rewrites (breakLines front) rewritten ∧
        stages'.Rewrites (breakLines front) rewritten' ∧ rewritten'[1]? = rewritten[1]?) ∧
      stages.remapMessage (front ++ "\n" ++ back) =
        .ok ("vertex_shader\na:1: error: x\nfragment_shader\na:1: error: x\n" ++
          " vertex_shader \nERROR: 0:2: y") := by
  intro s stages stages' front back
  have names : (stages'.map Prod.fst).Perm (stages.map Prod.fst) := .swap _ _ _
  have agree : stages'.lookup "vertex_shader" = stages.lookup "vertex_shader" := rfl
  have ends : Unbroken front := by simp [front, Unbroken, isLineBreak]
  have opens : ((breakLines back).head?.bind title?).isSome := by decide +kernel
  have inSection : stages.InSection (breakLines front) "vertex_shader" 1 := .inl (by decide +kernel)
  have first : stages.remapMessage front =
      .ok "vertex_shader\na:1: error: x\nfragment_shader\na:1: error: x" := by decide +kernel
  have first' : stages'.remapMessage front =
      .ok "vertex_shader\na:1: error: x\nfragment_shader\nERROR: 0:3: x" := by decide +kernel
  have second : stages.remapMessage back = .ok " vertex_shader \nERROR: 0:2: y" := by decide +kernel
  have different : stages.remapMessage front ≠ stages'.remapMessage front := by
    rw [first, first']
    decide
  obtain ⟨lines, -, independent, append⟩ := remapMessage_by_section stages front
  obtain ⟨lines', -⟩ := remapMessage_by_section stages' front
  obtain ⟨rewritten, rewrites, -⟩ := (lines _).mp first
  obtain ⟨rewritten', rewrites', -⟩ := (lines' _).mp first'
  have same := (independent stages' names).2 _ agree _ _ rewrites rewrites' 1 inSection
  refine ⟨names, agree, ends, opens, inSection, different, ⟨_, _, rewrites, rewrites', same⟩, ?_⟩
  rw [append back ends opens, first, second]
  rfl

/-- A title is no log line. -/
theorem of?_eq_none_of_title (title : title? line = some name) : LogEntry.of? line = none := by
  simp only [title?] at title
  split at title
  · rename_i known
    have noLog : ∀ name ∈ titles, LogEntry.ofTrimmed? name.toList = none := by decide
    have named := noLog _ (by simpa using known)
    rwa [trimmed, String.toList_ofList] at named
  · cases title

theorem title?_unreadable : title? unreadable = none := by
  cases title : title? unreadable with
  | none => rfl
  | some name =>
    have excess := excess?_unreadable
    rw [excess?, of?_eq_none_of_title title] at excess
    cases excess

def unreadableLog : String := "fragment_shader" ++ "\n" ++ unreadable

theorem breakLines_unreadableLog : breakLines unreadableLog = ["fragment_shader", unreadable] := by
  have ends : Unbroken "fragment_shader" := by simp [Unbroken, isLineBreak]
  change breakLines ("fragment_shader" ++ "\n" ++ unreadable) = _
  rw [breakLines_append (by decide) ends, breakLines_unreadable]
  rfl

theorem charged_titled {title : String} (opens : title? title = some name)
    (known : (stages.lookup name).isSome) (plain : title? line = none) :
    stages.charged [title, line] = [line] := by
  rw [charged, chargedFrom_cons, chargedFrom_cons]
  simp [opens, known, plain, next, chargedFrom]

/-- A program with a fragment shader is charged with the line that cannot be read. -/
theorem charged_unreadableLog (known : (stages.lookup "fragment_shader").isSome) :
    stages.charged (breakLines unreadableLog) = [unreadable] := by
  have opens : title? "fragment_shader" = some "fragment_shader" := by decide
  rw [breakLines_unreadableLog, charged_titled opens known title?_unreadable]

theorem excess_unreadableLog (stages : Stages)
    (known : (stages.lookup "fragment_shader").isSome) :
    (stages.charged (breakLines unreadableLog)).findSome? excess? = some (digitLimit + 1) := by
  rw [charged_unreadableLog known, List.findSome?_singleton, excess?_unreadable]

/-- This message is not remapped, though the shader maps no line of the number in it. -/
theorem remapMessage_unreadableLog :
    let s := Shader.ofSorted "m" MemoryStore.pairModules MemoryStore.pairModules.reverse
    let stages : Stages := [("fragment_shader", s)]
    stages.charged (breakLines unreadableLog) = [unreadable] ∧
      s.mapLine ((10 ^ digitLimit : Nat) - 1) = none ∧
      stages.remapMessage unreadableLog = .error ⟨digitLimit + 1⟩ := by
  intro s stages
  have laid : s.Laid := laid_of_assemble assemble_pair
  have unmapped : ∀ n : Nat, 10 ≤ n → s.mapLine (n - 1) = none := by
    intro n far
    refine Option.eq_none_iff_forall_ne_some.mpr fun ⟨m, j⟩ mapped => ?_
    have last := (laid.inside_of_mapLine mapped).2
    have count : (Shader.bundledLines s.sorted).length = 9 := by decide +kernel
    omega
  have far : 10 ≤ 10 ^ digitLimit := Nat.le_self_pow (by decide) 10
  exact ⟨charged_unreadableLog rfl, unmapped _ far,
    (settled_remapMessage stages unreadableLog).fails _ (excess_unreadableLog stages rfl)⟩

end ShaderBundle.Stages

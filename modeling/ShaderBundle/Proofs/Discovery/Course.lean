import ShaderBundle.Proofs.Discovery.Run

/-! The course that a discovery takes, told without a queue. The includes of the loaded modules form an
agenda that grows at its end; each turn follows the next one, until none is left or one fails. -/
namespace ShaderBundle.Discovery

inductive Request (lib : Library) (includer : Option (String × Nat)) (id : String) :
    Except AssemblyError Module → Prop
  | refused {cause : FetchFault} (refusal : lib.fetch id = .error cause) :
    Request lib includer id (.error (.load ⟨id, cause, includer⟩))
  | malformed {text : String} {fault : MalformedInclude} (fetched : lib.fetch id = .ok text)
    (unread : Module.ofSource id text = .error fault) :
    Request lib includer id (.error (.malformed fault))
  | loaded {text : String} {m : Module} (fetched : lib.fetch id = .ok text)
    (read : Module.ofSource id text = .ok m) : Request lib includer id (.ok m)

def conclude (loaded : List Module) (id : String) :
    Except AssemblyError Module → Except Stop (List Module)
  | .error e => .error ⟨e, loaded.map (·.id) ++ [id]⟩
  | .ok m => .ok (loaded ++ [m])

/-- The includes of the loaded modules in the order in which they are followed. -/
def agenda (loaded : List Module) : List (Module × Dependency) :=
  loaded.flatMap fun m => m.dependencies.map (m, ·)

/-- What following one include comes to: only an id that was not met before is asked for. -/
inductive Turn (lib : Library) (includeRoot : String) (loaded : List Module) (owner : Module)
    (dep : Dependency) : Except Stop (List Module) → Prop
  | astray {fault : Path.Fault} (refusal : lib.resolve includeRoot owner.id dep = .error fault) :
    Turn lib includeRoot loaded owner dep (.error ⟨.path fault, loaded.map (·.id)⟩)
  | known {id : String} (leads : lib.Leads includeRoot owner.id dep id)
    (known : id ∈ loaded.map (·.id)) : Turn lib includeRoot loaded owner dep (.ok loaded)
  | asked {id : String} {answer : Except AssemblyError Module}
    (leads : lib.Leads includeRoot owner.id dep id) (fresh : id ∉ loaded.map (·.id))
    (request : Request lib (some (owner.id, dep.line)) id answer) :
    Turn lib includeRoot loaded owner dep (conclude loaded id answer)

/-- What the request for the root and so many turns behind it come to. -/
inductive Course (lib : Library) (includeRoot root : String) : Nat → Except Stop (List Module) → Prop
  | start {answer : Except AssemblyError Module} (request : Request lib none root answer) :
    Course lib includeRoot root 0 (conclude [] root answer)
  | turn {count : Nat} {loaded : List Module} {owner : Module} {dep : Dependency}
    {outcome : Except Stop (List Module)} (before : Course lib includeRoot root count (.ok loaded))
    (next : (agenda loaded)[count]? = some (owner, dep))
    (turn : Turn lib includeRoot loaded owner dep outcome) :
    Course lib includeRoot root (count + 1) outcome

def Fails (lib : Library) (includeRoot root : String) (stop : Stop) : Prop :=
  ∃ count, Course lib includeRoot root count (.error stop)

def Ends (lib : Library) (includeRoot root : String) (loaded : List Module) : Prop :=
  Course lib includeRoot root (agenda loaded).length (.ok loaded)

variable {lib : Library} {includeRoot root : String}

theorem conclude_eq_ok {loaded more : List Module} {id : String} {answer : Except AssemblyError Module}
    (ok : conclude loaded id answer = .ok more) : ∃ m, answer = .ok m ∧ more = loaded ++ [m] := by
  cases answer with
  | error e => simp [conclude] at ok
  | ok m => exact ⟨m, rfl, (Except.ok.inj ok).symm⟩

theorem conclude_eq_error {loaded : List Module} {id : String} {answer : Except AssemblyError Module}
    {stop : Stop} (failed : conclude loaded id answer = .error stop) :
    ∃ e, answer = .error e ∧ stop = ⟨e, loaded.map (·.id) ++ [id]⟩ := by
  cases answer with
  | error e => exact ⟨e, rfl, (Except.error.inj failed).symm⟩
  | ok m => simp [conclude] at failed

theorem request_iff {includer : Option (String × Nat)} {id : String}
    {outcome : Except AssemblyError Module} :
    Request lib includer id outcome ↔ lib.load includer id = outcome := by
  unfold Library.load
  constructor
  · intro request
    cases request with
    | refused refusal => rw [refusal]
    | malformed fetched unread => simp only [fetched, unread]
    | loaded fetched read => simp only [fetched, read]
  · rintro rfl
    split
    · exact .refused ‹_›
    · split
      · exact .malformed ‹_› ‹_›
      · exact .loaded ‹_› ‹_›

theorem Request.unique {includer : Option (String × Nat)} {id : String}
    {left right : Except AssemblyError Module} (first : Request lib includer id left)
    (second : Request lib includer id right) : left = right :=
  (request_iff.mp first).symm.trans (request_iff.mp second)

theorem Request.holds {includer : Option (String × Nat)} {id : String} {m : Module}
    (request : Request lib includer id (.ok m)) : m.id = id ∧ lib.Holds m :=
  Library.load_ok (request_iff.mp request)

theorem Turn.holds {loaded more : List Module} {owner : Module} {dep : Dependency}
    (turn : Turn lib includeRoot loaded owner dep (.ok more)) (held : ∀ m ∈ loaded, lib.Holds m) :
    ∀ m ∈ more, lib.Holds m := by
  generalize answer : Except.ok more = outcome at turn
  cases turn with
  | astray => simp at answer
  | known =>
    obtain rfl := Except.ok.inj answer
    exact held
  | asked leads fresh request =>
    obtain ⟨m, rfl, rfl⟩ := conclude_eq_ok answer.symm
    intro n member
    rcases List.mem_append.mp member with earlier | new
    · exact held n earlier
    · obtain rfl := List.mem_singleton.mp new
      exact request.holds.2

/-- What a course has loaded is what the library's texts read as. -/
theorem Course.holds {count : Nat} {loaded : List Module}
    (course : Course lib includeRoot root count (.ok loaded)) : ∀ m ∈ loaded, lib.Holds m := by
  induction count generalizing loaded with
  | zero =>
    generalize answer : Except.ok loaded = outcome at course
    cases course with
    | start request =>
      obtain ⟨m, rfl, rfl⟩ := conclude_eq_ok answer.symm
      simpa using request.holds.2
  | succ count ih =>
    cases course with
    | turn before next turn => exact turn.holds (ih before)

/-! ### A course is determined -/

theorem Turn.unique {loaded : List Module} {owner : Module} {dep : Dependency}
    {left right : Except Stop (List Module)} (first : Turn lib includeRoot loaded owner dep left)
    (second : Turn lib includeRoot loaded owner dep right) : left = right := by
  have apart {fault : Path.Fault} {id : String}
      (refusal : lib.resolve includeRoot owner.id dep = .error fault)
      (leads : lib.Leads includeRoot owner.id dep id) : left = right := by
    rw [Library.leads_iff, refusal] at leads
    simp at leads
  cases first with
  | astray refusal =>
    cases second with
    | astray refusal' => rw [Except.error.inj (refusal.symm.trans refusal')]
    | known leads => exact apart refusal leads
    | asked leads => exact apart refusal leads
  | known leads known =>
    cases second with
    | astray refusal => exact apart refusal leads
    | known => rfl
    | asked leads' fresh => exact absurd (leads.unique leads' ▸ known) fresh
  | asked leads fresh request =>
    cases second with
    | astray refusal => exact apart refusal leads
    | known leads' known => exact absurd (leads.unique leads' ▸ known) fresh
    | asked leads' _ request' =>
      obtain rfl := leads.unique leads'
      rw [request.unique request']

theorem Course.unique {count : Nat} {left right : Except Stop (List Module)}
    (first : Course lib includeRoot root count left)
    (second : Course lib includeRoot root count right) : left = right := by
  induction count generalizing left right with
  | zero =>
    cases first with
    | start request =>
      cases second with
      | start request' => rw [request.unique request']
  | succ count ih =>
    cases first with
    | turn before next turn =>
      cases second with
      | turn before' next' turn' =>
        obtain rfl := Except.ok.inj (ih before before')
        obtain ⟨rfl, rfl⟩ := Prod.mk.inj (Option.some.inj (next.symm.trans next'))
        exact turn.unique turn'

/-- A course that goes on has had an outcome at every earlier turn, with an include left to follow. -/
theorem Course.earlier {count early : Nat} {outcome : Except Stop (List Module)}
    (course : Course lib includeRoot root count outcome) (before : early < count) :
    ∃ loaded, Course lib includeRoot root early (.ok loaded) ∧ early < (agenda loaded).length := by
  induction count generalizing outcome with
  | zero => exact absurd before (Nat.not_lt_zero early)
  | succ count ih =>
    cases course with
    | turn reached next turn =>
      rcases Nat.lt_succ_iff_lt_or_eq.mp before with further | rfl
      · exact ih reached further
      · exact ⟨_, reached, (List.getElem?_eq_some_iff.mp next).1⟩

/-- A course fails at its root, astray, or at the first request for a module that an include leads to. -/
theorem Fails.cases {stop : Stop} (fails : Fails lib includeRoot root stop) :
    (∃ e, Request lib none root (.error e) ∧ stop = ⟨e, [root]⟩) ∨
    ∃ count loaded owner dep, Course lib includeRoot root count (.ok loaded) ∧
      owner ∈ loaded ∧ dep ∈ owner.dependencies ∧
      ((∃ fault, lib.resolve includeRoot owner.id dep = .error fault ∧
          stop = ⟨.path fault, loaded.map (·.id)⟩) ∨
        ∃ id e, lib.Leads includeRoot owner.id dep id ∧ id ∉ loaded.map (·.id) ∧
          Request lib (some (owner.id, dep.line)) id (.error e) ∧
          stop = ⟨e, loaded.map (·.id) ++ [id]⟩) := by
  obtain ⟨count, course⟩ := fails
  generalize answer : Except.error stop = outcome at course
  cases course with
  | start request =>
    obtain ⟨e, rfl, rfl⟩ := conclude_eq_error answer.symm
    exact .inl ⟨e, request, rfl⟩
  | @turn count loaded owner dep _ before next turn =>
    have listed := List.mem_of_getElem? next
    obtain ⟨m, member, paired⟩ := List.mem_flatMap.mp listed
    obtain ⟨dep', inModule, same⟩ := List.mem_map.mp paired
    obtain ⟨rfl, rfl⟩ := Prod.mk.inj same
    refine .inr ⟨count, loaded, m, dep', before, member, inModule, ?_⟩
    cases turn with
    | astray refusal => exact .inl ⟨_, refusal, Except.error.inj answer⟩
    | known => simp at answer
    | asked leads fresh request =>
      obtain ⟨e, rfl, rfl⟩ := conclude_eq_error answer.symm
      exact .inr ⟨_, e, leads, fresh, request, rfl⟩

theorem Fails.unique {stop other : Stop} (left : Fails lib includeRoot root stop)
    (right : Fails lib includeRoot root other) : stop = other := by
  obtain ⟨count, first⟩ := left
  obtain ⟨count', second⟩ := right
  rcases Nat.lt_trichotomy count count' with before | rfl | before
  · obtain ⟨loaded, reached, -⟩ := second.earlier before
    simpa using first.unique reached
  · exact Except.error.inj (first.unique second)
  · obtain ⟨loaded, reached, -⟩ := first.earlier before
    simpa using second.unique reached

/-- A course either fails or ends. -/
theorem Fails.not_ends {stop : Stop} {loaded : List Module} (fails : Fails lib includeRoot root stop) :
    ¬ Ends lib includeRoot root loaded := by
  intro ends
  obtain ⟨count, failed⟩ := fails
  rcases Nat.lt_trichotomy count (agenda loaded).length with before | rfl | before
  · obtain ⟨earlier, reached, -⟩ := Course.earlier ends before
    simpa using failed.unique reached
  · simpa using failed.unique ends
  · obtain ⟨later, reached, left⟩ := failed.earlier before
    obtain rfl := Except.ok.inj (Course.unique ends reached)
    exact Nat.lt_irrefl _ left

end ShaderBundle.Discovery

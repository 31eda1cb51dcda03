import ShaderBundle.Proofs.Assembly.Cycle

/-! What an assembly from memory comes to. The first failure of its course decides; without one the
includes of the discovered modules do, by forming a cycle or not. -/
namespace ShaderBundle

open Relation DependencyOrder

variable {lib : Library} {includeRoot root : String}

namespace Discovery

theorem Request.load_inv {includer : Option (String × Nat)} {id : String} {fault : LoadFault}
    (request : Request lib includer id (.error (.load fault))) :
    fault.moduleId = id ∧ fault.includer = includer ∧ lib.fetch id = .error fault.cause := by
  cases request with
  | refused refusal => exact ⟨rfl, rfl, refusal⟩

theorem Request.malformed_inv {includer : Option (String × Nat)} {id : String}
    {fault : MalformedInclude} (request : Request lib includer id (.error (.malformed fault))) :
    ∃ text, lib.fetch id = .ok text ∧ Module.ofSource id text = .error fault := by
  cases request with
  | malformed fetched unread => exact ⟨_, fetched, unread⟩

/-- The last request was the first one for its id, and an include of a module loaded before made it: the
text of `owner` has, at this line, an include directive that leads to the id. -/
structure AskedBy (lib : Library) (includeRoot : String) (requests : List String)
    (id owner : String) (line : Nat) : Prop where
  first : ∃ earlier, requests = earlier ++ [id] ∧ id ∉ earlier ∧ owner ∈ earlier
  directive : ∃ text m raw kind target, lib.fetch owner = .ok text ∧
    Module.ofSource owner text = .ok m ∧ (Text.splitLines text)[line]? = some raw ∧
    LineRole.of raw = .inclusion kind target ∧
    lib.Leads includeRoot owner ⟨target, line, kind, none⟩ id

structure UnreadAt (lib : Library) (requests : List String) (id : String) (line : Nat) : Prop where
  first : ∃ earlier, requests = earlier ++ [id] ∧ id ∉ earlier
  directive : ∃ text raw, lib.fetch id = .ok text ∧ (Text.splitLines text)[line]? = some raw ∧
    LineRole.of raw = .emptyInclusion ∧
    ∀ index other, index < line → (Text.splitLines text)[index]? = some other →
      LineRole.of other ≠ .emptyInclusion

theorem askedBy_of_leads {loaded : List Module} {owner : Module} {dep : Dependency} {id : String}
    (held : lib.Holds owner) (member : owner ∈ loaded) (inModule : dep ∈ owner.dependencies)
    (leads : lib.Leads includeRoot owner.id dep id) (fresh : id ∉ loaded.map (·.id)) :
    AskedBy lib includeRoot (loaded.map (·.id) ++ [id]) id owner.id dep.line := by
  obtain ⟨text, fetched, read⟩ := held
  obtain ⟨-, same⟩ := Module.ofSource_eq_ok_iff.mp read
  rw [same] at inModule
  obtain ⟨raw, atLine, role, unresolved⟩ := Module.mem_dependencies_ofLines.mp inModule
  have plain : dep = ⟨dep.target, dep.line, dep.kind, none⟩ := by rw [← unresolved]
  exact ⟨⟨_, rfl, fresh, List.mem_map_of_mem member⟩,
    text, owner, raw, dep.kind, dep.target, fetched, read, atLine, role, plain ▸ leads⟩

theorem unreadAt_of_request {includer : Option (String × Nat)} {earlier : List String} {id : String}
    {fault : MalformedInclude} (request : Request lib includer id (.error (.malformed fault)))
    (fresh : id ∉ earlier) : UnreadAt lib (earlier ++ [id]) fault.moduleId fault.line := by
  obtain ⟨text, fetched, unread⟩ := request.malformed_inv
  obtain ⟨rfl, ⟨raw, atLine, role⟩, before⟩ := Module.ofSource_error unread
  exact ⟨⟨earlier, rfl, fresh⟩, text, raw, fetched, atLine, role, before⟩

/-- A fault of a fetch is the library's own, and it is laid on the include that asked first. -/
theorem Fails.load_blame {stop : Stop} {fault : LoadFault} (fails : Fails lib includeRoot root stop)
    (same : stop.error = .load fault) : lib.fetch fault.moduleId = .error fault.cause ∧
      ((fault.moduleId = root ∧ fault.includer = none ∧ stop.requests = [root]) ∨
        ∃ owner line, fault.includer = some (owner, line) ∧
          AskedBy lib includeRoot stop.requests fault.moduleId owner line) := by
  rcases fails.cases with ⟨e, request, rfl⟩ | ⟨count, loaded, owner, dep, course, member, inModule, turn⟩
  · obtain rfl : e = .load fault := same
    obtain ⟨rfl, none, refusal⟩ := request.load_inv
    exact ⟨refusal, .inl ⟨rfl, none, rfl⟩⟩
  rcases turn with ⟨_, -, rfl⟩ | ⟨id, e, leads, fresh, request, rfl⟩
  · simp at same
  · obtain rfl : e = .load fault := same
    obtain ⟨rfl, some, refusal⟩ := request.load_inv
    have held := course.holds owner member
    exact ⟨refusal, .inr ⟨_, _, some, askedBy_of_leads held member inModule leads fresh⟩⟩

theorem Fails.malformed_blame {stop : Stop} {fault : MalformedInclude}
    (fails : Fails lib includeRoot root stop) (same : stop.error = .malformed fault) :
    UnreadAt lib stop.requests fault.moduleId fault.line := by
  rcases fails.cases with ⟨e, request, rfl⟩ | ⟨count, loaded, owner, dep, -, -, -, turn⟩
  · obtain rfl : e = .malformed fault := same
    exact unreadAt_of_request request List.not_mem_nil
  rcases turn with ⟨_, -, rfl⟩ | ⟨id, e, -, fresh, request, rfl⟩
  · simp at same
  · obtain rfl : e = .malformed fault := same
    exact unreadAt_of_request request fresh

end Discovery

theorem assemble_of_run_error {stop : Stop}
    (stopped : Discovery.run lib includeRoot root = .error stop) :
    (assemble lib root includeRoot).result = .error stop.error ∧
      (assemble lib root includeRoot).requests = stop.requests := by
  unfold assemble
  rw [stopped]
  exact ⟨rfl, rfl⟩

/-- Once all modules are discovered, their includes decide. -/
theorem assemble_of_run_ok {d : Discovery} (found : Discovery.run lib includeRoot root = .ok d) :
    (lib.Cyclic includeRoot root →
      ∃ chain, (assemble lib root includeRoot).result = .error (.cycle chain)) ∧
    (¬ lib.Cyclic includeRoot root → ∃ s, (assemble lib root includeRoot).result = .ok s) := by
  obtain ⟨valid, done⟩ := Discovery.run_ok found
  have closed := valid.closed_table done
  have result : (assemble lib root includeRoot).result = Assembly.shaderOf root d.modules :=
    assemble_of_modules (by rw [found]; rfl)
  rw [result, Assembly.shaderOf, ← valid.cyclic_iff done]
  cases order : sort (Assembly.tableOf d.modules) with
  | ok sorted =>
    obtain ⟨perm, ordered⟩ := sort_ok closed.toKeyed order
    exact ⟨fun cyclic => absurd cyclic (ordered.acyclic perm.symm.subset), fun _ => ⟨_, rfl⟩⟩
  | error fault =>
    obtain ⟨cyclic, chain, rfl⟩ := sort_cyclic closed order
    exact ⟨fun _ => ⟨chain, rfl⟩, fun acyclic => absurd cyclic acyclic⟩

/-- A fault that an assembly from a roomy library reports of a module is that of its course. -/
theorem fails_of_assemble (roomy : lib.Roomy) {e : AssemblyError}
    (failed : (assemble lib root includeRoot).result = .error e)
    (ordered : ∀ fault, Assembly.orderError fault ≠ e) :
    ∃ stop, Discovery.Fails lib includeRoot root stop ∧ stop.error = e ∧
      (assemble lib root includeRoot).requests = stop.requests := by
  rcases assemble_error failed with ⟨stop, stopped, same⟩ | ⟨_, fault, -, -, same⟩
  · exact ⟨stop, (Discovery.run_eq_error_iff roomy).mp stopped, same,
      (assemble_of_run_error stopped).2⟩
  · exact absurd same (ordered fault)

/-- An assembly from memory fails with the first failure of its course. If there is none it fails exactly
if the texts that the root leads to include each other, and then with a cycle. A fault in loading or
reading a module is laid where the module was first asked for, or where its text is at fault. -/
theorem assemble_outcome (store : MemoryStore) (root includeRoot : String) :
    let lib := store.library
    let run := assemble lib root includeRoot
    (∀ stop, Discovery.Fails lib includeRoot root stop →
      run.result = .error stop.error ∧ run.requests = stop.requests) ∧
    ((∀ stop, ¬ Discovery.Fails lib includeRoot root stop) →
      (lib.Cyclic includeRoot root → ∃ chain, run.result = .error (.cycle chain)) ∧
      (¬ lib.Cyclic includeRoot root → ∃ s, run.result = .ok s)) ∧
    (∀ fault, run.result = .error (.load fault) → lib.fetch fault.moduleId = .error fault.cause ∧
      ((fault.moduleId = root ∧ fault.includer = none ∧ run.requests = [root]) ∨
        ∃ owner line, fault.includer = some (owner, line) ∧
          Discovery.AskedBy lib includeRoot run.requests fault.moduleId owner line)) ∧
    (∀ fault, run.result = .error (.malformed fault) →
      Discovery.UnreadAt lib run.requests fault.moduleId fault.line) := by
  intro lib run
  have roomy : lib.Roomy := store.roomy
  refine ⟨fun stop fails => assemble_of_run_error ((Discovery.run_eq_error_iff roomy).mpr fails),
    fun none => ?_, fun fault failed => ?_, fun fault failed => ?_⟩
  · cases outcome : Discovery.run lib includeRoot root with
    | error stop => exact absurd ((Discovery.run_eq_error_iff roomy).mp outcome) (none stop)
    | ok d => exact assemble_of_run_ok outcome
  · obtain ⟨stop, fails, same, requests⟩ := fails_of_assemble roomy failed
      (by rintro ⟨⟩ <;> simp [Assembly.orderError])
    rw [show run.requests = _ from requests]
    exact fails.load_blame same
  · obtain ⟨stop, fails, same, requests⟩ := fails_of_assemble roomy failed
      (by rintro ⟨⟩ <;> simp [Assembly.orderError])
    rw [show run.requests = _ from requests]
    exact fails.malformed_blame same

/-- Two includes lead to a module that is refused; the nearer one is asked, though it stands later. -/
def MemoryStore.refusing : MemoryStore :=
  ⟨[("m", "#include \"a\"\n#include \"b\""), ("a", "#include \"b\"")],
    [("b", "RuntimeError", "gone")]⟩

def MemoryStore.unreadable : MemoryStore := ⟨[("m", "x\n#include \"\"")], []⟩

theorem assemble_outcome_of_stores :
    (∃ stop, Discovery.Fails MemoryStore.refusing.library "" "m" stop ∧
      (assemble MemoryStore.refusing.library "m" "").result = .error stop.error ∧
      Discovery.AskedBy MemoryStore.refusing.library ""
        (assemble MemoryStore.refusing.library "m" "").requests "b" "m" 1) ∧
    Discovery.UnreadAt MemoryStore.unreadable.library
      (assemble MemoryStore.unreadable.library "m" "").requests "m" 1 ∧
    ((∀ stop, ¬ Discovery.Fails MemoryStore.pair.library "" "m" stop) ∧
      ¬ MemoryStore.pair.library.Cyclic "" "m" ∧
      ∃ s, (assemble MemoryStore.pair.library "m" "").result = .ok s) ∧
    (∀ stop, ¬ Discovery.Fails MemoryStore.tailed.library "" "top" stop) ∧
      MemoryStore.tailed.library.Cyclic "" "top" ∧
      ∃ chain, (assemble MemoryStore.tailed.library "top" "").result = .error (.cycle chain) := by
  have refused : (assemble MemoryStore.refusing.library "m" "").result =
      .error (.load ⟨"b", .refused "RuntimeError" "gone", some ("m", 1)⟩) := by decide +kernel
  have unread : (assemble MemoryStore.unreadable.library "m" "").result =
      .error (.malformed ⟨"m", 1⟩) := by decide +kernel
  refine ⟨?_, ?_, ?_, ?_⟩
  · obtain ⟨decides, none, blame, -⟩ := assemble_outcome MemoryStore.refusing "m" ""
    have failing : ∃ stop, Discovery.Fails MemoryStore.refusing.library "" "m" stop := by
      by_contra never
      obtain ⟨cyclic, acyclic⟩ := none (not_exists.mp never)
      by_cases loops : MemoryStore.refusing.library.Cyclic "" "m"
      · obtain ⟨chain, other⟩ := cyclic loops
        simp [refused] at other
      · obtain ⟨s, other⟩ := acyclic loops
        simp [refused] at other
    obtain ⟨stop, fails⟩ := failing
    obtain ⟨-, ⟨-, rootless, -⟩ | ⟨owner, line, same, asked⟩⟩ := blame _ refused
    · simp at rootless
    · obtain ⟨rfl, rfl⟩ := Prod.mk.inj (Option.some.inj same)
      exact ⟨stop, fails, (decides stop fails).1, asked⟩
  · obtain ⟨-, -, -, blame⟩ := assemble_outcome MemoryStore.unreadable "m" ""
    exact blame _ unread
  · obtain ⟨decides, none, -, -⟩ := assemble_outcome MemoryStore.pair "m" ""
    have never (stop : Stop) :
        ¬ Discovery.Fails MemoryStore.pair.library "" "m" stop := by
      intro fails
      have failed := (decides stop fails).1
      simp [assemble_pair] at failed
    refine ⟨never, fun loops => ?_, _, assemble_pair⟩
    obtain ⟨chain, other⟩ := (none never).1 loops
    simp [assemble_pair] at other
  · obtain ⟨decides, none, -, -⟩ := assemble_outcome MemoryStore.tailed "top" ""
    have never (stop : Stop) :
        ¬ Discovery.Fails MemoryStore.tailed.library "" "top" stop := by
      intro fails
      have stopped := (Discovery.run_eq_error_iff MemoryStore.tailed.roomy).mpr fails
      have failed := assemble_tailed.symm.trans (decides stop fails).1
      exact Discovery.error_ne_cycle stopped (Except.error.inj failed).symm
    refine ⟨never, ?_, _, assemble_tailed⟩
    by_contra acyclic
    obtain ⟨s, other⟩ := (none never).2 acyclic
    simp [assemble_tailed] at other

end ShaderBundle

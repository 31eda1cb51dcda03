import ShaderBundle.Proofs.Program.Sections

/-! Rejected programs. The driver's log reaches the caller remapped, or else the count of digits of a
line number does that stands in it. -/
namespace ShaderBundle.Program

open Text CompilerLog Stages

variable {α : Type} {build : List (String × String) → Except BuildFault α} {p : Program} {log : String}

theorem compile_of_remapped {remapped : String} (rejects : build p.stages.sources = .error (.rejected log))
    (read : p.stages.remapMessage log = .ok remapped) :
    p.compile build = (.error (.rejected remapped), []) := by
  simp only [compile, rejects, read]

theorem compile_of_unread {cause : TooManyDigits}
    (rejects : build p.stages.sources = .error (.rejected log))
    (unread : p.stages.remapMessage log = .error cause) :
    p.compile build = (.error (.unreadable cause), []) := by
  simp only [compile, rejects, unread]

/-- A log is read and remapped if its recognised lines have line numbers that can be read; of a message
about a program only those lines count that some stage is in charge of. If it is, then what the caller
of a rejected program gets is the remapped log. If it is not, the caller gets the count of digits of the
first line number that has too many. -/
theorem rejection_outcome (log : String) :
    let lines := breakLines log
    (∀ s : Shader,
      ((∃ found, diagnostics s log = .ok found) ↔ ∀ line ∈ lines, Legible line) ∧
      ((∃ out, remap s log = .ok out) ↔ ∀ line ∈ lines, Legible line)) ∧
    (∀ stages : Stages,
      (∃ out, stages.remapMessage log = .ok out) ↔ ∀ line ∈ stages.charged lines, Legible line) ∧
    ∀ (α : Type) (build : List (String × String) → Except BuildFault α) (p : Program),
      build p.stages.sources = .error (.rejected log) →
      ((∀ line ∈ p.stages.charged lines, Legible line) → ∃ out,
        p.stages.remapMessage log = .ok out ∧ p.compile build = (.error (.rejected out), [])) ∧
      ∀ n, (p.stages.charged lines).findSome? excess? = some n →
        digitLimit < n ∧ p.compile build = (.error (.unreadable ⟨n⟩), []) := by
  intro lines
  refine ⟨fun s => ⟨?_, ?_⟩, fun stages => ?_, fun α build p rejects => ⟨fun legible => ?_, ?_⟩⟩
  · rw [(settled_diagnostics s log).exists_ok_iff, findSome?_excess?_eq_none_iff]
  · rw [(settled_remap s log).exists_ok_iff, findSome?_excess?_eq_none_iff]
  · rw [(settled_remapMessage stages log).exists_ok_iff, findSome?_excess?_eq_none_iff]
  · have free := (findSome?_excess?_eq_none_iff _).mpr legible
    obtain ⟨out, read⟩ := (settled_remapMessage p.stages log).returns free
    exact ⟨out, read, compile_of_remapped rejects read⟩
  · intro n met
    obtain ⟨line, -, excess⟩ := List.exists_of_findSome?_eq_some met
    exact ⟨lt_of_excess? excess,
      compile_of_unread rejects ((settled_remapMessage p.stages log).fails n met)⟩

/-- A log that is read, and the one that is not. -/
theorem rejection_outcome_of_two :
    let s := Shader.ofSorted "m" MemoryStore.pairModules MemoryStore.pairModules.reverse
    let p : Program := ⟨s, some s, none⟩
    let rejecting : String → List (String × String) → Except BuildFault Unit :=
      fun log _ => .error (.rejected log)
    let log := "fragment_shader\nERROR: 0:3: x"
    rejecting log p.stages.sources = .error (.rejected log) ∧
      (∀ line ∈ p.stages.charged (breakLines log), Legible line) ∧
      p.compile (rejecting log) = (.error (.rejected "fragment_shader\na:1: error: x"), []) ∧
      (p.stages.charged (breakLines unreadableLog)).findSome? excess? = some (digitLimit + 1) ∧
      p.compile (rejecting unreadableLog) = (.error (.unreadable ⟨digitLimit + 1⟩), []) := by
  intro s p rejecting log
  have remapped : p.stages.remapMessage log = .ok "fragment_shader\na:1: error: x" := by decide +kernel
  obtain ⟨-, reads, outcome⟩ := rejection_outcome log
  have legible := (reads p.stages).mp ⟨_, remapped⟩
  obtain ⟨out, read, compiled⟩ := (outcome Unit (rejecting log) p rfl).1 legible
  cases remapped.symm.trans read
  have excess := excess_unreadableLog p.stages rfl
  obtain ⟨-, -, outcome'⟩ := rejection_outcome unreadableLog
  have lost := ((outcome' Unit (rejecting unreadableLog) p rfl).2 _ excess).2
  exact ⟨rfl, legible, compiled, excess, lost⟩

/-- The driver rejects this program, and what is raised is no rejection. -/
theorem rejection_lost :
    let s := Shader.ofSorted "m" MemoryStore.pairModules MemoryStore.pairModules.reverse
    let p : Program := ⟨s, some s, none⟩
    let build : List (String × String) → Except BuildFault Unit := fun _ => .error (.rejected unreadableLog)
    build p.stages.sources = .error (.rejected unreadableLog) ∧
      p.compile build = (.error (.unreadable ⟨digitLimit + 1⟩), []) ∧
      diagnostics s unreadableLog = .error ⟨digitLimit + 1⟩ ∧
      remap s unreadableLog = .error ⟨digitLimit + 1⟩ ∧
      p.stages.remapMessage unreadableLog = .error ⟨digitLimit + 1⟩ := by
  intro s p build
  have excess := excess_unreadableLog p.stages rfl
  have unread := (settled_remapMessage p.stages unreadableLog).fails _ excess
  have title : excess? "fragment_shader" = none := by decide
  have anywhere : (breakLines unreadableLog).findSome? excess? = some (digitLimit + 1) := by
    rw [breakLines_unreadableLog, findSome?_cons_eq_or, title, List.findSome?_singleton,
      excess?_unreadable]
    rfl
  exact ⟨rfl, compile_of_unread rfl unread, (settled_diagnostics s unreadableLog).fails _ anywhere,
    (settled_remap s unreadableLog).fails _ anywhere, unread⟩

end ShaderBundle.Program

import ShaderBundle.Proofs.Discovery.Reach

/-! What a step of a discovery does to it. A module that was asked for waits behind the others, the first
one that waits is expanded, and so on until none is left. -/
namespace ShaderBundle.Discovery

variable {lib : Library} {includeRoot : String} {d last : Discovery}

def ids (d : Discovery) : List String := d.modules.map (·.id)

theorem holds_iff {id : String} : d.holds id = true ↔ id ∈ d.ids := by
  simp [holds, ids]

def await (d : Discovery) (m : Module) : Discovery :=
  { d with waiting := d.waiting ++ [m], requests := d.requests ++ [m.id] }

@[simp] theorem ids_await (d : Discovery) (m : Module) : (d.await m).ids = d.ids ++ [m.id] := by
  simp [ids, modules, await]

theorem meet_ok {includer : Option (String × Nat)} {id : String}
    (ok : d.meet lib includer id = .ok last) :
    ∃ m, lib.load includer id = .ok m ∧ m.id = id ∧ last = d.await m := by
  unfold meet at ok
  dsimp only at ok
  split at ok
  · simp at ok
  · rename_i m loaded
    obtain rfl := Except.ok.inj ok
    obtain ⟨rfl, -⟩ := Library.load_ok loaded
    exact ⟨m, loaded, rfl, rfl⟩

theorem meet_error {includer : Option (String × Nat)} {id : String} {stop : Stop}
    (failed : d.meet lib includer id = .error stop) :
    ∃ e, lib.load includer id = .error e ∧ stop = ⟨e, d.requests ++ [id]⟩ := by
  unfold meet at failed
  dsimp only at failed
  split at failed
  · rename_i e refused
    exact ⟨e, refused, (Except.error.inj failed).symm⟩
  · simp at failed

def promote (d : Discovery) (followed : Module) : Discovery :=
  { d with expanded := d.expanded ++ [followed], waiting := d.waiting.tail }

@[simp] theorem expanded_promote (d : Discovery) (followed : Module) :
    (d.promote followed).expanded = d.expanded ++ [followed] := rfl

@[simp] theorem waiting_promote (d : Discovery) (followed : Module) :
    (d.promote followed).waiting = d.waiting.tail := rfl

theorem ids_promote {first followed : Module} {rest : List Module} (front : d.waiting = first :: rest)
    (same : followed.id = first.id) : (d.promote followed).ids = d.ids := by
  simp [ids, modules, promote, front, same]

theorem expandFirst_ok {first : Module} (ok : expandFirst lib includeRoot first d = .ok last) :
    ∃ followed met, follow lib includeRoot first.id first.dependencies d = .ok (followed, met) ∧
      last = met.promote { first with dependencies := followed } := by
  unfold expandFirst at ok
  split at ok
  · simp at ok
  · rename_i followed met outcome
    exact ⟨followed, met, outcome, (Except.ok.inj ok).symm⟩

theorem expandFirst_error {first : Module} {stop : Stop}
    (failed : expandFirst lib includeRoot first d = .error stop) :
    follow lib includeRoot first.id first.dependencies d = .error stop := by
  unfold expandFirst at failed
  split at failed
  · rename_i outcome
    exact Except.error.inj failed ▸ outcome
  · simp at failed

theorem expandAll_done (capacity : Nat) (done : d.waiting = []) :
    expandAll lib includeRoot capacity d = .ok d := by
  unfold expandAll
  rw [done]

theorem expandAll_zero {first : Module} {rest : List Module} (front : d.waiting = first :: rest) :
    expandAll lib includeRoot 0 d = .error ⟨.tooManyModules lib.capacity, d.requests⟩ := by
  unfold expandAll
  rw [front]

theorem expandAll_succ {capacity : Nat} {first : Module} {rest : List Module}
    (front : d.waiting = first :: rest) :
    expandAll lib includeRoot (capacity + 1) d =
      expandFirst lib includeRoot first d >>= expandAll lib includeRoot capacity := by
  conv_lhs => unfold expandAll
  rw [front]
  dsimp only
  cases expandFirst lib includeRoot first d <;> rfl

/-- What every expansion preserves still holds when none waits any more. -/
theorem expandAll_ok {P : Discovery → Prop}
    (step : ∀ d first rest next, P d → d.waiting = first :: rest →
      expandFirst lib includeRoot first d = .ok next → P next)
    {capacity : Nat} (holds : P d) (ok : expandAll lib includeRoot capacity d = .ok last) :
    P last ∧ last.waiting = [] := by
  induction capacity generalizing d with
  | zero =>
    unfold expandAll at ok
    split at ok
    · obtain rfl := Except.ok.inj ok
      exact ⟨holds, ‹_›⟩
    · simp at ok
  | succ capacity ih =>
    unfold expandAll at ok
    split at ok
    · obtain rfl := Except.ok.inj ok
      exact ⟨holds, ‹_›⟩
    · rename_i first rest front
      dsimp only at ok
      split at ok
      · simp at ok
      · rename_i next expanded
        exact ih (step d first rest next holds front expanded) ok

end ShaderBundle.Discovery

import ShaderBundle.Proofs.Discovery.Simulation

/-! Which part of a library a discovery depends on: how ids are joined, and what is handed out for the
ids that it asks for. A capacity that suffices plays no part. -/
namespace ShaderBundle

structure Library.Agrees (lib other : Library) (ids : List String) : Prop where
  join : other.join = lib.join
  fetch : ∀ id ∈ ids, other.fetch id = lib.fetch id

namespace Library.Agrees

variable {lib other : Library} {ids : List String}

theorem resolve (agrees : lib.Agrees other ids) (includeRoot owner : String) (dep : Dependency) :
    other.resolve includeRoot owner dep = lib.resolve includeRoot owner dep := by
  unfold Library.resolve
  rw [agrees.join]

theorem load (agrees : lib.Agrees other ids) (includer : Option (String × Nat)) {id : String}
    (member : id ∈ ids) : other.load includer id = lib.load includer id := by
  unfold Library.load
  rw [agrees.fetch id member]

end Library.Agrees

namespace Discovery

variable {lib other : Library} {includeRoot root owner : String} {d : Discovery} {ids : List String}

/-- The ids asked for up to the end or the stop. -/
def asked : Except Stop Discovery → List String
  | .error stop => stop.requests
  | .ok d => d.requests

def Spent (outcome : Except Stop Discovery) : Prop :=
  ∃ stop, outcome = .error stop ∧ ∃ capacity, stop.error = .tooManyModules capacity

/-! ### Requests are only ever added -/

theorem asked_meet (includer : Option (String × Nat)) (id : String) :
    asked (d.meet lib includer id) = d.requests ++ [id] := by
  cases outcome : d.meet lib includer id with
  | error stop =>
    obtain ⟨e, -, rfl⟩ := meet_error outcome
    rfl
  | ok last =>
    obtain ⟨m, -, rfl, rfl⟩ := meet_ok outcome
    rfl

theorem asked_follow (lib : Library) (includeRoot owner : String) (deps : List Dependency)
    (d : Discovery) :
    d.requests <+: asked ((follow lib includeRoot owner deps d).map Prod.snd) := by
  have turn (includer : Option (String × Nat)) (d : Discovery) (id : String) :
      d.requests <+: asked (if d.holds id then .ok d else d.meet lib includer id) := by
    split
    · exact List.prefix_refl _
    · rw [asked_meet]
      exact List.prefix_append ..
  fun_induction follow lib includeRoot owner deps d with
  | case1 => exact List.prefix_refl _
  | case2 => exact List.prefix_refl _
  | case3 dep rest d id resolved stop step =>
    have more := turn (some (owner, dep.line)) d id
    rwa [step] at more
  | case4 dep rest d id resolved met step stop outcome ih =>
    have more := turn (some (owner, dep.line)) d id
    rw [step] at more
    rw [outcome] at ih
    exact more.trans ih
  | case5 dep rest d id resolved met step followed last outcome ih =>
    have more := turn (some (owner, dep.line)) d id
    rw [step] at more
    rw [outcome] at ih
    exact more.trans ih

theorem asked_expandFirst (first : Module) :
    asked (expandFirst lib includeRoot first d) =
      asked ((follow lib includeRoot first.id first.dependencies d).map Prod.snd) := by
  unfold expandFirst
  split
  · rename_i outcome
    rw [outcome]
    rfl
  · rename_i outcome
    rw [outcome]
    rfl

theorem asked_expandAll (lib : Library) (includeRoot : String) (capacity : Nat) (d : Discovery) :
    d.requests <+: asked (expandAll lib includeRoot capacity d) := by
  induction capacity generalizing d with
  | zero =>
    cases front : d.waiting with
    | nil =>
      rw [expandAll_done 0 front]
      exact List.prefix_refl _
    | cons first rest =>
      rw [expandAll_zero front]
      exact List.prefix_refl _
  | succ capacity ih =>
    cases front : d.waiting with
    | nil =>
      rw [expandAll_done _ front]
      exact List.prefix_refl _
    | cons first rest =>
      have more := asked_follow lib includeRoot first.id first.dependencies d
      rw [← asked_expandFirst] at more
      rw [expandAll_succ front]
      cases outcome : expandFirst lib includeRoot first d with
      | error stop => rwa [outcome] at more
      | ok next =>
        rw [outcome] at more
        exact more.trans (ih next)

/-! ### Libraries that agree on the requests take the same course -/

theorem meet_congr (agrees : lib.Agrees other ids) {includer : Option (String × Nat)} {id : String}
    (asks : asked (d.meet lib includer id) ⊆ ids) :
    d.meet other includer id = d.meet lib includer id := by
  rw [asked_meet] at asks
  unfold meet
  rw [agrees.load includer (asks (by simp))]

theorem follow_congr (agrees : lib.Agrees other ids) {deps : List Dependency}
    (asks : asked ((follow lib includeRoot owner deps d).map Prod.snd) ⊆ ids) :
    follow other includeRoot owner deps d = follow lib includeRoot owner deps d := by
  have turn {includer : Option (String × Nat)} {d : Discovery} {id : String}
      (asks : asked (if d.holds id then .ok d else d.meet lib includer id) ⊆ ids) :
      (if d.holds id then Except.ok d else d.meet other includer id) =
        if d.holds id then .ok d else d.meet lib includer id := by
    split
    · rfl
    · rename_i fresh
      rw [if_neg fresh] at asks
      exact meet_congr agrees asks
  fun_induction follow lib includeRoot owner deps d with
  | case1 => rfl
  | case2 dep rest d fault refusal =>
    unfold follow
    rw [agrees.resolve, refusal]
  | case3 dep rest d id resolved stop step =>
    unfold follow
    rw [agrees.resolve, resolved]
    dsimp only
    rw [turn (by rw [step]; exact asks), step]
  | case4 dep rest d id resolved met step stop outcome ih =>
    have later := asked_follow lib includeRoot owner rest met
    rw [outcome] at later ih
    unfold follow
    rw [agrees.resolve, resolved]
    dsimp only
    rw [turn (by rw [step]; exact List.Subset.trans later.subset asks), step]
    dsimp only
    rw [ih asks]
  | case5 dep rest d id resolved met step followed last outcome ih =>
    have later := asked_follow lib includeRoot owner rest met
    rw [outcome] at later ih
    unfold follow
    rw [agrees.resolve, resolved]
    dsimp only
    rw [turn (by rw [step]; exact List.Subset.trans later.subset asks), step]
    dsimp only
    rw [ih asks]

theorem expandFirst_congr (agrees : lib.Agrees other ids) {first : Module}
    (asks : asked (expandFirst lib includeRoot first d) ⊆ ids) :
    expandFirst other includeRoot first d = expandFirst lib includeRoot first d := by
  rw [asked_expandFirst] at asks
  unfold expandFirst
  rw [follow_congr agrees asks]

/-- More capacity changes nothing when the capacity was not spent. -/
theorem expandAll_congr (agrees : lib.Agrees other ids) {capacity more : Nat} (le : capacity ≤ more)
    (asks : asked (expandAll lib includeRoot capacity d) ⊆ ids)
    (unspent : ¬ Spent (expandAll lib includeRoot capacity d)) :
    expandAll other includeRoot more d = expandAll lib includeRoot capacity d := by
  induction capacity generalizing more d with
  | zero =>
    cases front : d.waiting with
    | nil => rw [expandAll_done _ front, expandAll_done _ front]
    | cons first rest =>
      rw [expandAll_zero front] at unspent
      exact absurd ⟨_, rfl, _, rfl⟩ unspent
  | succ capacity ih =>
    cases front : d.waiting with
    | nil => rw [expandAll_done _ front, expandAll_done _ front]
    | cons first rest =>
      obtain ⟨more, rfl⟩ := Nat.exists_eq_add_of_lt le
      rw [expandAll_succ front] at asks unspent
      rw [expandAll_succ front, expandAll_succ front]
      cases outcome : expandFirst lib includeRoot first d with
      | error stop =>
        rw [outcome] at asks
        rw [expandFirst_congr agrees (by rwa [outcome]), outcome]
        rfl
      | ok next =>
        rw [outcome] at asks unspent
        have early := asked_expandAll lib includeRoot capacity next
        have same : expandFirst other includeRoot first d = .ok next := by
          rw [expandFirst_congr agrees (by rw [outcome]; exact List.Subset.trans early.subset asks),
            outcome]
        rw [same]
        exact ih (Nat.le_add_right _ _) asks unspent

theorem run_congr_of_le (agrees : lib.Agrees other (asked (run lib includeRoot root)))
    (le : lib.capacity ≤ other.capacity) (unspent : ¬ Spent (run lib includeRoot root)) :
    run other includeRoot root = run lib includeRoot root := by
  unfold run at agrees unspent ⊢
  cases outcome : start.meet lib none root with
  | error stop =>
    rw [outcome] at agrees
    rw [meet_congr agrees (by rw [outcome]; exact List.Subset.refl _), outcome]
  | ok d =>
    rw [outcome] at agrees unspent
    have early := asked_expandAll lib includeRoot lib.capacity d
    rw [meet_congr agrees (by rw [outcome]; exact early.subset), outcome]
    exact expandAll_congr agrees le (List.Subset.refl _) unspent

/-- A discovery depends on the library only through the ids that it asks for. -/
theorem run_congr (agrees : lib.Agrees other (asked (run lib includeRoot root)))
    (unspent : ¬ Spent (run lib includeRoot root)) (unspent' : ¬ Spent (run other includeRoot root)) :
    run other includeRoot root = run lib includeRoot root := by
  rcases Nat.le_total lib.capacity other.capacity with le | le
  · exact run_congr_of_le agrees le unspent
  · let roomier : Library := { other with capacity := lib.capacity }
    have ofLib : run roomier includeRoot root = run lib includeRoot root :=
      run_congr_of_le ⟨agrees.join, agrees.fetch⟩ (Nat.le_refl _) unspent
    have ofOther : run roomier includeRoot root = run other includeRoot root :=
      run_congr_of_le ⟨rfl, fun _ _ => rfl⟩ le unspent'
    exact ofOther.symm.trans ofLib

theorem Fails.error_ne_tooManyModules {stop : Stop} (fails : Fails lib includeRoot root stop)
    (capacity : Nat) : stop.error ≠ .tooManyModules capacity := by
  rcases fails.cases with ⟨e, request, rfl⟩ |
    ⟨_, _, _, _, -, -, -, ⟨fault, -, rfl⟩ | ⟨_, e, -, -, request, rfl⟩⟩
  · cases request <;> simp
  · simp
  · cases request <;> simp

/-- Only a discovery that was cut off reports it. -/
theorem not_spent (whole : ∀ stop, ¬ CutOff lib includeRoot root stop) :
    ¬ Spent (run lib includeRoot root) := by
  rintro ⟨stop, failed, capacity, full⟩
  rcases run_error failed with fails | cut
  · exact fails.error_ne_tooManyModules capacity full
  · exact whole stop cut

theorem not_spent_of_roomy (roomy : lib.Roomy) : ¬ Spent (run lib includeRoot root) :=
  not_spent fun _ cut => cut.not_roomy roomy

end Discovery

end ShaderBundle

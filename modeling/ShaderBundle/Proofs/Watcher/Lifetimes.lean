import ShaderBundle.Proofs.Watcher.Observers

/-! The lives of observers. An observer is started when it is made, and a stop ends its life, unless another
start came before and gave its place to a new one: then nothing ends it. -/
namespace ShaderBundle

def ObserverCall.turns : ObserverCall → Bool
  | .start | .stop | .join => true
  | .unscheduleAll | .schedule .. => false

namespace Watcher

open Event

/-- The life of an observer: the calls that begin and end its work. -/
def lifeOf (number : Nat) (events : List Event) : List ObserverCall :=
  (callsOn number events).filter ObserverCall.turns

def Running (number : Nat) (events : List Event) : Prop :=
  .start ∈ lifeOf number events ∧ .join ∉ lifeOf number events

def replaced? (w : Watcher) : Action → Option Nat
  | .start true => w.observer
  | _ => none

/-- The observers that lost their place to a new one while they were in use. -/
def replaced (w : Watcher) (actions : List Action) : List Nat := History.written next replaced? w actions

/-- The life that an observer has had once the watcher is in this state, and these were replaced. -/
def lifeTold (w : Watcher) (gone : List Nat) (number : Nat) : List ObserverCall :=
  if number = 0 ∨ w.observers < number then []
  else if w.observer = some number ∨ number ∈ gone then [.start]
  else [.start, .stop, .join]

variable {w v : Watcher} {trace events : List Event} {gone : List Nat} {number : Nat}

@[simp] theorem lifeOf_append (front back : List Event) :
    lifeOf number (front ++ back) = lifeOf number front ++ lifeOf number back := by
  simp [lifeOf]

@[simp] theorem lifeOf_scheduling (w : Watcher) (other : Nat) :
    lifeOf number (w.scheduling other) = [] := by
  rw [lifeOf, callsOn_scheduling]
  split <;> simp [ObserverCall.turns]

theorem lifeOf_congr {others : List Event} (same : callsOn number events = callsOn number others) :
    lifeOf number events = lifeOf number others := by
  rw [lifeOf, lifeOf, same]

theorem lifeOf_silent (none : callsOn number events = []) : lifeOf number events = [] := by
  rw [lifeOf, none]
  rfl

theorem lifeOf_making (calls : callsOn number events =
    callsOn number (v.scheduling v.observers ++ [.observer v.observers .start])) :
    lifeOf number events = if v.observers = number then [.start] else [] := by
  rw [lifeOf_congr calls, lifeOf_append, lifeOf_scheduling, List.nil_append, lifeOf, callsOn_observer]
  split <;> rfl

theorem lifeOf_ending {other : Nat} (calls : callsOn number events =
    callsOn number [.observer other .stop, .observer other .join]) :
    lifeOf number events = if other = number then [.stop, .join] else [] := by
  rw [lifeOf_congr calls, lifeOf, callsOn_observer, callsOn_observer]
  split <;> rfl

/-- The trace of a session agrees with the lives that are told from its end. -/
structure Course (w : Watcher) (trace : List Event) (gone : List Nat) : Prop where
  slot : ∀ number, w.observer = some number → 0 < number ∧ number ≤ w.observers ∧ number ∉ gone
  known : ∀ number ∈ gone, 0 < number ∧ number ≤ w.observers
  life : ∀ number, lifeOf number trace = w.lifeTold gone number

/-- An action that neither makes nor ends an observer. -/
theorem Course.keep (course : w.Course trace gone) (count : v.observers = w.observers)
    (slot : v.observer = w.observer) (silent : ∀ n, lifeOf n events = []) :
    v.Course (trace ++ events) gone where
  slot number held := by
    rw [slot] at held
    rw [count]
    exact course.slot number held
  known number member := count ▸ course.known number member
  life number := by
    rw [lifeOf_append, silent, List.append_nil, course.life, lifeTold, lifeTold, count, slot]

/-- A new observer takes the place of the one in use, if there is one. -/
theorem Course.make (course : w.Course trace gone) (count : v.observers = w.observers + 1)
    (slot : v.observer = some v.observers)
    (made : ∀ n, lifeOf n events = if v.observers = n then [.start] else []) :
    v.Course (trace ++ events) (gone ++ w.observer.toList) := by
  have before : ∀ n ∈ gone ++ w.observer.toList, 0 < n ∧ n ≤ w.observers := by
    intro n member
    rcases List.mem_append.mp member with earlier | present
    · exact course.known n earlier
    · obtain ⟨positive, made, -⟩ := course.slot n (Option.mem_toList.mp present)
      exact ⟨positive, made⟩
  refine ⟨fun n held => ?_, fun n member => ?_, fun n => ?_⟩
  · obtain rfl : v.observers = n := Option.some.inj (slot.symm.trans held)
    refine ⟨by omega, Nat.le_refl _, fun member => ?_⟩
    have := before _ member
    omega
  · have := before n member
    omega
  · rw [lifeOf_append, course.life, made]
    by_cases new : v.observers = n
    · have unknown : n = 0 ∨ w.observers < n := .inr (by omega)
      have known : ¬ (n = 0 ∨ v.observers < n) := by omega
      rw [lifeTold, if_pos unknown, if_pos new, lifeTold, if_neg known, if_pos (.inl (new ▸ slot))]
      rfl
    · have range : n = 0 ∨ w.observers < n ↔ n = 0 ∨ v.observers < n := by omega
      have held : w.observer = some n ∨ n ∈ gone ↔
          v.observer = some n ∨ n ∈ gone ++ w.observer.toList := by
        simp [slot, new, or_comm]
      rw [if_neg new, List.append_nil]
      exact if_congr range rfl (if_congr held rfl rfl)

/-- The observer in use comes to its end. -/
theorem Course.finish (course : w.Course trace gone) (held : w.observer = some number)
    (count : v.observers = w.observers) (slot : v.observer = none)
    (ended : ∀ n, lifeOf n events = if number = n then [.stop, .join] else []) :
    v.Course (trace ++ events) gone := by
  obtain ⟨positive, made, staying⟩ := course.slot number held
  refine ⟨fun n other => by simp [slot] at other, fun n member => count ▸ course.known n member,
    fun n => ?_⟩
  rw [lifeOf_append, course.life, ended, lifeTold, lifeTold, count, slot, held]
  by_cases own : number = n
  · subst own
    have known : ¬ (number = 0 ∨ w.observers < number) := by omega
    simp [known, staying]
  · simp [own]

theorem Course.next (course : w.Course trace gone) (seated : w.Seated) (action : Action) :
    (w.next action).Course (trace ++ (w.perform action).events)
      (gone ++ (w.replaced? action).toList) := by
  have handling := w.handling action
  generalize w.next action = v at handling ⊢
  generalize (w.perform action).events = events at handling ⊢
  cases handling with
  | makes _ count slot calls => exact course.make count slot fun n => lifeOf_making (calls n)
  | moves _ count slot calls =>
    rw [show w.replaced? .poll = none from rfl, Option.toList_none, List.append_nil]
    exact course.keep count slot fun n => (lifeOf_congr (calls n)).trans (lifeOf_scheduling _ _)
  | ends held count slot calls =>
    rw [show w.replaced? .stop = none from rfl, Option.toList_none, List.append_nil]
    exact course.finish held count slot fun n => lifeOf_ending (calls n)
  | leaves count slot calls _ unmade =>
    have none : w.replaced? action = none := by
      unfold replaced?
      split
      · exact Classical.byContradiction fun held => seated.sourced held (unmade rfl)
      · rfl
    rw [none, Option.toList_none, List.append_nil]
    exact course.keep count slot fun n => lifeOf_silent (calls n)

theorem replaced_cons (w : Watcher) (action : Action) (rest : List Action) :
    w.replaced (action :: rest) = (w.replaced? action).toList ++ (w.next action).replaced rest :=
  History.written_cons ..

theorem replaced_concat (w : Watcher) (front : List Action) (last : Action) :
    w.replaced (front ++ [last]) =
      w.replaced front ++ ((run w front).watcher.replaced? last).toList := by
  induction front generalizing w with
  | nil =>
    rw [List.nil_append, replaced_cons]
    simp [replaced, History.written, History.moments, run]
  | cons action rest ih =>
    rw [List.cons_append, replaced_cons, replaced_cons, ih, List.append_assoc]
    rfl

/-- A watcher that has made no observer yet. -/
theorem course_run (bare : w.observer = none) (none : w.observers = 0) (actions : List Action) :
    (run w actions).watcher.Course (run w actions).trace (w.replaced actions) := by
  induction actions using List.reverseRecOn with
  | nil =>
    refine ⟨fun n held => ?_, fun n member => ?_, fun n => ?_⟩
    · simp [run, bare] at held
    · simp [replaced, History.written, History.moments] at member
    · have unknown : n = 0 ∨ w.observers < n := by omega
      change [] = w.lifeTold _ n
      rw [lifeTold, if_pos unknown]
  | append_singleton front last ih =>
    rw [trace_run_concat, watcher_run_concat, replaced_concat]
    exact ih.next ((seated_bare bare).run front) last

/-- What still runs is in use or was replaced. -/
theorem Course.running_iff (course : w.Course trace gone) :
    Running number trace ↔ w.observer = some number ∨ number ∈ gone := by
  rw [Running, course.life, lifeTold]
  by_cases unknown : number = 0 ∨ w.observers < number
  · have unheld : w.observer ≠ some number := fun held => by
      have := course.slot number held
      omega
    have unreplaced : number ∉ gone := fun member => by
      have := course.known number member
      omega
    simp [unknown, unheld, unreplaced]
  · rw [if_neg unknown]
    split <;> simp [*]

/-- Only a start begins the life of an observer. -/
theorem Handling.begins {action : Action} (handling : w.Handling action v events)
    (begun : .start ∈ lifeOf number events) : action = .start true ∧ v.observers = number := by
  cases handling with
  | makes _ _ _ calls =>
    rw [lifeOf_making (calls number)] at begun
    split at begun
    · exact ⟨rfl, by assumption⟩
    · simp at begun
  | moves _ _ _ calls =>
    rw [lifeOf_congr (calls number), lifeOf_scheduling] at begun
    simp at begun
  | ends _ _ _ calls =>
    rw [lifeOf_ending (calls number)] at begun
    split at begun <;> simp at begun
  | leaves _ _ calls =>
    rw [lifeOf_silent (calls number)] at begun
    simp at begun

/-- What runs at some point of an action was in use before it, or is made by it. -/
theorem Course.running_within (course : w.Course trace []) {action : Action}
    (handling : w.Handling action v events) {part : List Event} (within : part <+: events)
    (runs : Running number (trace ++ part)) :
    w.observer = some number ∨ action = .start true ∧ v.observers = number := by
  obtain ⟨begun, unended⟩ := runs
  rw [lifeOf_append, List.mem_append] at begun unended
  rcases begun with earlier | present
  · have still : Running number trace := ⟨earlier, fun joined => unended (.inl joined)⟩
    exact .inl ((course.running_iff.mp still).resolve_right List.not_mem_nil)
  · obtain ⟨rest, rfl⟩ := within
    refine .inr (handling.begins ?_)
    rw [lifeOf_append]
    exact List.mem_append_left _ present

/-- While no observer is replaced, no two run at a time, not even within an action. -/
theorem running_unique (bare : w.observer = none) (none : w.observers = 0) {actions : List Action}
    (kept : w.replaced actions = []) {early : List Event} (before : early <+: (run w actions).trace)
    {m n : Nat} (runs : Running m early) (runs' : Running n early) : m = n := by
  induction actions using List.reverseRecOn generalizing early with
  | nil =>
    rw [List.prefix_nil.mp before] at runs
    simp [Running, lifeOf] at runs
  | append_singleton front last ih =>
    rw [replaced_concat, List.append_eq_nil_iff, Option.toList_eq_nil_iff] at kept
    rw [trace_run_concat] at before
    rcases List.prefix_or_prefix_of_prefix before (List.prefix_append _ _) with earlier | ⟨part, rfl⟩
    · exact ih kept.1 earlier runs runs'
    · have within := (List.prefix_append_right_inj _).mp before
      have course := course_run bare none front
      rw [kept.1] at course
      have handling := (run w front).watcher.handling last
      have vacant : last = .start true → (run w front).watcher.observer = .none := by
        rintro rfl
        exact kept.2
      rcases course.running_within handling within runs with held | ⟨starts, new⟩ <;>
        rcases course.running_within handling within runs' with held' | ⟨starts', new'⟩
      · exact Option.some.inj (held.symm.trans held')
      · simp [vacant starts'] at held
      · simp [vacant starts] at held'
      · exact new.symm.trans new'

/-- Every observer that is made is started. It is stopped and then joined once, unless it is in use still or
was replaced; a replaced one runs on for ever. So a stop at the end of a session leaves none running
exactly if no start of the session met an observer in use, and then no two ever ran at a time. -/
theorem life_of_observers (tree : FileTree) (assembler : Assembler) (root : String)
    (reaction : Reaction) (verbose : Bool) (actions : List Action) :
    let start : Watcher := { tree, assembler, root, reaction, verbose }
    let session := run start actions
    let w := session.watcher
    let gone := replaced start actions
    let ended := (run start (actions ++ [.stop])).trace
    (∀ n, lifeOf n session.trace =
      if n = 0 ∨ w.observers < n then [] else if w.observer = some n ∨ n ∈ gone then [.start]
      else [.start, .stop, .join]) ∧
    (∀ n, Running n ended ↔ n ∈ gone) ∧
    ((∀ n, .start ∈ lifeOf n ended → lifeOf n ended = [.start, .stop, .join]) ↔ gone = []) ∧
    (gone = [] → ∀ early, early <+: ended → ∀ m n, Running m early → Running n early → m = n) := by
  intro start session w gone ended
  have course : w.Course session.trace gone := course_run rfl rfl actions
  have same : start.replaced (actions ++ [.stop]) = gone := by
    rw [replaced_concat]
    exact List.append_nil _
  have last : (w.next .stop).Course ended gone := by
    have whole := course_run (w := start) rfl rfl (actions ++ [.stop])
    rwa [same, watcher_run_concat] at whole
  have vacant : (w.next .stop).observer = none := by
    cases w.handling .stop with
    | ends _ _ slot => exact slot
    | leaves _ slot _ _ _ unended => rw [slot, unended rfl]
  have running (n : Nat) : Running n ended ↔ n ∈ gone := by
    simp [last.running_iff, vacant]
  refine ⟨course.life, running, ⟨fun full => ?_, fun kept n begun => ?_⟩, ?_⟩
  · refine List.eq_nil_iff_forall_not_mem.mpr fun n member => ?_
    obtain ⟨begun, unended⟩ := (running n).mpr member
    exact unended (by simp [full n begun])
  · rw [last.life, lifeTold, kept, vacant] at begun ⊢
    split at begun <;> simp_all
  · intro kept early before m n
    exact running_unique rfl rfl (same.trans kept) before

theorem run_attended (rest : List Action) :
    (run attended (.start true :: rest)).watcher = (run started rest).watcher := by
  change (run (attended.next (.start true)) rest).watcher = _
  rw [next_start_attended]

theorem replaced_attended (rest : List Action) :
    attended.replaced (.start true :: rest) = started.replaced rest := by
  rw [replaced_cons, next_start_attended]
  rfl

/-- A second start behind a stop. -/
theorem life_of_observers_of_restart :
    let actions := [.start true, .stop, .start true]
    let ended := (run attended (actions ++ [.stop])).trace
    attended.replaced actions = [] ∧ lifeOf 1 ended = [.start, .stop, .join] ∧
    lifeOf 2 ended = [.start, .stop, .join] ∧
    ∀ early, early <+: ended → ∀ m n, Running m early → Running n early → m = n := by
  intro actions ended
  have kept : attended.replaced actions = [] := replaced_attended [.stop, .start true]
  have kept' : attended.replaced (actions ++ [.stop]) = [] :=
    replaced_attended [.stop, .start true, .stop]
  have final := run_attended [.stop, .start true, .stop]
  obtain ⟨life, -⟩ :=
    life_of_observers (desk "x") attended.assembler "m" .accept false (actions ++ [.stop])
  obtain ⟨-, -, -, unique⟩ := life_of_observers (desk "x") attended.assembler "m" .accept false actions
  have told (n : Nat) : lifeOf n ended = lifeTold (run started [.stop, .start true, .stop]).watcher [] n := by
    rw [← final, ← kept']
    exact life n
  exact ⟨kept, told 1, told 2, unique kept⟩

/-- A second start while the first observer is in use. Both run then, and a stop ends the second alone. -/
theorem observer_left_running :
    let session := run attended [.start true, .start true, .stop]
    session.watcher.observer = none ∧ lifeOf 1 session.trace = [.start] ∧
    lifeOf 2 session.trace = [.start, .stop, .join] ∧
    ∃ early, early <+: session.trace ∧ Running 1 early ∧ Running 2 early := by
  intro session
  have final : session.watcher = (run started [.start true, .stop]).watcher := run_attended _
  have course := course_run (w := attended) rfl rfl [.start true, .start true, .stop]
  have both := course_run (w := attended) rfl rfl [.start true, .start true]
  rw [run_attended, replaced_attended] at course both
  refine ⟨by rw [final]; rfl, course.life 1, course.life 2, _, ?_, both.running_iff.mpr (.inr ?_),
    both.running_iff.mpr (.inl rfl)⟩
  · change _ <+: (run attended ([.start true, .start true] ++ [.stop])).trace
    rw [trace_run_append]
    exact List.prefix_append _ _
  · exact List.mem_singleton.mpr rfl

end Watcher

end ShaderBundle

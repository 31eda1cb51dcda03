import ShaderBundle.CommandLine.Command
import ShaderBundle.Proofs.FileTree.Writes
import ShaderBundle.Proofs.Watcher.Lifetimes

/-! The loop of a run that watches, told as a session of its watcher: polls, and between them what others do.
Whatever fails in it, the observer that the run started is stopped at its end. -/
namespace ShaderBundle.CommandLine.Command

open Watcher Event

variable {tree : FileTree} {path : String} {w : Watcher} {available : Bool}
  {ticks : List (List Action)} {actions : List Action}

/-- What others may do while a loop waits: they report changes and make some, but not of the output file. -/
def Outside (tree : FileTree) (path : String) : Action → Prop
  | .report _ => True
  | .change change => change.Spares tree path
  | _ => False

/-- A loop comes to a poll, with these actions behind it since it began. -/
inductive Polls : Watcher → List (List Action) → List Action → Prop
  | now {w : Watcher} {ticks : List (List Action)} : Polls w ticks []
  | later {w : Watcher} {tick : List Action} {rest : List (List Action)} {actions : List Action}
    {flag : Bool} (polled : w.poll.result = .ok flag)
    (waited : (performAll w.poll.watcher tick).result = .ok ())
    (more : Polls (performAll w.poll.watcher tick).watcher rest actions) :
    Polls w (tick :: rest) (.poll :: (tick ++ actions))

/-! ### The loop as a session -/

/-- Actions are performed up to one that fails. -/
theorem performAll_run (w : Watcher) (actions : List Action) : ∃ front, front <+: actions ∧
    (performAll w actions).watcher = (w.run front).watcher ∧
    (performAll w actions).events = (w.run front).trace ∧
    ((performAll w actions).result = .ok () → front = actions) := by
  induction actions generalizing w with
  | nil => exact ⟨[], List.prefix_refl _, rfl, rfl, fun _ => rfl⟩
  | cons action rest ih =>
    cases result : (w.perform action).result with
    | error failure =>
      have same : performAll w (action :: rest) =
          ⟨(w.perform action).watcher, (w.perform action).events, .error failure⟩ := by
        simp [performAll, result]
      rw [same]
      exact ⟨[action], by simp, rfl, by simp [Watcher.run], by simp⟩
    | ok answer =>
      have same : performAll w (action :: rest) =
          (performAll (w.next action) rest).precededBy (w.perform action).events := by
        simp [performAll, result, next]
      obtain ⟨front, inside, watcher, events, whole⟩ := ih (w.next action)
      rw [same]
      refine ⟨action :: front, List.cons_prefix_cons.mpr ⟨rfl, inside⟩, watcher, ?_, fun ok => ?_⟩
      · exact congrArg (_ ++ ·) events
      · rw [whole ok]

theorem Polls.inside (polls : Polls w ticks actions) {action : Action} (member : action ∈ actions) :
    action = .poll ∨ ∃ tick ∈ ticks, action ∈ tick := by
  induction polls with
  | now => simp at member
  | later _ _ _ ih =>
    rw [List.mem_cons, List.mem_append] at member
    rcases member with polled | inTick | inRest
    · exact .inl polled
    · exact .inr ⟨_, List.mem_cons_self, inTick⟩
    · rcases ih inRest with polled | ⟨tick, inTicks, inTick⟩
      · exact .inl polled
      · exact .inr ⟨tick, List.mem_cons_of_mem _ inTicks, inTick⟩

/-- All that a loop performs is polls and what others do. -/
theorem Polls.outside (polls : Polls w ticks actions)
    (outside : ∀ tick ∈ ticks, ∀ action ∈ tick, Outside tree path action) :
    ∀ action ∈ actions, action = .poll ∨ Outside tree path action := by
  intro action member
  exact (polls.inside member).imp_right fun ⟨tick, inTicks, inTick⟩ => outside tick inTicks action inTick

theorem Polls.outside_behind (polls : Polls w ticks actions)
    (outside : ∀ tick ∈ ticks, ∀ action ∈ tick, Outside tree path action) {rest : List Action}
    (inTicks : ∀ action ∈ rest, ∃ tick ∈ ticks, action ∈ tick) :
    (∀ action ∈ rest, Outside tree path action) ∧
    ∀ action ∈ actions ++ .poll :: rest, action = .poll ∨ Outside tree path action := by
  have behind : ∀ action ∈ rest, Outside tree path action := fun action member => by
    obtain ⟨tick, inTicks, inTick⟩ := inTicks action member
    exact outside tick inTicks action inTick
  refine ⟨behind, fun action member => ?_⟩
  rcases List.mem_append.mp member with before | last
  · exact polls.outside outside action before
  · exact (List.mem_cons.mp last).imp_right (behind action)

section Turns

variable {tick : List Action} {rest : List (List Action)} {failure : Failure} {flag : Bool}

theorem pollLoop_refused (refused : w.poll.result = .error failure) (ticks : List (List Action)) :
    pollLoop w ticks = ⟨w.poll.watcher, w.poll.events, .error failure⟩ := by
  cases ticks <;> simp [pollLoop, refused]

theorem pollLoop_last (polled : w.poll.result = .ok flag) :
    pollLoop w [] = ⟨w.poll.watcher, w.poll.events ++ [.wait], .ok ()⟩ := by
  simp [pollLoop, polled]

theorem pollLoop_cut (polled : w.poll.result = .ok flag)
    (cut : (performAll w.poll.watcher tick).result = .error failure) :
    pollLoop w (tick :: rest) = ⟨(performAll w.poll.watcher tick).watcher,
      w.poll.events ++ [.wait] ++ (performAll w.poll.watcher tick).events, .error failure⟩ := by
  simp [pollLoop, polled, cut]

theorem pollLoop_turn (polled : w.poll.result = .ok flag)
    (waited : (performAll w.poll.watcher tick).result = .ok ()) :
    pollLoop w (tick :: rest) = (pollLoop (performAll w.poll.watcher tick).watcher rest).precededBy
      (w.poll.events ++ [.wait] ++ (performAll w.poll.watcher tick).events) := by
  simp [pollLoop, polled, waited]

end Turns

theorem trace_run_poll (w : Watcher) (rest : List Action) :
    (w.run (.poll :: rest)).trace = w.poll.events ++ (w.poll.watcher.run rest).trace := rfl

/-- A loop ends behind one of its polls, perhaps with the beginning of a tick. -/
theorem pollLoop_run (w : Watcher) (ticks : List (List Action)) : ∃ front rest, Polls w ticks front ∧
    (∀ action ∈ rest, ∃ tick ∈ ticks, action ∈ tick) ∧
    (pollLoop w ticks).watcher = (w.run (front ++ .poll :: rest)).watcher ∧
    ∀ n, callsOn n (pollLoop w ticks).events = callsOn n (w.run (front ++ .poll :: rest)).trace := by
  induction ticks generalizing w with
  | nil =>
    refine ⟨[], [], .now, by simp, ?_⟩
    rw [List.nil_append, trace_run_poll]
    cases polled : w.poll.result with
    | error failure =>
      rw [pollLoop_refused polled]
      exact ⟨rfl, fun n => by simp [Watcher.run]⟩
    | ok flag =>
      rw [pollLoop_last polled]
      exact ⟨rfl, fun n => by simp [Watcher.run]⟩
  | cons tick rest ih =>
    cases polled : w.poll.result with
    | error failure =>
      rw [pollLoop_refused polled]
      refine ⟨[], [], .now, by simp, rfl, fun n => ?_⟩
      rw [List.nil_append, trace_run_poll]
      simp [Watcher.run]
    | ok flag =>
      obtain ⟨part, inside, watcher, events, whole⟩ := performAll_run w.poll.watcher tick
      cases waited : (performAll w.poll.watcher tick).result with
      | error failure =>
        rw [pollLoop_cut polled waited]
        refine ⟨[], part, .now, fun action member => ⟨tick, List.mem_cons_self, inside.subset member⟩,
          watcher, fun n => ?_⟩
        rw [List.nil_append, trace_run_poll, events]
        simp
      | ok done =>
        obtain rfl := whole waited
        obtain ⟨front, behind, polls, outside, last, calls⟩ := ih (performAll w.poll.watcher part).watcher
        rw [pollLoop_turn polled waited]
        refine ⟨.poll :: (part ++ front), behind, .later polled waited polls, fun action member => ?_, ?_,
          fun n => ?_⟩
        · obtain ⟨tick, inRest, inTick⟩ := outside action member
          exact ⟨tick, List.mem_cons_of_mem _ inRest, inTick⟩
        · change (pollLoop (performAll w.poll.watcher part).watcher rest).watcher =
            (w.poll.watcher.run (part ++ front ++ .poll :: behind)).watcher
          rw [List.append_assoc, watcher_run_append, last, watcher]
        · change callsOn n (_ ++ (pollLoop (performAll w.poll.watcher part).watcher rest).events) = _
          rw [List.cons_append, trace_run_poll, List.append_assoc part, trace_run_append, ← watcher, ← events]
          simp [calls]

/-! ### The observer -/

/-- Actions that neither start nor stop leave the observer in its place and its life as it is. -/
theorem steady_run (steady : ∀ action ∈ actions, action ≠ .stop ∧ action ≠ .start true) :
    (w.run actions).watcher.observer = w.observer ∧ ∀ n, lifeOf n (w.run actions).trace = [] := by
  induction actions generalizing w with
  | nil => exact ⟨rfl, fun _ => rfl⟩
  | cons action rest ih =>
    obtain ⟨⟨unended, unmade⟩, later⟩ := List.forall_mem_cons.mp steady
    obtain ⟨slot, silent⟩ := ih (w := w.next action) later
    have handling := w.handling action
    change ((w.next action).run rest).watcher.observer = _ ∧
      ∀ n, lifeOf n ((w.perform action).events ++ ((w.next action).run rest).trace) = []
    generalize w.next action = v at handling slot silent ⊢
    rw [slot]
    cases handling with
    | makes => exact absurd rfl unmade
    | moves _ _ same calls =>
      exact ⟨same, fun n => by rw [lifeOf_append, silent, lifeOf_congr (calls n), lifeOf_scheduling]; rfl⟩
    | ends => exact absurd rfl unended
    | leaves _ same calls =>
      exact ⟨same, fun n => by rw [lifeOf_append, silent, lifeOf_silent (calls n)]; rfl⟩

inductive Makes (w : Watcher) (step : Watcher.Step Bool) : Prop
  | made (told : step.result = .ok true) (slot : step.watcher.observer = some (w.observers + 1))
    (life : ∀ n, lifeOf n step.events = if w.observers + 1 = n then [.start] else [])
  | none (told : step.result ≠ .ok true) (silent : ∀ n, lifeOf n step.events = [])

theorem makes_observe (available : Bool) (w : Watcher) : Makes w (observe available w) := by
  cases available with
  | false => exact .none (by simp [observe]) fun _ => rfl
  | true =>
    let started : Watcher := (observe true w).watcher
    exact .made rfl rfl fun n => lifeOf_making (v := started) (by simp [started, observe])

theorem Makes.precededBy {step : Watcher.Step Bool} (makes : Makes w step) {events : List Event}
    (quiet : ∀ n, lifeOf n events = []) : Makes w (step.precededBy events) := by
  have life (n : Nat) : lifeOf n (step.precededBy events).events = lifeOf n step.events :=
    (lifeOf_append _ _).trans (by rw [quiet, List.nil_append])
  cases makes with
  | made told slot begun => exact .made told slot fun n => (life n).trans (begun n)
  | none told silent => exact .none told fun n => (life n).trans (silent n)

theorem makes_start (available : Bool) (w : Watcher) : Makes w (w.start available) := by
  have quiet (n : Nat) : lifeOf n (Event.notices w.assembler.verbose w.bundling.notices) = [] :=
    lifeOf_silent callsOn_notices
  unfold start
  cases w.source with
  | some source => exact makes_observe available w
  | none =>
    rw [load_eq]
    cases result : w.bundling.result with
    | error e => exact .none (by simp [Except.map, Except.mapError]) quiet
    | ok s =>
      have makes : Makes w (observe available (w.after (.ok s))) := by
        have same : (w.after (.ok s)).observers = w.observers := observers_after w (.ok s)
        cases makes_observe available (w.after (.ok s)) with
        | made told slot begun => exact .made told (same ▸ slot) (same ▸ begun)
        | none told silent => exact .none told silent
      exact makes.precededBy quiet

theorem watch_unstarted (other : (w.start available).result ≠ .ok true) :
    (watch available ticks w).events = (w.start available).events := by
  unfold watch
  dsimp only
  split
  · rfl
  · rfl
  · contradiction

theorem watch_started (made : (w.start available).result = .ok true) :
    let looped := pollLoop (w.start available).watcher ticks
    watch available ticks w = ⟨looped.watcher.stop.watcher.tree,
      (w.start available).events ++ looped.events ++ looped.watcher.stop.events,
      looped.result.map fun _ => 0⟩ := by
  simp [watch, made]

/-- A watch on which no observer was made before makes at most one, and ends it. -/
theorem life_watch (available : Bool) (unmade : w.observers = 0)
    (outside : ∀ tick ∈ ticks, ∀ action ∈ tick, Outside tree path action) (n : Nat) :
    lifeOf n (watch available ticks w).events =
      if (w.start available).result = .ok true ∧ n = 1 then [.start, .stop, .join] else [] := by
  cases makes_start available w with
  | none other silent => rw [if_neg fun both => other both.1, watch_unstarted other, silent]
  | made made slot begun =>
    obtain ⟨front, rest, polls, inTicks, watcher, same⟩ := pollLoop_run (w.start available).watcher ticks
    have steady : ∀ action ∈ front ++ .poll :: rest, action ≠ .stop ∧ action ≠ .start true := by
      intro action member
      rcases (polls.outside_behind outside inTicks).2 action member with rfl | outside
      · simp
      · constructor <;> rintro rfl <;> exact outside
    obtain ⟨kept, quiet⟩ := steady_run (w := (w.start available).watcher) steady
    have ending : (pollLoop (w.start available).watcher ticks).watcher.observer = some 1 := by
      rw [watcher, kept, slot, unmade]
    rw [watch_started made]
    dsimp only
    rw [lifeOf_append, lifeOf_append, begun, lifeOf_congr (same n), quiet, stop, ending, unmade]
    by_cases first : n = 1
    · subst first
      simp [made, lifeOf, ObserverCall.turns]
    · simp [first, Ne.symm first, lifeOf]

end ShaderBundle.CommandLine.Command

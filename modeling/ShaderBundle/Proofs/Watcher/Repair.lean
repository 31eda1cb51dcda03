import ShaderBundle.Proofs.Watcher.Session

/-! What becomes of a reload that fails for a module. The watched paths stay those of the last good load,
so that a repair of the module is noticed if that load knew it. A module that came in with the
change that failed is not watched. -/
namespace ShaderBundle

namespace Watcher

variable {w v : Watcher}

/-- A handler takes a report of a change by the path alone. -/
theorem marks_report {path : String} {event : FileEvent}
    (about : event ∈ [FileEvent.modified path, .created path]) :
    w.marks (.report event) = (w.observers ≠ 0 && w.isWatched path) := by
  simp only [List.mem_cons, List.not_mem_nil, or_false] at about
  rcases about with rfl | rfl <;> rfl

theorem next_change {change : FileTree.Change} {tree : FileTree} (ok : w.tree.apply change = .ok tree) :
    w.next (.change change) = { w with tree } := by
  simp [next, perform, changeTree, ok, Step.map, silent]

/-- A poll that cannot bundle the root changes no file. -/
theorem tree_poll_of_error {e : AssemblyError} (pending : w.pending = true)
    (failed : w.bundling.result = .error e) : w.poll.watcher.tree = w.tree := by
  have reload := reload_poll pending
  generalize w.poll = step at reload
  cases reload with
  | failed result => rfl
  | done result => simp [failed] at result

def saving (content : String) : List Action :=
  [.start true, .change (.write "m" (Text.utf8Bytes content)), .report (.modified "m")]

theorem apply_write_desk (old new : String) :
    (desk old).apply (.write "m" (Text.utf8Bytes new)) = .ok (desk new) := by
  have names : FileTree.names "m" = ["m"] := by decide +kernel
  have spelled : Path.spelled "m" = "m" := by decide +kernel
  have origin : (desk old).origin "m" = [] := rfl
  have short : (desk old).tooLong "m" = false := rfl
  have fits : "m".utf8ByteSize ≤ (desk old).nameLimit := by
    change 1 ≤ 255
    decide
  have located : (desk old).locate "m" = .ok ["m"] := by
    simp [FileTree.locate, FileTree.walk, FileTree.node?, names, spelled, origin, short,
      Nat.not_lt.mpr fits]
  have written : (desk old).write "m" (Text.utf8Bytes new) = .ok (desk new) := by
    rw [FileTree.write, located]
    simp [FileTree.node?, FileTree.put, FileTree.replace, desk]
  simp [FileTree.apply, FileTree.writeDeep, FileTree.growFolders, FileTree.node?, names, spelled, origin,
    written]

theorem isWatched_edited {content path : String} :
    { started with tree := desk content }.isWatched path = true ↔ started.pathOf path = started.pathOf "m" := by
  rw [isWatched_iff]
  change started.pathOf path ∈ sortedOnce [started.pathOf "m"] ↔ _
  rw [mem_sortedOnce, List.mem_singleton]

theorem run_saving (content : String) : (run attended (saving content)).watcher =
    { started with tree := desk content, pending := true } := by
  have heard : { started with tree := desk content }.marks (.report (.modified "m")) = true := by
    have watched : { started with tree := desk content }.isWatched "m" = true := isWatched_edited.mpr rfl
    rw [marks_report (List.mem_cons_self ..), watched]
    rfl
  change ((attended.next (.start true)).next _).deliver _ = _
  rw [next_start_attended, next_change (apply_write_desk "x" content), deliver_eq, heard]
  rfl

end Watcher

end ShaderBundle

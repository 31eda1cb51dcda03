import ShaderBundle.FileTree.Basic

/-! Changes of a tree leave its working directory alone, so that relative paths keep their meaning. -/
namespace ShaderBundle.FileTree

variable {t grown : FileTree}

theorem workingDirectory_write {path : String} {content : List UInt8}
    (ok : t.write path content = .ok grown) : grown.workingDirectory = t.workingDirectory := by
  unfold write at ok
  split at ok
  · simp at ok
  split at ok
  · simp at ok
  · obtain rfl := Except.ok.inj ok
    rfl

theorem workingDirectory_growFolders {path : String} {place : Place} {left : List String}
    (ok : growFolders path place left t = .ok grown) :
    grown.workingDirectory = t.workingDirectory := by
  have put (t : FileTree) (place : Place) (node : Option Node) :
      (if node = none then t.put place .folder else t).workingDirectory = t.workingDirectory := by
    split <;> rfl
  induction left generalizing place t with
  | nil =>
    unfold growFolders at ok
    split at ok
    · simp at ok
    · obtain rfl := Except.ok.inj ok
      exact put _ _ _
  | cons name rest ih =>
    unfold growFolders at ok
    split at ok
    · simp at ok
    dsimp only at ok
    split at ok
    · exact (ih ok).trans (put _ _ _)
    · exact (ih ok).trans (put _ _ _)

theorem workingDirectory_apply {change : Change} (ok : t.apply change = .ok grown) :
    grown.workingDirectory = t.workingDirectory := by
  cases change with
  | write path content =>
    unfold apply writeDeep at ok
    dsimp only at ok
    split at ok
    · simp at ok
    · rename_i folders made
      exact (workingDirectory_write ok).trans (workingDirectory_growFolders made)
  | delete path =>
    unfold apply delete at ok
    dsimp only at ok
    split at ok
    · simp at ok
    split at ok
    · simp at ok
    · simp at ok
    · obtain rfl := Except.ok.inj ok
      rfl
  | makeFolders path => exact workingDirectory_growFolders ok

theorem workingPath_congr {s t : FileTree} (same : s.workingDirectory = t.workingDirectory) :
    s.workingPath = t.workingPath := congrArg pathText same

end ShaderBundle.FileTree

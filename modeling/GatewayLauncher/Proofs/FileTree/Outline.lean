import GatewayLauncher.Launch

namespace GatewayLauncher

namespace FileNode

mutual

/-- The node with all its files emptied. -/
def outline : FileNode → FileNode
  | .file _ executable => .file { bytes := .empty } executable
  | .directory entries => .directory (outlineAll entries)

def outlineAll : List (String × FileNode) → List (String × FileNode)
  | [] => []
  | (name, t) :: entries => (name, t.outline) :: outlineAll entries

end

theorem lookup_outlineAll (entries : List (String × FileNode)) (name : String) :
    (outlineAll entries).lookup name = (entries.lookup name).map outline := by
  induction entries with
  | nil => rfl
  | cons e entries ih =>
    obtain ⟨n, t⟩ := e
    rw [outlineAll, List.lookup_cons, List.lookup_cons]
    cases name == n with
    | true => rfl
    | false => exact ih

theorem walk_outline (top : FileNode) (above : List FileNode) (here : FileNode)
    (steps : List String) :
    walk top.outline (above.map outline) here.outline steps =
      (walk top above here steps).map outline := by
  induction steps generalizing above here with
  | nil => rfl
  | cons step steps ih =>
    cases here with
    | file content executable => rfl
    | directory entries =>
      simp only [outline, walk]
      split
      · cases above with
        | nil => exact ih [] top
        | cons parent above => exact ih above parent
      · split
        · rfl
        · rw [lookup_outlineAll]
          cases entries.lookup step with
          | none => rfl
          | some next => exact ih (.directory entries :: above) next

end FileNode

namespace FileTree

variable {t u : FileTree}

def outline (t : FileTree) : FileTree where
  working := t.working.outline
  anchored := t.anchored.outline

theorem find_outline (t : FileTree) (p : Path) :
    t.outline.find p = (t.find p).map FileNode.outline := by
  simp only [find]
  split
  · rfl
  · split
    · rfl
    · split
      · exact FileNode.walk_outline .empty [] t.working p.parts
      · exact FileNode.walk_outline t.anchored [] t.anchored p.parts

theorem isFile_outline (t : FileTree) (p : Path) : t.outline.isFile p = t.isFile p := by
  rw [isFile, isFile, find_outline]
  rcases t.find p with e | ⟨content, executable⟩ | entries <;> rfl

theorem isExecutable_outline (t : FileTree) (p : Path) :
    t.outline.isExecutable p = t.isExecutable p := by
  rw [isExecutable, isExecutable, find_outline]
  rcases t.find p with e | ⟨content, executable⟩ | entries
  · rfl
  · cases executable <;> rfl
  · rfl

theorem refuses_outline (t : FileTree) (p : Path) : t.outline.refuses p = t.refuses p := by
  rw [refuses, refuses, find_outline]
  rcases t.find p with e | u
  · cases e <;> rfl
  · rfl

end FileTree

open FileTree

variable {t u : FileTree}

theorem Location.probe_outline (t : FileTree) (p : Path) : probe t.outline p = probe t p := by
  rw [probe, probe, askable, askable, refuses_outline, isFile_outline, isExecutable_outline]

theorem launch_outline (t : FileTree) (name : String) (args : List String) (base : Path)
    (banner : Option String) (c : Course) :
    launch t.outline name args base banner c = launch t name args base banner c := by
  simp only [launch, locate, Location.probe_outline]

/-- What files hold makes no difference to a launch. -/
theorem launch_congr (h : u.outline = t.outline) (name : String) (args : List String) (base : Path)
    (banner : Option String) (c : Course) :
    launch u name args base banner c = launch t name args base banner c := by
  rw [← launch_outline u, h, launch_outline]

end GatewayLauncher

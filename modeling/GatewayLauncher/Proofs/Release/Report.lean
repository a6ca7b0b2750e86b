import GatewayLauncher.Proofs.FileTree
import GatewayLauncher.Proofs.Selection
import GatewayLauncher.Proofs.Settings
import GatewayLauncher.Release.Report

namespace GatewayLauncher.Release

variable {t : FileTree} {dir : Path} {e : Environment} {minimum : Version} {s : Selection}

theorem mapM_eq_ok_iff {α β ε : Type} {f : α → Except ε β} {p : α → Prop} {g : α → β} {xs : List α}
    {ys : List β} (hf : ∀ x y, f x = .ok y ↔ p x ∧ y = g x) :
    xs.mapM f = .ok ys ↔ (∀ x ∈ xs, p x) ∧ ys = xs.map g := by
  induction xs generalizing ys with
  | nil => simp [pure, Except.pure, eq_comm]
  | cons x xs ih =>
    rw [List.mapM_cons, List.forall_mem_cons, List.map_cons]
    cases hx : f x with
    | error e =>
      have hp : ¬p x := fun hp => by cases hx.symm.trans ((hf x _).mpr ⟨hp, rfl⟩)
      simp [hp, bind, Except.bind]
    | ok y =>
      obtain ⟨hp, rfl⟩ := (hf x y).mp hx
      cases hr : xs.mapM f with
      | error e =>
        have hn : ¬∀ x ∈ xs, p x := fun hn => by cases hr.symm.trans (ih.mpr ⟨hn, rfl⟩)
        simp [hn, bind, Except.bind]
      | ok rest =>
        obtain ⟨hn, rfl⟩ := ih.mp hr
        simp [hp, bind, Except.bind, pure, Except.pure, eq_comm, iff_true_intro hn]

def checkOf (t : FileTree) (dir : Path) (b : Prebuilt) : BinaryCheck :=
  checkFound (t.find (dir.child b.name)) (dir.child b.name) b.name (some b.format.name)

/-- The file in the place of a binary, and whether it may be run. -/
def file? (t : FileTree) (dir : Path) (name : String) : Option (Content × Bool) :=
  match t.find (dir.child name) with
  | .ok (.file content executable) => some (content, executable)
  | _ => none

theorem file?_eq_some_iff {name : String} {content : Content} {executable : Bool} :
    file? t dir name = some (content, executable) ↔
      t.find (dir.child name) = .ok (.file content executable) := by
  rw [file?]
  split
  · rename_i h
    simp [h]
  · rename_i hn
    simp only [reduceCtorEq, false_iff]
    exact hn content executable

theorem isSome_file? (name : String) :
    (file? t dir name).isSome = t.isFile (dir.child name) := by
  rw [Bool.eq_iff_iff, FileTree.isFile_iff, Option.isSome_iff_exists, Prod.exists]
  simp only [file?_eq_some_iff]

theorem checkOf_of_file {b : Prebuilt} {content : Content} {executable : Bool}
    (h : file? t dir b.name = some (content, executable)) :
    checkOf t dir b = {
      name := b.name, path := dir.child b.name, expected := some b.format.name
      detected := formatOf (content.firstBytes 4)
      status := if executable then .ok else .notExecutable
      size := content.size
      warnings := sizeWarnings b.name content.size ++
        formatWarnings b.name (some b.format.name) (formatOf (content.firstBytes 4)) } := by
  rw [checkOf, file?_eq_some_iff.mp h, checkFound]

theorem checkOf_of_no_file {b : Prebuilt} (h : file? t dir b.name = none) :
    checkOf t dir b = {
      name := b.name, path := dir.child b.name, expected := some b.format.name
      status := .missing } := by
  rw [checkOf, checkFound]
  intro content executable hf
  cases h.symm.trans (file?_eq_some_iff.mpr hf)

theorem askable_eq_ok_iff {p : Path} : t.askable p = .ok () ↔ t.refuses p = false := by
  rw [FileTree.askable]
  cases t.refuses p <;> simp

theorem checkAll_eq_ok_iff {cs : List BinaryCheck} :
    checkAll t dir = .ok cs ↔
      (∀ b ∈ Prebuilt.all, t.refuses (dir.child b.name) = false) ∧
      cs = Prebuilt.all.map (checkOf t dir) := by
  refine mapM_eq_ok_iff fun b c => ?_
  rw [← askable_eq_ok_iff, checkBinary]
  cases t.askable (dir.child b.name) <;>
    simp [checkOf, bind, Except.bind, pure, Except.pure, eq_comm]

/-- A gateway stands in its place, but may not be run. -/
def Unpermitted (t : FileTree) (dir : Path) (b : Prebuilt) : Prop :=
  ∃ content, t.find (dir.child b.name) = .ok (.file content false)

def permission? (t : FileTree) (dir : Path) (name : String) : Option Bool :=
  (file? t dir name).map Prod.snd

def unpermitted (t : FileTree) (dir : Path) : List String :=
  Prebuilt.names.filter fun name => permission? t dir name = some false

/-- The binary that is selected, if it does not stand in its place. -/
def lacking (t : FileTree) (dir : Path) : Selection → List String
  | .resolved name => if permission? t dir name = none then [name] else []
  | _ => []

def notExecutable (dir : Path) (name : String) : String :=
  s!"{name} is not executable. Run: chmod +x {(dir.child name).toString}"

def notFound (dir : Path) (e : Environment) (name : String) : String :=
  s!"Detected binary {name} for {e.describe} not found in {dir.toString}"

theorem permission?_eq_some_false_iff {b : Prebuilt} :
    permission? t dir b.name = some false ↔ Unpermitted t dir b := by
  simp only [permission?, Option.map_eq_some_iff, Prod.exists, exists_eq_right, file?_eq_some_iff,
    Unpermitted]

theorem isFile_iff {name : String} :
    t.isFile (dir.child name) = true ↔ permission? t dir name ≠ none := by
  rw [← isSome_file?, permission?, ne_eq, Option.map_eq_none_iff, ← Option.not_isSome_iff_eq_none,
    not_not]

theorem statusFailures_checkOf (b : Prebuilt) :
    statusFailures (checkOf t dir b) =
      if permission? t dir b.name = some false then [notExecutable dir b.name] else [] := by
  cases h : file? t dir b.name with
  | none =>
    rw [checkOf_of_no_file h, permission?, h]
    rfl
  | some found =>
    obtain ⟨content, executable⟩ := found
    rw [checkOf_of_file h, permission?, h]
    cases executable <;> rfl

theorem flatMap_statusFailures (bs : List Prebuilt) :
    (bs.map (checkOf t dir)).flatMap statusFailures =
      ((bs.map Prebuilt.name).filter fun name => permission? t dir name = some false).map
        (notExecutable dir) := by
  induction bs with
  | nil => rfl
  | cons b bs ih =>
    rw [List.map_cons, List.flatMap_cons, ih, statusFailures_checkOf, List.map_cons,
      List.filter_cons]
    by_cases h : permission? t dir b.name = some false <;> simp [h]

theorem failures_currentPlatform (s : Selection) :
    (currentPlatform t dir e s).2.2 = (lacking t dir s).map (notFound dir e) := by
  cases s with
  | resolved name =>
    by_cases hp : permission? t dir name = none
    · rw [currentPlatform, lacking, if_neg (by rwa [isFile_iff, not_not]), if_pos hp]
      rfl
    · rw [currentPlatform, lacking, if_pos (isFile_iff.mpr hp), if_neg hp]
      rfl
  | unsupported reason guidance => rfl
  | incompatible current required => rfl

theorem failures_reportOn (s : Selection) :
    (reportOn t dir (Prebuilt.all.map (checkOf t dir)) e s).failures =
      (unpermitted t dir).map (notExecutable dir) ++ (lacking t dir s).map (notFound dir e) := by
  rw [unpermitted, Prebuilt.names, ← flatMap_statusFailures, ← failures_currentPlatform]
  rfl

theorem unpermitted_eq_nil_iff :
    unpermitted t dir = [] ↔ ∀ b ∈ Prebuilt.all, ¬Unpermitted t dir b := by
  rw [unpermitted, List.filter_eq_nil_iff, Prebuilt.names, List.forall_mem_map]
  simp only [decide_eq_true_eq, permission?_eq_some_false_iff]

theorem lacking_eq_nil_iff :
    lacking t dir s = [] ↔ ∀ name, s = .resolved name → t.isFile (dir.child name) = true := by
  cases s with
  | resolved name => simp [lacking, isFile_iff]
  | unsupported reason guidance => simp [lacking]
  | incompatible current required => simp [lacking]

theorem ok_reportOn_iff :
    (reportOn t dir (Prebuilt.all.map (checkOf t dir)) e s).ok = true ↔
      (∀ b ∈ Prebuilt.all, ¬Unpermitted t dir b) ∧
      ∀ name, s = .resolved name → t.isFile (dir.child name) = true := by
  rw [Report.ok, failures_reportOn, List.isEmpty_iff, List.append_eq_nil_iff, List.map_eq_nil_iff,
    List.map_eq_nil_iff, unpermitted_eq_nil_iff, lacking_eq_nil_iff]

def absence (dir : Path) : Report :=
  { dir, failures := [s!"Delegate directory not found: {dir.toString}"] }

/-- The two reports that a check can give: there is no directory, or it is reported on. -/
theorem check_eq_ok_iff {environment : Except VersionError Environment} {r : Report} :
    check t dir environment minimum = .ok r ↔ t.refuses dir = false ∧
      (t.isDirectory dir = false ∧ r = absence dir ∨
        t.isDirectory dir = true ∧
        (∀ b ∈ Prebuilt.all, t.refuses (dir.child b.name) = false) ∧
        ∃ e s, environment = .ok e ∧ Selection.select minimum e = .ok s ∧
          r = reportOn t dir (Prebuilt.all.map (checkOf t dir)) e s) := by
  rw [← askable_eq_ok_iff, check]
  simp only [@eq_comm _ r]
  cases ha : t.askable dir with
  | error x => simp [mapError_error, bind, Except.bind]
  | ok _ =>
    cases hd : t.isDirectory dir with
    | false => simp [mapError_ok, absence, bind, Except.bind, pure, Except.pure]
    | true =>
      cases hc : checkAll t dir with
      | error x =>
        have hn : ¬∀ b ∈ Prebuilt.all, t.refuses (dir.child b.name) = false := fun hn => by
          cases hc.symm.trans (checkAll_eq_ok_iff.mpr ⟨hn, rfl⟩)
        simp [hn, mapError_ok, mapError_error, bind, Except.bind]
      | ok cs =>
        obtain ⟨hn, rfl⟩ := checkAll_eq_ok_iff.mp hc
        cases environment with
        | error x => simp [mapError_ok, mapError_error, bind, Except.bind]
        | ok e =>
          cases hs : Selection.select minimum e with
          | error x => simp [hs, mapError_ok, mapError_error, bind, Except.bind]
          | ok s =>
            simp [hs, iff_true_intro hn, mapError_ok, bind, Except.bind, pure, Except.pure]

/-- The check ends without a report: a path is too long to be asked about, or nothing is selected
    for the environment. -/
def Stuck (t : FileTree) (dir : Path) (e : Environment) (minimum : Version) : Prop :=
  t.refuses dir = true ∨ t.isDirectory dir = true ∧
    ((∃ b ∈ Prebuilt.all, t.refuses (dir.child b.name) = true) ∨ Selection.Undecided minimum e)

theorem exists_check_iff :
    (∃ r, check t dir (.ok e) minimum = .ok r) ↔ ¬Stuck t dir e minimum := by
  have hs : (∃ s, Selection.select minimum e = .ok s) ↔ ¬Selection.Undecided minimum e :=
    Selection.exists_select_iff
  simp only [check_eq_ok_iff, Stuck]
  cases t.refuses dir with
  | true => simp
  | false =>
    cases t.isDirectory dir with
    | false => simp
    | true => simp [hs]

end GatewayLauncher.Release

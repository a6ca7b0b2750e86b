import GatewayLauncher.Command.BumpVersion
import GatewayLauncher.Proofs.FileTree
import GatewayLauncher.Proofs.Manifest
import GatewayLauncher.Proofs.Settings
import GatewayLauncher.Proofs.Version.Next

namespace GatewayLauncher.BumpVersion

variable {t : FileTree} {p : Path} {find : List Char → Option Manifest.Cut} {content : Content}
  {cut : Manifest.Cut} {v w : Version} {part : VersionPart}

/-- The file at a path is a text with a place for the version; `cut` cuts the text at that place. -/
structure RecordsAt (t : FileTree) (p : Path) (find : List Char → Option Manifest.Cut)
    (content : Content) (cut : Manifest.Cut) : Prop where
  openFile : t.openFile p = .ok content
  text : textOf content = .ok cut.text
  find : find cut.text = some cut

def rewritten (content : Content) (cut : Manifest.Cut) (v : Version) : Content :=
  withText content (cut.replace v.letters).text

theorem find_of_openFile (h : t.openFile p = .ok content) :
    ∃ executable, t.find p = .ok (.file content executable) := by
  rw [FileTree.openFile] at h
  split at h
  · rename_i found executable hf
    cases h
    exact ⟨executable, hf⟩
  · cases h
  · cases h

/-- What both reading and writing a version start with: the content of the file and the cut at its
    version. -/
def recorded (t : FileTree) (p : Path) (find : List Char → Option Manifest.Cut)
    (missing : Fault) : Except Fault (Content × Manifest.Cut) := do
  let content ← openFile t p
  match find (← textOf content) with
  | none => throw missing
  | some cut => return (content, cut)

theorem recorded_eq_ok_iff (hs : Manifest.Steady find) {missing : Fault} :
    recorded t p find missing = .ok (content, cut) ↔ RecordsAt t p find content cut := by
  constructor
  · intro h
    simp only [recorded, openFile, bind, Except.bind] at h
    cases ho : t.openFile p with
    | error e => simp [ho, mapError_error] at h
    | ok c =>
      cases ht : textOf c with
      | error f => simp [ho, ht, mapError_ok] at h
      | ok text =>
        cases hf : find text with
        | none => simp [ho, ht, hf, mapError_ok, throw, throwThe, MonadExceptOf.throw] at h
        | some found =>
          obtain rfl := hs.text text found hf
          simp only [ho, ht, hf, mapError_ok, pure, Except.pure, Except.ok.injEq,
            Prod.mk.injEq] at h
          obtain ⟨rfl, rfl⟩ := h
          exact ⟨ho, ht, hf⟩
  · intro h
    simp only [recorded, openFile, h.openFile, h.text, h.find, mapError_ok, bind, Except.bind]
    rfl

theorem recorded_bind {α : Type} (t : FileTree) (p : Path)
    (find : List Char → Option Manifest.Cut) (missing : Fault)
    (next : Content × Manifest.Cut → Except Fault α) :
    recorded t p find missing >>= next = (do
      let content ← openFile t p
      match find (← textOf content) with
      | none => throw missing
      | some cut => next (content, cut)) := by
  cases ho : openFile t p with
  | error f => simp only [recorded, ho, bind, Except.bind]
  | ok content =>
    cases ht : textOf content with
    | error f => simp only [recorded, ho, ht, bind, Except.bind]
    | ok text => cases hf : find text <;> simp only [recorded, ho, ht, hf, bind, Except.bind] <;> rfl

theorem updated_eq (t : FileTree) (p : Path) (find : List Char → Option Manifest.Cut)
    (v : Version) : updated t p find v =
      recorded t p find (.noVersion s!"No version string found in {p.toString}") >>= fun r =>
        v.render.mapError .version >>= fun written =>
          .ok (withText r.1 (r.2.replace written.toList).text) := by
  rw [recorded_bind]
  rfl

theorem currentVersion_eq (t : FileTree) : currentVersion t =
    recorded t projectFile Manifest.projectVersion?
      (.noVersion s!"No [project] version in {projectFile.toString}") >>= fun r =>
        (Version.parse .full (String.ofList r.2.literal)).mapError .version := by
  rw [recorded_bind]
  rfl

theorem updated_of_recordsAt (hs : Manifest.Steady find) (h : RecordsAt t p find content cut)
    (hv : v.Writable) : updated t p find v = .ok (rewritten content cut v) := by
  rw [updated_eq, (recorded_eq_ok_iff hs).mpr h, Version.render_of_writable hv]
  simp [mapError_ok, rewritten, bind, Except.bind]

theorem exists_fault_of_updated (hs : Manifest.Steady find)
    (h : v.Writable → ¬∃ content cut, RecordsAt t p find content cut) :
    ∃ f, updated t p find v = .error f := by
  rw [updated_eq]
  cases hr : recorded t p find (.noVersion s!"No version string found in {p.toString}") with
  | error f => exact ⟨f, rfl⟩
  | ok r =>
    cases hw : v.render with
    | error e => exact ⟨.version e, rfl⟩
    | ok written =>
      exact absurd ⟨r.1, r.2, (recorded_eq_ok_iff hs).mp hr⟩
        (h (Version.render_eq_ok_iff.mp hw).1)

theorem currentVersion_eq_ok_iff : currentVersion t = .ok v ↔
    ∃ content cut, RecordsAt t projectFile Manifest.projectVersion? content cut ∧
      Version.parse .full (String.ofList cut.literal) = .ok v := by
  have hs := Manifest.steady_projectVersion?
  rw [currentVersion_eq]
  constructor
  · intro h
    cases hr : recorded t projectFile Manifest.projectVersion?
        (.noVersion s!"No [project] version in {projectFile.toString}") with
    | error f => simp [hr, bind, Except.bind] at h
    | ok r =>
      cases hp : Version.parse .full (String.ofList r.2.literal) with
      | error e => simp [hr, hp, mapError_error, bind, Except.bind] at h
      | ok u =>
        obtain rfl : u = v := by simpa [hr, hp, mapError_ok, bind, Except.bind] using h
        exact ⟨r.1, r.2, (recorded_eq_ok_iff hs).mp hr, hp⟩
  · rintro ⟨content, cut, hr, hp⟩
    rw [(recorded_eq_ok_iff hs).mpr hr]
    simp [hp, mapError_ok, bind, Except.bind]

theorem writable_of_currentVersion (h : currentVersion t = .ok v) : v.WellFormed ∧ v.Writable := by
  obtain ⟨content, cut, -, hp⟩ := currentVersion_eq_ok_iff.mp h
  exact Version.of_parse hp

theorem plan_eq_ok_iff :
    plan t part = .ok (v, w) ↔ currentVersion t = .ok v ∧ v.next part = .ok w := by
  constructor
  · intro h
    simp only [plan, bind, Except.bind, pure, Except.pure] at h
    cases hc : currentVersion t with
    | error f => simp [hc] at h
    | ok u =>
      cases hn : u.next part with
      | error e => simp [hc, hn, mapError_error] at h
      | ok x =>
        simp only [hc, hn, mapError_ok, Except.ok.injEq, Prod.mk.injEq] at h
        obtain ⟨rfl, rfl⟩ := h
        exact ⟨rfl, hn⟩
  · rintro ⟨hc, hn⟩
    simp [plan, hc, hn, mapError_ok, bind, Except.bind, pure, Except.pure]

theorem announcement_of_writable (hv : v.Writable) (hw : w.Writable) :
    ∃ text, announcement v w = .ok text := by
  simp [announcement, Version.render_of_writable hv, Version.render_of_writable hw, mapError_ok,
    bind, Except.bind, pure, Except.pure]

theorem isDirect_projectFile : projectFile.IsDirect := ⟨by decide, by decide⟩

theorem isDirect_packageFile : packageFile.IsDirect := ⟨by decide, by decide⟩

theorem apart_files : projectFile.Apart packageFile :=
  ⟨"pyproject.toml", [], "src", ["ai_gateway_launcher", "__init__.py"], by decide, by decide,
    by decide⟩

theorem openFile_writeFile (hp : p.IsDirect) (h : t.openFile p = .ok content) (c : Content) :
    (t.writeFile p c).openFile p = .ok c := by
  obtain ⟨executable, hf⟩ := find_of_openFile h
  exact FileTree.openFile_of_find (FileTree.find_writeFile hp hf c)

theorem contains_of_openFile (h : t.openFile p = .ok content) : t.contains p = true := by
  obtain ⟨executable, hf⟩ := find_of_openFile h
  simp [FileTree.contains, hf]

theorem openFile_writeFile_of_apart {q : Path} (hp : p.IsDirect) (hq : q.IsDirect)
    (ha : p.Apart q) (h : t.openFile p = .ok content) (c : Content) :
    (t.writeFile p c).openFile q = t.openFile q := by
  obtain ⟨executable, hf⟩ := find_of_openFile h
  rw [FileTree.openFile, FileTree.openFile, FileTree.find_writeFile_of_apart hp hq ha hf]

theorem recordsAt_writeFile_iff {q : Path} (hp : p.IsDirect) (hq : q.IsDirect) (ha : p.Apart q)
    (h : t.openFile p = .ok content) (c : Content) {other : Content} :
    RecordsAt (t.writeFile p c) q find other cut ↔ RecordsAt t q find other cut := by
  have ho := openFile_writeFile_of_apart hp hq ha h c
  exact ⟨fun h => ⟨ho ▸ h.openFile, h.text, h.find⟩, fun h => ⟨ho.trans h.openFile, h.text, h.find⟩⟩

theorem recordsAt_packageFile_iff (h : t.openFile projectFile = .ok content) (c : Content)
    {other : Content} : RecordsAt (t.writeFile projectFile c) packageFile find other cut ↔
      RecordsAt t packageFile find other cut :=
  recordsAt_writeFile_iff isDirect_projectFile isDirect_packageFile apart_files h c

/-- The package file is no text with a place for the version. -/
def Unfit (t : FileTree) : Prop :=
  ¬∃ content cut, RecordsAt t packageFile Manifest.packageVersion? content cut

/-- Once the project file is known to have a place, what is written depends on the package file
    alone. -/
theorem writeAll_records (hw : w.Writable)
    (hp : RecordsAt t projectFile Manifest.projectVersion? content cut) :
    let c := rewritten content cut w
    (Unfit t → ∃ f, writeAll w records t = (t.writeFile projectFile c, .error f)) ∧
    ∀ other cut', RecordsAt t packageFile Manifest.packageVersion? other cut' →
      writeAll w records t = ((t.writeFile projectFile c).writeFile packageFile
        (rewritten other cut' w), .ok ()) := by
  intro c
  have hu := updated_of_recordsAt Manifest.steady_projectVersion? hp hw
  constructor
  · intro hn
    have hn' : w.Writable → ¬∃ other cut', RecordsAt (t.writeFile projectFile c) packageFile
        Manifest.packageVersion? other cut' := by
      rintro - ⟨other, cut', hr⟩
      exact hn ⟨other, cut', (recordsAt_packageFile_iff hp.openFile c).mp hr⟩
    obtain ⟨f, hf⟩ := exists_fault_of_updated Manifest.steady_packageVersion? hn'
    exact ⟨f, by simp only [writeAll, records, hu, c, hf]⟩
  · intro other cut' hr
    have hq := updated_of_recordsAt Manifest.steady_packageVersion?
      ((recordsAt_packageFile_iff hp.openFile c).mpr hr) hw
    simp only [writeAll, records, hu, c, hq]

theorem bump_of_no_plan (h : ∀ v w, plan t part = .ok (v, w) → ¬w.Writable) :
    ∃ f, bump t part = (t, .error f) := by
  cases hp : plan t part with
  | error f => exact ⟨f, by simp only [bump, hp]⟩
  | ok r =>
    obtain ⟨f, hf⟩ := exists_fault_of_updated (t := t) (p := projectFile)
      Manifest.steady_projectVersion? fun hw => absurd hw (h r.1 r.2 hp)
    exact ⟨f, by simp only [bump, hp, writeAll, records, hf]⟩

theorem recordsAt_of_plan (h : plan t part = .ok (v, w)) :
    ∃ content cut, RecordsAt t projectFile Manifest.projectVersion? content cut := by
  obtain ⟨content, cut, hr, -⟩ := currentVersion_eq_ok_iff.mp (plan_eq_ok_iff.mp h).1
  exact ⟨content, cut, hr⟩

theorem bump_of_unfit (h : plan t part = .ok (v, w)) (hw : w.Writable)
    (hp : RecordsAt t projectFile Manifest.projectVersion? content cut) (hn : Unfit t) :
    ∃ f, bump t part = (t.writeFile projectFile (rewritten content cut w), .error f) := by
  obtain ⟨f, hf⟩ := (writeAll_records hw hp).1 hn
  exact ⟨f, by simp only [bump, h, hf]⟩

theorem bump_of_recordsAt {other : Content} {cut' : Manifest.Cut} (h : plan t part = .ok (v, w))
    (hw : w.Writable) (hp : RecordsAt t projectFile Manifest.projectVersion? content cut)
    (hq : RecordsAt t packageFile Manifest.packageVersion? other cut') :
    ∃ text, bump t part = ((t.writeFile projectFile (rewritten content cut w)).writeFile
      packageFile (rewritten other cut' w), .ok text) := by
  have hv := (writable_of_currentVersion (plan_eq_ok_iff.mp h).1).2
  obtain ⟨text, ht⟩ := announcement_of_writable hv hw
  exact ⟨text, by simp only [bump, h, (writeAll_records hw hp).2 other cut' hq, ht]⟩

/-- The arguments ask for a part to be bumped. -/
def Asks (args : List String) (part : VersionPart) : Prop :=
  ∃ taken, grammar.read args = .ok taken ∧ taken.operand.bind (parts.lookup ·) = some part

theorem asks_part (part : VersionPart) : Asks [part.name] part := by
  refine ⟨{ operand := some part.name }, ?_, ?_⟩ <;> cases part <;> rfl

/-- Everything is ready for the next version, but the package file has no place for it. -/
def StopsHalfway (t : FileTree) (args : List String) : Prop :=
  ∃ part v w, Asks args part ∧ (missingFiles t).isEmpty = true ∧ plan t part = .ok (v, w) ∧
    w.Writable ∧ Unfit t

theorem run_of_asks {args : List String} (h : Asks args part) : run t args = runPart t part := by
  obtain ⟨taken, hr, ho⟩ := h
  simp only [run, hr, ho]

theorem run_of_not_asks {args : List String} (h : ∀ part, ¬Asks args part) :
    (run t args).1 = t := by
  cases hr : grammar.read args with
  | error stop => cases stop <;> simp only [run, hr]
  | ok taken =>
    cases ho : taken.operand.bind (parts.lookup ·) with
    | none => simp only [run, hr, ho]
    | some part => exact absurd ⟨taken, hr, ho⟩ (h part)

theorem runPart_of_fault {t' : FileTree} {f : Fault} (hm : (missingFiles t).isEmpty = true)
    (h : bump t part = (t', .error f)) : runPart t part = (t', { ending := .fault f }) := by
  simp [runPart, hm, h]

theorem runPart_of_announcement {t' : FileTree} {text : String}
    (hm : (missingFiles t).isEmpty = true) (h : bump t part = (t', .ok text)) :
    runPart t part = (t', { stdout := text, ending := .returned }) := by
  simp [runPart, hm, h]

/-- What a run for a part does: nothing, or the project file is written, and then the package file
    too if it has a place. -/
theorem runPart_cases (t : FileTree) (part : VersionPart) :
    (runPart t part).1 = t ∨ ((missingFiles t).isEmpty = true ∧ ∃ v w content cut,
      plan t part = .ok (v, w) ∧ w.Writable ∧
      RecordsAt t projectFile Manifest.projectVersion? content cut ∧
      ((Unfit t ∧ ∃ f, runPart t part =
          (t.writeFile projectFile (rewritten content cut w), { ending := .fault f })) ∨
        ∃ other cut' text, RecordsAt t packageFile Manifest.packageVersion? other cut' ∧
          runPart t part = ((t.writeFile projectFile (rewritten content cut w)).writeFile
            packageFile (rewritten other cut' w), { stdout := text, ending := .returned }))) := by
  cases hm : (missingFiles t).isEmpty with
  | false => exact .inl (by simp [runPart, hm])
  | true =>
    by_cases hp : ∃ v w, plan t part = .ok (v, w) ∧ w.Writable
    · obtain ⟨v, w, hp, hw⟩ := hp
      obtain ⟨content, cut, hc⟩ := recordsAt_of_plan hp
      refine .inr ⟨rfl, v, w, content, cut, hp, hw, hc, ?_⟩
      by_cases hq : Unfit t
      · obtain ⟨f, hb⟩ := bump_of_unfit hp hw hc hq
        exact .inl ⟨hq, f, runPart_of_fault hm hb⟩
      · obtain ⟨other, cut', hq⟩ := not_not.mp hq
        obtain ⟨text, hb⟩ := bump_of_recordsAt hp hw hc hq
        exact .inr ⟨other, cut', text, hq, runPart_of_announcement hm hb⟩
    · obtain ⟨f, hb⟩ := bump_of_no_plan fun v w h hw => hp ⟨v, w, h, hw⟩
      exact .inl (by rw [runPart_of_fault hm hb])

theorem textOf_of_bytes {c : Content} {s : List Char} (hb : c.bytes = (String.ofList s).toUTF8)
    (h : '\r' ∉ s) : textOf c = .ok s := by
  simp only [textOf, hb, Toml.fromUTF8?_toUTF8, String.toList_ofList,
    Text.unifyLineEnds_of_not_mem h]

theorem textOf_ofString {s : String} (h : '\r' ∉ s.toList) :
    textOf (.ofString s) = .ok s.toList :=
  textOf_of_bytes (by rw [String.ofList_toList]; rfl) h

theorem not_mem_of_textOf {c : Content} {s : List Char} (h : textOf c = .ok s) : '\r' ∉ s := by
  rw [textOf] at h
  split at h
  · cases h
  · obtain rfl := Except.ok.inj h
    exact Text.not_mem_unifyLineEnds _

def plainProject : String := "[project]\nname = \"gw\"\nversion = \"0.1.0\"\n"

def project (main package : String) : FileTree where
  working := .directory [
    ("pyproject.toml", .file (.ofString main) false),
    ("src", .directory [("ai_gateway_launcher", .directory [
      ("__init__.py", .file (.ofString package) false)])])]

def plainCut : Manifest.Cut :=
  ⟨"[project]\nname = \"gw\"\nversion = ".toList, "0.1.0".toList, ['\n']⟩

theorem recordsAt_plainProject (package : String) : RecordsAt (project plainProject package)
    projectFile Manifest.projectVersion? (.ofString plainProject) plainCut where
  openFile := rfl
  text := textOf_ofString (by decide)
  find := by decide

theorem currentVersion_plainProject (package : String) :
    currentVersion (project plainProject package) = .ok { major := 0, minor := 1, patch := 0 } :=
  currentVersion_eq_ok_iff.mpr ⟨_, _, recordsAt_plainProject package, rfl⟩

theorem unfit_of_no_version {main package : String} (hr : '\r' ∉ package.toList)
    (h : Manifest.packageVersion? package.toList = none) : Unfit (project main package) := by
  rintro ⟨other, cut, hp, ht, hf⟩
  have ho : (project main package).openFile packageFile = .ok (.ofString package) := rfl
  obtain rfl : Content.ofString package = other := Except.ok.inj (ho.symm.trans hp)
  rw [textOf_ofString hr] at ht
  rw [← Except.ok.inj ht, h] at hf
  cases hf

def halfwayProject : FileTree := project plainProject "# the version is not written here\n"

theorem unfit_halfwayProject : Unfit halfwayProject :=
  unfit_of_no_version (by decide) (by decide)

theorem plan_plainProject (package : String) : plan (project plainProject package) .patch =
    .ok ({ major := 0, minor := 1, patch := 0 }, { major := 0, minor := 1, patch := 1 }) :=
  plan_eq_ok_iff.mpr ⟨currentVersion_plainProject package, rfl⟩

theorem writable_next_plainProject : Version.Writable { major := 0, minor := 1, patch := 1 } :=
  Version.writable_of_le (by decide) (by decide) (by decide)

theorem stopsHalfway_halfwayProject : StopsHalfway halfwayProject ["patch"] :=
  ⟨.patch, _, _, asks_part .patch, rfl, plan_plainProject _, writable_next_plainProject,
    unfit_halfwayProject⟩

theorem not_asks_nothing : ¬Asks [] part := by
  rintro ⟨taken, hr, -⟩
  cases hr

/-- A run that does not return leaves everything as it was, unless it stops halfway: then it ends in
    a fault, with the next version in the project file and the package file as it was. -/
theorem unchanged_unless_halfway (t : FileTree) (args : List String) :
    (¬StopsHalfway t args → (run t args).2.ending ≠ .returned → (run t args).1 = t) ∧
    (StopsHalfway t args → (∃ f, (run t args).2.ending = .fault f) ∧
      (run t args).1.openFile packageFile = t.openFile packageFile ∧
      ∃ part v w content cut, Asks args part ∧ currentVersion t = .ok v ∧
        v.next part = .ok w ∧ RecordsAt t projectFile Manifest.projectVersion? content cut ∧
        (run t args).1 = t.writeFile projectFile (rewritten content cut w)) := by
  constructor
  · intro hs hr
    by_cases ha : ∃ part, Asks args part
    · obtain ⟨part, ha⟩ := ha
      rw [run_of_asks ha] at hr ⊢
      obtain ht | ⟨hm, v, w, _, _, hp, hw, -, ⟨hq, -⟩ | ⟨_, _, _, -, he⟩⟩ := runPart_cases t part
      · exact ht
      · exact absurd ⟨part, v, w, ha, hm, hp, hw, hq⟩ hs
      · rw [he] at hr
        exact absurd rfl hr
    · exact run_of_not_asks fun part h => ha ⟨part, h⟩
  · rintro ⟨part, v, w, ha, hm, hp, hw, hn⟩
    obtain ⟨content, cut, hc⟩ := recordsAt_of_plan hp
    obtain ⟨f, hb⟩ := bump_of_unfit hp hw hc hn
    obtain ⟨hv, hx⟩ := plan_eq_ok_iff.mp hp
    rw [run_of_asks ha, runPart_of_fault hm hb]
    have ho := openFile_writeFile_of_apart isDirect_projectFile isDirect_packageFile apart_files
      hc.openFile (rewritten content cut w)
    exact ⟨⟨f, rfl⟩, ho, part, v, w, content, cut, ha, hv, hx, hc, rfl⟩

theorem unchanged_unless_halfway_halfwayProject :
    (¬StopsHalfway halfwayProject [] ∧ (run halfwayProject []).2.ending ≠ .returned ∧
      (run halfwayProject []).1 = halfwayProject) ∧
    (StopsHalfway halfwayProject ["patch"] ∧
      (∃ f, (run halfwayProject ["patch"]).2.ending = .fault f) ∧
      (run halfwayProject ["patch"]).1.openFile packageFile =
        halfwayProject.openFile packageFile) := by
  have hn : ¬StopsHalfway halfwayProject [] := fun ⟨_, _, _, ha, _⟩ => not_asks_nothing ha
  have he : (run halfwayProject []).2.ending ≠ .returned := by
    intro h
    cases h
  obtain ⟨hf, hp, -⟩ := (unchanged_unless_halfway halfwayProject ["patch"]).2
    stopsHalfway_halfwayProject
  exact ⟨⟨hn, he, (unchanged_unless_halfway halfwayProject []).1 hn he⟩,
    stopsHalfway_halfwayProject, hf, hp⟩

/-- The run ends in a fault, and the project file is another one. -/
theorem halfway_bump_changes_project_file :
    (∃ f, (run halfwayProject ["patch"]).2.ending = .fault f) ∧
      (run halfwayProject ["patch"]).1.openFile projectFile ≠
        halfwayProject.openFile projectFile := by
  have hc := recordsAt_plainProject "# the version is not written here\n"
  obtain ⟨f, hb⟩ := bump_of_unfit (plan_plainProject _) writable_next_plainProject hc
    unfit_halfwayProject
  have hr : run halfwayProject ["patch"] = _ :=
    (run_of_asks (asks_part .patch)).trans (runPart_of_fault rfl hb)
  rw [hr]
  refine ⟨⟨f, rfl⟩, fun h => ?_⟩
  have ho := openFile_writeFile isDirect_projectFile hc.openFile
    (rewritten (.ofString plainProject) plainCut { major := 0, minor := 1, patch := 1 })
  have heq := Except.ok.inj ((ho.symm.trans h).trans hc.openFile)
  have hx := textOf_of_bytes (c := rewritten (.ofString plainProject) plainCut
    { major := 0, minor := 1, patch := 1 }) rfl (by decide)
  rw [heq, hc.text] at hx
  exact absurd (Except.ok.inj hx) (by decide)

end GatewayLauncher.BumpVersion

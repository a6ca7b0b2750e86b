import GatewayLauncher.Proofs.Command.BumpVersion
import GatewayLauncher.Proofs.Version.Advance

namespace GatewayLauncher.BumpVersion

variable {t : FileTree} {p : Path} {find : List Char → Option Manifest.Cut} {content : Content}
  {cut : Manifest.Cut} {v w : Version} {part : VersionPart} {parts : List VersionPart}

theorem isLiteral_letters (hv : v.WellFormed) : Manifest.IsLiteral v.letters :=
  ⟨v.letters_ne_nil, hv.not_mem_letters (by simp)⟩

theorem textOf_rewritten (h : RecordsAt t p find content cut) (hv : v.WellFormed) :
    textOf (rewritten content cut v) = .ok (cut.replace v.letters).text := by
  have hc : '\r' ∉ cut.text := not_mem_of_textOf h.text
  have hl : '\r' ∉ v.letters := hv.not_mem_letters (by simp)
  refine textOf_of_bytes rfl ?_
  simp only [Manifest.Cut.text, Manifest.Cut.replace, List.mem_append, List.mem_cons, not_or]
    at hc ⊢
  exact ⟨⟨hc.1.1, hc.1.2.1, hl⟩, hc.2⟩

theorem RecordsAt.rewritten (hs : Manifest.Steady find) (hp : p.IsDirect)
    (h : RecordsAt t p find content cut) (hv : v.WellFormed) :
    RecordsAt (t.writeFile p (rewritten content cut v)) p find (rewritten content cut v)
      (cut.replace v.letters) where
  openFile := openFile_writeFile hp h.openFile _
  text := textOf_rewritten h hv
  find := hs.replace _ _ _ h.find (isLiteral_letters hv)

/-- Both files have a place for the version. -/
structure Places (t : FileTree) where
  project : Content
  projectCut : Manifest.Cut
  package : Content
  packageCut : Manifest.Cut
  inProject : RecordsAt t projectFile Manifest.projectVersion? project projectCut
  inPackage : RecordsAt t packageFile Manifest.packageVersion? package packageCut

namespace Places

/-- The tree with a version in both places, and all else as it is. -/
def fill (b : Places t) (v : Version) : FileTree :=
  (t.writeFile projectFile (rewritten b.project b.projectCut v)).writeFile packageFile
    (rewritten b.package b.packageCut v)

variable (b : Places t)

theorem inProject_fill (hv : v.WellFormed) : RecordsAt (b.fill v) projectFile
    Manifest.projectVersion? (rewritten b.project b.projectCut v)
    (b.projectCut.replace v.letters) := by
  have hp := b.inProject.rewritten Manifest.steady_projectVersion? isDirect_projectFile hv
  have hq := (recordsAt_packageFile_iff b.inProject.openFile
    (rewritten b.project b.projectCut v)).mpr b.inPackage
  exact (recordsAt_writeFile_iff isDirect_packageFile isDirect_projectFile apart_files.symm
    hq.openFile _).mpr hp

theorem inPackage_fill (hv : v.WellFormed) : RecordsAt (b.fill v) packageFile
    Manifest.packageVersion? (rewritten b.package b.packageCut v)
    (b.packageCut.replace v.letters) := by
  have hq := (recordsAt_packageFile_iff b.inProject.openFile
    (rewritten b.project b.projectCut v)).mpr b.inPackage
  exact hq.rewritten Manifest.steady_packageVersion? isDirect_packageFile hv

def filled (hv : v.WellFormed) : Places (b.fill v) where
  project := rewritten b.project b.projectCut v
  projectCut := b.projectCut.replace v.letters
  package := rewritten b.package b.packageCut v
  packageCut := b.packageCut.replace v.letters
  inProject := b.inProject_fill hv
  inPackage := b.inPackage_fill hv

theorem fill_filled (hv : v.WellFormed) (w : Version) : (b.filled hv).fill w = b.fill w := by
  obtain ⟨_, hp⟩ := find_of_openFile b.inProject.openFile
  obtain ⟨_, hq⟩ := find_of_openFile b.inPackage.openFile
  exact FileTree.writeFile_pair isDirect_projectFile isDirect_packageFile apart_files hp hq _ _ _ _

theorem currentVersion_fill (hv : v.WellFormed) (hw : v.Writable) :
    currentVersion (b.fill v) = .ok v :=
  currentVersion_eq_ok_iff.mpr ⟨_, _, b.inProject_fill hv, Version.parse_letters hv hw⟩

include b in
theorem missingFiles_eq_nil : missingFiles t = [] := by
  simp [missingFiles, records, contains_of_openFile b.inProject.openFile,
    contains_of_openFile b.inPackage.openFile]

theorem run_eq_fill (hc : currentVersion t = .ok v) (hn : v.next part = .ok w) (hw : w.Writable) :
    ∃ text, run t [part.name] = (b.fill w, { stdout := text, ending := .returned }) := by
  obtain ⟨text, hb⟩ := bump_of_recordsAt (plan_eq_ok_iff.mpr ⟨hc, hn⟩) hw b.inProject b.inPackage
  have hm : (missingFiles t).isEmpty = true := by rw [b.missingFiles_eq_nil]; rfl
  exact ⟨text, (run_of_asks (asks_part part)).trans (runPart_of_announcement hm hb)⟩

theorem exists_fill_of_returned (h : (runPart t part).2.ending = .returned) :
    ∃ (b : Places t) (v w : Version), currentVersion t = .ok v ∧ v.next part = .ok w ∧
      w.Writable ∧ (runPart t part).1 = b.fill w := by
  cases hm : (missingFiles t).isEmpty with
  | false => simp [runPart, hm] at h
  | true =>
    by_cases hp : ∃ v w, plan t part = .ok (v, w) ∧ w.Writable
    · obtain ⟨v, w, hp, hw⟩ := hp
      obtain ⟨hc, hn⟩ := plan_eq_ok_iff.mp hp
      obtain ⟨project, projectCut, hr⟩ := recordsAt_of_plan hp
      by_cases hq : Unfit t
      · obtain ⟨f, hb⟩ := bump_of_unfit hp hw hr hq
        rw [runPart_of_fault hm hb] at h
        cases h
      · obtain ⟨package, packageCut, hq⟩ := not_not.mp hq
        obtain ⟨text, hb⟩ := bump_of_recordsAt hp hw hr hq
        refine ⟨⟨project, projectCut, package, packageCut, hr, hq⟩, v, w, hc, hn, hw, ?_⟩
        rw [runPart_of_announcement hm hb]
        rfl
    · obtain ⟨f, hb⟩ := bump_of_no_plan fun v w h hw => hp ⟨v, w, h, hw⟩
      rw [runPart_of_fault hm hb] at h
      cases h

end Places

def runParts (t : FileTree) : List VersionPart → FileTree × List Outcome
  | [] => (t, [])
  | part :: parts =>
    let (t, outcome) := run t [part.name]
    let (t, outcomes) := runParts t parts
    (t, outcome :: outcomes)

/-- From the second bump on, the files at the start are still those that are filled. -/
theorem runParts_eq_fill (b : Places t) (hc : currentVersion t = .ok v) (hn : parts ≠ [])
    (hu : v.StaysUnder parts) : ∃ w, w.WellFormed ∧ w.Writable ∧
      parts.foldlM Version.next v = .ok w ∧ (runParts t parts).1 = b.fill w ∧
      (runParts t parts).2.map Outcome.ending = List.replicate parts.length .returned := by
  induction parts generalizing t v with
  | nil => exact absurd rfl hn
  | cons part parts ih =>
    obtain ⟨ho, hu⟩ := hu
    obtain ⟨u, hx⟩ := Version.exists_next ho
    obtain ⟨hw, hu⟩ := hu u hx
    have hf : u.WellFormed := (writable_of_currentVersion hc).1.next hx
    obtain ⟨text, hr⟩ := b.run_eq_fill hc hx hw
    cases parts with
    | nil =>
      refine ⟨u, hf, hw, ?_, ?_, ?_⟩
      · rw [List.foldlM_cons, hx]
        rfl
      · rw [runParts, hr]
        rfl
      · rw [runParts, hr]
        rfl
    | cons next parts =>
      -- The places are the same once they have been filled, and what they had then is forgotten.
      obtain ⟨w, hwf, hww, hfold, ht, he⟩ :=
        ih (b.filled hf) (b.currentVersion_fill hf hw) (List.cons_ne_nil next parts) hu
      refine ⟨w, hwf, hww, ?_, ?_, ?_⟩
      · rw [List.foldlM_cons, hx]
        exact hfold
      · rw [runParts, hr]
        exact ht.trans (b.fill_filled hf w)
      · rw [runParts, hr]
        exact congrArg (Ending.returned :: ·) he

def startedPackage : String := "__version__ = \"0.1.0\"\n"

theorem recordsAt_startedPackage : RecordsAt (project plainProject startedPackage) packageFile
    Manifest.packageVersion? (.ofString startedPackage)
    ⟨"__version__ = ".toList, "0.1.0".toList, ['\n']⟩ where
  openFile := rfl
  text := textOf_ofString (by decide)
  find := by decide

theorem staysUnder_plainProject :
    Version.StaysUnder { major := 0, minor := 1, patch := 0 } [.prerelease, .patch] := by
  have hw : Version.Writable { major := 0, minor := 1, patch := 1 } := writable_next_plainProject
  have hr : Version.Writable { major := 0, minor := 1, patch := 1, prerelease := ["rc", "1"] } :=
    ⟨hw.major, hw.minor, hw.patch⟩
  exact .cons rfl hr (.cons rfl hw trivial)

/-- Bumps in a row all return, as long as no number gets over the digit limit. They leave everything
    as it was but for the two literals, which are those of the version that the parts lead to. -/
theorem files_stay_in_step (hc : currentVersion t = .ok v)
    (hq : ∃ package cut, RecordsAt t packageFile Manifest.packageVersion? package cut)
    (hn : parts ≠ []) (hu : v.StaysUnder parts) : ∃ (b : Places t) (w : Version),
      (runParts t parts).2.map Outcome.ending = List.replicate parts.length .returned ∧
      parts.foldlM Version.next v = .ok w ∧
      currentVersion (runParts t parts).1 = .ok w ∧ w.render = .ok (String.ofList w.letters) ∧
      (runParts t parts).1 = b.fill w ∧
      RecordsAt (runParts t parts).1 projectFile Manifest.projectVersion?
        (rewritten b.project b.projectCut w) (b.projectCut.replace w.letters) ∧
      RecordsAt (runParts t parts).1 packageFile Manifest.packageVersion?
        (rewritten b.package b.packageCut w) (b.packageCut.replace w.letters) := by
  obtain ⟨project, projectCut, hp, -⟩ := currentVersion_eq_ok_iff.mp hc
  obtain ⟨package, packageCut, hq⟩ := hq
  let b : Places t := ⟨project, projectCut, package, packageCut, hp, hq⟩
  obtain ⟨w, hf, hw, hfold, ht, he⟩ := runParts_eq_fill b hc hn hu
  refine ⟨b, w, he, hfold, ?_, Version.render_of_writable hw, ht, ?_, ?_⟩
  · rw [ht]
    exact b.currentVersion_fill hf hw
  · rw [ht]
    exact b.inProject_fill hf
  · rw [ht]
    exact b.inPackage_fill hf

theorem files_stay_in_step_plainProject : ∃ b : Places (project plainProject startedPackage),
    (runParts (project plainProject startedPackage) [.prerelease, .patch]).2.map Outcome.ending =
      [.returned, .returned] ∧
    (runParts (project plainProject startedPackage) [.prerelease, .patch]).1 =
      b.fill { major := 0, minor := 1, patch := 1 } ∧
    currentVersion (b.fill { major := 0, minor := 1, patch := 1 }) =
      .ok { major := 0, minor := 1, patch := 1 } := by
  obtain ⟨b, w, he, hw, hc, -, ht, -⟩ := files_stay_in_step
    (currentVersion_plainProject startedPackage) ⟨_, _, recordsAt_startedPackage⟩
    (List.cons_ne_nil _ _) staysUnder_plainProject
  obtain rfl : { major := 0, minor := 1, patch := 1 } = w := Except.ok.inj hw
  exact ⟨b, he, ht, ht ▸ hc⟩

variable {v : Version} {part : VersionPart} {args : List String}

def ninthProject : String := "[project]\nname = \"gw\"\nversion = \"1.0.0-rc9\"\n"

def ninthPackage : String := "__version__ = \"1.0.0-rc9\"\n"

def ninth : Version := { major := 1, minor := 0, patch := 0, prerelease := ["rc9"] }

def ninthTree : FileTree := project ninthProject ninthPackage

def ninthPlaces : Places ninthTree where
  project := .ofString ninthProject
  projectCut := plainCut.replace "1.0.0-rc9".toList
  package := .ofString ninthPackage
  packageCut := ⟨"__version__ = ".toList, "1.0.0-rc9".toList, ['\n']⟩
  inProject := ⟨rfl, textOf_ofString (by decide), by decide⟩
  inPackage := ⟨rfl, textOf_ofString (by decide), by decide⟩

theorem currentVersion_ninthTree : currentVersion ninthTree = .ok ninth :=
  currentVersion_eq_ok_iff.mpr ⟨_, _, ninthPlaces.inProject, rfl⟩

theorem writable_next_ninth {w : Version} (h : ninth.next part = .ok w) : w.Writable := by
  have hz : 0 ≤ Text.digitLimit := by decide
  have h1 : 1 ≤ Text.digitLimit := by decide
  have h2 : 2 ≤ Text.digitLimit := by decide
  cases part <;> cases h <;> exact Version.writable_of_le h1 hz hz

/-- A run that returns has written the version after the one that it found, and that one is the
    greater of the two exactly if the bump advances. -/
theorem bump_advances_iff (hc : currentVersion t = .ok v) (ha : Asks args part)
    (hr : (run t args).2.ending = .returned) : ∃ (b : Places t) (w : Version),
      v.next part = .ok w ∧ (run t args).1 = b.fill w ∧
      currentVersion (run t args).1 = .ok w ∧ (v.isBelow w = .ok true ↔ v.Advances part) := by
  rw [run_of_asks ha] at hr ⊢
  obtain ⟨b, u, w, hu, hn, hw, hf⟩ := Places.exists_fill_of_returned hr
  obtain rfl : v = u := Except.ok.inj (hc.symm.trans hu)
  have hv : v.WellFormed := (writable_of_currentVersion hc).1
  refine ⟨b, w, hn, hf, ?_, Version.isBelow_next_iff hv hn⟩
  rw [hf]
  exact b.currentVersion_fill (hv.next hn) hw

theorem run_ninthTree {w : Version} (h : ninth.next part = .ok w) :
    ∃ text, run ninthTree [part.name] =
      (ninthPlaces.fill w, { stdout := text, ending := .returned }) :=
  ninthPlaces.run_eq_fill currentVersion_ninthTree h (writable_next_ninth h)

theorem bump_advances_ninth : (run ninthTree ["patch"]).2.ending = .returned ∧
    ninth.Advances .patch ∧ ∃ w, currentVersion (run ninthTree ["patch"]).1 = .ok w ∧
      w = { major := 1, minor := 0, patch := 0 } ∧ ninth.isBelow w = .ok true := by
  have hr : (run ninthTree ["patch"]).2.ending = .returned := by
    have hn : ninth.next .patch = .ok { major := 1, minor := 0, patch := 0 } := rfl
    obtain ⟨text, ht⟩ := run_ninthTree hn
    exact congrArg (fun r => r.2.ending) ht
  have ha : ninth.Advances .patch :=
    ⟨fun _ => ⟨by decide, Version.isReadable_iff.mpr rfl⟩, fun h => by cases h⟩
  obtain ⟨-, w, hn, -, hw, hb⟩ := bump_advances_iff currentVersion_ninthTree (asks_part .patch) hr
  exact ⟨hr, ha, w, hw, (Except.ok.inj hn).symm, hb.mpr ha⟩

/-- The ninth candidate is found, the tenth is written, and it is below the ninth. -/
theorem tenth_candidate_is_below : currentVersion ninthTree = .ok ninth ∧
    (run ninthTree ["prerelease"]).2.ending = .returned ∧
    ∃ w, currentVersion (run ninthTree ["prerelease"]).1 = .ok w ∧
      ninth.isBelow w = .ok false ∧ w.isBelow ninth = .ok true := by
  have hn : ninth.next .prerelease =
      .ok { major := 1, minor := 0, patch := 0, prerelease := ["rc10"] } := rfl
  obtain ⟨text, ht⟩ := run_ninthTree hn
  have hf : Version.WellFormed ninth := (writable_of_currentVersion currentVersion_ninthTree).1
  have hr : run ninthTree ["prerelease"] = _ := ht
  rw [hr]
  exact ⟨currentVersion_ninthTree, rfl, _,
    ninthPlaces.currentVersion_fill (hf.next hn) (writable_next_ninth hn), rfl, rfl⟩

end GatewayLauncher.BumpVersion

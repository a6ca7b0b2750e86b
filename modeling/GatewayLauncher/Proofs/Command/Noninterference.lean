import GatewayLauncher.Proofs.Command.Gateway
import GatewayLauncher.Proofs.FileTree.Outline
import GatewayLauncher.Proofs.Settings.Loading

namespace GatewayLauncher

def Outcome.withoutReports (o : Outcome) : Outcome := { o with stderr := "" }

theorem Outcome.eq_of_withoutReports {o o' : Outcome} (h : o'.withoutReports = o.withoutReports) :
    o'.ending = o.ending ∧ o'.stdout = o.stdout ∧ o'.calls = o.calls := by
  simp only [withoutReports, mk.injEq] at h
  obtain ⟨hs, -, hc, he⟩ := h
  exact ⟨he, hs, hc⟩

/-- Two trees that differ at most in the journal's section of an installation's document: they are
    the same, or they have the same files in the same places, and both documents can be read and give
    the launcher's section the same value. -/
def FileTree.SameButJournal (root : Path) (t u : FileTree) : Prop :=
  u = t ∨ u.outline = t.outline ∧ ∃ document other, Settings.Holds t root document ∧
    Settings.Holds u root other ∧ other.get? "launcher" = document.get? "launcher"

theorem Settings.withoutLevel_loadNoted_congr {root : Path} {t u : FileTree}
    (h : FileTree.SameButJournal root t u) (value other : Option String) :
    (loadNoted u root other).map (fun r => r.1.withoutLevel) =
      (loadNoted t root value).map fun r => r.1.withoutLevel := by
  rw [withoutLevel_loadNoted u, withoutLevel_loadNoted t]
  obtain rfl | ⟨-, document, document', hd, hd', hl⟩ := h
  · rfl
  · rw [withoutLevel_loadNoted_of_holds hd, withoutLevel_loadNoted_of_holds hd',
      applyLauncher_congr hl]

namespace Gateway

theorem runWith_withoutLevel (x : Setting) (s : Settings) :
    runWith x s.withoutLevel = runWith x s := rfl

/-- From the settings on, the tree is looked at for the gateway only. -/
theorem runWith_congr {x : Setting} {tree : FileTree} (h : tree.outline = x.tree.outline)
    (level : Option String) (s : Settings) : runWith { x with tree, level } s = runWith x s := by
  have hf (selection : Selection) : follow { x with tree, level } s selection =
      follow x s selection := by
    cases selection with
    | resolved name => exact launch_congr h name x.args s.delegateDir s.bannerLine? x.course
    | unsupported reason guidance => rfl
    | incompatible current required => rfl
  simp only [runWith, hf]

theorem withoutReports_run (x : Setting) : (run x).withoutReports =
    match (Settings.loadNoted x.tree x.root x.level).map fun r => r.1.withoutLevel with
    | .error f => { ending := .fault f }
    | .ok s => (runWith x s).outcome.withoutReports := by
  cases hl : Settings.load x.tree x.root x.level with
  | error f =>
    rw [Settings.loadNoted_of_load_error hl]
    simp only [run, hl]
    rfl
  | ok r =>
    obtain ⟨s, notices⟩ := r
    rw [Settings.loadNoted_of_load hl]
    cases hn : notices.any Notice.isTooDeep with
    | true =>
      simp only [run, hl, hn, if_true]
      rfl
    | false =>
      obtain ⟨early, hr⟩ := run_of_loads ⟨notices, hl, hn⟩
      rw [hr]
      exact congrArg (fun r => r.outcome.withoutReports) (runWith_withoutLevel x s).symm

/-- Neither the variable for the level nor the journal's section of the document has a part in how a
    run ends, in what it writes to the standard output or in what it does to the gateway. -/
theorem start_unaffected_by_journal (x : Setting) {tree : FileTree}
    (h : FileTree.SameButJournal x.root x.tree tree) (level : Option String)
    (given : Option (List String)) (words : List String) :
    let o := start x given words
    let o' := start { x with tree, level } given words
    o'.ending = o.ending ∧ o'.stdout = o.stdout ∧ o'.calls = o.calls := by
  intro o o'
  have hs := Settings.withoutLevel_loadNoted_congr h x.level level
  have ho : tree.outline = x.tree.outline := by
    obtain rfl | ⟨ho, -⟩ := h
    · rfl
    · exact ho
  apply Outcome.eq_of_withoutReports
  let y : Setting := { x with args := forwarded given words }
  have hy (s : Settings) : runWith { y with tree, level } s = runWith y s :=
    runWith_congr (x := y) ho level s
  calc o'.withoutReports
    _ = (run { y with tree, level }).withoutReports := rfl
    _ = (run y).withoutReports := by
        rw [withoutReports_run, withoutReports_run]
        simp only [hy, hs, y]
    _ = o.withoutReports := rfl

def debugDocument : List Char :=
  "[logging]\nlevel = \"debug\"\n[launcher]\nshow_banner = false\n".toList

def quietDocument : List Char := "launcher.show_banner = false\nlogging = 3\n".toList

/-- The launcher's section of a document, where it is a table with one switch. -/
def onlySwitch? (es : Toml.Entries) : Option (String × Bool) :=
  match es.get? "launcher" with
  | some (.table [(name, .boolean b)]) => some (name, b)
  | _ => none

theorem get?_of_onlySwitch? {es : Toml.Entries} {name : String} {b : Bool}
    (h : onlySwitch? es = some (name, b)) :
    es.get? "launcher" = some (.table [(name, .boolean b)]) := by
  rw [onlySwitch?] at h
  split at h
  · rename_i hg
    obtain ⟨rfl, rfl⟩ := Prod.mk.inj (Option.some.inj h)
    exact hg
  · cases h

theorem exists_holds_installed {s : List Char} {p : String × Bool} (hr : '\r' ∉ s)
    (h : (Toml.lines (s.length + 1) {} s).toOption.map onlySwitch? = some (some p)) :
    ∃ document, Settings.Holds (installed (.ofString (String.ofList s))).tree ⟨"", ["pkg"]⟩
        document ∧
      document.get? "launcher" = some (.table [(p.1, .boolean p.2)]) := by
  obtain ⟨document, hd, hs⟩ := Toml.exists_readBytes_toUTF8 hr h
  refine ⟨document, ⟨_, false, rfl, ?_⟩, get?_of_onlySwitch? hs⟩
  rw [Content.toBytes_trimmed_ofString]
  exact hd

theorem sameButJournal_installed : FileTree.SameButJournal ⟨"", ["pkg"]⟩
    (installed (.ofString (String.ofList debugDocument))).tree
    (installed (.ofString (String.ofList quietDocument))).tree := by
  have ho (c c' : Content) : (installed c').tree.outline = (installed c).tree.outline := rfl
  obtain ⟨document, hd, hg⟩ := exists_holds_installed (s := debugDocument)
    (p := ("show_banner", false)) (by decide) (by decide +kernel)
  obtain ⟨other, hd', hg'⟩ := exists_holds_installed (s := quietDocument)
    (p := ("show_banner", false)) (by decide) (by decide +kernel)
  exact .inr ⟨ho _ _, document, other, hd, hd', hg'.trans hg.symm⟩

/-- One run reports all that there is to report, and the other warns of a level that is none. -/
theorem start_with_other_journal :
    let x := installed (.ofString (String.ofList debugDocument))
    let tree := (installed (.ofString (String.ofList quietDocument))).tree
    let o := start x none ["ai-gateway", "-v"]
    let o' := start { x with tree, level := some "loud" } none ["ai-gateway", "-v"]
    o'.ending = o.ending ∧ o'.stdout = o.stdout ∧ o'.calls = o.calls :=
  start_unaffected_by_journal (installed (.ofString (String.ofList debugDocument)))
    sameButJournal_installed (some "loud") none ["ai-gateway", "-v"]

end Gateway

end GatewayLauncher

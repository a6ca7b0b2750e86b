import GatewayLauncher.Proofs.Command.BumpSequence
import GatewayLauncher.Proofs.Toml.Exchange

namespace GatewayLauncher.BumpVersion

variable {t : FileTree} {content : Content} {es : Toml.Entries} {x : String} {v : Version}

/-- The literal that is found in the file is written for the project's version, without escapes. -/
def FoundInPlace (content : Content) : Prop :=
  ∃ cut : Manifest.Cut, textOf content = .ok cut.text ∧
    Manifest.projectVersion? cut.text = some cut ∧
    Toml.WrittenAt ["project", "version"] cut.text cut.literal cut.behind ∧ '\\' ∉ cut.literal

theorem gives_of_readBytes {text : List Char} (hd : Toml.readBytes content.toBytes = .ok es)
    (ht : textOf content = .ok text) : content.padding = 0 ∧ Toml.Gives {} text es := by
  obtain ⟨hp, s, hb, hr, hg⟩ := Toml.exists_text_of_readBytes hd
  rw [textOf, hb, Toml.fromUTF8?_toUTF8] at ht
  obtain rfl := Except.ok.inj ht
  rw [String.toList_ofList, Text.unifyLineEnds_eq_joinLineEnds hr]
  exact ⟨hp, hg⟩

theorem toBytes_withText {text : List Char} (h : content.padding = 0) :
    (withText content text).toBytes = (String.ofList text).toUTF8 := by
  rw [Content.toBytes, withText, h]
  exact ByteArray.append_empty

theorem toNat_of_isIdLetter {c : Char} (h : Version.IsIdLetter c) :
    c.toNat = 45 ∨ (48 ≤ c.toNat ∧ c.toNat ≤ 57) ∨ (65 ≤ c.toNat ∧ c.toNat ≤ 90) ∨
      (97 ≤ c.toNat ∧ c.toNat ≤ 122) ∨ 128 ≤ c.toNat := by
  rcases h with h | h
  · by_cases hc : c.toNat < 128
    · exact .inr (.inl (Text.ascii_of_isDigit h hc))
    · omega
  · rw [Version.isWordChar, Char.isAlphanum, Bool.or_eq_true, Bool.or_eq_true, beq_iff_eq] at h
    rcases h with (h | h) | rfl
    · exact .inr (.inr (or_assoc.mp (.inl (Version.toNat_of_isAlpha h))))
    · exact .inr (.inl (Char.isDigit_iff_toNat.mp h))
    · exact .inl rfl

theorem isPlain_letters (hv : v.WellFormed) : ∀ c ∈ v.letters, Toml.IsPlain c := by
  intro c hc
  rcases hv.mem_letters hc with hm | hl
  · simp only [List.mem_cons, List.not_mem_nil, or_false] at hm
    obtain rfl | rfl | rfl := hm <;> decide
  · have hn := toNat_of_isIdLetter hl
    refine ⟨?_, ?_, ?_⟩
    · have h1 : ¬c.toNat < 32 := by omega
      have h2 : c.toNat ≠ 127 := by omega
      simp [Toml.allowed, Toml.isControl, h1, h2]
    · rintro rfl
      exact absurd hn (by decide)
    · rintro rfl
      exact absurd hn (by decide)

/-- The literal that is found in place is the project's version, and any other version that is
    written there is the project's version afterwards. -/
theorem document_of_foundInPlace (hd : Toml.readBytes content.toBytes = .ok es)
    (hx : es.at? ["project"] "version" = some (.text x)) (hf : FoundInPlace content) :
    ∃ cut : Manifest.Cut, textOf content = .ok cut.text ∧
      Manifest.projectVersion? cut.text = some cut ∧ x = String.ofList cut.literal ∧
      ∀ w : Version, w.WellFormed → Toml.readBytes (rewritten content cut w).toBytes =
        .ok (es.replace ["project"] "version" (.text (String.ofList w.letters))) := by
  obtain ⟨cut, ht, hc, hw, hb⟩ := hf
  obtain ⟨hp, hg⟩ := gives_of_readBytes hd ht
  obtain ⟨hn, hq⟩ : Manifest.IsLiteral cut.literal :=
    (Manifest.assignmentBehind?_replace (l := ['0']) (by decide) (by decide)
      ⟨by decide, by decide⟩ hc).1
  have hl : ∀ c ∈ cut.literal, c ≠ '"' ∧ c ≠ '\\' := fun c hc =>
    ⟨fun e => hq (e ▸ hc), fun e => hb (e ▸ hc)⟩
  obtain ⟨rfl, front, htext, hother⟩ := hg.exchange hx hw hn hl
  obtain rfl : cut.before = front := by
    have h : cut.before ++ '"' :: (cut.literal ++ '"' :: cut.behind) =
        front ++ '"' :: (cut.literal ++ '"' :: cut.behind) := by
      rw [← htext, Manifest.Cut.text]
      simp
    exact List.append_cancel_right h
  refine ⟨cut, ht, hc, rfl, fun w hwf => ?_⟩
  have hgives := hother w.letters w.letters_ne_nil (isPlain_letters hwf)
  rw [rewritten, toBytes_withText hp]
  refine Toml.readBytes_of_gives ?_
  have htext' : (cut.replace w.letters).text =
      cut.before ++ '"' :: (w.letters ++ '"' :: cut.behind) := by
    simp [Manifest.Cut.text, Manifest.Cut.replace]
  rw [htext']
  exact hgives

theorem asks_of_returned {args : List String} (h : (run t args).2.ending = .returned) :
    ∃ part, Asks args part := by
  cases hr : grammar.read args with
  | error stop => cases stop <;> simp [run, hr] at h
  | ok taken =>
    cases ho : taken.operand.bind (parts.lookup ·) with
    | none => simp [run, hr, ho] at h
    | some part => exact ⟨part, taken, hr, ho⟩

theorem Asks.unique {args : List String} {part other : VersionPart} (h : Asks args part)
    (h' : Asks args other) : part = other := by
  obtain ⟨taken, hr, ho⟩ := h
  obtain ⟨taken', hr', ho'⟩ := h'
  obtain rfl := Except.ok.inj (hr.symm.trans hr')
  exact Option.some.inj (ho.symm.trans ho')

/-- Other tables, comments and strings stand around the project's version. -/
def crowdedProject : String :=
  "[tool.other]\nversion = \"9.9.9\" # [tool]\n[project]\nname = 'version'\n" ++
    "version = \"0.1.0\"\nurls = {}\n"

def crowdedCut : Manifest.Cut :=
  ⟨"[tool.other]\nversion = \"9.9.9\" # [tool]\n[project]\nname = 'version'\nversion = ".toList,
    "0.1.0".toList, "\nurls = {}\n".toList⟩

/-- The project's version is in single quotes, where it is not looked for. -/
def literalProject : String :=
  "[project]\nversion = '0.1.0'\n[tool.other]\nversion = \"9.9.9\"\n"

def literalCut : Manifest.Cut :=
  ⟨"[project]\nversion = '0.1.0'\n[tool.other]\nversion = ".toList, "9.9.9".toList, ['\n']⟩

theorem recordsAt_ofString {main package : String} {cut : Manifest.Cut} (hr : '\r' ∉ main.toList)
    (ht : main.toList = cut.text) (hf : Manifest.projectVersion? cut.text = some cut) :
    RecordsAt (project main package) projectFile Manifest.projectVersion? (.ofString main) cut where
  openFile := rfl
  text := ht ▸ textOf_ofString hr
  find := hf

theorem recordsAt_crowdedProject (package : String) : RecordsAt (project crowdedProject package)
    projectFile Manifest.projectVersion? (.ofString crowdedProject) crowdedCut :=
  recordsAt_ofString (by decide +kernel) (by decide +kernel) (by decide +kernel)

theorem recordsAt_literalProject (package : String) : RecordsAt (project literalProject package)
    projectFile Manifest.projectVersion? (.ofString literalProject) literalCut :=
  recordsAt_ofString (by decide +kernel) (by decide +kernel) (by decide +kernel)

theorem foundInPlace_crowdedProject : FoundInPlace (.ofString crowdedProject) := by
  have hr := recordsAt_crowdedProject ""
  refine ⟨crowdedCut, hr.text, hr.find, ?_, by decide +kernel⟩
  have hl : (Toml.afterLines? 4 {} crowdedCut.text).map (fun r => (r.1.header, r.2)) =
      some (["project"], "version = \"0.1.0\"\nurls = {}\n".toList) := by decide +kernel
  obtain ⟨⟨p, s⟩, hp, he⟩ := Option.map_eq_some_iff.mp hl
  obtain ⟨hh, rfl⟩ := Prod.mk.inj he
  exact ⟨p, _, ⟨[], "version"⟩, Toml.leads_of_afterLines? hp, rfl, by rw [hh]; rfl⟩

theorem toBytes_ofString (s : String) :
    (Content.ofString s).toBytes = (String.ofList s.toList).toUTF8 := by
  rw [String.ofList_toList]
  exact ByteArray.append_empty

/-- Where the version is found in its place, the one that is read is that of the document, and a run
    that returns leaves a document with the next version and no other change. -/
theorem bump_moves_project_version (ho : t.openFile projectFile = .ok content)
    (hd : Toml.readBytes content.toBytes = .ok es)
    (hx : es.textAt? ["project"] "version" = some x) (hv : Version.parse .full x = .ok v)
    (hf : FoundInPlace content) : currentVersion t = .ok v ∧
      ∀ args, (run t args).2.ending = .returned → ∃ part w written content', Asks args part ∧
        v.next part = .ok w ∧ w.render = .ok written ∧
        (run t args).1.openFile projectFile = .ok content' ∧
        Toml.readBytes content'.toBytes =
          .ok (es.replace ["project"] "version" (.text written)) := by
  obtain ⟨cut, ht, hc, rfl, hw⟩ := document_of_foundInPlace hd
    (Toml.Entries.textAt?_eq_some_iff.mp hx) hf
  have hr : RecordsAt t projectFile Manifest.projectVersion? content cut := ⟨ho, ht, hc⟩
  have hcur : currentVersion t = .ok v := currentVersion_eq_ok_iff.mpr ⟨content, cut, hr, hv⟩
  refine ⟨hcur, fun args h => ?_⟩
  obtain ⟨part, ha⟩ := asks_of_returned h
  rw [run_of_asks ha] at h ⊢
  obtain ⟨b, u, w, hu, hn, hwr, hfill⟩ := Places.exists_fill_of_returned h
  obtain rfl : v = u := Except.ok.inj (hcur.symm.trans hu)
  -- There is only one place in the project file.
  have hp : b.project = content := Except.ok.inj (b.inProject.openFile.symm.trans ho)
  have hcut : b.projectCut = cut := by
    have hb := b.inProject.text
    rw [hp, ht] at hb
    have hfind := b.inProject.find
    rw [← Except.ok.inj hb, hc] at hfind
    exact (Option.some.inj hfind).symm
  have hwf : w.WellFormed := (writable_of_currentVersion hcur).1.next hn
  have hopen := (b.inProject_fill hwf).openFile
  rw [hp, hcut] at hopen
  refine ⟨part, w, _, rewritten content cut w, ha, hn, Version.render_of_writable hwr, ?_, hw w hwf⟩
  rw [hfill]
  exact hopen

def startedPlaces {main : String} {cut : Manifest.Cut} (h : RecordsAt (project main startedPackage)
    projectFile Manifest.projectVersion? (.ofString main) cut) :
    Places (project main startedPackage) where
  project := .ofString main
  projectCut := cut
  package := .ofString startedPackage
  packageCut := ⟨"__version__ = ".toList, "0.1.0".toList, ['\n']⟩
  inProject := h
  inPackage := ⟨rfl, textOf_ofString (by decide), by decide⟩

theorem bump_moves_project_version_crowdedProject :
    (run (project crowdedProject startedPackage) ["patch"]).2.ending = .returned ∧
    ∃ es content', Toml.readBytes (Content.ofString crowdedProject).toBytes = .ok es ∧
      es.textAt? ["project"] "version" = some "0.1.0" ∧ FoundInPlace (.ofString crowdedProject) ∧
      (run (project crowdedProject startedPackage) ["patch"]).1.openFile projectFile =
        .ok content' ∧
      Toml.readBytes content'.toBytes =
        .ok (es.replace ["project"] "version" (.text "0.1.1")) := by
  have hr := recordsAt_crowdedProject startedPackage
  have hc : currentVersion (project crowdedProject startedPackage) =
      .ok { major := 0, minor := 1, patch := 0 } := currentVersion_eq_ok_iff.mpr ⟨_, _, hr, rfl⟩
  have hn : Version.next { major := 0, minor := 1, patch := 0 } .patch =
      .ok { major := 0, minor := 1, patch := 1 } := rfl
  obtain ⟨text, hrun⟩ := (startedPlaces hr).run_eq_fill hc hn writable_next_plainProject
  have hret : (run (project crowdedProject startedPackage) ["patch"]).2.ending = .returned :=
    congrArg (fun r => r.2.ending) hrun
  obtain ⟨es, hd, hx⟩ : ∃ es, Toml.readBytes (Content.ofString crowdedProject).toBytes = .ok es ∧
      es.textAt? ["project"] "version" = some "0.1.0" := by
    rw [toBytes_ofString]
    exact Toml.exists_readBytes_toUTF8 (by decide +kernel) (by decide +kernel)
  have hv : Version.parse .full "0.1.0" = .ok { major := 0, minor := 1, patch := 0 } := rfl
  obtain ⟨-, hb⟩ :=
    bump_moves_project_version hr.openFile hd hx hv foundInPlace_crowdedProject
  obtain ⟨part, w, written, content', ha, hn', hw, ho, hes⟩ := hb ["patch"] hret
  obtain rfl := ha.unique (asks_part .patch)
  obtain rfl := Except.ok.inj (hn.symm.trans hn')
  have hwritten : Version.render { major := 0, minor := 1, patch := 1 } = .ok "0.1.1" := rfl
  obtain rfl := Except.ok.inj (hwritten.symm.trans hw)
  exact ⟨hret, es, content', hd, hx, foundInPlace_crowdedProject, ho, hes⟩

def versions (es : Toml.Entries) : Option String × Option String :=
  (es.textAt? ["project"] "version", es.textAt? ["tool", "other"] "version")

/-- The version of another table is read, and it is written in place of the project's. -/
theorem bump_moves_other_version :
    (∃ es, Toml.readBytes (Content.ofString literalProject).toBytes = .ok es ∧
      versions es = (some "0.1.0", some "9.9.9")) ∧
    Version.parse .full "0.1.0" = .ok { major := 0, minor := 1, patch := 0 } ∧
    currentVersion (project literalProject startedPackage) =
      .ok { major := 9, minor := 9, patch := 9 } ∧
    (run (project literalProject startedPackage) ["patch"]).2.ending = .returned ∧
    ∃ content' es, (run (project literalProject startedPackage) ["patch"]).1.openFile projectFile =
        .ok content' ∧
      Toml.readBytes content'.toBytes = .ok es ∧ versions es = (some "0.1.0", some "9.9.10") := by
  have hr := recordsAt_literalProject startedPackage
  have hc : currentVersion (project literalProject startedPackage) =
      .ok { major := 9, minor := 9, patch := 9 } := currentVersion_eq_ok_iff.mpr ⟨_, _, hr, rfl⟩
  let next : Version := { major := 9, minor := 9, patch := 10 }
  have hn : Version.next { major := 9, minor := 9, patch := 9 } .patch = .ok next := rfl
  have hw : next.Writable := Version.writable_of_le (by decide) (by decide) (by decide)
  obtain ⟨text, hrun⟩ := (startedPlaces hr).run_eq_fill hc hn hw
  have hrun' : run (project literalProject startedPackage) ["patch"] = _ := hrun
  have hf : next.WellFormed := (writable_of_currentVersion hc).1.next hn
  have ho := ((startedPlaces hr).inProject_fill hf).openFile
  rw [hrun', toBytes_ofString]
  obtain ⟨es, hd, hx⟩ := Toml.exists_readBytes_toUTF8 (s := (literalCut.replace next.letters).text)
    (f := versions) (a := (some "0.1.0", some "9.9.10")) (by decide +kernel) (by decide +kernel)
  have hp : (Content.ofString literalProject).padding = 0 := rfl
  rw [← toBytes_withText hp] at hd
  refine ⟨?_, rfl, hc, rfl, _, es, ho, hd, hx⟩
  exact Toml.exists_readBytes_toUTF8 (by decide +kernel) (by decide +kernel)

end GatewayLauncher.BumpVersion

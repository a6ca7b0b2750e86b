import GatewayLauncher.Proofs.Settings

namespace GatewayLauncher.Settings

/-- The loading with what becomes of its notices: one that is nested too deeply ends it. -/
def loadNoted (t : FileTree) (root : Path) (value : Option String) :
    Except Fault (Settings × List Notice) := do
  let r ← load t root value
  if r.2.any Notice.isTooDeep then .error .tooDeepToNote else return r

/-- The file of an installation holds the document. -/
def Holds (t : FileTree) (root : Path) (document : Toml.Entries) : Prop :=
  ∃ content executable, t.find (root.child fileName) = .ok (.file content executable) ∧
    Toml.readBytes content.trimmed.toBytes = .ok document

def withoutLevel (s : Settings) : Settings := { s with level := .warning }

variable {s : Settings} {t : FileTree} {root : Path}

theorem holds_of_lines {text : List Char} {executable : Bool} {document : Toml.Entries}
    (hf : t.find (root.child fileName) =
      .ok (.file (.ofString (String.ofList text)) executable))
    (hr : '\r' ∉ text) (hd : Toml.lines (text.length + 1) {} text = .ok document) :
    Holds t root document := by
  refine ⟨_, executable, hf, ?_⟩
  rw [Content.toBytes_trimmed_ofString, Toml.readBytes_toUTF8 hr]
  exact hd

/-- What concerns the journal alone: the level is set, and what is noted can be noted. -/
structure OnlyLevel (s : Settings) (r : Settings × List Notice) : Prop where
  settings : r.1.withoutLevel = s.withoutLevel
  notable : r.2.any Notice.isTooDeep = false

theorem onlyLevel_refl (s : Settings) : OnlyLevel s (s, []) := ⟨rfl, rfl⟩

theorem onlyLevel_applyLevel (word origin : String) (s : Settings) :
    OnlyLevel s (applyLevel word origin s) := by
  rw [applyLevel]
  split
  · exact ⟨rfl, rfl⟩
  · exact ⟨rfl, by simp [warning, Notice.isTooDeep]⟩

theorem onlyLevel_applyLogging (document : Toml.Entries) (s : Settings) :
    OnlyLevel s (applyLogging document s) := by
  rw [applyLogging]
  split
  · exact onlyLevel_applyLevel _ _ s
  · exact onlyLevel_refl s

theorem onlyLevel_applyVariable (value : Option String) (s : Settings) :
    OnlyLevel s (applyVariable value s) := by
  cases value with
  | none => exact onlyLevel_refl s
  | some word =>
    rw [applyVariable]
    split
    · exact onlyLevel_refl s
    · exact onlyLevel_applyLevel _ _ s

theorem load_eq_map (t : FileTree) (root : Path) (value : Option String) :
    load t root value = (load t root none).map fun r =>
      ((applyVariable value r.1).1, r.2 ++ (applyVariable value r.1).2) := by
  have hn (s : Settings) : applyVariable none s = (s, []) := rfl
  simp only [load, bind, Except.bind, pure, Except.pure, hn, List.append_nil]
  cases findFile t root with
  | error e => rfl
  | ok found =>
    cases found with
    | none => rfl
    | some p =>
      simp only [mapError_ok]
      cases readDocument t p <;> rfl

theorem loadNoted_of_load {r : Settings × List Notice} {value : Option String}
    (h : load t root value = .ok r) : loadNoted t root value =
      if r.2.any Notice.isTooDeep then .error .tooDeepToNote else .ok r := by
  rw [loadNoted, h]
  rfl

theorem loadNoted_of_load_error {f : Fault} {value : Option String}
    (h : load t root value = .error f) : loadNoted t root value = .error f := by
  rw [loadNoted, h]
  rfl

theorem withoutLevel_loadNoted (t : FileTree) (root : Path) (value : Option String) :
    (loadNoted t root value).map (fun r => r.1.withoutLevel) =
      (loadNoted t root none).map fun r => r.1.withoutLevel := by
  have hv := load_eq_map t root value
  cases hl : load t root none with
  | error f =>
    rw [hl] at hv
    rw [loadNoted_of_load_error hl, loadNoted_of_load_error hv]
  | ok r =>
    rw [hl] at hv
    obtain ⟨hs, hn⟩ := onlyLevel_applyVariable value r.1
    rw [loadNoted_of_load hl, loadNoted_of_load hv, List.any_append, hn, Bool.or_false]
    split
    · rfl
    · exact congrArg Except.ok hs

/-- The level aside, what is loaded from a document depends on the launcher's section alone. -/
theorem withoutLevel_loadNoted_of_holds {document : Toml.Entries} (h : Holds t root document) :
    let r := applyLauncher document { installRoot := root }
    (loadNoted t root none).map (fun r => r.1.withoutLevel) =
      if r.2.any Notice.isTooDeep then .error .tooDeepToNote else .ok r.1.withoutLevel := by
  intro r
  obtain ⟨content, executable, hf, hd⟩ := h
  obtain ⟨hs, hn⟩ := onlyLevel_applyLogging document r.1
  have hl : load t root none =
      .ok ((applyLogging document r.1).1, r.2 ++ (applyLogging document r.1).2) :=
    load_of_document hf hd
  rw [loadNoted_of_load hl, List.any_append, hn, Bool.or_false]
  split
  · rfl
  · exact congrArg Except.ok hs

theorem applyLauncher_congr {document other : Toml.Entries}
    (h : other.get? "launcher" = document.get? "launcher") (s : Settings) :
    applyLauncher other s = applyLauncher document s := by
  simp only [applyLauncher, section?, h]

end GatewayLauncher.Settings

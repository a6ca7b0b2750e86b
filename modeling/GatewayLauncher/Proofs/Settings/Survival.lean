import GatewayLauncher.Proofs.Settings.Loading
import GatewayLauncher.Proofs.Toml.Limits

namespace GatewayLauncher.Settings

variable {s : Settings} {t : FileTree} {root : Path} {bytes : ByteArray} {executable : Bool}

def saysUnreadable (n : Notice) : Bool :=
  match n.text with
  | .text text => "Ignoring unreadable ".toList.isPrefixOf text.toList
  | .nothing _ => false

def minimum? (document : Toml.Entries) : Option Toml.Value :=
  (section? "launcher" document).bind (·.get? "min_runtime_version")

/-- Neither are the bytes read nor are they found to be malformed, or the minimum that they give is
    nested too deeply to be reported. -/
def Stumbles (bytes : ByteArray) : Prop :=
  (∃ e, Toml.readBytes bytes = .error e ∧ e ≠ .malformed) ∨
  ∃ document v, Toml.readBytes bytes = .ok document ∧ minimum? document = some v ∧
    v.write = .error .tooDeep

theorem applyVariable_fst (value : Option String) (s : Settings) :
    (applyVariable value s).1 = { s with level := (value.bind severityNamed?).getD s.level } := by
  cases value with
  | none => rfl
  | some word =>
    rw [applyVariable]
    split
    · rename_i h
      subst h
      rfl
    · rw [applyLevel, Option.bind_some]
      split <;> rename_i h <;> rw [h] <;> rfl

theorem not_saysUnreadable_applyVariable (value : Option String) (s : Settings) :
    (applyVariable value s).2.filter saysUnreadable = [] := by
  have hl (word origin : String) : (applyLevel word origin s).2.filter saysUnreadable = [] := by
    rw [applyLevel]
    split
    · rfl
    · simp [warning, saysUnreadable, toString]
  cases value with
  | none => rfl
  | some word =>
    rw [applyVariable]
    split
    · rfl
    · exact hl word levelVariable

theorem saysUnreadable_unreadable (p : Path) : saysUnreadable (unreadable p) = true := by
  simp only [unreadable, warning, saysUnreadable, List.isPrefixOf_iff_prefix, toString,
    String.toList_append, List.append_assoc]
  exact List.prefix_append _ _

theorem load_of_error {content : Content} {e : Toml.ReadError}
    (hf : t.find (root.child fileName) = .ok (.file content executable))
    (he : Toml.readBytes content.trimmed.toBytes = .error e) :
    load t root none =
      if e = .malformed then .ok ({ installRoot := root }, [unreadable (root.child fileName)])
      else .error (.settings e) := by
  have hw := findFile_of_find hf
  have ho := FileTree.openFile_of_find hf
  have hr : readDocument t (root.child fileName) =
      if e = .malformed then .ok ([], [unreadable (root.child fileName)]) else .error e := by
    rw [readDocument, ho]
    simp only [he]
    cases e <;> rfl
  simp only [load, hw, hr, mapError_ok, bind, Except.bind]
  cases e <;> rfl

theorem isTooDeep_ignoredMinimum (s : Settings) (v : Toml.Value) :
    (ignoredMinimum s v).isTooDeep = true ↔ v.write = .error .tooDeep := by
  have hw (x : Except Text.Unwritable String) :
      (warning (.ofExcept x)).isTooDeep = true ↔ x = .error .tooDeep := by
    cases x <;> simp [warning, Text.Written.ofExcept, Notice.isTooDeep]
  rw [ignoredMinimum, hw]
  cases v.write with
  | error why => simp [bind, Except.bind]
  | ok given =>
    cases s.minimum.render <;>
      simp [mapError_ok, mapError_error, bind, Except.bind, pure, Except.pure]

theorem write_text (given : String) : (Toml.Value.text given).write = .ok (Text.quoted given) := rfl

theorem any_isTooDeep_applyMinimum (es : Toml.Entries) (s : Settings) :
    (applyMinimum es s).2.any Notice.isTooDeep = true ↔
      ∃ v, es.get? "min_runtime_version" = some v ∧ v.write = .error .tooDeep := by
  rw [applyMinimum]
  split
  · rename_i h
    simp [h]
  · rename_i given h
    split <;> simp [h, isTooDeep_ignoredMinimum, write_text]
  · rename_i h
    simp [h, isTooDeep_ignoredMinimum]

theorem any_isTooDeep_applyDocument (document : Toml.Entries) (s : Settings) :
    (applyDocument document s).2.any Notice.isTooDeep = true ↔
      ∃ v, minimum? document = some v ∧ v.write = .error .tooDeep := by
  have hl := (onlyLevel_applyLogging document (applyLauncher document s).1).notable
  have ha : (applyDocument document s).2.any Notice.isTooDeep =
      (applyLauncher document s).2.any Notice.isTooDeep := by
    simp only [applyDocument, List.any_append, hl, Bool.or_false]
  rw [ha, applyLauncher, minimum?]
  cases section? "launcher" document with
  | none => simp
  | some es => exact any_isTooDeep_applyMinimum es s

theorem loadNoted_ok_iff (t : FileTree) (root : Path) (value : Option String) :
    (∃ r, loadNoted t root value = .ok r) ↔
      ∃ r, load t root none = .ok r ∧ ¬r.2.any Notice.isTooDeep = true := by
  have hv := load_eq_map t root value
  cases hl : load t root none with
  | error f =>
    rw [hl] at hv
    simp [loadNoted_of_load_error hv]
  | ok r =>
    rw [hl] at hv
    rw [loadNoted_of_load hv, List.any_append, (onlyLevel_applyVariable value r.1).notable,
      Bool.or_false]
    simp only [Except.ok.injEq, exists_eq_left']
    cases r.2.any Notice.isTooDeep <;> simp

theorem loadNoted_of_malformed
    (hf : t.find (root.child fileName) = .ok (.file { bytes } executable))
    (hm : Toml.readBytes bytes = .error .malformed) (value : Option String) :
    loadNoted t root value = .ok ((applyVariable value { installRoot := root }).1,
      unreadable (root.child fileName) :: (applyVariable value { installRoot := root }).2) := by
  have hl := load_of_error hf ((congrArg Toml.readBytes (Content.toBytes_trimmed bytes)).trans hm)
  have hv := load_eq_map t root value
  have hu : (unreadable (root.child fileName)).isTooDeep = false := by
    simp [unreadable, warning, Notice.isTooDeep]
  rw [hl] at hv
  rw [loadNoted_of_load hv]
  simp only [List.singleton_append, List.any_cons, hu, (onlyLevel_applyVariable _ _).notable]
  rfl

theorem loadNoted_ok_iff_not_stumbles
    (hf : t.find (root.child fileName) = .ok (.file { bytes } executable))
    (value : Option String) : (∃ r, loadNoted t root value = .ok r) ↔ ¬Stumbles bytes := by
  have hb : Toml.readBytes (Content.trimmed { bytes }).toBytes = Toml.readBytes bytes :=
    congrArg Toml.readBytes (Content.toBytes_trimmed bytes)
  rw [loadNoted_ok_iff, Stumbles]
  cases hr : Toml.readBytes bytes with
  | ok document =>
    rw [load_of_document hf (hb.trans hr)]
    simp only [Except.ok.injEq, exists_eq_left', any_isTooDeep_applyDocument]
    simp
  | error e =>
    rw [load_of_error hf (hb.trans hr)]
    cases e <;> simp [unreadable, warning, Notice.isTooDeep]

/-- Whatever bytes are the document and whatever the variable says: the loading survives all that it
    does not stumble over. A malformed document leaves the defaults with the level of the variable,
    and one notice says that it is ignored. -/
theorem loading_survives (hf : t.find (root.child fileName) = .ok (.file { bytes } executable))
    (value : Option String) :
    ((∃ r, loadNoted t root value = .ok r) ↔ ¬Stumbles bytes) ∧
    (Toml.readBytes bytes = .error .malformed → ∃ notices,
      loadNoted t root value = .ok
        ({ installRoot := root, level := (value.bind severityNamed?).getD .warning }, notices) ∧
      notices.filter saysUnreadable = [unreadable (root.child fileName)]) ∧
    ∀ text, String.fromUTF8? bytes = some text → ¬Toml.HasOverlongRun text.toList →
      3 * Toml.openings text.toList < Toml.nestingRoom →
      ∀ e, Toml.readBytes bytes = .error e → e = .malformed := by
  refine ⟨loadNoted_ok_iff_not_stumbles hf value, fun hm => ?_, fun text ht hr ho e he => ?_⟩
  · have hl := loadNoted_of_malformed hf hm value
    rw [applyVariable_fst] at hl
    refine ⟨_, hl, ?_⟩
    rw [List.filter_cons_of_pos (saysUnreadable_unreadable _), not_saysUnreadable_applyVariable]
  · obtain h | ⟨-, hn⟩ | ⟨text', ht', h⟩ := Toml.readBytes_cases he
    · exact h
    · cases ht.symm.trans hn
    · cases ht.symm.trans ht'
      obtain ⟨-, h⟩ | ⟨-, h⟩ := h
      · exact absurd h hr
      · exact absurd ho (Nat.not_lt_of_le h)

def packageRoot : Path := ⟨"", ["pkg"]⟩

def package (bytes : ByteArray) : FileTree where
  working := .directory [("pkg", .directory [(fileName, .file { bytes } false)])]

theorem find_package (bytes : ByteArray) :
    (package bytes).find (packageRoot.child fileName) = .ok (.file { bytes } false) := rfl

def unfinished : List Char := "[launcher".toList

theorem readBytes_unfinished :
    Toml.readBytes (String.ofList unfinished).toUTF8 = .error .malformed := by
  have hr : '\r' ∉ unfinished := by decide
  rw [Toml.readBytes_toUTF8 hr]
  rfl

theorem loading_survives_unfinished :
    let t := package (String.ofList unfinished).toUTF8
    ∃ notices, loadNoted t packageRoot (some " info") =
        .ok ({ installRoot := packageRoot, level := .info }, notices) ∧
      notices.filter saysUnreadable = [unreadable (packageRoot.child fileName)] := by
  have hl : ((some " info").bind severityNamed?).getD .warning = .info := rfl
  have hf := find_package (String.ofList unfinished).toUTF8
  have h := (loading_survives hf (some " info")).2.1 readBytes_unfinished
  rw [hl] at h
  exact h

/-- One byte that is no UTF-8 text ends a loading. -/
theorem loading_fails_on_no_text :
    ¬∀ (t : FileTree) (root : Path) (bytes : ByteArray) (executable : Bool) (value : Option String),
      t.find (root.child fileName) = .ok (.file { bytes } executable) →
      ∃ r, loadNoted t root value = .ok r := by
  intro h
  have hn : String.fromUTF8? ⟨#[0xff]⟩ = none := by decide
  have hb : Toml.readBytes ⟨#[0xff]⟩ = .error .notUtf8 := by
    rw [Toml.readBytes, hn]
  have hs := (loadNoted_ok_iff_not_stumbles (find_package ⟨#[0xff]⟩) none).mp
    (h _ packageRoot _ _ none (find_package ⟨#[0xff]⟩))
  exact hs (.inl ⟨.notUtf8, hb, by decide⟩)

end GatewayLauncher.Settings

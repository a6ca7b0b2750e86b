import GatewayLauncher.Proofs.Settings.Survival
import GatewayLauncher.Proofs.Toml.Nesting

namespace GatewayLauncher.Settings

variable {s : Settings} {t : FileTree} {root : Path} {document : Toml.Entries}

/-- The value of a key in one part of the document. A part that is no table has none. -/
def given? (document : Toml.Entries) (part name : String) : Option Toml.Value :=
  (section? part document).bind (·.get? name)

def versionIn? : Toml.Value → Option Version
  | .text word => (Version.parse .partialAllowed word).toOption
  | _ => none

def flagIn? : Toml.Value → Option Bool
  | .boolean flag => some flag
  | _ => none

def textIn? : Toml.Value → Option String
  | .text text => some text
  | _ => none

def levelWord? (document : Toml.Entries) : Option String :=
  (given? document "logging" "level").bind textIn?

/-- The settings that the keys of a document and the variable denote, each on its own. -/
def denoted (root : Path) (document : Toml.Entries) (value : Option String) : Settings where
  minimum := ((minimum? document).bind versionIn?).getD { major := 3, minor := 10, patch := 0 }
  showBanner := ((given? document "launcher" "show_banner").bind flagIn?).getD true
  banner := ((given? document "launcher" "banner").bind textIn?).getD "🚀 Starting AI Gateway..."
  level := ((value.bind severityNamed?).or ((levelWord? document).bind severityNamed?)).getD
    .warning
  installRoot := root

def refusedMinimum (v : Toml.Value) : Notice :=
  warning <| .ofExcept <|
    v.write.map fun given => s!"Invalid min_runtime_version {given}, using 3.10.0"

def unknownLevel (origin word : String) : Notice :=
  warning (.text s!"Unknown log level {Text.quoted word} from {origin}")

def unknownLevels (origin : String) (word : Option String) : List Notice :=
  (word.toList.filter fun w => (severityNamed? w).isNone).map (unknownLevel origin)

/-- One notice for each value that is refused. An empty variable is not refused. -/
def rejections (document : Toml.Entries) (value : Option String) : List Notice :=
  ((minimum? document).toList.filter fun v => (versionIn? v).isNone).map refusedMinimum ++
    unknownLevels fileName (levelWord? document) ++
    unknownLevels levelVariable (value.filter (· ≠ ""))

theorem severityNamed?_eq_some_iff {word : String} {level : Severity} :
    severityNamed? word = some level ↔
      Text.upper (Text.strip word.toList) = level.name.toList := by
  constructor
  · intro h
    have hl := List.find?_some h
    exact (of_decide_eq_true hl).symm
  · intro h
    simp only [severityNamed?, h]
    cases level <;> rfl

theorem mem_all (level : Severity) : level ∈ Severity.all := by
  cases level <;> decide

theorem applyLevel_eq (word origin : String) (s : Settings) :
    applyLevel word origin s = ({ s with level := (severityNamed? word).getD s.level },
      unknownLevels origin (some word)) := by
  rw [applyLevel]
  cases h : severityNamed? word <;> simp [unknownLevels, unknownLevel, h]

theorem applyLogging_eq (document : Toml.Entries) (s : Settings) :
    applyLogging document s =
      ({ s with level := ((levelWord? document).bind severityNamed?).getD s.level },
        unknownLevels fileName (levelWord? document)) := by
  rw [applyLogging, levelWord?, given?]
  cases (section? "logging" document).bind (·.get? "level") with
  | none => rfl
  | some v =>
    cases v with
    | text word => exact applyLevel_eq word fileName s
    | _ => rfl

theorem applyVariable_snd (value : Option String) (s : Settings) :
    (applyVariable value s).2 = unknownLevels levelVariable (value.filter (· ≠ "")) := by
  cases value with
  | none => rfl
  | some word =>
    rw [applyVariable]
    by_cases hw : word = ""
    · simp [hw, unknownLevels]
    · simp [hw, applyLevel_eq, Option.filter]

theorem ignoredMinimum_default (root : Path) (v : Toml.Value) :
    ignoredMinimum { installRoot := root } v = refusedMinimum v := by
  have hr : Selection.defaultMinimum.render = .ok "3.10.0" := rfl
  have ht : ", using " ++ "3.10.0" = ", using 3.10.0" := rfl
  rw [ignoredMinimum, refusedMinimum, hr]
  cases v.write with
  | error why => rfl
  | ok given =>
    simp only [mapError_ok, Except.map, bind, Except.bind, pure, Except.pure, toString,
      String.append_assoc, ht]

theorem applyMinimum_eq (es : Toml.Entries) (s : Settings) :
    applyMinimum es s =
      ({ s with minimum := ((es.get? "min_runtime_version").bind versionIn?).getD s.minimum },
        ((es.get? "min_runtime_version").toList.filter fun v => (versionIn? v).isNone).map
          (ignoredMinimum s)) := by
  rw [applyMinimum]
  cases es.get? "min_runtime_version" with
  | none => rfl
  | some v =>
    cases v with
    | text word =>
      cases h : Version.parse .partialAllowed word <;> simp [versionIn?, h, Except.toOption]
    | _ => rfl

theorem applyShowBanner_eq (es : Toml.Entries) (s : Settings) :
    applyShowBanner es s =
      { s with showBanner := ((es.get? "show_banner").bind flagIn?).getD s.showBanner } := by
  rw [applyShowBanner]
  cases es.get? "show_banner" with
  | none => rfl
  | some v => cases v <;> rfl

theorem applyBanner_eq (es : Toml.Entries) (s : Settings) :
    applyBanner es s = { s with banner := ((es.get? "banner").bind textIn?).getD s.banner } := by
  rw [applyBanner]
  cases es.get? "banner" with
  | none => rfl
  | some v => cases v <;> rfl

theorem applyLauncher_eq (document : Toml.Entries) (root : Path) :
    applyLauncher document { installRoot := root } =
      ({ denoted root document none with level := .warning },
        ((minimum? document).toList.filter fun v => (versionIn? v).isNone).map refusedMinimum) := by
  have hi : ignoredMinimum { installRoot := root } = refusedMinimum :=
    funext (ignoredMinimum_default root)
  rw [applyLauncher, denoted, minimum?, given?, given?]
  cases section? "launcher" document with
  | none => rfl
  | some es =>
    simp only [applyMinimum_eq, applyShowBanner_eq, applyBanner_eq, hi]
    rfl

theorem load_eq_denoted (h : Holds t root document) (value : Option String) :
    load t root value = .ok (denoted root document value, rejections document value) := by
  obtain ⟨content, executable, hf, hd⟩ := h
  rw [load_eq_map, load_of_document hf hd, applyDocument, applyLauncher_eq]
  simp only [applyLogging_eq, Except.map, applyVariable_fst, applyVariable_snd]
  congr 2
  simp only [denoted, Option.getD_or]

theorem any_isTooDeep_rejections (h : Holds t root document) (value : Option String) :
    (rejections document value).any Notice.isTooDeep = true ↔
      ∃ v, minimum? document = some v ∧ v.write = .error .tooDeep := by
  have hl := load_eq_denoted h value
  obtain ⟨content, executable, hf, hd⟩ := h
  rw [load_eq_map, load_of_document hf hd] at hl
  have hr : rejections document value = _ := (congrArg Prod.snd (Except.ok.inj hl)).symm
  rw [hr, List.any_append, (onlyLevel_applyVariable value _).notable, Bool.or_false]
  exact any_isTooDeep_applyDocument document _

/-- Every setting gets what its own key denotes, or else its default; each value that is refused is
    reported in one warning, and nothing else is. All this fails exactly if the report on a refused
    minimum would be nested too deeply. -/
theorem loading_by_keys (h : Holds t root document) (value : Option String) :
    ((∃ v, minimum? document = some v ∧ v.write = .error .tooDeep) →
      loadNoted t root value = .error .tooDeepToNote) ∧
    ((¬∃ v, minimum? document = some v ∧ v.write = .error .tooDeep) →
      loadNoted t root value =
        .ok (denoted root document value, rejections document value)) ∧
    (denoted root document value).delegateDir = root.child "dist" ∧
    (denoted root document value).level ∈ Severity.all ∧
    (∀ n ∈ rejections document value, n.source = .settings ∧ n.severity = .warning) ∧
    ∀ word level, severityNamed? word = some level ↔
      Text.upper (Text.strip word.toList) = level.name.toList := by
  have hl := loadNoted_of_load (load_eq_denoted h value)
  have hd := any_isTooDeep_rejections h value
  refine ⟨fun hv => ?_, fun hv => ?_, rfl, mem_all _, ?_,
    fun word level => severityNamed?_eq_some_iff⟩
  · rw [hl, if_pos (hd.mpr hv)]
  · rw [hl, if_neg (mt hd.mp hv)]
  · intro n hn
    simp only [rejections, unknownLevels, List.mem_append, List.mem_map] at hn
    obtain (⟨v, -, rfl⟩ | ⟨word, -, rfl⟩) | ⟨word, -, rfl⟩ := hn
    · exact ⟨rfl, rfl⟩
    · exact ⟨rfl, rfl⟩
    · exact ⟨rfl, rfl⟩

def nestedNames (depth : Nat) : List (List Char) :=
  "min_runtime_version".toList :: List.replicate depth ['a']

def nestedDocument (depth : Nat) : List Char :=
  "launcher".toList ++ (Toml.pointed (nestedNames depth) ++ "=1".toList)

def nestedValue (depth : Nat) : Toml.Value := Toml.under (List.replicate depth "a") (.integer 1)

def nestedEntries (depth : Nat) : Toml.Entries :=
  [("launcher", .table [("min_runtime_version", nestedValue depth)])]

theorem isBare_launcher : Toml.IsBare "launcher".toList :=
  ⟨by decide, List.all_eq_true.mp (by decide)⟩

theorem isBare_nestedNames (depth : Nat) : ∀ name ∈ nestedNames depth, Toml.IsBare name := by
  intro name hn
  rcases List.mem_cons.mp hn with rfl | hn
  · exact ⟨by decide, List.all_eq_true.mp (by decide)⟩
  · rw [List.eq_of_mem_replicate hn]
    exact ⟨by decide, List.all_eq_true.mp (by decide)⟩

theorem lines_nestedDocument (depth : Nat) :
    Toml.lines ((nestedDocument depth).length + 1) {} (nestedDocument depth) =
      .ok (nestedEntries depth) := by
  obtain ⟨k, hk, hp⟩ := Toml.keyOfPair_pointed isBare_launcher (isBare_nestedNames depth) ['1']
  obtain ⟨ns, hns, hes⟩ := Toml.exists_assign_empty k (.integer 1)
  have hv : Toml.value (2 * ['1'].length + 2) Toml.nestingRoom ['1'] = .ok (.integer 1, []) := rfl
  have hl : Toml.statement {} (Toml.skipSpaces (nestedDocument depth)) =
      .ok ({ tables := ns }, []) := Toml.pairLine_of_assign hk hv hns
  have hn : (nestedNames depth).map String.ofList =
      "min_runtime_version" :: List.replicate depth "a" := by
    rw [nestedNames, List.map_cons, String.ofList_toList, List.map_replicate]
  have he : ns.entries = nestedEntries depth := by
    rw [hp, hn, String.ofList_toList] at hes
    exact Toml.Value.table.inj hes
  rw [Toml.lines, hl, ← he]
  rfl

theorem not_mem_nestedDocument (depth : Nat) : '\r' ∉ nestedDocument depth := by
  have hb : ¬Toml.isBareKeyChar '\r' = true := by decide
  intro h
  rcases List.mem_append.mp h with h | h
  · exact hb (isBare_launcher.2 _ h)
  rcases List.mem_append.mp h with h | h
  · obtain ⟨name, hn, h⟩ := List.mem_flatMap.mp h
    rcases List.mem_cons.mp h with h | h
    · cases h
    · exact hb ((isBare_nestedNames depth name hn).2 _ h)
  · exact absurd h (by decide)

def nested (depth : Nat) : FileTree := package (String.ofList (nestedDocument depth)).toUTF8

theorem holds_nested (depth : Nat) : Holds (nested depth) packageRoot (nestedEntries depth) :=
  holds_of_lines (find_package _) (not_mem_nestedDocument depth) (lines_nestedDocument depth)

theorem loading_by_keys_nested :
    loadNoted (nested 1) packageRoot (some " error ") =
      .ok ({ installRoot := packageRoot, level := .error }, [refusedMinimum (nestedValue 1)]) := by
  obtain ⟨-, hl, -⟩ := loading_by_keys (holds_nested 1) (some " error ")
  have he : severityNamed? " error " = some .error := rfl
  have hd : denoted packageRoot (nestedEntries 1) (some " error ") =
      { installRoot := packageRoot, level := .error } := by
    rw [denoted, Option.bind_some, he]
    rfl
  have hr : rejections (nestedEntries 1) (some " error ") = [refusedMinimum (nestedValue 1)] := by
    have hm : (minimum? (nestedEntries 1)).toList.filter (fun v => (versionIn? v).isNone) =
        [nestedValue 1] := rfl
    have hw : levelWord? (nestedEntries 1) = none := rfl
    simp [rejections, hm, hw, unknownLevels, he]
  rw [hl, hd, hr]
  rintro ⟨v, hv, hw⟩
  cases hv
  cases hw

/-- A minimum that lies too deep in a document that is read: its report ends the loading, and every
    other setting is lost with it. -/
theorem loading_fails_on_deep_minimum :
    ¬∀ (t : FileTree) (root : Path) (document : Toml.Entries) (value : Option String),
      Holds t root document → ∃ r, loadNoted t root value = .ok r := by
  intro h
  have hm : minimum? (nestedEntries 1500) = some (nestedValue 1500) := rfl
  have hw : (nestedValue 1500).write = .error .tooDeep :=
    Toml.writeWithin_under (by rw [List.length_replicate]; decide) (.integer 1)
  obtain ⟨r, hl⟩ := h _ _ _ none (holds_nested 1500)
  have he := (loading_by_keys (holds_nested 1500) none).1 ⟨_, hm, hw⟩
  cases hl.symm.trans he

end GatewayLauncher.Settings

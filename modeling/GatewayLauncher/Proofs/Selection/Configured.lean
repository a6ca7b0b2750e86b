import GatewayLauncher.Proofs.Selection.Spelling
import GatewayLauncher.Proofs.Settings.Fields

namespace GatewayLauncher

variable {given : String} {m : Version} {x : VersionError}

namespace Selection

variable {runtime : Version} {system : OperatingSystem} {architecture : Architecture}

theorem selectFor_of_parse_eq_error (hv : given.toList.head? ≠ some 'v')
    (h : Version.parse .partialAllowed given = .error x) :
    selectFor (.exact runtime) system architecture (some (.text given)) = .error x := by
  have ht := (VersionSpec.toVersion_of_head? hv).trans h
  have hr : (VersionSpec.exact runtime).toVersion = .ok runtime := rfl
  simp [selectFor, hr, ht, bind, Except.bind]

theorem selectFor_of_parse (hv : given.toList.head? ≠ some 'v')
    (h : Version.parse .partialAllowed given = .ok m) :
    selectFor (.exact runtime) system architecture (some (.text given)) =
      select m { runtime, system, architecture } :=
  selectFor_eq rfl ((VersionSpec.toVersion_of_head? hv).trans h)

end Selection

namespace Settings

variable {t : FileTree} {root : Path} {document : Toml.Entries}

def saysRefused (n : Notice) : Bool :=
  match n.text with
  | .text text => "Invalid min_runtime_version ".toList.isPrefixOf text.toList
  | .nothing _ => false

/-- The default stands in the place of the text that is given, and one notice says so. -/
structure Refuses (given : String) (s : Settings) (notices : List Notice) : Prop where
  minimum : s.minimum = Selection.defaultMinimum
  reported : notices.filter saysRefused = [refusedMinimum (.text given)]

theorem saysRefused_refusedMinimum (given : String) :
    saysRefused (refusedMinimum (.text given)) = true := by
  simp only [refusedMinimum, write_text, warning, saysRefused, Except.map, Text.Written.ofExcept,
    List.isPrefixOf_iff_prefix, toString, String.toList_append, List.append_assoc]
  exact List.prefix_append _ _

theorem filter_saysRefused_unknownLevels (origin : String) (word : Option String) :
    (unknownLevels origin word).filter saysRefused = [] := by
  rw [List.filter_eq_nil_iff]
  intro n hn
  obtain ⟨w, -, rfl⟩ := List.mem_map.mp hn
  simp [unknownLevel, warning, saysRefused, toString]

/-- A minimum that is a text never ends the loading. It is taken if it is a version, and refused if it
    is none. -/
theorem loadNoted_of_text (h : Holds t root document)
    (hm : minimum? document = some (.text given)) (value : Option String) :
    ∃ s notices, loadNoted t root value = .ok (s, notices) ∧
      ((∃ m, Version.parse .partialAllowed given = .ok m ∧ s.minimum = m ∧
          notices.filter saysRefused = []) ∨
        (∃ x, Version.parse .partialAllowed given = .error x) ∧ Refuses given s notices) := by
  have hw : ¬∃ v, minimum? document = some v ∧ v.write = .error .tooDeep := by
    rintro ⟨v, hv, hw⟩
    cases hm.symm.trans hv
    cases hw
  refine ⟨_, _, (loading_by_keys h value).2.1 hw, ?_⟩
  cases hp : Version.parse .partialAllowed given with
  | ok m =>
    have hv : versionIn? (.text given) = some m := by simp [versionIn?, hp, Except.toOption]
    refine .inl ⟨m, rfl, by simp [denoted, hm, hv], ?_⟩
    simp [rejections, hm, hv, filter_saysRefused_unknownLevels]
  | error x =>
    have hv : versionIn? (.text given) = none := by simp [versionIn?, hp, Except.toOption]
    refine .inr ⟨⟨x, rfl⟩, by simp [denoted, hm, hv, Selection.defaultMinimum], ?_⟩
    simp [rejections, hm, hv, filter_saysRefused_unknownLevels, saysRefused_refusedMinimum]

/-- A text without a letter `v` in front means the same as the minimum of a document and as that of
    a caller, and one that the document is refused is an error for the caller. Otherwise both come
    to the same selection, or to the same error. -/
theorem minimum_means_the_same (h : Holds t root document)
    (hm : minimum? document = some (.text given)) (hv : given.toList.head? ≠ some 'v')
    (value : Option String) :
    ∃ s notices, loadNoted t root value = .ok (s, notices) ∧
      (Refuses given s notices ∨ notices.filter saysRefused = []) ∧
      ∀ runtime system architecture,
        let direct := Selection.selectFor (.exact runtime) system architecture (some (.text given))
        let configured := Selection.select s.minimum { runtime, system, architecture }
        (∀ selection, direct = .ok selection → configured = .ok selection) ∧
        ((∃ x, direct = .error x) ↔ Refuses given s notices ∨
          ¬runtime.Comparable s.minimum ∨ runtime < s.minimum ∧ ¬runtime.Writable) ∧
        (∀ x, direct = .error x → x = .malformed given ∨ x = .overlong) ∧
        (¬Refuses given s notices → direct = configured) := by
  obtain ⟨s, notices, hl, ⟨m, hp, rfl, hn⟩ | ⟨⟨x, hp⟩, hr⟩⟩ := loadNoted_of_text h hm value
  · -- The text is a version, and both sides select with that one.
    have hr : ¬Refuses given s notices := fun hr => by simpa [hn] using hr.reported
    refine ⟨s, notices, hl, .inr hn, fun runtime system architecture => ?_⟩
    intro direct configured
    have hd : direct = configured := Selection.selectFor_of_parse hv hp
    refine ⟨fun selection hs => hd.symm.trans hs, ?_, fun x hx => ?_, fun _ => hd⟩
    · rw [hd, or_iff_right hr]
      exact Selection.exists_select_eq_error_iff (Version.of_parse hp).2
    · exact .inr (Selection.eq_overlong_of_select (hd.symm.trans hx))
  · refine ⟨s, notices, hl, .inl hr, fun runtime system architecture => ?_⟩
    intro direct configured
    have hd : direct = .error x := Selection.selectFor_of_parse_eq_error hv hp
    refine ⟨fun selection hs => ?_, iff_of_true ⟨x, hd⟩ (.inl hr), fun y hy => ?_,
      fun hn => absurd hr hn⟩
    · cases hd.symm.trans hs
    · cases hd.symm.trans hy
      exact Version.malformed_or_overlong_of_parse hp

def minimumEntries (given : List Char) : Toml.Entries :=
  [("launcher", .table [("min_runtime_version", .text (String.ofList given))])]

theorem holds_minimumDocument {s : List Char} (hn : s ≠ []) (hs : ∀ c ∈ s, Toml.IsPlain c) :
    Holds (package (String.ofList (minimumDocument s)).toUTF8) packageRoot (minimumEntries s) :=
  holds_of_lines (find_package _) (not_mem_minimumDocument hs) (lines_minimumDocument hn hs _)

theorem minimum_means_the_same_partial :
    ∃ s notices, loadNoted (package (String.ofList (minimumDocument "3.11".toList)).toUTF8)
        packageRoot none = .ok (s, notices) ∧
      Selection.select s.minimum
          { runtime := Selection.defaultMinimum, system := .linux, architecture := .x64 } =
        .ok (.incompatible "3.10.0" "3.11.0") := by
  have ha : ("3.11".toList.all fun c => decide (Toml.IsPlain c)) = true := by decide
  have hs : ∀ c ∈ "3.11".toList, Toml.IsPlain c :=
    fun c hc => of_decide_eq_true (List.all_eq_true.mp ha c hc)
  have hv : (String.ofList "3.11".toList).toList.head? ≠ some 'v' := by
    rw [String.toList_ofList]
    decide
  obtain ⟨s, notices, hl, -, hd⟩ := minimum_means_the_same
    (holds_minimumDocument (by simp) hs) rfl hv none
  exact ⟨s, notices, hl, (hd Selection.defaultMinimum .linux .x64).1 _ (by decide +kernel)⟩

/-- A prerelease with a number over the digit limit is taken from the document, and yet it is an error
    for a caller with the release. -/
theorem overlong_minimum_taken_from_document_only :
    ¬∀ (t : FileTree) (root : Path) (document : Toml.Entries) (given : String) (s : Settings)
      (notices : List Notice) (runtime : Version) (system : OperatingSystem)
      (architecture : Architecture), Holds t root document →
      minimum? document = some (.text given) → given.toList.head? ≠ some 'v' →
      loadNoted t root none = .ok (s, notices) →
      ((∃ x, Selection.selectFor (.exact runtime) system architecture (some (.text given)) =
        .error x) ↔ Refuses given s notices) := by
  intro h
  let given := "3.10.0-".toList ++ Gateway.overlongNumber
  have hh : Holds _ _ (minimumEntries given) :=
    holds_minimumDocument (by simp [given]) Gateway.isPlain_overlongMinimum
  have hv : (String.ofList given).toList.head? ≠ some 'v' := by simp [given]
  obtain ⟨s, notices, hl, ⟨m, hp, -, hn⟩ | ⟨⟨x, hx⟩, -⟩⟩ := loadNoted_of_text hh rfl none
  · obtain rfl := Except.ok.inj (Gateway.parse_overlongMinimum.symm.trans hp)
    have he : ∃ x, Selection.selectFor (.exact Selection.defaultMinimum) .linux .x64
        (some (.text (String.ofList given))) = .error x := by
      rw [Selection.selectFor_of_parse hv hp,
        Selection.exists_select_eq_error_iff (Version.of_parse hp).2]
      exact .inl fun hc => Gateway.not_isReadable_overlongMinimum (hc ⟨rfl, rfl, rfl⟩).2
    have hr := (h _ _ _ _ s notices _ _ _ hh rfl hv hl).mp he
    simpa [hn] using hr.reported
  · cases Gateway.parse_overlongMinimum.symm.trans hx

end Settings

end GatewayLauncher

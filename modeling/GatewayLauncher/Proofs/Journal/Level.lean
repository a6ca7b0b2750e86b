import GatewayLauncher.Proofs.Journal

namespace GatewayLauncher.Journal

variable {word : String} {level : Nat}

/-- The levels by their names. Two of them have a second name, and zero stands for no level. -/
inductive StandardLevel : String → Nat → Prop where
  | severity (s : Severity) : StandardLevel s.name s.level
  | fatal : StandardLevel "FATAL" Severity.critical.level
  | warn : StandardLevel "WARN" Severity.warning.level
  | notset : StandardLevel "NOTSET" 0

def Names (word : String) (level : Nat) : Prop :=
  ∃ name, StandardLevel name level ∧ Text.upper word.toList = name.toList

def NamesFormat (word : String) : Prop :=
  Text.upper word.toList ∈ ["BASIC_FORMAT".toList, "_STYLES".toList]

instance (word : String) : Decidable (NamesFormat word) := inferInstanceAs (Decidable (_ ∈ _))

theorem names_of_mem_levelWords (h : (Text.upper word.toList, level) ∈ levelWords) :
    Names word level := by
  simp only [levelWords, List.mem_cons, Prod.mk.injEq, List.not_mem_nil, or_false] at h
  obtain ⟨h, rfl⟩ | ⟨h, rfl⟩ | ⟨h, rfl⟩ | ⟨h, rfl⟩ | ⟨h, rfl⟩ | ⟨h, rfl⟩ | ⟨h, rfl⟩ | ⟨h, rfl⟩ := h
  · exact ⟨_, .severity .critical, h⟩
  · exact ⟨_, .fatal, h⟩
  · exact ⟨_, .severity .error, h⟩
  · exact ⟨_, .severity .warning, h⟩
  · exact ⟨_, .warn, h⟩
  · exact ⟨_, .severity .info, h⟩
  · exact ⟨_, .severity .debug, h⟩
  · exact ⟨_, .notset, h⟩

theorem levelNamed_of_names (h : Names word level) : levelNamed word = .ok level := by
  obtain ⟨name, hl, hw⟩ := h
  cases hl with
  | severity s => exact levelNamed_of_spells hw
  | fatal => simp only [levelNamed, hw]; rfl
  | warn => simp only [levelNamed, hw]; rfl
  | notset => simp only [levelNamed, hw]; rfl

theorem levelNamed_of_namesFormat (h : NamesFormat word) : ∃ e, levelNamed word = .error e := by
  simp only [NamesFormat, List.mem_cons, List.not_mem_nil, or_false] at h
  obtain h | h := h
  · exact ⟨.pattern, by simp only [levelNamed, h]; rfl⟩
  · exact ⟨.styles, by simp only [levelNamed, h]; rfl⟩

theorem levelNamed_of_not_namesFormat (h : ¬NamesFormat word) :
    levelNamed word = .ok ((levelWords.lookup (Text.upper word.toList)).getD 30) := by
  simp only [NamesFormat, List.mem_cons, List.not_mem_nil, or_false, not_or] at h
  rw [levelNamed, if_neg h.1, if_neg h.2]

theorem levelNamed_of_unknown (hf : ¬NamesFormat word) (hn : ∀ level, ¬Names word level) :
    levelNamed word = .ok Severity.warning.level := by
  have hl : levelWords.lookup (Text.upper word.toList) = none := by
    rw [List.lookup_eq_none_iff]
    rintro ⟨w, level⟩ hw
    rw [bne_iff_ne]
    rintro rfl
    exact hn level (names_of_mem_levelWords hw)
  rw [levelNamed_of_not_namesFormat hf, hl]
  rfl

theorem own_configure (j : Journal) (word stream : String) :
    (j.configure word stream).1.handlers.filter (·.own) = [{ stream, own := true }] := by
  have ha := own_attach j stream
  rw [configure]
  split <;> exact ha

theorem rootHandlers_configure (j : Journal) (word stream : String) :
    (j.configure word stream).1.rootHandlers = j.rootHandlers := by
  rw [configure]
  split <;> rfl

theorem configure_of_level {j : Journal} (h : levelNamed word = .ok level) (stream : String) :
    j.configure word stream = ({ j.attach stream with level, propagate := false }, .ok ()) := by
  simp only [configure, h]

theorem configure_of_refused {j : Journal} {e : LevelError} (h : levelNamed word = .error e)
    (stream : String) : j.configure word stream = (j.attach stream, .error e) := by
  simp only [configure, h]

/-- The launcher has one handler, for the given stream. The level is the one that the word names, or
    warnings where it names none; a word that names a format is refused and sets no level. -/
theorem configured_by_word (j : Journal) (word stream : String) :
    let configured := (j.configure word stream).1
    let result := (j.configure word stream).2
    configured.handlers.filter (·.own) = [{ stream, own := true }] ∧
    configured.foreign = j.foreign ∧ configured.rootHandlers = j.rootHandlers ∧
    (¬NamesFormat word → result = .ok () ∧ configured.propagate = false ∧
      (∀ level, Names word level → configured.level = level) ∧
      ((∀ level, ¬Names word level) → configured.level = Severity.warning.level)) ∧
    (NamesFormat word → (∃ e, result = .error e) ∧ configured.propagate = j.propagate ∧
      configured.level = j.level) := by
  intro configured result
  refine ⟨own_configure j word stream, foreign_configure j word stream,
    rootHandlers_configure j word stream, ?_, ?_⟩
  · intro hf
    have hl := levelNamed_of_not_namesFormat hf
    have hc := configure_of_level (j := j) hl stream
    refine ⟨congrArg Prod.snd hc, congrArg (·.1.propagate) hc, ?_, ?_⟩
    · intro level hn
      exact congrArg (·.1.level) (configure_of_level (j := j) (levelNamed_of_names hn) stream)
    · intro hn
      exact congrArg (·.1.level) (configure_of_level (j := j) (levelNamed_of_unknown hf hn) stream)
  · intro hf
    obtain ⟨e, he⟩ := levelNamed_of_namesFormat hf
    have hc := configure_of_refused (j := j) he stream
    exact ⟨⟨e, congrArg Prod.snd hc⟩, congrArg (·.1.propagate) hc, congrArg (·.1.level) hc⟩

def crowded : Journal where
  handlers := [{ stream := "a", own := true }, { stream := "b", own := false },
    { stream := "c", own := true }]
  level := 10

theorem crowded_configured :
    ((crowded.configure "Fatal" "d").2 = .ok () ∧ (crowded.configure "Fatal" "d").1.level = 50) ∧
    (∃ e, (crowded.configure "basic_Format" "d").2 = .error e) ∧
    (crowded.configure "basic_Format" "d").1.level = 10 := by
  obtain ⟨-, -, -, hf, -⟩ := configured_by_word crowded "Fatal" "d"
  obtain ⟨hr, -, hl, -⟩ := hf (by decide)
  obtain ⟨-, -, -, -, hb⟩ := configured_by_word crowded "basic_Format" "d"
  obtain ⟨he, -, hk⟩ := hb (by decide)
  exact ⟨⟨hr, hl 50 ⟨_, .fatal, by decide⟩⟩, he, hk⟩

/-- The name of a format, which is that of no level, does not stand for warnings. -/
theorem format_name_is_refused :
    ¬∀ (j : Journal) (word stream : String),
      let configured := (j.configure word stream).1
      (j.configure word stream).2 = .ok () ∧
      configured.handlers.filter (·.own) = [{ stream, own := true }] ∧
      configured.propagate = false ∧
      (∀ level, Names word level → configured.level = level) ∧
      ((∀ level, ¬Names word level) → configured.level = Severity.warning.level) := by
  intro h
  obtain ⟨hr, -⟩ := h {} "BASIC_FORMAT" "a"
  have hf : NamesFormat "BASIC_FORMAT" := by decide
  obtain ⟨e, he⟩ := levelNamed_of_namesFormat hf
  rw [configure_of_refused he] at hr
  cases hr

end GatewayLauncher.Journal

import GatewayLauncher.Platform
import GatewayLauncher.Proofs.Text.LetterCase

namespace GatewayLauncher

variable {raw raw' name : String}

/-- The name without white space around it and in small ASCII letters. Characters outside ASCII stay
    as they are. -/
def spelling (raw : String) : List Char := (Text.strip raw.toList).map Char.toLower

def Reads (raw name : String) : Prop := spelling raw = name.toList

def StartsAs (raw name : String) : Prop := name.toList <+: spelling raw

instance (raw name : String) : Decidable (Reads raw name) := inferInstanceAs (Decidable (_ = _))

instance (raw name : String) : Decidable (StartsAs raw name) :=
  inferInstanceAs (Decidable (_ <+: _))

theorem plainName_eq_iff (h : Text.IsTelling name.toList) :
    plainName raw = name.toList ↔ Reads raw name :=
  Text.lower_eq_iff h

theorem isPrefixOf_plainName_iff (h : Text.IsTelling name.toList) :
    name.toList.isPrefixOf (plainName raw) = true ↔ StartsAs raw name := by
  rw [List.isPrefixOf_iff_prefix]
  exact Text.prefix_lower_iff h

/-- The same name with other white space around it and in another case of its ASCII letters. -/
def Respells (raw raw' : String) : Prop :=
  ∃ before core behind, (∀ c ∈ before, Text.isBlank c = true) ∧
    (∀ c ∈ behind, Text.isBlank c = true) ∧ raw'.toList = before ++ core ++ behind ∧
    core.map Char.toLower = raw.toList.map Char.toLower

theorem Respells.plainName_eq (h : Respells raw raw') : plainName raw' = plainName raw := by
  obtain ⟨before, core, behind, hb, ha, hr, hc⟩ := h
  calc plainName raw' = Text.lower (Text.strip core) := by
        rw [plainName, hr, Text.strip_append_of_blank ha, Text.strip_blank_append hb]
    _ = Text.lower (Text.strip (core.map Char.toLower)) := by
        rw [Text.strip_map_toLower, Text.lower_map_toLower]
    _ = plainName raw := by
        rw [hc, Text.strip_map_toLower, Text.lower_map_toLower, plainName]

namespace OperatingSystem

theorem ofReported_eq_macos_iff : ofReported raw = .macos ↔ Reads raw "darwin" := by
  rw [← plainName_eq_iff (by decide), ofReported]
  by_cases hd : plainName raw = "darwin".toList
  · simp [hd]
  · simp only [hd, if_false, iff_false]
    split <;> simp

theorem ofReported_eq_linux_iff : ofReported raw = .linux ↔ StartsAs raw "linux" := by
  rw [← isPrefixOf_plainName_iff (by decide), ofReported]
  by_cases hd : plainName raw = "darwin".toList
  · simp [hd]
  · simp only [hd, if_false]
    split <;> simp_all

end OperatingSystem

namespace Architecture

theorem ofReported_eq_iff {a : Architecture} (ha : a ≠ .other) :
    ofReported raw = a ↔ (plainName raw, a) ∈ reportedNames := by
  constructor
  · intro h
    rw [ofReported] at h
    cases hl : reportedNames.lookup (plainName raw) with
    | none =>
      rw [hl] at h
      exact absurd h.symm ha
    | some b =>
      rw [hl] at h
      obtain rfl : b = a := h
      obtain ⟨l₁, l₂, hn, -⟩ := List.lookup_eq_some_iff.mp hl
      rw [hn]
      simp
  · intro h
    simp only [reportedNames, List.mem_cons, Prod.mk.injEq, List.not_mem_nil, or_false] at h
    rw [ofReported]
    obtain ⟨h, rfl⟩ | ⟨h, rfl⟩ | ⟨h, rfl⟩ | ⟨h, rfl⟩ | ⟨h, rfl⟩ := h <;> rw [h] <;> rfl

theorem ofReported_eq_arm64_iff :
    ofReported raw = .arm64 ↔ Reads raw "arm64" ∨ Reads raw "aarch64" := by
  rw [ofReported_eq_iff (by decide), ← plainName_eq_iff (by decide),
    ← plainName_eq_iff (by decide)]
  simp [reportedNames]

theorem ofReported_eq_x64_iff :
    ofReported raw = .x64 ↔ Reads raw "x86_64" ∨ Reads raw "amd64" ∨ Reads raw "x64" := by
  rw [ofReported_eq_iff (by decide), ← plainName_eq_iff (by decide),
    ← plainName_eq_iff (by decide), ← plainName_eq_iff (by decide)]
  simp [reportedNames]

end Architecture

theorem Respells.system_eq (h : Respells raw raw') :
    OperatingSystem.ofReported raw' = OperatingSystem.ofReported raw := by
  simp only [OperatingSystem.ofReported, h.plainName_eq]

theorem Respells.architecture_eq (h : Respells raw raw') :
    Architecture.ofReported raw' = Architecture.ofReported raw := by
  simp only [Architecture.ofReported, h.plainName_eq]

end GatewayLauncher

import GatewayLauncher.Proofs.Command.Gateway
import GatewayLauncher.Proofs.Selection
import GatewayLauncher.Proofs.Version.Precedence

namespace GatewayLauncher.Selection

variable {minimum m v : Version} {e : Environment} {s : Selection}

def IsIncompatible (s : Selection) : Prop := ∃ current required, s = .incompatible current required

theorem not_isIncompatible_ofPlatform (e : Environment) : ¬(ofPlatform e).IsIncompatible := by
  rintro ⟨current, required, h⟩
  cases hf : Prebuilt.find? e.system e.architecture with
  | some b =>
    rw [ofPlatform_of_find? hf] at h
    cases h
  | none =>
    obtain ⟨reason, guidance, hu⟩ := ofPlatform_of_not_found hf
    rw [hu] at h
    cases h

theorem select_eq_ok_iff : select minimum e = .ok s ↔ e.runtime.Comparable minimum ∧
    ((e.runtime < minimum ∧ ∃ current required, e.runtime.render = .ok current ∧
        minimum.render = .ok required ∧ s = .incompatible current required) ∨
      (minimum ≤ e.runtime ∧ s = ofPlatform e)) := by
  rw [select_eq_ok_iff_isBelow, Version.isBelow_eq_ok_iff, Version.isBelow_eq_ok_iff,
    ← Version.not_lt]
  simp only [true_iff, Bool.false_eq_true, false_iff]
  rw [and_assoc, and_assoc, and_or_left]

theorem exists_select_iff_comparable : (∃ s, select minimum e = .ok s) ↔
    e.runtime.Comparable minimum ∧
      (e.runtime < minimum → e.runtime.Writable ∧ minimum.Writable) := by
  rw [exists_select_iff, Undecided, Version.isBelow_eq_ok_iff, Version.Comparable]
  simp only [true_iff]
  tauto

theorem exists_select_eq_error_iff (hm : m.Writable) :
    (∃ x, select m e = .error x) ↔
      ¬e.runtime.Comparable m ∨ e.runtime < m ∧ ¬e.runtime.Writable := by
  have hs : (∃ x, select m e = .error x) ↔ ¬∃ s, select m e = .ok s := by
    cases select m e <;> simp
  rw [hs, exists_select_iff_comparable]
  tauto

theorem eq_overlong_of_select {x : VersionError} (h : select m e = .error x) : x = .overlong := by
  refine Version.eq_of_bind_eq_error h (fun _ hb => (Version.isBelow_eq_error_iff.mp hb).1)
    fun below _ h => ?_
  cases below with
  | false => cases h
  | true =>
    refine Version.eq_of_bind_eq_error h (fun _ => Version.eq_overlong_of_render)
      fun current _ h => ?_
    refine Version.eq_of_bind_eq_error h (fun _ => Version.eq_overlong_of_render)
      fun required _ h => ?_
    cases h

theorem isIncompatible_iff (hs : select minimum e = .ok s) :
    s.IsIncompatible ↔ e.runtime < minimum := by
  obtain ⟨-, ⟨hlt, current, required, -, -, rfl⟩ | ⟨hge, rfl⟩⟩ := select_eq_ok_iff.mp hs
  · exact iff_of_true ⟨current, required, rfl⟩ hlt
  · exact iff_of_false (not_isIncompatible_ofPlatform e) (Version.not_lt.mpr hge)

theorem eq_ofPlatform (hs : select minimum e = .ok s) (hn : ¬s.IsIncompatible) :
    s = ofPlatform e := by
  obtain ⟨-, ⟨-, current, required, -, -, rfl⟩ | ⟨-, h⟩⟩ := select_eq_ok_iff.mp hs
  · exact absurd ⟨current, required, rfl⟩ hn
  · exact h

theorem select_of_le (h : m ≤ v) :
    select m { e with runtime := v } = .ok (ofPlatform e) ↔ v.Comparable m := by
  rw [select_eq_ok_iff]
  constructor
  · exact And.left
  · intro hc
    exact ⟨hc, .inr ⟨h, rfl⟩⟩

/-- The selection does not depend on the versions, as long as the runtime is not too old. -/
def IsSettled (e : Environment) (s : Selection) : Prop :=
  ∀ m v, m ≤ v → v.Comparable m → select m { e with runtime := v } = .ok s

/-- A selection past the gate stays the same for every later runtime and every earlier minimum,
    exactly as long as the two can be compared. -/
theorem gate_is_monotone (minimum : Version) (e : Environment) :
    (∀ s, select minimum e = .ok s → ¬s.IsIncompatible →
      ∀ m v, m ≤ minimum → e.runtime ≤ v →
        (select m { e with runtime := v } = .ok s ↔ v.Comparable m)) ∧
    (Xor (e.runtime < minimum ∧ ∃ s, select minimum e = .ok s ∧ s.IsIncompatible)
        (minimum ≤ e.runtime ∧ ∃ s, select minimum e = .ok s ∧ ¬s.IsIncompatible ∧
          IsSettled e s) ↔
      e.runtime.Comparable minimum ∧
        (e.runtime < minimum → e.runtime.Writable ∧ minimum.Writable)) := by
  constructor
  · intro s hs hn m v hm hv
    have hge : minimum ≤ e.runtime := Version.not_lt.mp (mt (isIncompatible_iff hs).mpr hn)
    rw [eq_ofPlatform hs hn]
    exact select_of_le (le_trans hm (le_trans hge hv))
  · rw [← exists_select_iff_comparable]
    constructor
    · rintro (⟨⟨-, s, hs, -⟩, -⟩ | ⟨⟨-, s, hs, -⟩, -⟩) <;> exact ⟨s, hs⟩
    · rintro ⟨s, hs⟩
      by_cases hlt : e.runtime < minimum
      · refine .inl ⟨⟨hlt, s, hs, (isIncompatible_iff hs).mpr hlt⟩, ?_⟩
        rintro ⟨hge, -⟩
        exact Version.not_lt.mpr hge hlt
      · have hn : ¬s.IsIncompatible := mt (isIncompatible_iff hs).mp hlt
        refine .inr ⟨⟨Version.not_lt.mp hlt, s, hs, hn, ?_⟩, fun h => hlt h.1⟩
        intro m v hm hc
        rw [eq_ofPlatform hs hn]
        exact (select_of_le hm).mpr hc

def candidateHost : Environment where
  runtime := { major := 3, minor := 10, patch := 0, prerelease := ["rc", "10"], build := ["x64"] }
  system := .linux
  architecture := .x64

theorem gate_is_monotone_candidate :
    let ninth : Version := { major := 3, minor := 10, patch := 0, prerelease := ["rc", "9"] }
    let beta : Version := { major := 3, minor := 10, patch := 0, prerelease := ["b"] }
    let release : Version := { major := 3, minor := 10, patch := 0 }
    select ninth candidateHost = .ok (.resolved "ai-gateway-linux") ∧
    select beta { candidateHost with runtime := release } = .ok (.resolved "ai-gateway-linux") := by
  intro ninth beta release
  have hs : select ninth candidateHost = .ok (.resolved "ai-gateway-linux") := by decide
  have hn : ¬(Selection.resolved "ai-gateway-linux").IsIncompatible := by
    rintro ⟨current, required, h⟩
    cases h
  have hc : release.Comparable beta := fun _ =>
    ⟨Version.isReadable_iff.mpr (by decide), Version.isReadable_iff.mpr (by decide)⟩
  have hg := (gate_is_monotone ninth candidateHost).1 _ hs hn beta release (by decide) (by decide)
  exact ⟨hs, hg.mpr hc⟩

/-- The first release that is allowed gets past the gate, and yet not with one of its prereleases as
    the minimum, if that has a number over the digit limit. -/
theorem overlong_minimum_closes_gate :
    ¬∀ (minimum : Version) (e : Environment),
      (∀ s, select minimum e = .ok s → ¬s.IsIncompatible →
        ∀ m v, m ≤ minimum → e.runtime ≤ v → select m { e with runtime := v } = .ok s) ∧
      Xor (e.runtime < minimum ∧ ∃ s, select minimum e = .ok s ∧ s.IsIncompatible)
        (minimum ≤ e.runtime ∧ ∃ s, select minimum e = .ok s ∧ ¬s.IsIncompatible ∧
          ∀ m v, m ≤ v → select m { e with runtime := v } = .ok s) := by
  intro h
  let e : Environment := { candidateHost with runtime := defaultMinimum }
  have hs : select defaultMinimum e = .ok (ofPlatform e) := by decide
  have hm : Gateway.overlongMinimum ≤ defaultMinimum := rfl
  have ho := (h defaultMinimum e).1 _ hs (not_isIncompatible_ofPlatform e) Gateway.overlongMinimum
    defaultMinimum hm le_rfl
  obtain ⟨hc, -⟩ := select_eq_ok_iff.mp ho
  exact Gateway.not_isReadable_overlongMinimum (hc ⟨rfl, rfl, rfl⟩).2

end GatewayLauncher.Selection

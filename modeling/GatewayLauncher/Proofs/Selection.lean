import GatewayLauncher.Proofs.Version.Order
import GatewayLauncher.Proofs.Version.Render
import GatewayLauncher.Selection

namespace GatewayLauncher

namespace Prebuilt

theorem isKnown_of_find? {system : OperatingSystem} {architecture : Architecture} {b : Prebuilt}
    (h : find? system architecture = some b) : isKnown b.name = true := by
  have hb : b ∈ all := List.mem_of_find?_eq_some h
  simp only [isKnown, names, List.contains_iff_mem]
  exact List.mem_map_of_mem hb

theorem find?_other (architecture : Architecture) : find? .other architecture = none := by
  cases architecture <;> rfl

end Prebuilt

namespace Selection

variable {minimum : Version} {e : Environment} {name : String}

theorem ofPlatform_eq_resolved_iff :
    ofPlatform e = .resolved name ↔
      ∃ b, Prebuilt.find? e.system e.architecture = some b ∧ b.name = name := by
  rw [ofPlatform]
  split
  · rename_i ho
    simp [ho, Prebuilt.find?_other, unsupportedSystem]
  · split
    · rename_i b hb
      simp [hb]
    · rename_i hb
      simp [hb, unsupportedArchitecture]

/-- Nothing but the comparison looks at the versions, and the two are written only where the runtime
    is too old. -/
theorem select_eq_ok_iff_isBelow : select minimum e = .ok s ↔
    (e.runtime.isBelow minimum = .ok true ∧ ∃ current required, e.runtime.render = .ok current ∧
      minimum.render = .ok required ∧ s = .incompatible current required) ∨
    (e.runtime.isBelow minimum = .ok false ∧ s = ofPlatform e) := by
  cases hb : e.runtime.isBelow minimum with
  | error x => simp [select, hb, bind, Except.bind]
  | ok below =>
    cases below with
    | false => simp [select, hb, bind, Except.bind, pure, Except.pure, eq_comm]
    | true =>
      cases hc : e.runtime.render <;> cases hr : minimum.render <;>
        simp [select, hb, hc, hr, bind, Except.bind, pure, Except.pure, eq_comm]

theorem select_eq_resolved_iff :
    select minimum e = .ok (.resolved name) ↔
      e.runtime.isBelow minimum = .ok false ∧
      ∃ b, Prebuilt.find? e.system e.architecture = some b ∧ b.name = name := by
  rw [select_eq_ok_iff_isBelow, ← ofPlatform_eq_resolved_iff]
  constructor
  · rintro (⟨-, current, required, -, -, h⟩ | ⟨hb, h⟩)
    · cases h
    · exact ⟨hb, h.symm⟩
  · rintro ⟨hb, h⟩
    exact .inr ⟨hb, h.symm⟩

theorem ofPlatform_of_find? {b : Prebuilt}
    (h : Prebuilt.find? e.system e.architecture = some b) : ofPlatform e = .resolved b.name :=
  ofPlatform_eq_resolved_iff.mpr ⟨b, h, rfl⟩

theorem ofPlatform_of_not_found (h : Prebuilt.find? e.system e.architecture = none) :
    ∃ reason guidance, ofPlatform e = .unsupported reason guidance := by
  rw [ofPlatform]
  split
  · exact ⟨_, _, rfl⟩
  · rw [h]
    exact ⟨_, _, rfl⟩

/-- The runtime is too old, or the platform decides, or no version can be compared or written. -/
theorem select_cases (hv : e.runtime.prerelease = []) (minimum : Version) :
    (¬e.runtime.Reaches minimum ∧ ((∃ current required, e.runtime.render = .ok current ∧
        minimum.render = .ok required ∧
        select minimum e = .ok (.incompatible current required)) ∨
      (∀ current required, e.runtime.render = .ok current → minimum.render ≠ .ok required) ∧
        ∃ error, select minimum e = .error error)) ∨
    (e.runtime.SameNumbers minimum ∧ ¬minimum.IsReadable ∧
      select minimum e = .error .overlong) ∨
    (e.runtime.Reaches minimum ∧ (e.runtime.SameNumbers minimum → minimum.IsReadable) ∧
      select minimum e = .ok (ofPlatform e)) := by
  obtain ⟨hr, hb⟩ | ⟨hs, hi, hb⟩ | ⟨hr, hi, hb⟩ := Version.isBelow_cases hv minimum
  · refine .inl ⟨hr, ?_⟩
    cases hs : select minimum e with
    | ok s =>
      obtain ⟨-, current, required, hc, hq, rfl⟩ | ⟨hn, -⟩ := select_eq_ok_iff_isBelow.mp hs
      · exact .inl ⟨current, required, hc, hq, rfl⟩
      · cases hb.symm.trans hn
    | error x =>
      refine .inr ⟨fun current required hc hq => ?_, x, rfl⟩
      cases hs.symm.trans (select_eq_ok_iff_isBelow.mpr (.inl ⟨hb, current, required, hc, hq, rfl⟩))
  · exact .inr (.inl ⟨hs, hi, by simp [select, hb, bind, Except.bind]⟩)
  · exact .inr (.inr ⟨hr, hi, select_eq_ok_iff_isBelow.mpr (.inr ⟨hb, rfl⟩)⟩)

/-- There is no selection: the versions cannot be compared, or the runtime is too old and one of the
    two cannot be written. -/
def Undecided (minimum : Version) (e : Environment) : Prop :=
  e.runtime.SameNumbers minimum ∧ ¬(e.runtime.IsReadable ∧ minimum.IsReadable) ∨
  e.runtime.isBelow minimum = .ok true ∧ ¬(e.runtime.Writable ∧ minimum.Writable)

theorem exists_select_iff : (∃ s, select minimum e = .ok s) ↔ ¬Undecided minimum e := by
  have he := Version.isBelow_eq_error_iff (v := e.runtime) (w := minimum) (x := .overlong)
  rw [Undecided, ← Version.exists_render_iff, ← Version.exists_render_iff]
  simp only [true_and] at he
  rw [← he]
  simp only [select_eq_ok_iff_isBelow]
  cases hb : e.runtime.isBelow minimum with
  | error x =>
    obtain ⟨rfl, -⟩ := Version.isBelow_eq_error_iff.mp hb
    simp
  | ok below => cases below <;> simp

end Selection

end GatewayLauncher

import GatewayLauncher.Version

namespace GatewayLauncher.Version

/-- The three numbers of `v` are not below those of `w`. -/
def Reaches (v w : Version) : Prop :=
  w.major < v.major ∨ w.major = v.major ∧
    (w.minor < v.minor ∨ w.minor = v.minor ∧ w.patch ≤ v.patch)

def SameNumbers (v w : Version) : Prop :=
  v.major = w.major ∧ v.minor = w.minor ∧ v.patch = w.patch

/-- No identifier is a number over the digit limit. -/
def IsReadable (v : Version) : Prop :=
  ∀ id ∈ v.prerelease, id.toList.all Text.isDigit = true → id.toList.length ≤ Text.digitLimit

variable {v w : Version}

theorem isSome_rank?_iff (id : String) :
    (rank? id).isSome = true ↔
      (id.toList.all Text.isDigit = true → id.toList.length ≤ Text.digitLimit) := by
  cases hs : id.toList with
  | nil => simp [rank?, hs]
  | cons c s =>
    cases ha : (c :: s).all Text.isDigit with
    | false => simp [rank?, hs, ha]
    | true =>
      simp [rank?, hs, ha, Text.numeral?]

theorem isSome_mapM_rank?_iff (ids : List String) :
    (ids.mapM rank?).isSome = true ↔ ∀ id ∈ ids, (rank? id).isSome = true := by
  induction ids with
  | nil => simp
  | cons id ids ih =>
    rw [List.mapM_cons]
    cases hr : rank? id with
    | none => simp [hr]
    | some r => cases hs : ids.mapM rank? <;> simp_all

theorem isReadable_iff : v.IsReadable ↔ (v.prerelease.mapM rank?).isSome = true := by
  simp only [IsReadable, isSome_mapM_rank?_iff, isSome_rank?_iff]

theorem compareNumbers_eq_eq_iff : compareNumbers v w = .eq ↔ v.SameNumbers w := by
  simp only [compareNumbers, SameNumbers, Ordering.then_eq_eq, Nat.compare_eq_eq]

theorem reaches_iff : v.Reaches w ↔ compareNumbers v w ≠ .lt := by
  simp only [compareNumbers, Reaches, ne_eq, Ordering.then_eq_lt, Nat.compare_eq_eq,
    Nat.compare_eq_lt]
  omega

theorem isBelow_eq_error_iff {x : VersionError} :
    v.isBelow w = .error x ↔
      x = .overlong ∧ v.SameNumbers w ∧ ¬(v.IsReadable ∧ w.IsReadable) := by
  rw [← compareNumbers_eq_eq_iff, isReadable_iff, isReadable_iff, @eq_comm _ x]
  cases hc : compareNumbers v w with
  | lt => simp [isBelow, compare?, hc, bind, Except.bind, pure, Except.pure]
  | gt => simp [isBelow, compare?, hc, bind, Except.bind, pure, Except.pure]
  | eq =>
    cases hv : v.prerelease.mapM rank? with
    | none => simp [isBelow, compare?, hc, hv, bind, Except.bind]
    | some xs =>
      cases hw : w.prerelease.mapM rank? with
      | none => simp [isBelow, compare?, hc, hv, hw, bind, Except.bind]
      | some ys => simp [isBelow, compare?, hc, hv, hw, bind, Except.bind, pure, Except.pure]

theorem prerelease_of_ofInts {major minor patch : Int} (h : ofInts major minor patch = .ok v) :
    v.prerelease = [] := by
  rw [ofInts] at h
  split at h
  · cases h
  · split at h
    · cases h
    · split at h
      · cases h
      · cases h
        rfl

theorem comparePrerelease_nil_ne_lt (xs : List Rank) : comparePrerelease [] xs ≠ .lt := by
  cases xs <;> simp [comparePrerelease]

/-- A release is below a version, or not to be compared with it, or not below it. Its numbers tell
    which, and for the same numbers whether the version is readable. -/
theorem isBelow_cases (hv : v.prerelease = []) (w : Version) :
    (¬v.Reaches w ∧ v.isBelow w = .ok true) ∨
    (v.SameNumbers w ∧ ¬w.IsReadable ∧ v.isBelow w = .error .overlong) ∨
    (v.Reaches w ∧ (v.SameNumbers w → w.IsReadable) ∧ v.isBelow w = .ok false) := by
  rw [reaches_iff, ← compareNumbers_eq_eq_iff, isReadable_iff]
  cases hc : compareNumbers v w with
  | lt =>
    have hb : v.isBelow w = .ok true := by rw [isBelow, compare?, hc]; rfl
    simp [hb]
  | gt =>
    have hb : v.isBelow w = .ok false := by rw [isBelow, compare?, hc]; rfl
    simp [hb]
  | eq =>
    cases hm : w.prerelease.mapM rank? with
    | none => simp [isBelow, compare?, hc, hv, hm, bind, Except.bind]
    | some xs =>
      have hn := comparePrerelease_nil_ne_lt xs
      simp [isBelow, compare?, hc, hv, hm, hn, bind, Except.bind, pure, Except.pure]

theorem SameNumbers.reaches (h : v.SameNumbers w) : v.Reaches w :=
  .inr ⟨h.1.symm, .inr ⟨h.2.1.symm, Nat.le_of_eq h.2.2.symm⟩⟩

theorem isBelow_eq_ok_false_iff (hv : v.prerelease = []) :
    v.isBelow w = .ok false ↔ v.Reaches w ∧ (v.SameNumbers w → w.IsReadable) := by
  obtain ⟨hr, hb⟩ | ⟨hs, hi, hb⟩ | ⟨hr, hi, hb⟩ := isBelow_cases hv w
  · simp [hb, hr]
  · simp [hb, hs, hi]
  · exact iff_of_true hb ⟨hr, hi⟩

end GatewayLauncher.Version

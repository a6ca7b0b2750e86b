import GatewayLauncher.Proofs.Version.Order
import GatewayLauncher.Proofs.Version.Render
import Mathlib.Order.Defs.PartialOrder

namespace GatewayLauncher.Version

variable {u v w : Version} {id : String} {ids : List String}

/-- What an identifier counts as, however many digits it has. -/
def standing (id : String) : Rank :=
  if !id.toList.isEmpty && id.toList.all Text.isDigit then .number (Text.numeral id.toList)
  else .word id

def precedence (v w : Version) : Ordering :=
  (compareNumbers v w).then
    (comparePrerelease (v.prerelease.map standing) (w.prerelease.map standing))

theorem rank?_eq_standing {r : Rank} (h : rank? id = some r) : r = standing id := by
  rw [rank?] at h
  rw [standing]
  split at h
  · rename_i hd
    rw [if_pos hd]
    rw [Text.numeral?] at h
    split at h
    · exact (Option.some.inj h).symm
    · cases h
  · rename_i hd
    rw [if_neg hd]
    exact (Option.some.inj h).symm

theorem mapM_rank?_eq_map {rs : List Rank} (h : ids.mapM rank? = some rs) :
    rs = ids.map standing := by
  induction ids generalizing rs with
  | nil => exact (Option.some.inj h).symm
  | cons id ids ih =>
    rw [List.mapM_cons, Option.bind_eq_bind, Option.bind_eq_some_iff] at h
    obtain ⟨r, hr, h⟩ := h
    rw [Option.bind_eq_bind, Option.bind_eq_some_iff] at h
    obtain ⟨rs', hrs, h⟩ := h
    obtain rfl := Option.some.inj h
    rw [rank?_eq_standing hr, ih hrs, List.map_cons]

open Std (OrientedCmp OrientedOrd ReflCmp TransCmp TransOrd)

theorem Rank.compare_swap (x y : Rank) : x.compare y = (y.compare x).swap := by
  cases x with
  | number m =>
    cases y with
    | number n => exact OrientedOrd.eq_swap (a := m)
    | word t => rfl
  | word s =>
    cases y with
    | number n => rfl
    | word t => exact OrientedOrd.eq_swap (a := s)

/-- Numbers are below words, so that three ranks in a row are numbers first and words from some place
    on. -/
theorem Rank.compare_trans {x y z : Rank} (hxy : (x.compare y).isLE = true)
    (hyz : (y.compare z).isLE = true) : (x.compare z).isLE = true := by
  cases x with
  | number m =>
    cases z with
    | word t => rfl
    | number n =>
      cases y with
      | word s => cases hyz
      | number k => exact TransOrd.isLE_trans (b := k) hxy hyz
  | word s =>
    cases y with
    | number k => cases hxy
    | word t =>
      cases z with
      | number n => cases hyz
      | word r => exact TransOrd.isLE_trans (b := t) hxy hyz

instance : TransCmp Rank.compare where
  eq_swap := Rank.compare_swap _ _
  isLE_trans := Rank.compare_trans

theorem compareRanks_eq : compareRanks = List.compareLex Rank.compare := by
  funext xs ys
  induction xs generalizing ys with
  | nil => cases ys <;> rfl
  | cons x xs ih =>
    cases ys with
    | nil => rfl
    | cons y ys => rw [compareRanks, ih, List.compareLex_cons_cons]

instance : TransCmp compareRanks := by
  rw [compareRanks_eq]
  infer_instance

/-- A prerelease is below its release, so that having none counts for more than any. -/
theorem comparePrerelease_eq :
    comparePrerelease = compareLex (compareOn List.isEmpty) (List.compareLex Rank.compare) := by
  funext xs ys
  cases xs with
  | nil => cases ys <;> rfl
  | cons x xs =>
    cases ys with
    | nil => rfl
    | cons y ys =>
      change compareRanks (x :: xs) (y :: ys) = _
      rw [compareRanks_eq]
      rfl

instance : TransCmp comparePrerelease := by
  rw [comparePrerelease_eq]
  infer_instance

theorem compareNumbers_eq :
    compareNumbers = compareLex (compareOn Version.major)
      (compareLex (compareOn Version.minor) (compareOn Version.patch)) := rfl

instance : TransCmp compareNumbers := by
  rw [compareNumbers_eq]
  infer_instance

def compareIdentifiers (v w : Version) : Ordering :=
  comparePrerelease (v.prerelease.map standing) (w.prerelease.map standing)

instance : TransCmp compareIdentifiers where
  eq_swap {v w} := by
    unfold compareIdentifiers
    exact OrientedCmp.eq_swap
  isLE_trans {u v w} huv hvw := by
    unfold compareIdentifiers at huv hvw ⊢
    exact TransCmp.isLE_trans huv hvw

theorem precedence_eq : precedence = compareLex compareNumbers compareIdentifiers := rfl

instance : TransCmp precedence := by
  rw [precedence_eq]
  infer_instance

theorem precedence_swap (v w : Version) : precedence w v = (precedence v w).swap :=
  OrientedCmp.eq_swap

instance : Preorder Version where
  le v w := (precedence v w).isLE = true
  lt v w := precedence v w = .lt
  le_refl _ := ReflCmp.isLE_rfl
  le_trans _ _ _ := TransCmp.isLE_trans
  lt_iff_le_not_ge v w := by
    rw [precedence_swap v w]
    cases precedence v w <;> decide

instance (v w : Version) : Decidable (v ≤ w) :=
  inferInstanceAs (Decidable ((precedence v w).isLE = true))

instance (v w : Version) : Decidable (v < w) :=
  inferInstanceAs (Decidable (precedence v w = .lt))

theorem le_iff_precedence : v ≤ w ↔ (precedence v w).isLE = true := Iff.rfl

theorem lt_iff_precedence : v < w ↔ precedence v w = .lt := Iff.rfl

theorem not_lt : ¬v < w ↔ w ≤ v := by
  rw [lt_iff_precedence, le_iff_precedence, precedence_swap v w]
  cases precedence v w <;> decide

theorem le_total (v w : Version) : v ≤ w ∨ w ≤ v := by
  by_cases h : w < v
  · exact .inr (le_of_lt h)
  · exact .inl (not_lt.mp h)

/-- Two versions can be compared unless their numbers are the same and one of them is not readable. -/
def Comparable (v w : Version) : Prop := v.SameNumbers w → v.IsReadable ∧ w.IsReadable

/-- All numbers in a version are under the digit limit, those of its prerelease included. -/
structure UnderLimit (v : Version) : Prop where
  writable : v.Writable
  readable : v.IsReadable

theorem UnderLimit.comparable (hv : v.UnderLimit) (hw : w.UnderLimit) : v.Comparable w :=
  fun _ => ⟨hv.readable, hw.readable⟩

theorem compare?_eq_ok_iff {o : Ordering} :
    compare? v w = .ok o ↔ v.Comparable w ∧ precedence v w = o := by
  rw [Comparable, ← compareNumbers_eq_eq_iff, isReadable_iff, isReadable_iff, precedence, compare?]
  cases hc : compareNumbers v w with
  | lt => simp
  | gt => simp
  | eq =>
    cases hv : v.prerelease.mapM rank? with
    | none => simp
    | some xs =>
      cases hw : w.prerelease.mapM rank? with
      | none => simp
      | some ys => simp [mapM_rank?_eq_map hv, mapM_rank?_eq_map hw]

theorem isBelow_eq_ok_iff {b : Bool} :
    v.isBelow w = .ok b ↔ v.Comparable w ∧ (b = true ↔ v < w) := by
  rw [lt_iff_precedence]
  cases hc : compare? v w with
  | error x =>
    have hn : ¬v.Comparable w := fun h => by
      rw [compare?_eq_ok_iff.mpr ⟨h, rfl⟩] at hc
      cases hc
    simp [isBelow, hc, hn, bind, Except.bind]
  | ok o =>
    obtain ⟨h, ho⟩ := compare?_eq_ok_iff.mp hc
    cases b <;> cases o <;> simp [isBelow, hc, h, ho, bind, Except.bind, pure, Except.pure]

end GatewayLauncher.Version

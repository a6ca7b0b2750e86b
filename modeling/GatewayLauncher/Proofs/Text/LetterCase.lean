import GatewayLauncher.Text.Character
import Mathlib.Data.List.TakeWhile

namespace GatewayLauncher.Text

variable {s t w : List Char} {c : Char}

theorem toNat_toLower (c : Char) :
    c.toLower.toNat = if 65 ≤ c.toNat ∧ c.toNat ≤ 90 then c.toNat + 32 else c.toNat := by
  have hi : (c.val ≥ 'A'.val ∧ c.val ≤ 'Z'.val) ↔ 65 ≤ c.toNat ∧ c.toNat ≤ 90 := by
    simp only [ge_iff_le, UInt32.le_iff_toNat_le]
    rfl
  delta Char.toLower
  by_cases h : c.val ≥ 'A'.val ∧ c.val ≤ 'Z'.val
  · have hn := hi.mp h
    rw [dif_pos h, if_pos hn]
    change (c.val + 32).toNat = c.toNat + 32
    rw [UInt32.toNat_add]
    exact Nat.mod_eq_of_lt (by change c.toNat + 32 < _; omega)
  · rw [dif_neg h, if_neg (mt hi.mpr h)]

theorem isBlank_toLower (c : Char) : isBlank c.toLower = isBlank c := by
  have hn := toNat_toLower c
  split at hn
  · rw [Bool.eq_iff_iff]
    simp only [isBlank, hn, Bool.or_eq_true, Bool.and_eq_true, decide_eq_true_eq, beq_iff_eq]
    omega
  · rw [isBlank, hn, isBlank]

theorem small_cases (c : Char) : (c = '\u0130' ∧ small c = ['i', '\u0307']) ∨
    (c = '\u212a' ∧ small c = ['k']) ∨
    (c ≠ '\u0130' ∧ c ≠ '\u212a' ∧ small c = [c.toLower]) := by
  by_cases hi : c = '\u0130'
  · exact .inl ⟨hi, by rw [hi]; rfl⟩
  · by_cases hk : c = '\u212a'
    · exact .inr (.inl ⟨hk, by rw [hk]; rfl⟩)
    · have hl : foreignSmalls.lookup c.toNat = none := by
        rw [List.lookup_eq_none_iff]
        simp only [foreignSmalls, List.mem_cons, List.not_mem_nil, or_false, bne_iff_ne, ne_eq,
          forall_eq_or_imp, forall_eq]
        exact ⟨fun h => hi (Char.toNat_inj.mp h), fun h => hk (Char.toNat_inj.mp h)⟩
      exact .inr (.inr ⟨hi, hk, by rw [small, hl]⟩)

theorem small_of_ascii (h : c.toNat < 128) : small c = [c.toLower] := by
  obtain ⟨rfl, -⟩ | ⟨rfl, -⟩ | ⟨-, -, hs⟩ := small_cases c
  · exact absurd h (by decide)
  · exact absurd h (by decide)
  · exact hs

theorem lower_cons (c : Char) (s : List Char) : lower (c :: s) = small c ++ lower s :=
  List.flatMap_cons

/-- A word in ASCII that no foreign letter can take part in. -/
structure IsTelling (w : List Char) : Prop where
  letters : ∀ c ∈ w, c.toNat < 128 ∧ c ≠ 'k'
  last : w.getLast? ≠ some 'i'

instance (w : List Char) : Decidable (IsTelling w) :=
  decidable_of_iff
    (w.all (fun c => decide (c.toNat < 128 ∧ c ≠ 'k')) = true ∧ w.getLast? ≠ some 'i')
    ⟨fun h => ⟨by simpa using h.1, h.2⟩, fun h => ⟨by simpa using h.letters, h.last⟩⟩

theorem IsTelling.tail {d : Char} (h : IsTelling (d :: w)) : IsTelling w where
  letters c hc := h.letters c (List.mem_cons_of_mem d hc)
  last := by
    cases w with
    | nil => simp
    | cons c w =>
      have hl := h.last
      rwa [List.getLast?_cons_cons] at hl

theorem lower_eq_append_iff (hw : IsTelling w) {r : List Char} : lower s = w ++ r ↔
    ∃ s₁ s₂, s = s₁ ++ s₂ ∧ s₁.map Char.toLower = w ∧ lower s₂ = r := by
  induction w generalizing s with
  | nil =>
    constructor
    · intro h
      exact ⟨[], s, rfl, rfl, h⟩
    · rintro ⟨s₁, s₂, rfl, hm, rfl⟩
      rw [List.map_eq_nil_iff] at hm
      rw [hm]
      rfl
  | cons d w ih =>
    obtain ⟨hd, hk⟩ := hw.letters d (List.mem_cons_self ..)
    constructor
    · intro h
      cases s with
      | nil => cases h
      | cons c s =>
        rw [lower_cons] at h
        obtain ⟨-, hs⟩ | ⟨-, hs⟩ | ⟨-, -, hs⟩ := small_cases c
        · -- The dot behind the letter is no letter of the word, and the word does not end before it.
          rw [hs] at h
          obtain ⟨rfl, h⟩ : 'i' = d ∧ '\u0307' :: lower s = w ++ r := by simpa using h
          cases w with
          | nil => exact absurd rfl hw.last
          | cons d' w =>
            obtain ⟨rfl, -⟩ : '\u0307' = d' ∧ lower s = w ++ r := by simpa using h
            exact absurd (hw.letters '\u0307' (by simp)).1 (by decide)
        · rw [hs] at h
          obtain ⟨rfl, -⟩ : 'k' = d ∧ lower s = w ++ r := by simpa using h
          exact absurd rfl hk
        · rw [hs] at h
          obtain ⟨hc, h⟩ : c.toLower = d ∧ lower s = w ++ r := by simpa using h
          obtain ⟨s₁, s₂, rfl, hm, hr⟩ := (ih hw.tail).mp h
          exact ⟨c :: s₁, s₂, rfl, by rw [List.map_cons, hc, hm], hr⟩
    · rintro ⟨s₁, s₂, rfl, hm, hr⟩
      cases s₁ with
      | nil => cases hm
      | cons c s₁ =>
        obtain ⟨hc, hm⟩ : c.toLower = d ∧ s₁.map Char.toLower = w := by simpa using hm
        have ha : c.toNat < 128 := by
          rw [← hc, toNat_toLower] at hd
          split at hd <;> omega
        rw [List.cons_append, lower_cons, small_of_ascii ha, hc,
          (ih hw.tail).mpr ⟨s₁, s₂, rfl, hm, hr⟩]
        rfl

theorem lower_eq_nil_iff : lower s = [] ↔ s = [] := by
  constructor
  · intro h
    cases s with
    | nil => rfl
    | cons c s =>
      rw [lower_cons] at h
      obtain ⟨-, hs⟩ | ⟨-, hs⟩ | ⟨-, -, hs⟩ := small_cases c <;> simp [hs] at h
  · rintro rfl
    rfl

theorem lower_eq_iff (hw : IsTelling w) : lower s = w ↔ s.map Char.toLower = w := by
  have h := lower_eq_append_iff (s := s) hw (r := [])
  rw [List.append_nil] at h
  rw [h]
  constructor
  · rintro ⟨s₁, s₂, rfl, hm, hr⟩
    rw [lower_eq_nil_iff.mp hr, List.append_nil, hm]
  · intro hm
    exact ⟨s, [], (List.append_nil s).symm, hm, rfl⟩

theorem prefix_lower_iff (hw : IsTelling w) : w <+: lower s ↔ w <+: s.map Char.toLower := by
  constructor
  · rintro ⟨r, h⟩
    obtain ⟨s₁, s₂, rfl, hm, -⟩ := (lower_eq_append_iff hw).mp h.symm
    rw [List.map_append, hm]
    exact List.prefix_append w _
  · rintro ⟨r, h⟩
    obtain ⟨s₁, s₂, rfl, hm, -⟩ := List.map_eq_append_iff.mp h.symm
    exact ⟨_, ((lower_eq_append_iff hw).mpr ⟨s₁, s₂, rfl, hm, rfl⟩).symm⟩

theorem small_toLower (c : Char) : small c.toLower = small c := by
  have hn := toNat_toLower c
  split at hn
  · have hl : c.toLower.toLower = c.toLower := by
      rw [← Char.toNat_inj, toNat_toLower c.toLower, if_neg (by omega)]
    rw [small_of_ascii (show c.toLower.toNat < 128 by omega), hl,
      small_of_ascii (show c.toNat < 128 by omega)]
  · rw [Char.toNat_inj.mp hn]

/-- The small form has nothing of the letter case of ASCII left. -/
theorem lower_map_toLower (s : List Char) : lower (s.map Char.toLower) = lower s := by
  simp only [lower, List.flatMap_map, small_toLower]

theorem strip_map_toLower (s : List Char) :
    strip (s.map Char.toLower) = (strip s).map Char.toLower := by
  have hb : isBlank ∘ Char.toLower = isBlank := funext isBlank_toLower
  simp only [strip, List.dropWhile_map, ← List.map_reverse, hb]

theorem strip_append_of_blank (hb : ∀ c ∈ t, isBlank c = true) (s : List Char) :
    strip (s ++ t) = strip s := by
  have ht : t.dropWhile isBlank = [] := List.dropWhile_eq_nil_iff.mpr hb
  rw [strip, strip, List.dropWhile_append]
  split
  · rename_i he
    rw [List.isEmpty_iff.mp he, ht]
  · rw [List.reverse_append, List.dropWhile_append_of_pos]
    intro c hc
    exact hb c (List.mem_reverse.mp hc)

theorem strip_blank_append (hb : ∀ c ∈ t, isBlank c = true) (s : List Char) :
    strip (t ++ s) = strip s := by
  rw [strip, strip, List.dropWhile_append_of_pos hb]

end GatewayLauncher.Text

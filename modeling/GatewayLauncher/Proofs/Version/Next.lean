import GatewayLauncher.Proofs.Version.Render
import GatewayLauncher.Version
import Mathlib.Data.List.TakeWhile

namespace GatewayLauncher.Version

variable {v w : Version} {s t before number behind : List Char}

theorem of_lastNumber? (h : lastNumber? s = some (before, number, behind)) :
    s = before ++ (number ++ behind) ∧ number ≠ [] ∧ number.all Text.isDigit = true := by
  let tail := s.reverse.dropWhile fun c => !Text.isDigit c
  have hs := List.takeWhile_append_dropWhile (p := fun c => !Text.isDigit c) (l := s.reverse)
  have ht := List.takeWhile_append_dropWhile (p := Text.isDigit) (l := tail)
  simp only [lastNumber?] at h
  split at h
  · cases h
  · rename_i he
    simp only [Option.some.injEq, Prod.mk.injEq] at h
    obtain ⟨rfl, rfl, rfl⟩ := h
    refine ⟨?_, by simpa using he, ?_⟩
    · rw [← List.reverse_append, ← List.reverse_append, List.append_assoc, ht, hs,
        List.reverse_reverse]
    · rw [List.all_reverse]
      exact List.all_takeWhile

theorem lastNumber?_of_all (hn : s ≠ []) (hs : s.all Text.isDigit = true) :
    lastNumber? s = some ([], s, []) := by
  have hp : ∀ c ∈ s.reverse, Text.isDigit c = true := fun c hc =>
    List.all_eq_true.mp hs c (List.mem_reverse.mp hc)
  obtain ⟨c, rest, hr⟩ := List.exists_cons_of_ne_nil (mt List.reverse_eq_nil_iff.mp hn)
  have hc : Text.isDigit c = true := hp c (by simp [hr])
  have hb : s.reverse.takeWhile (fun c => !Text.isDigit c) = [] := by
    rw [hr, List.takeWhile_cons_of_neg (by simp [hc])]
  have hd : s.reverse.dropWhile (fun c => !Text.isDigit c) = s.reverse := by
    rw [hr, List.dropWhile_cons_of_neg (by simp [hc])]
  have ht : s.reverse.takeWhile Text.isDigit = s.reverse := List.takeWhile_eq_self_iff.mpr hp
  have he : s.reverse.dropWhile Text.isDigit = [] := List.dropWhile_eq_nil_iff.mpr hp
  simp [lastNumber?, hb, hd, ht, he, hn]

theorem pow_le_numeral {c : Char} (h : '1' ≤ c) (h' : c ≤ '9') (s : List Char) :
    10 ^ s.length ≤ Text.numeral (c :: s) := by
  induction s using List.reverseRecOn with
  | nil =>
    have hc : 49 ≤ c.toNat := UInt32.le_iff_toNat_le.mp h
    have hd : Text.digit? c = some (c.toNat - 48) :=
      Text.digit?_of_ascii (Char.le_trans (by decide) h) h'
    simp only [Text.numeral, List.foldl_cons, List.foldl_nil, hd, Option.getD_some,
      List.length_nil, Nat.pow_zero]
    omega
  | append_singleton s d ih =>
    have hs := Text.numeral_concat (c :: s) d
    rw [List.cons_append] at hs
    rw [hs, List.length_append, List.length_singleton, Nat.pow_succ]
    omega

theorem length_le_toDigits_succ (hs : isNumber s = true) :
    s.length ≤ (Nat.toDigits 10 (Text.numeral s + 1)).length := by
  have hp : 0 < (Nat.toDigits 10 (Text.numeral s + 1)).length :=
    List.length_pos_iff.mpr Nat.toDigits_ne_nil
  obtain rfl | ⟨c, rest, rfl, hc, hc', -⟩ := isNumber_iff.mp hs
  · exact hp
  · have hn := pow_le_numeral hc hc' rest
    rw [List.length_cons]
    refine Nat.lt_of_not_le fun hl => ?_
    have hr : 0 < rest.length := Nat.lt_of_lt_of_le hp hl
    have ht := (Nat.length_toDigits_le_iff (by decide) hr).mp hl
    omega

theorem isWordChar_of_mem_toDigits {c : Char} {n : Nat} (h : c ∈ Nat.toDigits 10 n) :
    isWordChar c = true := by
  have hd : c.isDigit = true := Nat.isDigit_of_mem_toDigits (by decide) (by decide) h
  simp [isWordChar, Char.isAlphanum, hd]

/-- What a count puts in the place of a number has the letters of that number and ASCII digits. -/
theorem all_count {p : Char → Bool} (hp : ∀ n, ∀ c ∈ Nat.toDigits 10 n, p c = true)
    (h : number.all p = true) (k n : Nat) :
    (number.take k ++ Nat.toDigits 10 n).all p = true := by
  rw [List.all_append, Bool.and_eq_true]
  exact ⟨List.all_eq_true.mpr fun c hc => List.all_eq_true.mp h c (List.mem_of_mem_take hc),
    List.all_eq_true.mpr (hp n)⟩

theorem countUp_cases (h : countUp s = .ok t) : t = s ∨ ∃ before number behind,
    lastNumber? s = some (before, number, behind) ∧
    let next := Nat.toDigits 10 (Text.numeral number + 1)
    t = before ++ (number.take (number.length - next.length) ++ next ++ behind) := by
  rw [countUp] at h
  split at h
  · exact .inl (Except.ok.inj h).symm
  · rename_i before number behind hl
    split at h
    · cases h
    · rename_i n hn
      split at h
      · cases h
      · rename_i next hw
        obtain ⟨-, rfl⟩ := Text.writeNat?_eq_some_iff.mp hw
        obtain rfl : Text.numeral number = n := by
          rw [Text.numeral?] at hn
          split at hn
          · exact Option.some.inj hn
          · cases hn
        refine .inr ⟨before, number, behind, hl, ?_⟩
        rw [← Except.ok.inj h]
        simp

theorem isNumber_countUp (hs : isNumber s = true) (h : countUp s = .ok t) : isNumber t = true := by
  obtain rfl | ⟨before, number, behind, hl, ht⟩ := countUp_cases h
  · exact hs
  · have hn : s ≠ [] := by
      rintro rfl
      cases hs
    have hd : s.all Text.isDigit = true :=
      List.all_eq_true.mpr fun c hc => isDigit_of_isNumber hs hc
    rw [lastNumber?_of_all hn hd, Option.some.injEq, Prod.mk.injEq, Prod.mk.injEq] at hl
    obtain ⟨rfl, rfl, rfl⟩ := hl
    -- The next number is not shorter, so that nothing of the old one is left over.
    have hk := Nat.sub_eq_zero_of_le (length_le_toDigits_succ hs)
    simp only [hk, List.take_zero, List.nil_append, List.append_nil] at ht
    rw [ht]
    exact isNumber_toDigits _

/-- The last number of a word is behind the letter that makes it one, or in front of it. -/
theorem lastNumber?_of_word {digits rest : List Char} {c : Char} (hc : Text.isDigit c = false)
    (h : lastNumber? (digits ++ c :: rest) = some (before, number, behind)) :
    (∃ middle, before = digits ++ c :: middle ∧ rest = middle ++ (number ++ behind)) ∨
    ∃ middle, digits = before ++ (number ++ middle) ∧ behind = middle ++ c :: rest := by
  obtain ⟨hs, hn, hd⟩ := of_lastNumber? h
  have hne : c ∉ number := by
    intro hm
    have hcd := List.all_eq_true.mp hd c hm
    rw [hc] at hcd
    cases hcd
  obtain ⟨middle, hb, hr⟩ | ⟨middle, hb, hr⟩ := List.append_eq_append_iff.mp hs
  · cases middle with
    | nil =>
      obtain ⟨d, number, rfl⟩ := List.exists_cons_of_ne_nil hn
      simp only [List.nil_append, List.cons_append, List.cons.injEq] at hr
      exact absurd (by simp [hr.1]) hne
    | cons d middle =>
      simp only [List.cons_append, List.cons.injEq] at hr
      exact .inl ⟨middle, by rw [hb, hr.1], hr.2⟩
  · obtain ⟨last, hm, hr⟩ | ⟨last, hm, hr⟩ := List.append_eq_append_iff.mp hr
    · exact .inr ⟨last, by rw [hb, hm], hr⟩
    · cases last with
      | nil => exact .inr ⟨[], by simp [hb, hm], by simpa using hr.symm⟩
      | cons d last =>
        simp only [List.cons_append, List.cons.injEq] at hr
        exact absurd (by simp [hm, hr.1]) hne

theorem isPrereleaseId_countUp_word {digits rest : List Char} {c : Char}
    (hd : digits.all Text.isDigit = true) (hc : c.isAlpha = true ∨ c = '-')
    (hr : rest.all isWordChar = true) (h : countUp (digits ++ c :: rest) = .ok t) :
    isPrereleaseId t = true := by
  obtain rfl | ⟨before, number, behind, hl, ht⟩ := countUp_cases h
  · exact isPrereleaseId_iff.mpr (.inr ⟨digits, c, rest, rfl, hd, hc, hr⟩)
  · refine isPrereleaseId_iff.mpr (.inr ?_)
    dsimp only at ht
    generalize hk : number.length - (Nat.toDigits 10 (Text.numeral number + 1)).length = k at ht
    generalize Text.numeral number + 1 = n at ht
    obtain ⟨middle, rfl, rfl⟩ | ⟨middle, rfl, rfl⟩ :=
      lastNumber?_of_word (not_isDigit_of_isAlpha hc) hl
    · have hw (h : number.all isWordChar = true) :=
        all_count (fun _ _ => isWordChar_of_mem_toDigits) h k n
      refine ⟨digits, c, middle ++ (number.take k ++ Nat.toDigits 10 n ++ behind), ?_, hd, hc, ?_⟩
      · simp [ht]
      · simp only [List.all_append, Bool.and_eq_true] at hr hw ⊢
        exact ⟨hr.1, hw hr.2.1, hr.2.2⟩
    · have hw (h : number.all Text.isDigit = true) :=
        all_count (fun _ _ => Text.isDigit_of_mem_toDigits) h k n
      refine ⟨before ++ (number.take k ++ Nat.toDigits 10 n ++ middle), c, rest, ?_, ?_, hc, hr⟩
      · simp [ht]
      · simp only [List.all_append, Bool.and_eq_true] at hd hw ⊢
        exact ⟨hd.1, hw hd.2.1, hd.2.2⟩

theorem isPrereleaseId_countUp (hs : isPrereleaseId s = true) (h : countUp s = .ok t) :
    isPrereleaseId t = true := by
  obtain hn | ⟨digits, c, rest, rfl, hd, hc, hr⟩ := isPrereleaseId_iff.mp hs
  · exact isPrereleaseId_iff.mpr (.inl (isNumber_countUp hn h))
  · exact isPrereleaseId_countUp_word hd hc hr h

theorem isPrereleaseId_countUpLast {ids next : List String}
    (hi : ∀ id ∈ ids, isPrereleaseId id.toList = true) (h : countUpLast ids = .ok next) :
    ∀ id ∈ next, isPrereleaseId id.toList = true := by
  induction ids generalizing next with
  | nil =>
    cases h
    simp
  | cons id rest ih =>
    simp only [countUpLast, bind, Except.bind, pure, Except.pure] at h
    split at h
    · cases hc : countUp id.toList with
      | error e => simp [hc] at h
      | ok t =>
        simp only [hc, Except.ok.injEq] at h
        have ht := isPrereleaseId_countUp (hi id (by simp)) hc
        have hr : ∀ id ∈ rest, isPrereleaseId id.toList = true := fun x hx => hi x (by simp [hx])
        simpa [← h, ht] using hr
    · cases hc : countUpLast rest with
      | error e => simp [hc] at h
      | ok tail =>
        simp only [hc, Except.ok.injEq] at h
        have ht := ih (fun x hx => hi x (by simp [hx])) hc
        have hid := hi id (by simp)
        simpa [← h, hid] using ht

theorem next_prerelease_eq (hp : v.prerelease ≠ []) : v.next .prerelease =
    (countUpLast v.prerelease.reverse).map fun ids =>
      { v.released with prerelease := ids.reverse } := by
  have he : v.prerelease.isEmpty = false := by simpa using hp
  cases hc : countUpLast v.prerelease.reverse <;>
    simp [next, he, countUpIdentifiers, hc, bind, Except.bind, pure, Except.pure, Except.map]

theorem WellFormed.next (hv : v.WellFormed) {part : VersionPart} (h : v.next part = .ok w) :
    w.WellFormed := by
  have hn {u : Version} (hp : u.prerelease = []) (hb : u.build = []) : u.WellFormed :=
    ⟨by simp [hp], by simp [hb]⟩
  cases part with
  | major =>
    cases h
    split <;> exact hn rfl rfl
  | minor =>
    cases h
    split <;> exact hn rfl rfl
  | patch =>
    cases h
    split <;> exact hn rfl rfl
  | prerelease =>
    by_cases hp : v.prerelease = []
    · have hf : ∀ id ∈ ["rc", "1"], isPrereleaseId id.toList = true := by decide
      rw [Version.next, hp] at h
      cases h
      exact ⟨hf, by simp [nextPatch]⟩
    · rw [next_prerelease_eq hp] at h
      cases hc : countUpLast v.prerelease.reverse with
      | error e => simp [hc, Except.map] at h
      | ok ids =>
        simp only [hc, Except.map, Except.ok.injEq] at h
        have hi := isPrereleaseId_countUpLast
          (fun id hid => hv.prerelease id (List.mem_reverse.mp hid)) hc
        rw [← h]
        exact ⟨fun id hid => hi id (List.mem_reverse.mp hid), by simp [released]⟩

theorem eq_overlong_of_countUp {e : VersionError} (h : countUp s = .error e) : e = .overlong := by
  rw [countUp] at h
  split at h
  · cases h
  · split at h
    · exact (Except.error.inj h).symm
    · split at h
      · exact (Except.error.inj h).symm
      · cases h

theorem eq_overlong_of_countUpLast {ids : List String} {e : VersionError}
    (h : countUpLast ids = .error e) : e = .overlong := by
  induction ids with
  | nil => cases h
  | cons id rest ih =>
    simp only [countUpLast, bind, Except.bind, pure, Except.pure] at h
    split at h
    · cases hc : countUp id.toList with
      | error x =>
        simp only [hc, Except.error.injEq] at h
        exact h ▸ eq_overlong_of_countUp hc
      | ok t => simp [hc] at h
    · cases hc : countUpLast rest with
      | error x =>
        simp only [hc, Except.error.injEq] at h
        exact ih (h ▸ hc)
      | ok tail => simp [hc] at h

/-- Nothing but the digit limit keeps a version from having a next one. -/
theorem exists_next {part : VersionPart} (h : v.next part ≠ .error .overlong) :
    ∃ w, v.next part = .ok w := by
  cases part with
  | major => exact ⟨_, rfl⟩
  | minor => exact ⟨_, rfl⟩
  | patch => exact ⟨_, rfl⟩
  | prerelease =>
    by_cases hp : v.prerelease = []
    · exact ⟨_, by rw [next, hp]; rfl⟩
    · rw [next_prerelease_eq hp] at h ⊢
      cases hc : countUpLast v.prerelease.reverse with
      | error e => simp [hc, eq_overlong_of_countUpLast hc, Except.map] at h
      | ok ids => exact ⟨_, rfl⟩

/-- No number over the digit limit comes up when a version is bumped by some parts in turn. -/
def StaysUnder (v : Version) : List VersionPart → Prop
  | [] => True
  | part :: parts => v.next part ≠ .error .overlong ∧
    ∀ w, v.next part = .ok w → w.Writable ∧ w.StaysUnder parts

theorem StaysUnder.cons {part : VersionPart} {parts : List VersionPart} (h : v.next part = .ok w)
    (hw : w.Writable) (hs : w.StaysUnder parts) : v.StaysUnder (part :: parts) := by
  refine ⟨fun he => ?_, fun u hu => ?_⟩
  · rw [h] at he
    cases he
  · obtain rfl : w = u := Except.ok.inj (h.symm.trans hu)
    exact ⟨hw, hs⟩

end GatewayLauncher.Version

import GatewayLauncher.Manifest
import GatewayLauncher.Text.Lines

namespace GatewayLauncher.Manifest

variable {name heading front s l x y r : List Char} {cut : Cut}

def IsLiteral (l : List Char) : Prop := l ≠ [] ∧ '"' ∉ l

/-- What stands in front of the literal of an assignment. -/
def Opens (name front : List Char) : Prop :=
  ∃ blanks more, front = name ++ blanks ++ '=' :: more ∧
    blanks.all Text.isBlank = true ∧ more.all Text.isBlank = true

theorem afterWord?_append (word rest : List Char) : afterWord? word (word ++ rest) = some rest := by
  simp [afterWord?]

theorem dropWhile_append_cons {p : Char → Bool} {c : Char} (hs : s.all p = true)
    (hc : p c = false) (rest : List Char) : (s ++ c :: rest).dropWhile p = c :: rest := by
  rw [List.dropWhile_append_of_pos (List.all_eq_true.mp hs),
    List.dropWhile_cons_of_neg (by simp [hc])]

theorem takeWhile_append_cons {p : Char → Bool} {c : Char} (hs : s.all p = true)
    (hc : p c = false) (rest : List Char) : (s ++ c :: rest).takeWhile p = s := by
  rw [List.takeWhile_append_of_pos (List.all_eq_true.mp hs),
    List.takeWhile_cons_of_neg (by simp [hc]), List.append_nil]

theorem all_not_isQuote_iff : l.all (!isQuote ·) = true ↔ '"' ∉ l := by
  simp only [List.all_eq_true, isQuote, Bool.not_eq_true', beq_eq_false_iff_ne]
  exact ⟨fun h hq => h _ hq rfl, fun h c hc hq => h (hq ▸ hc)⟩

theorem literal?_eq_some_iff :
    literal? s = some cut ↔ cut.before = [] ∧ IsLiteral cut.literal ∧ s = cut.text := by
  constructor
  · intro h
    have ht := text_of_literal? h
    unfold literal? at h
    split at h
    · split at h
      · split at h
        · cases h
        · rename_i he
          obtain rfl := Option.some.inj h
          exact ⟨rfl, ⟨by simpa using he, all_not_isQuote_iff.mp List.all_takeWhile⟩, ht.symm⟩
      · cases h
    · cases h
  · obtain ⟨before, literal, behind⟩ := cut
    rintro ⟨hb, ⟨hn, hq⟩, rfl⟩
    obtain rfl : before = [] := hb
    have ha := all_not_isQuote_iff.mpr hq
    have ht := takeWhile_append_cons ha (c := '"') rfl behind
    have hd := dropWhile_append_cons ha (c := '"') rfl behind
    simp only [Cut.text, List.nil_append, List.cons_append, literal?, ht, hd]
    simp [hn]

theorem assignment?_eq_some_iff : assignment? name s = some cut ↔
    Opens name cut.before ∧ IsLiteral cut.literal ∧ s = cut.text := by
  constructor
  · intro h
    have ht := text_of_assignment? h
    simp only [assignment?, Option.bind_eq_bind, Option.bind_eq_some_iff, Option.pure_def,
      Option.some.injEq] at h
    obtain ⟨rest, -, value, -, inner, hi, rfl⟩ := h
    obtain ⟨hb, hl, -⟩ := literal?_eq_some_iff.mp hi
    refine ⟨⟨rest.takeWhile Text.isBlank, value.takeWhile Text.isBlank, ?_, List.all_takeWhile,
      List.all_takeWhile⟩, hl, ht.symm⟩
    simp [Cut.within, hb]
  · obtain ⟨before, literal, behind⟩ := cut
    rintro ⟨⟨blanks, more, hb, hs, hm⟩, hl, rfl⟩
    obtain rfl : before = name ++ blanks ++ '=' :: more := hb
    let tail := '"' :: (literal ++ '"' :: behind)
    have ht : (Cut.mk (name ++ blanks ++ '=' :: more) literal behind).text =
        name ++ (blanks ++ '=' :: (more ++ tail)) := by simp [Cut.text, tail]
    have hi : literal? tail = some ⟨[], literal, behind⟩ :=
      literal?_eq_some_iff.mpr ⟨rfl, hl, rfl⟩
    have hv : afterWord? ['='] ('=' :: (more ++ tail)) = some (more ++ tail) :=
      afterWord?_append ['='] _
    have he : Text.isBlank '=' = false := by decide
    have hq : Text.isBlank '"' = false := by decide
    simp only [ht, assignment?, afterWord?_append, Option.bind_eq_bind, Option.bind_some,
      dropWhile_append_cons hs he, takeWhile_append_cons hs he, hv]
    simp only [tail, dropWhile_append_cons hm hq, takeWhile_append_cons hm hq]
    simp [hi, tail, Cut.within]

theorem eq_of_append_quote {a b : List Char} (ha : '"' ∉ a) (hb : '"' ∉ b)
    (h : a ++ '"' :: x = b ++ '"' :: y) : a = b ∧ x = y := by
  have hs : (a, some x) = (b, some y) := by
    rw [← Text.splitFirst_append x ha, h, Text.splitFirst_append y hb]
  simpa using hs

theorem Opens.quote_not_mem (hn : '"' ∉ name) (h : Opens name front) : '"' ∉ front := by
  obtain ⟨blanks, more, rfl, hb, hm⟩ := h
  have hq {s : List Char} (hs : s.all Text.isBlank = true) : '"' ∉ s := fun h =>
    absurd (List.all_eq_true.mp hs _ h) (by decide)
  simp [hn, hq hb, hq hm]

theorem exists_assignment?_of_literal (front : List Char) (hn : '"' ∉ name) (hy : IsLiteral y)
    (h : assignment? name (front ++ '"' :: (x ++ '"' :: r)) = some cut) :
    ∃ other, assignment? name (front ++ '"' :: (y ++ '"' :: r)) = some other := by
  obtain ⟨before, literal, behind⟩ := cut
  obtain ⟨ho, hl, ht⟩ := assignment?_eq_some_iff.mp h
  have hb : '"' ∉ before := ho.quote_not_mem hn
  have ht : front ++ '"' :: (x ++ '"' :: r) = before ++ '"' :: (literal ++ '"' :: behind) := by
    simpa [Cut.text] using ht
  by_cases hf : '"' ∈ front
  · obtain ⟨first, rest, rfl, hq⟩ := List.eq_append_cons_of_mem hf
    obtain ⟨rfl, ht⟩ := eq_of_append_quote hq hb (by simpa using ht)
    by_cases hr : '"' ∈ rest
    · obtain ⟨inner, last, rfl, hi⟩ := List.eq_append_cons_of_mem hr
      obtain ⟨rfl, -⟩ := eq_of_append_quote hi hl.2 (by simpa using ht)
      exact ⟨⟨first, inner, last ++ '"' :: (y ++ '"' :: r)⟩,
        assignment?_eq_some_iff.mpr ⟨ho, hl, by simp [Cut.text]⟩⟩
    · obtain ⟨rfl, -⟩ := eq_of_append_quote hr hl.2 (by simpa using ht)
      exact ⟨⟨first, rest, y ++ '"' :: r⟩,
        assignment?_eq_some_iff.mpr ⟨ho, hl, by simp [Cut.text]⟩⟩
  · obtain ⟨rfl, -⟩ := eq_of_append_quote hf hb ht
    exact ⟨⟨front, y, r⟩, assignment?_eq_some_iff.mpr ⟨ho, hy, by simp [Cut.text]⟩⟩

theorem firstAssignment?_of_assignment? (h : assignment? name s = some cut) :
    firstAssignment? name s = some cut := by
  cases s with
  | nil =>
    have ht := text_of_assignment? h
    simp [Cut.text] at ht
  | cons c s => rw [firstAssignment?, h]

theorem firstAssignment?_replace (hn : '"' ∉ name) (hl : IsLiteral l)
    (h : firstAssignment? name s = some cut) :
    IsLiteral cut.literal ∧ firstAssignment? name (cut.replace l).text = some (cut.replace l) := by
  induction s generalizing cut with
  | nil => cases h
  | cons c s ih =>
    rw [firstAssignment?] at h
    split at h
    · rename_i found ha
      obtain rfl := Option.some.inj h
      obtain ⟨ho, hf, -⟩ := assignment?_eq_some_iff.mp ha
      exact ⟨hf, firstAssignment?_of_assignment? (assignment?_eq_some_iff.mpr ⟨ho, hl, rfl⟩)⟩
    · rename_i ha
      obtain ⟨inner, hi, rfl⟩ := Option.map_eq_some_iff.mp h
      obtain ⟨hf, hr⟩ := ih hi
      have ht := text_of_firstAssignment? hi
      have hc : ((inner.within [c]).replace l).text = c :: (inner.replace l).text := rfl
      -- The same place would have been taken before.
      have hnone : assignment? name (c :: (inner.replace l).text) = none := by
        refine Option.eq_none_iff_forall_ne_some.mpr fun other ho => ?_
        obtain ⟨earlier, he⟩ := exists_assignment?_of_literal (c :: inner.before) (x := l)
          (r := inner.behind) hn hf (by simpa [Cut.text, Cut.replace] using ho)
        have hs : assignment? name (c :: s) = some earlier := by
          rw [← ht]
          simpa [Cut.text] using he
        rw [ha] at hs
        cases hs
      refine ⟨hf, ?_⟩
      rw [hc, firstAssignment?, hnone, hr]
      rfl

theorem afterWord?_eq_some_iff {word rest : List Char} :
    afterWord? word s = some rest ↔ s = word ++ rest :=
  ⟨fun h => (append_of_afterWord? h).symm, fun h => h ▸ afterWord?_append word rest⟩

theorem exists_afterWord?_append {word rest tail : List Char} (other : List Char)
    (hf : word.length ≤ front.length) (h : afterWord? word (front ++ rest) = some tail) :
    ∃ tail', afterWord? word (front ++ other) = some tail' := by
  have hp : word <+: front ++ rest := ⟨tail, append_of_afterWord? h⟩
  obtain ⟨more, rfl⟩ := List.prefix_of_prefix_length_le hp (List.prefix_append front rest) hf
  exact ⟨more ++ other, afterWord?_eq_some_iff.mpr (List.append_assoc ..)⟩

theorem length_le_of_assignmentBehind? (h : assignmentBehind? heading name s = some cut) :
    heading.length ≤ cut.before.length := by
  induction s generalizing cut with
  | nil => cases h
  | cons c s ih =>
    rw [assignmentBehind?] at h
    split at h
    · obtain ⟨inner, -, rfl⟩ := Option.map_eq_some_iff.mp h
      simp [Cut.within]
    · obtain ⟨inner, hi, rfl⟩ := Option.map_eq_some_iff.mp h
      have hb := ih hi
      simp only [Cut.within, List.length_append, List.length_singleton]
      omega

theorem assignmentBehind?_append {rest : List Char} (hh : heading ≠ []) :
    assignmentBehind? heading name (heading ++ rest) =
      (firstAssignment? name rest).map (Cut.within heading) := by
  have ha := afterWord?_append heading rest
  cases hs : heading ++ rest with
  | nil => simp [hh] at hs
  | cons c s => rw [assignmentBehind?, ← hs, ha]

/-- The first assignment behind the first heading is still that when its literal is another one. -/
theorem assignmentBehind?_replace (hh : heading ≠ []) (hn : '"' ∉ name) (hl : IsLiteral l)
    (h : assignmentBehind? heading name s = some cut) :
    IsLiteral cut.literal ∧
      assignmentBehind? heading name (cut.replace l).text = some (cut.replace l) := by
  induction s generalizing cut with
  | nil => cases h
  | cons c s ih =>
    rw [assignmentBehind?] at h
    split at h
    · rename_i rest hr
      obtain ⟨inner, hi, rfl⟩ := Option.map_eq_some_iff.mp h
      obtain ⟨hf, hr⟩ := firstAssignment?_replace hn hl hi
      refine ⟨hf, ?_⟩
      rw [Cut.replace_within, Cut.text_within, assignmentBehind?_append hh, hr]
      rfl
    · rename_i ha
      obtain ⟨inner, hi, rfl⟩ := Option.map_eq_some_iff.mp h
      obtain ⟨hf, hr⟩ := ih hi
      have ht := text_of_assignmentBehind? hi
      have hc : ((inner.within [c]).replace l).text = c :: (inner.replace l).text := rfl
      -- The heading of the cut is in front of its literal, and so is one that starts earlier.
      have hnone : afterWord? heading (c :: (inner.replace l).text) = none := by
        refine Option.eq_none_iff_forall_ne_some.mpr fun other ho => ?_
        have hb : heading.length ≤ (c :: inner.before).length :=
          Nat.le_succ_of_le (length_le_of_assignmentBehind? hi)
        obtain ⟨earlier, he⟩ := exists_afterWord?_append
          ('"' :: inner.literal ++ '"' :: inner.behind) hb
          (by simpa [Cut.text, Cut.replace] using ho)
        have hs : afterWord? heading (c :: s) = some earlier := by
          rw [← ht]
          simpa [Cut.text] using he
        rw [ha] at hs
        cases hs
      refine ⟨hf, ?_⟩
      rw [hc, assignmentBehind?, hnone, hr]
      rfl

/-- A search for a literal that cuts the text, and cuts it in the same place again when another
    literal has been put there. -/
structure Steady (find : List Char → Option Cut) : Prop where
  text : ∀ s cut, find s = some cut → cut.text = s
  replace : ∀ s cut l, find s = some cut → IsLiteral l →
    find (cut.replace l).text = some (cut.replace l)

theorem steady_projectVersion? : Steady projectVersion? where
  text _ _ h := text_of_assignmentBehind? h
  replace _ _ _ h hl := (assignmentBehind?_replace (by decide) (by decide) hl h).2

theorem steady_packageVersion? : Steady packageVersion? where
  text _ _ h := text_of_firstAssignment? h
  replace _ _ _ h hl := (firstAssignment?_replace (by decide) hl h).2

end GatewayLauncher.Manifest

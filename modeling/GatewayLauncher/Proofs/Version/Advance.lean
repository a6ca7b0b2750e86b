import GatewayLauncher.Proofs.Version.Next
import GatewayLauncher.Proofs.Version.Precedence
import Mathlib.Data.String.Basic

namespace GatewayLauncher.Version

variable {v w : Version} {s t number behind : List Char} {id : String} {ids next : List String}

theorem numeral_append (s t : List Char) :
    Text.numeral (s ++ t) = Text.numeral s * 10 ^ t.length + Text.numeral t := by
  induction t using List.reverseRecOn with
  | nil => simp [Text.numeral]
  | append_singleton t c ih =>
    rw [← List.append_assoc, Text.numeral_concat, Text.numeral_concat, ih, List.length_append,
      List.length_singleton, Nat.pow_succ, Nat.mul_add, Nat.add_assoc]
    congr 1
    rw [Nat.mul_comm, Nat.mul_assoc]

theorem numeral_cons (c : Char) (s : List Char) :
    Text.numeral (c :: s) = (Text.digit? c).getD 0 * 10 ^ s.length + Text.numeral s := by
  have h := numeral_append [c] s
  simpa [Text.numeral] using h

theorem lt_iff_of_isDigit {c d : Char} (hc : c.isDigit = true) (hd : d.isDigit = true) :
    c < d ↔ (Text.digit? c).getD 0 < (Text.digit? d).getD 0 := by
  simp only [Char.isDigit, ge_iff_le, Bool.and_eq_true, decide_eq_true_eq] at hc hd
  rw [Text.digit?_of_ascii hc.1 hc.2, Text.digit?_of_ascii hd.1 hd.2, Option.getD_some,
    Option.getD_some]
  have hc' : 48 ≤ c.toNat := UInt32.le_iff_toNat_le.mp hc.1
  have hd' : 48 ≤ d.toNat := UInt32.le_iff_toNat_le.mp hd.1
  have hlt : c < d ↔ c.toNat < d.toNat := UInt32.lt_iff_toNat_lt
  rw [hlt]
  omega

theorem eq_of_isDigit {c d : Char} (hc : c.isDigit = true) (hd : d.isDigit = true)
    (h : (Text.digit? c).getD 0 = (Text.digit? d).getD 0) : c = d := by
  have hcd : ¬c < d := fun hlt => by
    have := (lt_iff_of_isDigit hc hd).mp hlt
    omega
  have hdc : ¬d < c := fun hlt => by
    have := (lt_iff_of_isDigit hd hc).mp hlt
    omega
  exact Char.le_antisymm (Char.not_lt.mp hdc) (Char.not_lt.mp hcd)

/-- Rows of as many ASCII digits are in the same order as texts and as numbers, whatever is behind
    them. -/
theorem append_lt_append_of_numeral_lt (hs : s.all Char.isDigit = true)
    (ht : t.all Char.isDigit = true) (hl : s.length = t.length)
    (h : Text.numeral s < Text.numeral t) (x y : List Char) : s ++ x < t ++ y := by
  induction s generalizing t with
  | nil =>
    obtain rfl := List.length_eq_zero_iff.mp hl.symm
    exact absurd h (lt_irrefl _)
  | cons c s ih =>
    cases t with
    | nil => cases hl
    | cons d t =>
      simp only [List.all_cons, Bool.and_eq_true] at hs ht
      have hl : s.length = t.length := Nat.succ.inj hl
      have hsl := Text.numeral_lt s
      have htl := Text.numeral_lt t
      rw [numeral_cons, numeral_cons, hl] at h
      rw [hl] at hsl
      rw [List.cons_append, List.cons_append, List.cons_lt_cons_iff]
      rcases lt_trichotomy ((Text.digit? c).getD 0) ((Text.digit? d).getD 0) with hcd | hcd | hcd
      · exact .inl ((lt_iff_of_isDigit hs.1 ht.1).mpr hcd)
      · refine .inr ⟨eq_of_isDigit hs.1 ht.1 hcd, ih hs.2 ht.2 hl ?_⟩
        rw [hcd] at h
        omega
      · -- A greater first digit outweighs everything behind it.
        have hm := Nat.mul_le_mul_right (10 ^ t.length) hcd
        rw [Nat.succ_mul] at hm
        omega

/-- What a row of digits becomes when it is counted up. -/
def following (number : List Char) : List Char :=
  let next := Nat.toDigits 10 (Text.numeral number + 1)
  number.take (number.length - next.length) ++ next

theorem digit?_eq_nine_iff {c : Char} (hc : c.isDigit = true) :
    (Text.digit? c).getD 0 = 9 ↔ c = '9' := by
  constructor
  · intro h
    exact eq_of_isDigit hc (by decide) h
  · rintro rfl
    decide

/-- A number of ASCII digits keeps its length when it is counted up, unless it is all nines. -/
theorem succ_numeral_lt_iff (hs : s.all Char.isDigit = true) :
    Text.numeral s + 1 < 10 ^ s.length ↔ ∃ c ∈ s, c ≠ '9' := by
  induction s using List.reverseRecOn with
  | nil => simp [Text.numeral]
  | append_singleton s c ih =>
    simp only [List.all_append, List.all_cons, List.all_nil, Bool.and_true,
      Bool.and_eq_true] at hs
    have hlt := Text.numeral_lt s
    have hc := Text.getD_digit?_lt c
    have hx : (∃ d ∈ s ++ [c], d ≠ '9') ↔ (∃ d ∈ s, d ≠ '9') ∨ c ≠ '9' := by
      simp [or_and_right, exists_or]
    rw [Text.numeral_concat, List.length_append, List.length_singleton, Nat.pow_succ, hx,
      ← ih hs.1, ne_eq, ← digit?_eq_nine_iff hs.2]
    omega

theorem lt_nine_of_numeral_le {d : Char} (hd : d.isDigit = true)
    (h : Text.numeral (d :: s) ≤ 10 ^ s.length) : d < '9' := by
  have hp : 0 < 10 ^ s.length := Nat.pow_pos (by decide)
  rw [numeral_cons] at h
  rw [lt_iff_of_isDigit hd (by decide)]
  refine Nat.lt_of_not_le fun hle => ?_
  have hm := Nat.mul_le_mul_right (10 ^ s.length) hle
  have h9 : (Text.digit? '9').getD 0 = 9 := by decide
  rw [h9] at hm
  omega

theorem all_isDigit_toDigits (n : Nat) : (Nat.toDigits 10 n).all Char.isDigit = true :=
  List.all_eq_true.mpr fun _ hc => Nat.isDigit_of_mem_toDigits (by decide) (by decide) hc

/-- In ASCII digits, a text gets a later one by counting up a number in it exactly if that number is
    not all nines: all nines become a longer number that starts with a one. -/
theorem append_lt_following_iff (hn : number ≠ []) (hs : number.all Char.isDigit = true)
    (behind : List Char) :
    number ++ behind < following number ++ behind ↔ ∃ c ∈ number, c ≠ '9' := by
  have hlen : 0 < number.length := List.length_pos_iff.mpr hn
  rw [← succ_numeral_lt_iff hs]
  generalize hx : Nat.toDigits 10 (Text.numeral number + 1) = next
  have hnext : next.all Char.isDigit = true := hx ▸ all_isDigit_toDigits _
  have hval : Text.numeral next = Text.numeral number + 1 := hx ▸ Text.numeral_toDigits _
  have hle : next.length ≤ number.length ↔ Text.numeral number + 1 < 10 ^ number.length :=
    hx ▸ Nat.length_toDigits_le_iff (by decide) hlen
  have hf : following number = number.take (number.length - next.length) ++ next := by
    rw [following, hx]
  rw [hf]
  constructor
  · intro h
    by_contra hgt
    -- All nines become a longer number, and that starts below nine.
    have hnines : ∀ c ∈ number, c = '9' := fun c hc => by
      by_contra hne
      exact hgt ((succ_numeral_lt_iff hs).mpr ⟨c, hc, hne⟩)
    have hl : number.length < next.length := Nat.lt_of_not_le fun hl => hgt (hle.mp hl)
    rw [Nat.sub_eq_zero_of_le hl.le, List.take_zero, List.nil_append] at h
    obtain ⟨c, cs, rfl⟩ := List.exists_cons_of_ne_nil hn
    obtain ⟨d, ds, rfl⟩ := List.exists_cons_of_length_pos (Nat.zero_lt_of_lt hl)
    obtain rfl := hnines c (by simp)
    have hv : Text.numeral (d :: ds) ≤ 10 ^ ds.length := by
      calc Text.numeral (d :: ds) ≤ 10 ^ ('9' :: cs).length := hval ▸ Text.numeral_lt ('9' :: cs)
        _ ≤ 10 ^ ds.length := Nat.pow_le_pow_right (by decide) (Nat.le_of_lt_succ hl)
    have hd : d < '9' := lt_nine_of_numeral_le (List.all_eq_true.mp hnext d (by simp)) hv
    rw [List.cons_append, List.cons_append, List.cons_lt_cons_iff] at h
    obtain h | ⟨h, -⟩ := h
    · exact Char.lt_asymm h hd
    · exact Char.ne_of_lt hd h.symm
  · intro h
    -- Otherwise the length stays, and the numbers decide.
    have hl := hle.mpr h
    have hk : number.length = (number.take (number.length - next.length) ++ next).length := by
      rw [List.length_append, List.length_take]
      omega
    have hd : (number.take (number.length - next.length) ++ next).all Char.isDigit = true := by
      rw [List.all_append, Bool.and_eq_true]
      exact ⟨List.all_eq_true.mpr fun c hc =>
        List.all_eq_true.mp hs c (List.mem_of_mem_take hc), hnext⟩
    refine append_lt_append_of_numeral_lt hs hd hk ?_ behind behind
    rw [numeral_append, hval]
    exact Nat.lt_of_lt_of_le (Nat.lt_succ_self _) (Nat.le_add_left _ _)

def hasDigit (id : String) : Bool := id.toList.any Text.isDigit

/-- Counting up raises a number. It raises a word of ASCII digits unless the last number in it is
    all nines; with digits of other scripts the texts decide. -/
def Rises (id : String) : Prop :=
  id.toList.all Text.isDigit = true ∨
    ∃ before number behind, lastNumber? id.toList = some (before, number, behind) ∧
      if number.all Char.isDigit then ∃ c ∈ number, c ≠ '9'
      else number ++ behind < following number ++ behind

theorem isSome_lastNumber? (h : s.any Text.isDigit = true) : (lastNumber? s).isSome = true := by
  obtain ⟨c, hc, hd⟩ := List.any_eq_true.mp h
  -- The search from the end stops at a digit, so that the row of digits there is not empty.
  have hne : s.reverse.dropWhile (fun c => !Text.isDigit c) ≠ [] := by
    intro he
    have hall := List.dropWhile_eq_nil_iff.mp he c (List.mem_reverse.mpr hc)
    rw [hd] at hall
    cases hall
  obtain ⟨d, rest, hr⟩ := List.exists_cons_of_ne_nil hne
  have hf : Text.isDigit d = true := by
    have hh := List.head_dropWhile_not (fun c => !Text.isDigit c) hne
    simpa [hr] using hh
  simp only [lastNumber?, hr, List.takeWhile_cons_of_pos hf, List.isEmpty_cons]
  rfl

theorem of_countUp (hd : s.any Text.isDigit = true) (h : countUp s = .ok t) :
    ∃ before number behind, lastNumber? s = some (before, number, behind) ∧
      t = before ++ (following number ++ behind) ∧ number.length ≤ Text.digitLimit ∧
      Text.numeral number + 1 < 10 ^ Text.digitLimit := by
  obtain ⟨⟨before, number, behind⟩, hl⟩ := Option.isSome_iff_exists.mp (isSome_lastNumber? hd)
  refine ⟨before, number, behind, hl, ?_⟩
  simp only [countUp, hl, Text.numeral?] at h
  split at h
  · cases h
  · rename_i n hn
    split at hn
    · rename_i hlen
      obtain rfl := Option.some.inj hn
      split at h
      · cases h
      · rename_i next hw
        obtain ⟨hlt, rfl⟩ := Text.writeNat?_eq_some_iff.mp hw
        exact ⟨by simpa [following] using (Except.ok.inj h).symm, hlen, hlt⟩
    · cases hn

theorem rank?_word (h : s.all Text.isDigit = false) :
    rank? (String.ofList s) = some (.word (String.ofList s)) := by
  simp [rank?, h]

theorem rank?_number (hn : s ≠ []) (h : s.all Text.isDigit = true)
    (hl : s.length ≤ Text.digitLimit) :
    rank? (String.ofList s) = some (.number (Text.numeral s)) := by
  simp [rank?, h, hn, Text.numeral?, hl]

theorem all_following_eq_false {before : List Char}
    (hl : lastNumber? s = some (before, number, behind)) (hs : s.all Text.isDigit = false) :
    (before ++ (following number ++ behind)).all Text.isDigit = false := by
  obtain ⟨rfl, -, hn⟩ := of_lastNumber? hl
  simp only [List.all_append, hn, Bool.true_and] at hs ⊢
  rw [Bool.and_left_comm, hs, Bool.and_false]

theorem append_lt_append_left_iff (before : List Char) :
    before ++ s < before ++ t ↔ s < t := by
  induction before with
  | nil => rfl
  | cons c before ih => rw [List.cons_append, List.cons_append, List.cons_lt_cons_self, ih]

theorem compare_word_iff (hd : s.any Text.isDigit = true) (hw : s.all Text.isDigit = false)
    (h : countUp s = .ok t) :
    compare (String.ofList s) (String.ofList t) = .lt ↔ Rises (String.ofList s) := by
  obtain ⟨before, number, behind, hl, rfl, -⟩ := of_countUp hd h
  obtain ⟨hs, hn, -⟩ := of_lastNumber? hl
  rw [compare_lt_iff_lt, String.lt_iff, String.toList_ofList, String.toList_ofList]
  have hr : Rises (String.ofList s) ↔ if number.all Char.isDigit then ∃ c ∈ number, c ≠ '9'
      else number ++ behind < following number ++ behind := by
    simp [Rises, hw, hl]
  rw [hr, hs, append_lt_append_left_iff]
  split
  · rename_i ha
    exact append_lt_following_iff hn ha behind
  · rfl

theorem countUp_number (hi : isPrereleaseId s = true) (hs : s.all Text.isDigit = true)
    (h : countUp s = .ok t) : s.length ≤ Text.digitLimit ∧ t ≠ [] ∧ t.all Text.isDigit = true ∧
      t.length ≤ Text.digitLimit ∧ Text.numeral t = Text.numeral s + 1 := by
  have hnum : isNumber s = true := by
    obtain hi | ⟨digits, c, rest, rfl, -, hc, -⟩ := isPrereleaseId_iff.mp hi
    · exact hi
    · have hcd := List.all_eq_true.mp hs c (by simp)
      rw [not_isDigit_of_isAlpha hc] at hcd
      cases hcd
  have hne : s ≠ [] := by
    rintro rfl
    cases hnum
  have hany : s.any Text.isDigit = true := by
    obtain ⟨c, rest, rfl⟩ := List.exists_cons_of_ne_nil hne
    exact List.any_eq_true.mpr ⟨c, by simp, List.all_eq_true.mp hs c (by simp)⟩
  obtain ⟨before, number, behind, hl, rfl, hlen, hlt⟩ := of_countUp hany h
  rw [lastNumber?_of_all hne hs, Option.some.injEq, Prod.mk.injEq, Prod.mk.injEq] at hl
  obtain ⟨rfl, rfl, rfl⟩ := hl
  -- The next number is not shorter, so that nothing of the old one is left over.
  have hf : following s = Nat.toDigits 10 (Text.numeral s + 1) := by
    rw [following, Nat.sub_eq_zero_of_le (length_le_toDigits_succ hnum), List.take_zero,
      List.nil_append]
  rw [hf, List.nil_append, List.append_nil]
  exact ⟨hlen, Nat.toDigits_ne_nil, List.all_eq_true.mpr fun c => Text.isDigit_of_mem_toDigits,
    (Nat.length_toDigits_le_iff (by decide) (by decide)).mpr hlt, Text.numeral_toDigits _⟩

/-- The rank of an identifier that is counted up gets higher exactly if the identifier rises. -/
theorem rank?_countUp (hi : isPrereleaseId s = true) (hd : s.any Text.isDigit = true)
    (h : countUp s = .ok t) : ∃ x y, rank? (String.ofList s) = some x ∧
      rank? (String.ofList t) = some y ∧ (x.compare y = .lt ↔ Rises (String.ofList s)) := by
  cases hs : s.all Text.isDigit with
  | true =>
    obtain ⟨hsl, htn, ht, htl, hx⟩ := countUp_number hi hs h
    have hsn : s ≠ [] := by
      rintro rfl
      cases hd
    refine ⟨_, _, rank?_number hsn hs hsl, rank?_number htn ht htl, ?_⟩
    rw [hx, Rank.compare, Nat.compare_eq_lt]
    exact iff_of_true (Nat.lt_succ_self _) (.inl (by rw [String.toList_ofList, hs]))
  | false =>
    obtain ⟨before, number, behind, hl, ht, -⟩ := of_countUp hd h
    have hw := all_following_eq_false hl hs
    rw [← ht] at hw
    exact ⟨_, _, rank?_word hs, rank?_word hw, compare_word_iff hd hs h⟩

theorem countUpLast_cases (h : countUpLast ids = .ok next) :
    (ids.find? hasDigit = none ∧ next = ids) ∨
    ∃ behind id front t, ids.find? hasDigit = some id ∧ ids = behind ++ id :: front ∧
      countUp id.toList = .ok t ∧ next = behind ++ String.ofList t :: front := by
  induction ids generalizing next with
  | nil => exact .inl ⟨rfl, (Except.ok.inj h).symm⟩
  | cons id rest ih =>
    simp only [countUpLast, bind, Except.bind, pure, Except.pure] at h
    split at h
    · rename_i hd
      cases hc : countUp id.toList with
      | error e => simp [hc] at h
      | ok t =>
        simp only [hc, Except.ok.injEq] at h
        exact .inr ⟨[], id, rest, t, List.find?_cons_of_pos hd, rfl, hc, h.symm⟩
    · rename_i hd
      have hf := List.find?_cons_of_neg (p := hasDigit) (l := rest) hd
      cases hc : countUpLast rest with
      | error e => simp [hc] at h
      | ok tail =>
        simp only [hc, Except.ok.injEq] at h
        obtain ⟨hn, rfl⟩ | ⟨behind, id', front, t, hs, rfl, ht, rfl⟩ := ih hc
        · exact .inl ⟨hf.trans hn, h.symm⟩
        · exact .inr ⟨id :: behind, id', front, t, hf.trans hs, rfl, ht, h.symm⟩

theorem compareRanks_append (front behind : List Rank) (x y : Rank) :
    compareRanks (front ++ x :: behind) (front ++ y :: behind) = x.compare y := by
  induction front with
  | nil =>
    have hb : compareRanks behind behind = .eq := Std.ReflCmp.compare_self
    rw [List.nil_append, List.nil_append, compareRanks, hb]
    exact Ordering.then_eq
  | cons z front ih =>
    have hz : z.compare z = .eq := Std.ReflCmp.compare_self
    rw [List.cons_append, List.cons_append, compareRanks, hz, ih, Ordering.then]

/-- The next version is the release with the same numbers. -/
def Finalizes (v : Version) : VersionPart → Prop
  | .major => v.isRelease = false ∧ v.minor = 0 ∧ v.patch = 0
  | .minor => v.isRelease = false ∧ v.patch = 0
  | .patch => v.isRelease = false
  | .prerelease => False

/-- What it takes for the next version to be above this one. Where a number is counted up, nothing.
    A release has to follow a prerelease, and not a build alone. In a prerelease, the last
    identifier with a digit has to rise. -/
def Advances (v : Version) (part : VersionPart) : Prop :=
  (v.Finalizes part → v.prerelease ≠ [] ∧ v.IsReadable) ∧
  (part = .prerelease → v.prerelease ≠ [] →
    v.IsReadable ∧ ∃ id, v.prerelease.reverse.find? hasDigit = some id ∧ Rises id)

theorem isBelow_of_compareNumbers (h : compareNumbers v w = .lt) : v.isBelow w = .ok true := by
  rw [isBelow, compare?, h]
  rfl

theorem isBelow_iff_of_sameNumbers (h : v.SameNumbers w) : v.isBelow w = .ok true ↔
    ∃ xs ys, v.prerelease.mapM rank? = some xs ∧ w.prerelease.mapM rank? = some ys ∧
      comparePrerelease xs ys = .lt := by
  have hc := compareNumbers_eq_eq_iff.mpr h
  cases hx : v.prerelease.mapM rank? with
  | none => simp [isBelow, compare?, hc, hx, bind, Except.bind]
  | some xs =>
    cases hy : w.prerelease.mapM rank? with
    | none => simp [isBelow, compare?, hc, hx, hy, bind, Except.bind]
    | some ys => simp [isBelow, compare?, hc, hx, hy, bind, Except.bind, pure, Except.pure]

theorem eq_nil_of_mapM_rank? {xs : List Rank} (h : ids.mapM rank? = some xs) :
    xs = [] ↔ ids = [] := by
  cases ids with
  | nil =>
    obtain rfl := Option.some.inj h
    simp
  | cons id ids =>
    rw [List.mapM_cons, Option.bind_eq_bind, Option.bind_eq_some_iff] at h
    obtain ⟨x, -, h⟩ := h
    rw [Option.bind_eq_bind, Option.bind_eq_some_iff] at h
    obtain ⟨xs', -, h⟩ := h
    obtain rfl := Option.some.inj h
    simp

theorem isBelow_released_iff (v : Version) :
    v.isBelow v.released = .ok true ↔ v.prerelease ≠ [] ∧ v.IsReadable := by
  have hs : v.SameNumbers v.released := ⟨rfl, rfl, rfl⟩
  rw [isBelow_iff_of_sameNumbers hs, isReadable_iff]
  have hr : v.released.prerelease.mapM rank? = some [] := rfl
  constructor
  · rintro ⟨xs, ys, hx, hy, hc⟩
    obtain rfl : [] = ys := Option.some.inj (hr.symm.trans hy)
    refine ⟨fun hn => ?_, by rw [hx]; rfl⟩
    obtain rfl := (eq_nil_of_mapM_rank? hx).mpr hn
    cases hc
  · rintro ⟨hn, hs⟩
    obtain ⟨xs, hx⟩ := Option.isSome_iff_exists.mp hs
    refine ⟨xs, [], hx, hr, ?_⟩
    cases xs with
    | nil => exact absurd ((eq_nil_of_mapM_rank? hx).mp rfl) hn
    | cons x xs => rfl

theorem mapM_rank?_append_iff {front behind : List String} {zs : List Rank} :
    (front ++ id :: behind).mapM rank? = some zs ↔ ∃ fs x bs, front.mapM rank? = some fs ∧
      rank? id = some x ∧ behind.mapM rank? = some bs ∧ zs = fs ++ x :: bs := by
  simp only [List.mapM_append, List.mapM_cons, Option.bind_eq_bind, Option.bind_eq_some_iff,
    Option.pure_def, Option.some.injEq]
  constructor
  · rintro ⟨fs, hf, xs, ⟨x, hx, bs, hb, rfl⟩, rfl⟩
    exact ⟨fs, x, bs, hf, hx, hb, rfl⟩
  · rintro ⟨fs, x, bs, hf, hx, hb, rfl⟩
    exact ⟨fs, hf, x :: bs, ⟨x, hx, bs, hb, rfl⟩, rfl⟩

theorem comparePrerelease_append (front behind : List Rank) (x y : Rank) :
    comparePrerelease (front ++ x :: behind) (front ++ y :: behind) = x.compare y := by
  rw [← compareRanks_append front behind x y]
  cases front <;> rfl

theorem isBelow_countUp_iff (hs : v.SameNumbers w) {front behind : List String}
    (hi : isPrereleaseId id.toList = true) (hd : hasDigit id = true)
    (h : countUp id.toList = .ok t) (hv : v.prerelease = front ++ id :: behind)
    (hw : w.prerelease = front ++ String.ofList t :: behind) :
    v.isBelow w = .ok true ↔ v.IsReadable ∧ Rises id := by
  obtain ⟨x, y, hx, hy, hxy⟩ := rank?_countUp hi hd h
  rw [String.ofList_toList] at hx hxy
  rw [isBelow_iff_of_sameNumbers hs, isReadable_iff, hv, hw, Option.isSome_iff_exists]
  simp only [mapM_rank?_append_iff, hx, hy, ← hxy]
  constructor
  · rintro ⟨_, _, ⟨fs, x', bs, hf, hx', hb, rfl⟩, ⟨fs', y', bs', hf', hy', hb', rfl⟩, hc⟩
    obtain rfl := Option.some.inj (hf.symm.trans hf')
    obtain rfl := Option.some.inj (hb.symm.trans hb')
    cases hx'
    cases hy'
    rw [comparePrerelease_append] at hc
    exact ⟨⟨_, fs, x, bs, hf, rfl, hb, rfl⟩, hc⟩
  · rintro ⟨⟨_, fs, x', bs, hf, hx', hb, rfl⟩, hc⟩
    cases hx'
    refine ⟨_, _, ⟨fs, x, bs, hf, rfl, hb, rfl⟩, ⟨fs, y, bs, hf, rfl, hb, rfl⟩, ?_⟩
    rw [comparePrerelease_append, hc]

theorem not_isBelow_of_eq (hs : v.SameNumbers w) (h : w.prerelease = v.prerelease) :
    v.isBelow w ≠ .ok true := by
  rw [ne_eq, isBelow_iff_of_sameNumbers hs, h]
  rintro ⟨xs, ys, hx, hy, hc⟩
  obtain rfl := Option.some.inj (hx.symm.trans hy)
  have hs : comparePrerelease xs xs = .eq := Std.ReflCmp.compare_self
  cases hs.symm.trans hc

theorem isBelow_next_prerelease_iff (hv : v.WellFormed) (hp : v.prerelease ≠ [])
    (h : v.next .prerelease = .ok w) : v.isBelow w = .ok true ↔
      v.IsReadable ∧ ∃ id, v.prerelease.reverse.find? hasDigit = some id ∧ Rises id := by
  rw [next_prerelease_eq hp] at h
  cases hc : countUpLast v.prerelease.reverse with
  | error e => simp [hc, Except.map] at h
  | ok ids =>
    obtain rfl : { v.released with prerelease := ids.reverse } = w := by
      simpa [hc, Except.map] using h
    have hs : v.SameNumbers { v.released with prerelease := ids.reverse } := ⟨rfl, rfl, rfl⟩
    obtain ⟨hf, rfl⟩ | ⟨behind, id, front, t, hf, hr, ht, rfl⟩ := countUpLast_cases hc
    · simp only [hf, reduceCtorEq, false_and, exists_false, and_false, iff_false]
      exact not_isBelow_of_eq hs (List.reverse_reverse _)
    · have hids : v.prerelease = front.reverse ++ id :: behind.reverse := by
        rw [← List.reverse_reverse v.prerelease, hr]
        simp
      have hi := hv.prerelease id (by simp [hids])
      have hd : hasDigit id = true := List.find?_some hf
      rw [isBelow_countUp_iff hs hi hd ht hids (by simp), hf]
      simp

theorem next_of_finalizes {part : VersionPart} (h : v.Finalizes part) :
    v.next part = .ok v.released := by
  cases part with
  | major =>
    obtain ⟨hr, hx, hy⟩ := h
    simp [next, hr, hx, hy]
  | minor =>
    obtain ⟨hr, hx⟩ := h
    simp [next, hr, hx]
  | patch =>
    have hr : v.isRelease = false := h
    simp [next, hr]
  | prerelease => exact h.elim

theorem compareNumbers_next {part : VersionPart} (hf : ¬v.Finalizes part)
    (hp : part = .prerelease → v.prerelease = []) (h : v.next part = .ok w) :
    compareNumbers v w = .lt := by
  cases part with
  | major =>
    have hc : ¬((!v.isRelease && v.minor == 0 && v.patch == 0) = true) := by
      simpa [Finalizes, and_assoc] using hf
    rw [next, if_neg hc] at h
    obtain rfl := Except.ok.inj h
    simp [compareNumbers, nextMajor, Nat.compare_eq_lt.mpr]
  | minor =>
    have hc : ¬((!v.isRelease && v.patch == 0) = true) := by
      simpa [Finalizes] using hf
    rw [next, if_neg hc] at h
    obtain rfl := Except.ok.inj h
    simp [compareNumbers, nextMinor, Nat.compare_eq_lt.mpr]
  | patch =>
    have hc : ¬((!v.isRelease) = true) := by
      simpa [Finalizes] using hf
    rw [next, if_neg hc] at h
    obtain rfl := Except.ok.inj h
    simp [compareNumbers, nextPatch, Nat.compare_eq_lt.mpr]
  | prerelease =>
    rw [next, hp rfl] at h
    obtain rfl := Except.ok.inj h
    simp [compareNumbers, nextPatch, Nat.compare_eq_lt.mpr]

/-- When the next version is above the one before it. -/
theorem isBelow_next_iff (hv : v.WellFormed) {part : VersionPart} (h : v.next part = .ok w) :
    v.isBelow w = .ok true ↔ v.Advances part := by
  by_cases hf : v.Finalizes part
  · obtain rfl := Except.ok.inj ((next_of_finalizes hf).symm.trans h)
    have hp : part ≠ .prerelease := by
      rintro rfl
      exact hf
    rw [isBelow_released_iff]
    exact ⟨fun hb => ⟨fun _ => hb, fun hx => absurd hx hp⟩, fun ha => ha.1 hf⟩
  · by_cases hp : part = .prerelease ∧ v.prerelease ≠ []
    · obtain ⟨rfl, hp⟩ := hp
      rw [isBelow_next_prerelease_iff hv hp h]
      exact ⟨fun hb => ⟨fun hx => absurd hx hf, fun _ _ => hb⟩, fun ha => ha.2 rfl hp⟩
    · -- In every other case one of the three numbers is counted up.
      have hn : part = .prerelease → v.prerelease = [] := fun hx => by
        by_contra hne
        exact hp ⟨hx, hne⟩
      refine iff_of_true (isBelow_of_compareNumbers (compareNumbers_next hf hn h)) ?_
      exact ⟨fun hx => absurd hx hf, fun hx hne => absurd (hn hx) hne⟩

end GatewayLauncher.Version

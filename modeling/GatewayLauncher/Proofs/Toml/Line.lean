import GatewayLauncher.Proofs.Toml.Reader

namespace GatewayLauncher.Toml

variable {α β : Type} {s e : List Char} {c d : Char}

/-- A control character, but for the tab, or an equals sign. -/
def isStop (c : Char) : Bool := c == '=' || !allowed false c

theorem ne_of_isStop (h : isStop c = true) (hd : isStop d = false) : c ≠ d := by
  rintro rfl
  rw [h] at hd
  cases hd

/-- A range of printable characters on one side of the equals sign has no stop in it. -/
theorem between_eq_false {a b : Char} (h : isStop c = true) (ha : ' ' < a) (hb : b < '~')
    (hne : b < '=' ∨ '=' < a) : (a ≤ c && c ≤ b) = false := by
  rw [← Bool.not_eq_true, Bool.and_eq_true, decide_eq_true_eq, decide_eq_true_eq]
  rintro ⟨hac, hcb⟩
  have hac : a.toNat ≤ c.toNat := UInt32.le_iff_toNat_le.mp hac
  have hcb : c.toNat ≤ b.toNat := UInt32.le_iff_toNat_le.mp hcb
  have ha : 32 < a.toNat := UInt32.lt_iff_toNat_lt.mp ha
  have hb : b.toNat < 126 := UInt32.lt_iff_toNat_lt.mp hb
  have hne : c ≠ '=' := by
    rintro rfl
    obtain hne | hne := hne
    · have hne : b.toNat < 61 := UInt32.lt_iff_toNat_lt.mp hne
      have : '='.toNat = 61 := rfl
      omega
    · have hne : 61 < a.toNat := UInt32.lt_iff_toNat_lt.mp hne
      have : '='.toNat = 61 := rfl
      omega
  have hc : isStop c = false := by
    have h32 : ¬c.toNat < 32 := by omega
    have h127 : c.toNat ≠ 127 := by omega
    simp [isStop, allowed, isControl, hne, h32, h127]
  rw [hc] at h
  cases h

theorem isDigit_of_isStop (h : isStop c = true) : c.isDigit = false :=
  between_eq_false h (by decide) (by decide) (.inl (by decide : '9' < '='))

theorem not_starts_append {w : List Char} (hw : w.any isStop = false)
    (hc : isStop c = true) (hs : ∀ rest, s = w ++ rest → False) (e : List Char) :
    ∀ rest, s ++ c :: e = w ++ rest → False := by
  intro rest h
  obtain ⟨u, rfl, hu⟩ | ⟨u, rfl, -⟩ := List.append_eq_append_iff.mp h
  · cases u with
    | nil => exact hs [] (by simp)
    | cons d u =>
      obtain rfl := (List.cons.inj hu).1
      exact absurd hc (List.any_eq_false.mp hw c (by simp))
  · exact hs u rfl

/-- The text `e` stays behind what is left. -/
def behind (e : List Char) (r : α × List Char) : α × List Char := (r.1, r.2 ++ e)

/-- A reader takes the first stop for the end of the text. -/
def InLine (R : List Char → Option (α × List Char)) : Prop :=
  ∀ s c e, isStop c = true → R (s ++ c :: e) = (R s).map (behind (c :: e))

namespace InLine

variable {R : List Char → Option (α × List Char)}

theorem none : InLine fun _ => (none : Option (α × List Char)) := fun _ _ _ _ => rfl

theorem some (a : α) : InLine fun s => some (a, s) := fun _ _ _ _ => rfl

theorem bind {f : α × List Char → Option (β × List Char)} (hr : InLine R)
    (hf : ∀ a, InLine fun s => f (a, s)) : InLine fun s => R s >>= f := by
  intro s c e hc
  have hs := hr s c e hc
  cases hx : R s with
  | none => simp [hs, hx]
  | some x => simpa [hs, hx, behind] using hf x.1 x.2 c e hc

theorem ite {p : Prop} [Decidable p] {R' : List Char → Option (α × List Char)} (hr : InLine R)
    (hr' : InLine R') : InLine fun s => if p then R s else R' s := by
  intro s c e hc
  dsimp only
  split
  · exact hr s c e hc
  · exact hr' s c e hc

theorem map {f : α → β} (hr : InLine R) : InLine fun s => (R s).map fun r => (f r.1, r.2) := by
  intro s c e hc
  simp only [hr s c e hc, Option.map_map]
  rfl

end InLine

theorem asciiDigit?_of_isStop (h : isStop c = true) : asciiDigit? c = none := by
  rw [asciiDigit?, isDigit_of_isStop h]
  rfl

theorem inLine_twoDigits? : InLine twoDigits? := by
  intro s c e hc
  have hd := asciiDigit?_of_isStop hc
  match s with
  | [] => cases e <;> simp [twoDigits?, hd]
  | [a] => cases ha : asciiDigit? a <;> simp [twoDigits?, hd, ha]
  | a :: b :: s =>
    cases ha : asciiDigit? a with
    | none => simp [twoDigits?, ha]
    | some m => cases hb : asciiDigit? b <;> simp [twoDigits?, ha, hb, behind]

theorem inLine_twoDigitsWithin? (low high : Nat) : InLine (twoDigitsWithin? low high) := by
  exact inLine_twoDigits?.bind fun n => .ite (.some n) .none

theorem inLine_expect? (hd : isStop d = false) {R : List Char → Option (α × List Char)}
    (hr : InLine R) : InLine fun s => expect? d s >>= R := by
  intro s c e hc
  cases s with
  | nil => simp [expect?, ne_of_isStop hc hd]
  | cons a s =>
    by_cases ha : a = d
    · simpa [expect?, ha] using hr s c e hc
    · simp [expect?, ha]

theorem takeWhile_append_stop {p : Char → Bool} (hp : p c = false) (s e : List Char) :
    (s ++ c :: e).takeWhile p = s.takeWhile p := by
  induction s with
  | nil => simp [hp]
  | cons a s ih =>
    rw [List.cons_append, List.takeWhile_cons, List.takeWhile_cons, ih]

theorem dropWhile_append_stop {p : Char → Bool} (hp : p c = false) (s e : List Char) :
    (s ++ c :: e).dropWhile p = s.dropWhile p ++ c :: e := by
  induction s with
  | nil => simp [hp]
  | cons a s ih =>
    rw [List.cons_append, List.dropWhile_cons, List.dropWhile_cons, ih]
    split <;> rfl

theorem fraction_append (hc : isStop c = true) (s e : List Char) :
    fraction (s ++ c :: e) = behind (c :: e) (fraction s) := by
  have hd := isDigit_of_isStop hc
  have hne : c ≠ '.' := ne_of_isStop hc (by decide)
  cases s with
  | nil => simp [fraction, hne, behind]
  | cons a s =>
    by_cases ha : a = '.'
    · subst ha
      rw [List.cons_append, fraction, fraction, takeWhile_append_stop hd,
        dropWhile_append_stop hd]
      split <;> rfl
    · simp [fraction, ha, behind]

theorem inLine_time? : InLine time? := by
  refine (inLine_twoDigitsWithin? 0 23).bind fun hour => ?_
  refine inLine_expect? (by decide) ((inLine_twoDigitsWithin? 0 59).bind fun minute => ?_)
  refine inLine_expect? (by decide) ((inLine_twoDigitsWithin? 0 59).bind fun second => ?_)
  intro s c e hc
  simp only [fraction_append hc, behind]
  rfl

theorem inLine_date? : InLine date? := by
  refine inLine_twoDigits?.bind fun century => inLine_twoDigits?.bind fun year => ?_
  refine inLine_expect? (by decide) ((inLine_twoDigitsWithin? 1 12).bind fun month => ?_)
  refine inLine_expect? (by decide) ((inLine_twoDigitsWithin? 1 31).bind fun day => ?_)
  exact .some _

theorem inLine_signedOffset? (sign : Char) : InLine fun s => do
    let (hours, s) ← twoDigitsWithin? 0 23 s
    let (minutes, s) ← twoDigitsWithin? 0 59 (← expect? ':' s)
    let total : Int := 60 * hours + minutes
    return (if sign = '-' then -total else total, s) :=
  (inLine_twoDigitsWithin? 0 23).bind fun _ =>
    inLine_expect? (by decide) ((inLine_twoDigitsWithin? 0 59).bind fun _ => .some _)

theorem inLine_offset? : InLine offset? := by
  intro s c e hc
  cases s with
  | nil =>
    have hz : c ≠ 'Z' ∧ c ≠ 'z' ∧ c ≠ '+' ∧ c ≠ '-' := ⟨ne_of_isStop hc (by decide),
      ne_of_isStop hc (by decide), ne_of_isStop hc (by decide), ne_of_isStop hc (by decide)⟩
    simp [offset?, hz]
  | cons a s =>
    rw [List.cons_append, offset?, offset?]
    split
    · rfl
    · split
      · exact inLine_signedOffset? a s c e hc
      · rfl

theorem inLine_timeAfterDate? : InLine timeAfterDate? := by
  intro s c e hc
  cases s with
  | nil =>
    have ht : c ≠ 'T' ∧ c ≠ 't' ∧ c ≠ ' ' := ⟨ne_of_isStop hc (by decide),
      ne_of_isStop hc (by decide), ne_of_isStop hc (by decide)⟩
    simp [timeAfterDate?, ht]
  | cons a s =>
    rw [List.cons_append, timeAfterDate?, timeAfterDate?]
    split
    · exact inLine_time? s c e hc
    · rfl

theorem inLine_moment? : InLine moment? := by
  intro s c e hc
  rw [moment?, moment?, inLine_date? s c e hc]
  cases hd : date? s with
  | none =>
    rw [Option.map_none, inLine_time? s c e hc, Option.map_map, Option.map_map]
    rfl
  | some r =>
    obtain ⟨d, rest⟩ := r
    simp only [Option.map_some, behind, inLine_timeAfterDate? rest c e hc]
    cases ht : timeAfterDate? rest with
    | none => rfl
    | some r =>
      obtain ⟨t, rest⟩ := r
      simp only [Option.map_some, behind, inLine_offset? rest c e hc]
      cases offset? rest <;> rfl

/-- What counts as a digit in some base: neither a stop nor an underscore. -/
structure IsDigits (p : Char → Bool) : Prop where
  stop : ∀ c, isStop c = true → p c = false
  underscore : p '_' = false

theorem isDigits_decimal : IsDigits Char.isDigit := ⟨fun _ => isDigit_of_isStop, by decide⟩

theorem isDigits_hex : IsDigits isHexDigit := by
  refine ⟨fun c hc => ?_, by decide⟩
  have hl : ('a' ≤ c && c ≤ 'f') = false :=
    between_eq_false hc (by decide) (by decide) (.inr (by decide))
  have hu : ('A' ≤ c && c ≤ 'F') = false :=
    between_eq_false hc (by decide) (by decide) (.inr (by decide))
  rw [isHexDigit, isDigit_of_isStop hc, hl, hu]
  rfl

theorem isDigits_octal : IsDigits fun c => '0' ≤ c && c ≤ '7' :=
  ⟨fun _ hc => between_eq_false hc (by decide) (by decide) (.inl (by decide)), by decide⟩

theorem isDigits_binary : IsDigits fun c => c == '0' || c == '1' := by
  refine ⟨fun c hc => ?_, by decide⟩
  simp [ne_of_isStop hc (d := '0') (by decide), ne_of_isStop hc (d := '1') (by decide)]

variable {p : Char → Bool}

theorem moreDigits_append (hp : IsDigits p) (hc : isStop c = true) (s e : List Char) :
    moreDigits p (s ++ c :: e) = behind (c :: e) (moreDigits p s) := by
  have hpc := hp.stop c hc
  fun_induction moreDigits p s with
  | case1 =>
    have hu : c ≠ '_' := ne_of_isStop hc (by decide)
    simp [moreDigits, hu, hpc, behind]
  | case2 d s hd ds rest hm ih =>
    rw [hm] at ih
    simp [moreDigits, hd, ih, behind]
  | case3 d s hd => simp [moreDigits, hd, behind]
  | case4 d s hn hd ds rest hm ih =>
    rw [hm] at ih
    have hu : d ≠ '_' := by
      rintro rfl
      rw [hp.underscore] at hd
      cases hd
    simp [moreDigits, hu, hd, ih, behind]
  | case5 d s hn hd =>
    -- An underscore at the end of the text has the stop behind it, which is no digit either.
    by_cases hu : d = '_'
    · subst hu
      cases s with
      | nil => simp [moreDigits, hpc, behind]
      | cons x s => exact absurd rfl (hn x s rfl)
    · simp [moreDigits, hu, hd, behind]

theorem inLine_digits? (hp : IsDigits p) : InLine (digits? p) := by
  intro s c e hc
  cases s with
  | nil => simp [digits?, hp.stop c hc]
  | cons d s =>
    rw [List.cons_append, digits?, digits?, moreDigits_append hp hc]
    split <;> rfl

theorem inLine_radixInteger? : InLine radixInteger? := by
  intro s c e hc
  match s with
  | [] =>
    have h0 : c ≠ '0' := ne_of_isStop hc (by decide)
    simp [radixInteger?, h0]
  | [a] =>
    have hx : c ≠ 'x' := ne_of_isStop hc (by decide)
    have ho : c ≠ 'o' := ne_of_isStop hc (by decide)
    have hb : c ≠ 'b' := ne_of_isStop hc (by decide)
    simp [radixInteger?, hx, ho, hb]
  | a :: b :: s =>
    by_cases h0 : a = '0'
    · subst h0
      by_cases hx : b = 'x'
      · subst hx
        exact ((inLine_digits? isDigits_hex).map (f := inBase 16)) s c e hc
      by_cases ho : b = 'o'
      · subst ho
        exact ((inLine_digits? isDigits_octal).map (f := inBase 8)) s c e hc
      by_cases hb : b = 'b'
      · subst hb
        exact ((inLine_digits? isDigits_binary).map (f := inBase 2)) s c e hc
      simp [radixInteger?, hx, ho, hb]
    · simp [radixInteger?, h0]

theorem sign_append (hc : isStop c = true) (s e : List Char) :
    sign (s ++ c :: e) = behind (c :: e) (sign s) := by
  match s with
  | [] =>
    have hm : c ≠ '-' := ne_of_isStop hc (by decide)
    have hp : c ≠ '+' := ne_of_isStop hc (by decide)
    simp [sign, hm, hp, behind]
  | a :: s =>
    by_cases hm : a = '-'
    · subst hm
      rfl
    · by_cases hp : a = '+'
      · subst hp
        rfl
      · simp [sign, hm, hp, behind]

theorem inLine_wholePart? : InLine wholePart? := by
  intro s c e hc
  have hd := inLine_digits? isDigits_decimal s c e hc
  cases s with
  | nil =>
    have h0 : c ≠ '0' := ne_of_isStop hc (by decide)
    simpa [wholePart?, h0] using hd
  | cons a s =>
    by_cases h0 : a = '0'
    · subst h0
      rfl
    · simpa [wholePart?, h0] using hd

theorem inLine_fractionPart? : InLine fractionPart? := by
  intro s c e hc
  cases s with
  | nil =>
    have hp : c ≠ '.' := ne_of_isStop hc (by decide)
    simp [fractionPart?, hp]
  | cons a s =>
    by_cases hp : a = '.'
    · subst hp
      exact inLine_digits? isDigits_decimal s c e hc
    · simp [fractionPart?, hp]

theorem inLine_signedExponent? (negative : Bool) : InLine fun s => do
    let (ds, rest) ← digits? Char.isDigit s
    let n : Int := inBase 10 ds
    return (if negative then -n else n, rest) :=
  (inLine_digits? isDigits_decimal).bind fun _ => .some _

theorem inLine_exponentPart? : InLine exponentPart? := by
  intro s c e hc
  cases s with
  | nil =>
    have he : c ≠ 'e' ∧ c ≠ 'E' := ⟨ne_of_isStop hc (by decide), ne_of_isStop hc (by decide)⟩
    simp [exponentPart?, he]
  | cons a s =>
    rw [List.cons_append, exponentPart?, exponentPart?]
    split
    · rw [sign_append hc]
      exact inLine_signedExponent? (sign s).1 (sign s).2 c e hc
    · rfl

theorem inLine_specialFloat? : InLine specialFloat? := by
  intro s c e hc
  rw [specialFloat?, specialFloat?, sign_append hc]
  generalize sign s = r
  obtain ⟨negative, s⟩ := r
  rw [behind]
  by_cases hi : ∃ rest, s = ['i', 'n', 'f'] ++ rest
  · obtain ⟨s, rfl⟩ := hi
    rfl
  by_cases hn : ∃ rest, s = ['n', 'a', 'n'] ++ rest
  · obtain ⟨s, rfl⟩ := hn
    rfl
  have hi' : ∀ rest, s = ['i', 'n', 'f'] ++ rest → False := fun rest h => hi ⟨rest, h⟩
  have hn' : ∀ rest, s = ['n', 'a', 'n'] ++ rest → False := fun rest h => hn ⟨rest, h⟩
  split
  · rename_i heq
    exact (not_starts_append (by decide) hc hi' e _ (Prod.mk.inj heq).2).elim
  · rename_i heq
    exact (not_starts_append (by decide) hc hn' e _ (Prod.mk.inj heq).2).elim
  · split
    · rename_i heq
      exact (hi' _ (Prod.mk.inj heq).2).elim
    · rename_i heq
      exact (hn' _ (Prod.mk.inj heq).2).elim
    · rfl

/-- What a decimal number is does not depend on what stands behind a stop, and neither does a number
    that is refused. -/
theorem decimal?_append (hc : isStop c = true) (s e : List Char) :
    decimal? (s ++ c :: e) = (decimal? s).map (Except.map (behind (c :: e))) := by
  rw [decimal?, decimal?, sign_append hc]
  generalize sign s = r
  obtain ⟨negative, s⟩ := r
  dsimp only [behind]
  rw [inLine_wholePart? s c e hc]
  cases hw : wholePart? s with
  | none => rfl
  | some r =>
    obtain ⟨whole, s⟩ := r
    simp only [Option.map_some, behind, Option.bind_eq_bind, Option.bind_some,
      inLine_fractionPart? s c e hc, inLine_exponentPart? s c e hc]
    cases hf : fractionPart? s with
    | none =>
      cases hx : exponentPart? s with
      | none =>
        dsimp only [Option.map_none]
        split <;> rfl
      | some r => rfl
    | some r =>
      obtain ⟨digits, s⟩ := r
      simp only [Option.map_some, behind, inLine_exponentPart? s c e hc]
      cases hx : exponentPart? s <;> rfl

end GatewayLauncher.Toml

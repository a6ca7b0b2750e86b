import GatewayLauncher.Proofs.Toml.Limits
import GatewayLauncher.Proofs.Toml.Line

namespace GatewayLauncher.Toml

variable {α β : Type} {s t t' u used : List Char} {c : Char}

/-- The texts have a beginning in common that ends with a stop. -/
def Agree (t t' : List Char) : Prop :=
  ∃ b c e e', isStop c = true ∧ t = b ++ c :: e ∧ t' = b ++ c :: e'

theorem agree_of_isStop (h : isStop c = true) (e e' : List Char) : Agree (c :: e) (c :: e') :=
  ⟨[], c, e, e', h, rfl, rfl⟩

theorem Agree.append (h : Agree t t') (b : List Char) : Agree (b ++ t) (b ++ t') := by
  obtain ⟨b', c, e, e', hc, rfl, rfl⟩ := h
  exact ⟨b ++ b', c, e, e', hc, (List.append_assoc _ _ _).symm, (List.append_assoc _ _ _).symm⟩

theorem Agree.symm (h : Agree t t') : Agree t' t := by
  obtain ⟨b, c, e, e', hc, rfl, rfl⟩ := h
  exact ⟨b, c, e', e, hc, rfl, rfl⟩

theorem Agree.exists_cons (h : Agree t t') : ∃ c e e', t = c :: e ∧ t' = c :: e' := by
  obtain ⟨b, c, e, e', -, rfl, rfl⟩ := h
  cases b with
  | nil => exact ⟨c, e, e', rfl, rfl⟩
  | cons d b => exact ⟨d, b ++ c :: e, b ++ c :: e', rfl, rfl⟩

/-- A character that is no stop is the first one of both texts or of none, and what is behind it
    agrees again. -/
theorem Agree.of_cons (h : Agree (c :: t) u) (hc : isStop c = false) :
    ∃ t', u = c :: t' ∧ Agree t t' := by
  obtain ⟨b, d, e, e', hd, ht, rfl⟩ := h
  cases b with
  | nil =>
    obtain ⟨rfl, rfl⟩ := List.cons.inj ht
    rw [hc] at hd
    cases hd
  | cons a b =>
    obtain ⟨rfl, rfl⟩ := List.cons.inj ht
    exact ⟨b ++ d :: e', rfl, b, d, e, e', hd, rfl, rfl⟩

theorem Agree.not_starts {w : List Char} (hw : w.any isStop = false) (h : Agree t t')
    (ht : ∀ rest, t = w ++ rest → False) : ∀ rest, t' = w ++ rest → False := by
  induction w generalizing t t' with
  | nil => exact fun _ _ => ht t rfl
  | cons c w ih =>
    obtain ⟨hc, hw⟩ := Bool.or_eq_false_iff.mp hw
    rintro rest rfl
    obtain ⟨u, rfl, hu⟩ := h.symm.of_cons hc
    exact ih hw hu.symm (fun rest hr => ht rest (congrArg (c :: ·) hr)) rest rfl

def IsClean (used : List Char) : Prop := ∀ c ∈ used, allowed true c = true

instance (used : List Char) : Decidable (IsClean used) :=
  decidable_of_iff (used.all (allowed true) = true) List.all_eq_true

/-- What is read of `s` down to its end `t` is clean, and every text that agrees with `s` in what is
    left is read likewise. -/
def Locally (P : List Char → List Char → Prop) (s t : List Char) : Prop :=
  ∃ used, s = used ++ t ∧ IsClean used ∧ ∀ t', Agree t t' → P (used ++ t') t'

namespace Locally

variable {P Q : List Char → List Char → Prop}

theorem suffix (h : Locally P s t) : t <:+ s := by
  obtain ⟨used, rfl, -⟩ := h
  exact List.suffix_append used t

theorem length_le (h : Locally P s t) : t.length ≤ s.length := h.suffix.length_le

theorem refl (t : List Char) : Locally (· = ·) t t := ⟨[], rfl, List.forall_mem_nil _, fun _ _ => rfl⟩

theorem char (hc : allowed true c = true) (t : List Char) :
    Locally (fun x y => x = c :: y) (c :: t) t :=
  ⟨[c], rfl, fun _ hd => List.mem_singleton.mp hd ▸ hc, fun _ _ => rfl⟩

theorem trans (h : Locally P s u) (h' : Locally Q u t) :
    Locally (fun x y => ∃ z, P x z ∧ Q z y) s t := by
  obtain ⟨used, rfl, hu, hl⟩ := h
  obtain ⟨more, rfl, hm, hl'⟩ := h'
  refine ⟨used ++ more, (List.append_assoc _ _ _).symm, List.forall_mem_append.mpr ⟨hu, hm⟩, ?_⟩
  intro t' ht
  rw [List.append_assoc]
  exact ⟨more ++ t', hl _ (ht.append more), hl' t' ht⟩

theorem mono (h : Locally P s t) (hQ : ∀ x y, Agree s x → P x y → Q x y) : Locally Q s t := by
  obtain ⟨used, rfl, hu, hl⟩ := h
  exact ⟨used, rfl, hu, fun t' ht => hQ _ _ (ht.append used) (hl t' ht)⟩

end Locally

/-- Whatever a reader has read of a text, another reader reads locally. -/
def Local (R : List Char → Option (α × List Char)) (s : List Char)
    (r : Option (α × List Char)) : Prop :=
  ∀ a t, r = some (a, t) → Locally (fun x y => R x = some (a, y)) s t

namespace Local

variable {R : List Char → Option (α × List Char)} {r : Option (α × List Char)}

theorem none (R : List Char → Option (α × List Char)) (s : List Char) : Local R s none := nofun

theorem some {a : α} (head : List Char) (hc : IsClean head)
    (h : ∀ t', Agree s t' → R (head ++ t') = .some (a, t')) :
    Local R (head ++ s) (.some (a, s)) := by
  rintro _ _ ⟨⟩
  exact ⟨head, rfl, hc, h⟩

theorem after {R' : List Char → Option (α × List Char)} (head : List Char) (hc : IsClean head)
    (hr : Local R s r) (h : ∀ u, R' (head ++ u) = R u) : Local R' (head ++ s) r := by
  intro a t ha
  obtain ⟨used, rfl, hu, hl⟩ := hr a t ha
  refine ⟨head ++ used, (List.append_assoc _ _ _).symm, List.forall_mem_append.mpr ⟨hc, hu⟩, ?_⟩
  intro t' ht
  rw [List.append_assoc, h, hl t' ht]

theorem cons {R' : List Char → Option (α × List Char)} (hc : allowed true c = true)
    (hr : Local R s r) (h : ∀ u, R' (c :: u) = R u) : Local R' (c :: s) r :=
  hr.after [c] (fun _ hd => List.mem_singleton.mp hd ▸ hc) h

theorem bind {f : α × List Char → Option (β × List Char)} (hr : Local R s r)
    (hf : ∀ a t, Local (fun u => f (a, u)) t (f (a, t))) :
    Local (fun u => R u >>= f) s (r >>= f) := by
  intro b t hb
  obtain ⟨⟨a, u⟩, ha, hb⟩ := Option.bind_eq_some_iff.mp hb
  refine ((hr a u ha).trans (hf a u b t hb)).mono ?_
  rintro x y - ⟨z, hx, hz⟩
  exact Option.bind_eq_some_iff.mpr ⟨(a, z), hx, hz⟩

theorem pure (a : α) (s : List Char) : Local (fun u => .some (a, u)) s (.some (a, s)) :=
  some [] (List.forall_mem_nil _) fun _ _ => rfl

theorem map (g : α → β) (hr : Local R s r) :
    Local (fun u => (R u).map fun x => (g x.1, x.2)) s (r.map fun x => (g x.1, x.2)) := by
  simp only [Option.map_eq_bind]
  exact hr.bind fun a t => pure (g a) t

theorem of_bind {o : Option β} {f : β → Option (α × List Char)}
    (h : ∀ b, o = .some b → Local R s (f b)) : Local R s (o >>= f) := by
  cases o with
  | none => exact none _ _
  | some b => exact h b rfl

end Local

theorem allowed_true_of_isStop (h : isStop c = false) : allowed true c = true := by
  simp only [isStop, Bool.or_eq_false_iff, Bool.not_eq_false'] at h
  simp only [allowed, Bool.false_and, Bool.or_false, Bool.or_eq_true] at h ⊢
  exact .inl h.2

theorem allowed_true_of_allowed {multiline : Bool} (h : allowed multiline c = true) :
    allowed true c = true := by
  cases multiline with
  | true => exact h
  | false =>
    simp only [allowed, Bool.false_and, Bool.or_false, Bool.or_eq_true] at h ⊢
    exact .inl h

theorem allowed_of_isHexDigit (h : isHexDigit c = true) : allowed true c = true := by
  have hs : isStop c = false := by
    rw [← Bool.not_eq_true]
    intro hs
    rw [isDigits_hex.stop c hs] at h
    cases h
  exact allowed_true_of_isStop hs

theorem isClean_of_codePoint? {ds : List Char} {x : Char} (h : codePoint? ds = some x) :
    IsClean ds := by
  rw [codePoint?] at h
  split at h
  · rename_i hd
    exact fun c hc => allowed_of_isHexDigit (List.all_eq_true.mp hd c hc)
  · cases h

/-- What may stand behind a backslash, but for the long escapes: the end of a line, a blank, or the
    letter of a short escape. -/
def escaped : List Char := ['\n', ' ', '\t', 'b', 't', 'n', 'f', 'r', '"', '\\']

theorem isSpace_iff : isSpace c = true ↔ c = ' ' ∨ c = '\t' := by
  rw [isSpace, Bool.or_eq_true, beq_iff_eq, beq_iff_eq]

theorem mem_escaped_of_isSpace (h : isSpace c = true) : c ∈ escaped := by
  obtain rfl | rfl := isSpace_iff.mp h <;> decide

theorem mem_escaped_of_shortEscape? {x : Char} (h : shortEscape? c = some x) : c ∈ escaped := by
  unfold shortEscape? at h
  split at h
  all_goals first | decide | cases h

theorem ne_of_mem_escaped (h : c ∈ escaped) : c ≠ 'u' ∧ c ≠ 'U' := by
  constructor <;> rintro rfl <;> exact absurd h (by decide)

theorem isClean_of_mem_escaped (h : c ∈ escaped) : IsClean ['\\', c] := by
  have he : IsClean escaped := by decide
  exact List.forall_mem_cons.mpr ⟨by decide, List.forall_mem_singleton.mpr (he c h)⟩

theorem allowed_of_isSpace (h : isSpace c = true) : allowed true c = true := by
  obtain rfl | rfl := isSpace_iff.mp h <;> decide

/-- A quote that does not end its text is read on from, unless two more quotes follow. -/
theorem Local.quote {R R' : List Char → Option (List Char × List Char)} {q : Char}
    {r : Option (List Char × List Char)} (hq : isStop q = false) (hr : Local R s r)
    (hs : ∀ rest, s = q :: q :: rest → False)
    (h : ∀ u, (∀ rest, u = q :: q :: rest → False) →
      R' (q :: u) = (R u).map fun x => (q :: x.1, x.2)) :
    Local R' (q :: s) (r.map fun x => (q :: x.1, x.2)) := by
  intro a t ha
  obtain ⟨⟨x, t'⟩, hx, he⟩ := Option.map_eq_some_iff.mp ha
  obtain ⟨rfl, rfl⟩ := Prod.mk.inj he
  obtain ⟨used, rfl, hu, hl⟩ := hr x t' hx
  refine ⟨q :: used, rfl, List.forall_mem_cons.mpr ⟨allowed_true_of_isStop hq, hu⟩, ?_⟩
  intro t'' ht
  have hq' := (ht.append used).not_starts (w := [q, q]) (by simp [hq]) hs
  rw [List.cons_append, h _ hq', hl t'' ht]
  rfl

theorem basic?_end {state : BasicState} (hs : state ≠ .lineEnding) (s : List Char) :
    basic? false state ('"' :: s) = some ([], s) := by
  rw [basic?.eq_def]
  cases state with
  | reading => rfl
  | lineEnding => exact absurd rfl hs
  | skipping => rfl

theorem basic?_escape {state : BasicState} (hs : state ≠ .lineEnding) {m : Bool}
    (hc : c ∈ escaped) (s : List Char) : basic? m state ('\\' :: c :: s) =
      if m && c == '\n' then basic? m .skipping s
      else if m && isSpace c then basic? m .lineEnding s
      else do
        let x ← shortEscape? c
        let (s, rest) ← basic? m .reading s
        return (x :: s, rest) := by
  obtain ⟨hu, hU⟩ := ne_of_mem_escaped hc
  exact basic?.eq_7 m state c s (fun _ _ _ _ _ h => absurd h hu)
    (fun _ _ _ _ _ _ _ _ _ h => absurd h hU) hs

theorem basic?_reading (hq : c ≠ '"') (hb : c ≠ '\\') (m : Bool) (s : List Char) :
    basic? m .reading (c :: s) =
      if allowed m c then (basic? m .reading s).map fun r => (c :: r.1, r.2) else none :=
  basic?.eq_9 m c s hq (fun _ _ _ _ _ h => absurd h hb) (fun _ _ _ _ _ _ _ _ _ h => absurd h hb)
    fun _ _ h => absurd h hb

theorem basic?_skipping (hq : c ≠ '"') (hb : c ≠ '\\') (m : Bool) (s : List Char) :
    basic? m .skipping (c :: s) =
      if isSpace c || c == '\n' then basic? m .skipping s
      else if allowed m c then (basic? m .reading s).map fun r => (c :: r.1, r.2) else none :=
  basic?.eq_8 m c s hq (fun _ _ _ _ _ h => absurd h hb) (fun _ _ _ _ _ _ _ _ _ h => absurd h hb)
    fun _ _ h => absurd h hb

theorem basic?_nil (m : Bool) (state : BasicState) : basic? m state [] = none := by
  rw [basic?.eq_def]

theorem local_basic? (m : Bool) (state : BasicState) (s : List Char) :
    Local (basic? m state) s (basic? m state s) := by
  fun_induction basic? m state s with
  | case1 => exact .none _ _
  | case2 rest ih => exact ih.cons (by decide) fun _ => rfl
  | case3 c rest hn hc ih =>
    refine ih.cons (allowed_of_isSpace hc) fun u => ?_
    rw [basic?, if_neg hn, if_pos hc]
  | case4 => exact .none _ _
  -- the closing quotes, and a quote within a text that spans lines
  | case5 state hs hm rest =>
    refine .some ['"', '"', '"'] (by decide) fun u _ => ?_
    exact (basic?.eq_3 m state u hs).trans (if_pos hm)
  | case6 state rest hs hm hq ih =>
    exact ih.quote (by decide) hq fun u hu => (basic?.eq_4 m state u hs hu).trans (if_pos hm)
  | case7 state rest hs hm =>
    rw [Bool.not_eq_true] at hm
    subst hm
    exact .some ['"'] (by decide) fun u _ => basic?_end hs u
  -- escapes
  | case8 state a b c d rest hs ih =>
    refine .of_bind fun x hx => ?_
    have hc : IsClean ['\\', 'u', a, b, c, d] := List.forall_mem_cons.mpr
      ⟨by decide, List.forall_mem_cons.mpr ⟨by decide, isClean_of_codePoint? hx⟩⟩
    refine .after _ hc (ih.bind fun s t => .pure (x :: s) t) fun u => ?_
    exact (basic?.eq_5 m state a b c d u hs).trans (by rw [hx]; rfl)
  | case9 state a b c d e f g h rest hs ih =>
    refine .of_bind fun x hx => ?_
    have hc : IsClean ['\\', 'U', a, b, c, d, e, f, g, h] := List.forall_mem_cons.mpr
      ⟨by decide, List.forall_mem_cons.mpr ⟨by decide, isClean_of_codePoint? hx⟩⟩
    refine .after _ hc (ih.bind fun s t => .pure (x :: s) t) fun u => ?_
    exact (basic?.eq_6 m state a b c d e f g h u hs).trans (by rw [hx]; rfl)
  | case10 state c rest hs hu hU hc ih =>
    have he : c ∈ escaped := by
      rw [Bool.and_eq_true, beq_iff_eq] at hc
      rw [hc.2]
      decide
    refine .after _ (isClean_of_mem_escaped he) ih fun u => ?_
    exact (basic?_escape hs he u).trans (if_pos hc)
  | case11 state c rest hs hu hU hn hc ih =>
    have he := mem_escaped_of_isSpace (Bool.and_eq_true_iff.mp hc).2
    refine .after _ (isClean_of_mem_escaped he) ih fun u => ?_
    exact (basic?_escape hs he u).trans ((if_neg hn).trans (if_pos hc))
  | case12 state c rest hs hu hU hn hc ih =>
    refine .of_bind fun x hx => ?_
    have he := mem_escaped_of_shortEscape? hx
    refine .after _ (isClean_of_mem_escaped he) (ih.bind fun s t => .pure (x :: s) t) fun u => ?_
    exact (basic?_escape hs he u).trans ((if_neg hn).trans ((if_neg hc).trans (by rw [hx]; rfl)))
  -- characters that are skipped or stand for themselves
  | case13 c rest hq _ _ hb hc ih =>
    have hs : c = ' ' ∨ c = '\t' ∨ c = '\n' := by
      rwa [Bool.or_eq_true, isSpace_iff, beq_iff_eq, or_assoc] at hc
    have hbs : c ≠ '\\' := by
      rintro rfl
      exact absurd hs (by decide)
    refine ih.cons ?_ fun u => (basic?_skipping hq hbs m u).trans (if_pos hc)
    obtain rfl | rfl | rfl := hs <;> decide
  | case14 c rest hq _ _ hb hn hc ih =>
    by_cases hbs : c = '\\'
    · -- A backslash at the end of the text closes nothing.
      cases rest with
      | nil => rw [basic?_nil]; exact .none _ _
      | cons d rest => exact (hb d rest hbs rfl).elim
    · refine (ih.map (c :: ·)).cons (allowed_true_of_allowed hc) fun u => ?_
      exact (basic?_skipping hq hbs m u).trans ((if_neg hn).trans (if_pos hc))
  | case15 => exact .none _ _
  | case16 c rest hq _ _ hb hc ih =>
    by_cases hbs : c = '\\'
    · cases rest with
      | nil => rw [basic?_nil]; exact .none _ _
      | cons d rest => exact (hb d rest hbs rfl).elim
    · refine (ih.map (c :: ·)).cons (allowed_true_of_allowed hc) fun u => ?_
      exact (basic?_reading hq hbs m u).trans (if_pos hc)
  | case17 => exact .none _ _

theorem literal?_end (s : List Char) : literal? false ('\'' :: s) = some ([], s) := by
  rw [literal?.eq_def]
  rfl

theorem local_literal? (m : Bool) (s : List Char) : Local (literal? m) s (literal? m s) := by
  fun_induction literal? m s with
  | case1 => exact .none _ _
  | case2 hm rest =>
    refine .some ['\'', '\'', '\''] (by decide) fun u _ => ?_
    exact (literal?.eq_2 m u).trans (if_pos hm)
  | case3 rest hm hq ih =>
    exact ih.quote (by decide) hq fun u hu => (literal?.eq_3 m u hu).trans (if_pos hm)
  | case4 rest hm =>
    rw [Bool.not_eq_true] at hm
    subst hm
    exact .some ['\''] (by decide) fun u _ => literal?_end u
  | case5 c rest hq hc ih =>
    refine (ih.map (c :: ·)).cons (allowed_true_of_allowed hc) fun u => ?_
    exact (literal?.eq_4 m c u hq).trans (if_pos hc)
  | case6 => exact .none _ _

theorem local_withTrailingQuotes {q : Char} (hq : isStop q = false) (x s : List Char) :
    Local (fun u => some (withTrailingQuotes q x u)) s (some (withTrailingQuotes q x s)) := by
  have none : ∀ u, (∀ rest, u = q :: rest → False) → withTrailingQuotes q x u = (x, u) := by
    intro u hu
    cases u with
    | nil => simp [withTrailingQuotes]
    | cons c u =>
      have hc : c ≠ q := fun h => hu u (h ▸ rfl)
      simp [withTrailingQuotes, hc]
  have one : ∀ u, (∀ rest, u = q :: rest → False) →
      withTrailingQuotes q x (q :: u) = (x ++ [q], u) := by
    intro u hu
    cases u with
    | nil => simp [withTrailingQuotes]
    | cons c u =>
      have hc : c ≠ q := fun h => hu u (h ▸ rfl)
      simp [withTrailingQuotes, hc]
  have two : ∀ u, withTrailingQuotes q x (q :: q :: u) = (x ++ [q, q], u) := by
    simp [withTrailingQuotes]
  have hc := allowed_true_of_isStop hq
  by_cases h : ∃ rest, s = q :: rest
  · obtain ⟨s, rfl⟩ := h
    by_cases h : ∃ rest, s = q :: rest
    · obtain ⟨s, rfl⟩ := h
      rw [two s]
      exact .some [q, q] (by simp [IsClean, hc]) fun u _ => congrArg some (two u)
    · rw [one s fun rest hr => h ⟨rest, hr⟩]
      refine .some [q] (by simp [IsClean, hc]) fun u hu => congrArg some (one u ?_)
      exact hu.not_starts (w := [q]) (by simp [hq]) fun rest hr => h ⟨rest, hr⟩
  · rw [none s fun rest hr => h ⟨rest, hr⟩]
    refine .some [] (List.forall_mem_nil _) fun u hu => congrArg some (none u ?_)
    exact hu.not_starts (w := [q]) (by simp [hq]) fun rest hr => h ⟨rest, hr⟩

theorem local_quotation? (s : List Char) : Local quotation? s (quotation? s) := by
  unfold quotation?
  split
  · exact ((local_basic? false .reading _).map String.ofList).cons (by decide) fun _ => rfl
  · exact ((local_literal? false _).map String.ofList).cons (by decide) fun _ => rfl
  · exact .none _ _

theorem Local.withoutFirstNewline {R : List Char → Option (α × List Char)}
    (hr : ∀ s, Local R s (R s)) (s : List Char) :
    Local (fun u => R (Toml.withoutFirstNewline u)) s (R (Toml.withoutFirstNewline s)) := by
  by_cases h : ∃ rest, s = '\n' :: rest
  · obtain ⟨s, rfl⟩ := h
    exact (hr s).cons (by decide) fun _ => rfl
  · have same : ∀ u, (∀ rest, u = '\n' :: rest → False) → Toml.withoutFirstNewline u = u := by
      intro u hu
      unfold Toml.withoutFirstNewline
      split
      · exact (hu _ rfl).elim
      · rfl
    rw [same s fun rest hr => h ⟨rest, hr⟩]
    refine fun a t ha => (hr s a t ha).mono fun x y hx he => ?_
    have hn : ∀ rest, x = '\n' :: rest → False := by
      rintro rest rfl
      obtain ⟨c, e, e', hc, hc'⟩ := hx.exists_cons
      rw [← (List.cons.inj hc').1] at hc
      exact h ⟨e, hc⟩
    dsimp only
    rw [same x hn, he]

theorem local_longQuotation? (s : List Char) : Local longQuotation? s (longQuotation? s) := by
  have opened : ∀ (q : Char) (R : List Char → Option (List Char × List Char)) (s : List Char),
      isStop q = false → (∀ s, Local R s (R s)) →
      Local (fun u => (R (withoutFirstNewline u)).map fun (x, rest) =>
          let (x, rest) := withTrailingQuotes q x rest
          (String.ofList x, rest)) s
        ((R (withoutFirstNewline s)).map fun (x, rest) =>
          let (x, rest) := withTrailingQuotes q x rest
          (String.ofList x, rest)) := by
    intro q R s hq hr
    simp only [Option.map_eq_bind]
    refine (Local.withoutFirstNewline hr s).bind fun x t => ?_
    exact (local_withTrailingQuotes hq x t).map String.ofList
  by_cases hd : ∃ rest, s = '"' :: '"' :: '"' :: rest
  · obtain ⟨s, rfl⟩ := hd
    exact (opened '"' _ s (by decide) (local_basic? true .reading)).after ['"', '"', '"']
      (by decide) fun _ => rfl
  · by_cases hs : ∃ rest, s = '\'' :: '\'' :: '\'' :: rest
    · obtain ⟨s, rfl⟩ := hs
      exact (opened '\'' _ s (by decide) (local_literal? true)).after ['\'', '\'', '\'']
        (by decide) fun _ => rfl
    · rw [longQuotation?.eq_3 s (fun rest h => hd ⟨rest, h⟩) fun rest h => hs ⟨rest, h⟩]
      refine fun a t ha => (local_quotation? s a t ha).mono fun x y hx he => ?_
      have hd' := hx.not_starts (w := ['"', '"', '"']) (by decide) fun rest h => hd ⟨rest, h⟩
      have hs' := hx.not_starts (w := ['\'', '\'', '\'']) (by decide) fun rest h => hs ⟨rest, h⟩
      rw [longQuotation?.eq_3 x hd' hs', he]

/-- A reader that takes stops for the end of the text reads locally. -/
theorem local_of_append {R : List Char → Option (α × List Char)}
    (h : ∀ x c e, x <+: s → isStop c = true → R (x ++ c :: e) = (R x).map (behind (c :: e)))
    (hl : Leaves s (R s)) : Local R s (R s) := by
  intro a t ha
  obtain ⟨used, rfl⟩ := hl a t ha
  refine ⟨used, rfl, fun c hc => ?_, ?_⟩
  · cases hs : isStop c with
    | false => exact allowed_true_of_isStop hs
    | true =>
      -- A stop within what is read would have been left.
      exfalso
      obtain ⟨x, y, rfl⟩ := List.append_of_mem hc
      rw [List.append_assoc, List.cons_append] at h ha
      rw [h x c (y ++ t) (List.prefix_append x _) hs, Option.map_eq_some_iff] at ha
      obtain ⟨r, -, hr⟩ := ha
      have ht : r.2 ++ c :: (y ++ t) = t := congrArg Prod.snd hr
      have hlen := congrArg List.length ht
      simp only [List.length_append, List.length_cons] at hlen
      omega
  · rintro t' ⟨b, c, e, e', hc, rfl, rfl⟩
    rw [← List.append_assoc] at h ha
    have hp := List.prefix_append (used ++ b) (c :: e)
    rw [h _ c e hp hc, Option.map_eq_some_iff] at ha
    obtain ⟨⟨a', b'⟩, hb, hr⟩ := ha
    obtain ⟨rfl, hb'⟩ := Prod.mk.inj hr
    obtain rfl := List.append_cancel_right hb'
    dsimp only
    rw [← List.append_assoc, h _ c e' hp hc, hb]
    rfl

/-- A run of characters of a kind ends at the same place in texts that agree in what is behind. -/
theorem split_of_agree {p : Char → Bool} (h : Agree (s.dropWhile p) t') :
    (s.takeWhile p ++ t').takeWhile p = s.takeWhile p ∧
      (s.takeWhile p ++ t').dropWhile p = t' := by
  obtain ⟨c, e, e', hc, rfl⟩ := h.exists_cons
  have hn : ¬p c = true := by
    have hh := List.head_dropWhile_not p (l := s) (by simp [hc])
    simpa [hc] using hh
  have ht : ∀ a ∈ s.takeWhile p, p a = true := List.all_eq_true.mp List.all_takeWhile
  rw [List.takeWhile_append_of_pos ht, List.dropWhile_append_of_pos ht,
    List.takeWhile_cons_of_neg hn, List.dropWhile_cons_of_neg hn, List.append_nil]
  exact ⟨rfl, rfl⟩

theorem locally_skipSpaces (s : List Char) :
    Locally (fun x y => skipSpaces x = y) s (skipSpaces s) := by
  refine ⟨s.takeWhile isSpace, List.takeWhile_append_dropWhile.symm, fun c hc => ?_,
    fun t' ht => (split_of_agree ht).2⟩
  exact allowed_of_isSpace (List.all_eq_true.mp List.all_takeWhile c hc)

theorem Local.skipSpaces {R : List Char → Option (α × List Char)}
    {r : Option (α × List Char)} (hr : Local R (Toml.skipSpaces s) r) :
    Local (fun u => R (Toml.skipSpaces u)) s r := by
  intro a t ha
  refine ((locally_skipSpaces s).trans (hr a t ha)).mono ?_
  rintro x y - ⟨_, rfl, hy⟩
  exact hy

theorem isBareKeyChar_of_isStop (h : isStop c = true) : isBareKeyChar c = false := by
  have hl : ('a' ≤ c && c ≤ 'z') = false :=
    between_eq_false h (by decide) (by decide) (.inr (by decide))
  have hu : ('A' ≤ c && c ≤ 'Z') = false :=
    between_eq_false h (by decide) (by decide) (.inr (by decide))
  rw [← Bool.decide_and] at hu
  have ha : c.isAlphanum = false := by
    change (c.isUpper || c.isLower || c.isDigit) = false
    rw [show c.isUpper = false from hu, show c.isLower = false from hl, isDigit_of_isStop h]
    rfl
  have hd : c ≠ '-' := ne_of_isStop h (by decide)
  have hs : c ≠ '_' := ne_of_isStop h (by decide)
  simp [isBareKeyChar, ha, hd, hs]

theorem isClean_takeWhile {p : Char → Bool} (hp : ∀ c, isStop c = true → p c = false)
    (s : List Char) : IsClean (s.takeWhile p) := by
  intro c hc
  have hpc : p c = true := List.all_eq_true.mp List.all_takeWhile c hc
  cases hs : isStop c with
  | false => exact allowed_true_of_isStop hs
  | true =>
    rw [hp c hs] at hpc
    cases hpc

theorem local_keyName? (s : List Char) : Local keyName? s (keyName? s) := by
  intro a t ha
  simp only [keyName?] at ha
  split at ha
  · rename_i hb
    refine (local_quotation? s a t ha).mono fun x y hx he => ?_
    -- Both texts start with the same character, which no bare key starts with.
    have hb' : (x.takeWhile isBareKeyChar).isEmpty = true := by
      obtain ⟨c, e, e', rfl, rfl⟩ := hx.exists_cons
      cases hk : isBareKeyChar c <;> simp [hk] at hb ⊢
    simp only [keyName?, hb', if_true]
    exact he
  · rename_i hb
    obtain ⟨rfl, rfl⟩ := Prod.mk.inj (Option.some.inj ha)
    refine ⟨s.takeWhile isBareKeyChar, List.takeWhile_append_dropWhile.symm,
      isClean_takeWhile (fun _ => isBareKeyChar_of_isStop) s, fun t' ht => ?_⟩
    obtain ⟨h1, h2⟩ := split_of_agree ht
    simp only [keyName?, h1, h2, hb]
    rfl

theorem local_moreNames? {fuel : Nat} {parents : List String} {name : String} {k : Key}
    (h : moreNames? fuel parents name s = some (k, t)) :
    Locally (fun x y => ∀ fuel, x.length ≤ fuel + y.length →
      moreNames? fuel parents name x = some (k, y)) s t := by
  fun_induction moreNames? fuel parents name s generalizing k t with
  | case1 parents name fuel rest ih =>
    obtain ⟨⟨next, u⟩, hn, h⟩ := Option.bind_eq_some_iff.mp h
    have hk := (local_keyName? _).skipSpaces next u hn
    refine ((Locally.char (by decide) rest).trans
      (hk.trans ((locally_skipSpaces u).trans (ih next u h)))).mono ?_
    rintro x y - ⟨x, rfl, z, hz, _, rfl, hy⟩ fuel hf
    have hz' := (leaves_keyName? _ _ _ hz).length_le
    have hx := (skipSpaces_suffix x).length_le
    have hz'' := (skipSpaces_suffix z).length_le
    have hy' := (leaves_moreNames? _ _ _ _ _ _ (hy _ (Nat.le_add_right _ _))).length_le
    rw [List.length_cons] at hf
    obtain ⟨n, rfl⟩ : ∃ n, fuel = n + 1 := ⟨fuel - 1, by omega⟩
    rw [moreNames?.eq_1]
    exact Option.bind_eq_some_iff.mpr ⟨(next, z), hz, hy n (by omega)⟩
  | case2 => cases h
  | case3 fuel parents name s hd hz =>
    obtain ⟨rfl, rfl⟩ := Prod.mk.inj (Option.some.inj h)
    have hn : ∀ rest, s = '.' :: rest → False := fun rest hs => by
      cases fuel with
      | zero => exact hz rest rfl hs
      | succ fuel => exact hd fuel rest rfl hs
    refine (Locally.refl s).mono ?_
    rintro x _ ht rfl fuel -
    have hn' := ht.not_starts (w := ['.']) (by decide) hn
    exact moreNames?.eq_3 _ _ _ _ (fun _ rest _ => hn' rest) fun rest _ => hn' rest

theorem local_key? (s : List Char) : Local key? s (key? s) := by
  intro k t h
  obtain ⟨⟨name, u⟩, hn, h⟩ := Option.bind_eq_some_iff.mp h
  refine ((local_keyName? s name u hn).trans
    ((locally_skipSpaces u).trans (local_moreNames? h))).mono ?_
  rintro x y - ⟨z, hz, _, rfl, hy⟩
  have hx := (leaves_keyName? _ _ _ hz).length_le
  have hz' := (skipSpaces_suffix z).length_le
  exact Option.bind_eq_some_iff.mpr ⟨(name, z), hz, hy _ (by omega)⟩

theorem keyOfPair_eq_ok_iff {k : Key} : keyOfPair s = .ok (k, t) ↔
    ∃ rest, key? s = some (k, '=' :: rest) ∧ t = skipSpaces rest := by
  cases hk : key? s with
  | none => simp [keyOfPair, hk, orMalformed, bind, Except.bind]
  | some r =>
    obtain ⟨k', u⟩ := r
    by_cases hu : ∃ rest, u = '=' :: rest
    · obtain ⟨rest, rfl⟩ := hu
      simp only [keyOfPair, hk, orMalformed, bind, Except.bind, Except.ok.injEq, Prod.mk.injEq,
        Option.some.injEq, List.cons.injEq, true_and]
      constructor
      · rintro ⟨rfl, rfl⟩
        exact ⟨rest, ⟨rfl, rfl⟩, rfl⟩
      · rintro ⟨_, ⟨rfl, rfl⟩, rfl⟩
        exact ⟨rfl, rfl⟩
    · constructor
      · intro h
        simp only [keyOfPair, hk, orMalformed, bind, Except.bind] at h
        split at h
        · exact (hu ⟨_, rfl⟩).elim
        · cases h
      · rintro ⟨rest, h, -⟩
        exact (hu ⟨rest, (Prod.mk.inj (Option.some.inj h)).2⟩).elim

theorem locally_keyOfPair {k : Key} (h : keyOfPair s = .ok (k, t)) :
    Locally (fun x y => keyOfPair x = .ok (k, y)) s t := by
  obtain ⟨rest, hk, rfl⟩ := keyOfPair_eq_ok_iff.mp h
  refine ((local_key? s k _ hk).trans
    ((Locally.char (by decide) rest).trans (locally_skipSpaces rest))).mono ?_
  rintro x y - ⟨_, hx, z, rfl, hy⟩
  exact keyOfPair_eq_ok_iff.mpr ⟨z, hx, hy.symm⟩

/-- What starts with no quote is read within its line. -/
theorem scalar_append (hc : isStop c = true) (hd : ∀ rest, s = '"' :: rest → False)
    (hs : ∀ rest, s = '\'' :: rest → False) (e : List Char) :
    scalar (s ++ c :: e) = (scalar s).map (behind (c :: e)) := by
  by_cases ht : ∃ rest, s = ['t', 'r', 'u', 'e'] ++ rest
  · obtain ⟨s, rfl⟩ := ht
    rfl
  by_cases hf : ∃ rest, s = ['f', 'a', 'l', 's', 'e'] ++ rest
  · obtain ⟨s, rfl⟩ := hf
    rfl
  have ht' : ∀ rest, s = ['t', 'r', 'u', 'e'] ++ rest → False := fun rest h => ht ⟨rest, h⟩
  have hf' : ∀ rest, s = ['f', 'a', 'l', 's', 'e'] ++ rest → False := fun rest h => hf ⟨rest, h⟩
  rw [scalar.eq_6 (s ++ c :: e) (by simp)
    (not_starts_append (w := ['"']) (by decide) hc hd e)
    (not_starts_append (w := ['\'']) (by decide) hc hs e)
    (not_starts_append (by decide) hc ht' e) (not_starts_append (by decide) hc hf' e),
    inLine_moment? s c e hc, inLine_radixInteger? s c e hc, decimal?_append hc,
    inLine_specialFloat? s c e hc]
  cases s with
  | nil => rfl
  | cons d s =>
    rw [scalar.eq_6 (d :: s) (by simp) hd hs ht' hf']
    cases moment? (d :: s) with
    | some r =>
      dsimp only [Option.map_some, behind]
      split <;> rfl
    | none =>
      cases radixInteger? (d :: s) with
      | some r => rfl
      | none =>
        cases decimal? (d :: s) with
        | some r => rfl
        | none => cases specialFloat? (d :: s) <;> rfl

theorem locally_scalar {v : Value} (h : scalar s = .ok (v, t)) :
    Locally (fun x y => scalar x = .ok (v, y)) s t := by
  -- Quotations may span lines.
  have quoted : ∀ (q : Char), isStop q = false → (∀ u, scalar (q :: u) =
      orMalformed ((longQuotation? (q :: u)).map fun r => (.text r.1, r.2))) →
      ∀ u, s = q :: u → Locally (fun x y => scalar x = .ok (v, y)) s t := by
    rintro q hq hd u rfl
    rw [hd] at h
    cases hr : longQuotation? (q :: u) with
    | none => simp [hr, orMalformed] at h
    | some r =>
      obtain ⟨rfl, rfl⟩ : Value.text r.1 = v ∧ r.2 = t := by simpa [hr, orMalformed] using h
      refine (local_longQuotation? _ r.1 r.2 hr).mono fun x y hx he => ?_
      obtain ⟨x, rfl, -⟩ := hx.of_cons hq
      rw [hd, he]
      rfl
  by_cases hd : ∃ rest, s = '"' :: rest
  · obtain ⟨u, hu⟩ := hd
    exact quoted '"' (by decide) (fun _ => rfl) u hu
  by_cases hs : ∃ rest, s = '\'' :: rest
  · obtain ⟨u, hu⟩ := hs
    exact quoted '\'' (by decide) (fun _ => rfl) u hu
  -- Everything else ends with its line.
  have hR : Local (fun u => (scalar u).toOption) s (scalar s).toOption := by
    refine local_of_append (fun x c e hx hc => ?_) fun a rest ha => ?_
    · obtain ⟨u, rfl⟩ := hx
      have hd' : ∀ rest, x = '"' :: rest → False := fun rest hx => hd ⟨rest ++ u, by rw [hx]; rfl⟩
      have hs' : ∀ rest, x = '\'' :: rest → False := fun rest hx => hs ⟨rest ++ u, by rw [hx]; rfl⟩
      rw [scalar_append hc hd' hs']
      cases scalar x <;> rfl
    · have he : Ends nestingRoom s (scalar s) := ends_scalar s
      cases hr : scalar s with
      | error e => simp [hr, Except.toOption] at ha
      | ok r =>
        rw [hr] at ha he
        obtain rfl : r = (a, rest) := Option.some.inj ha
        exact he
  refine (hR v t (by rw [h]; rfl)).mono fun x y _ hx => ?_
  dsimp only at hx
  cases hr : scalar x with
  | error e => simp [hr, Except.toOption] at hx
  | ok r =>
    rw [hr] at hx
    exact congrArg Except.ok (Option.some.inj hx)

theorem locally_skipComment (h : skipComment s = .ok t) :
    Locally (fun x y => skipComment x = .ok y) s t := by
  by_cases hc : ∃ rest, s = '#' :: rest
  · obtain ⟨s, rfl⟩ := hc
    simp only [skipComment] at h
    split at h
    · rename_i ha
      obtain rfl := Except.ok.inj h
      have hw : s.takeWhile (· ≠ '\n') ++ s.dropWhile (· ≠ '\n') = s :=
        List.takeWhile_append_dropWhile
      refine ⟨'#' :: s.takeWhile (· ≠ '\n'), by rw [List.cons_append, hw], ?_, fun t' ht => ?_⟩
      · refine List.forall_mem_cons.mpr ⟨by decide, fun c hc => ?_⟩
        exact allowed_true_of_allowed (List.all_eq_true.mp ha c hc)
      · obtain ⟨h1, h2⟩ := split_of_agree ht
        simp only [List.cons_append, skipComment, h1, h2, ha, if_true]
    · cases h
  · have none : ∀ u, (∀ rest, u = '#' :: rest → False) → skipComment u = .ok u := by
      intro u hu
      unfold skipComment
      split
      · exact (hu _ rfl).elim
      · rfl
    obtain rfl : s = t := by
      rw [none s fun rest hs => hc ⟨rest, hs⟩] at h
      exact Except.ok.inj h
    refine (Locally.refl s).mono ?_
    rintro x _ hx rfl
    exact none x (hx.not_starts (w := ['#']) (by decide) fun rest hs => hc ⟨rest, hs⟩)

theorem locally_skipLines {inComment : Bool} (h : skipLines inComment s = .ok t) :
    Locally (fun x y => skipLines inComment x = .ok y) s t := by
  have step : ∀ {c rest b b'}, allowed true c = true →
      (∀ z, skipLines b (c :: z) = skipLines b' z) →
      Locally (fun x y => skipLines b' x = .ok y) rest t →
      Locally (fun x y => skipLines b x = .ok y) (c :: rest) t := by
    intro c rest b b' hc hs ih
    refine ((Locally.char hc rest).trans ih).mono ?_
    rintro x y - ⟨z, rfl, hz⟩
    rw [hs, hz]
  fun_induction skipLines inComment s with
  | case1 =>
    obtain rfl := Except.ok.inj h
    refine ⟨[], rfl, List.forall_mem_nil _, fun t' ht => ?_⟩
    obtain ⟨c, e, e', hc, -⟩ := ht.exists_cons
    cases hc
  | case2 _ _ ih => exact step (by decide) (fun z => by rw [skipLines, if_pos rfl]) (ih h)
  | case3 c rest hn ha ih =>
    exact step (allowed_true_of_allowed ha) (fun z => by simp [skipLines, hn, ha]) (ih h)
  | case4 => cases h
  | case5 b c rest hn hi hc ih =>
    exact step (allowed_of_isSpace hc) (fun z => by simp [skipLines, hn, hi, hc]) (ih h)
  | case6 b rest hn hi hc ih =>
    exact step (by decide) (fun z => by simp [skipLines, hn, hi, hc]) (ih h)
  | case7 b c rest hn hi hc hh =>
    obtain rfl := Except.ok.inj h
    refine (Locally.refl (c :: rest)).mono ?_
    rintro x _ hx rfl
    obtain ⟨d, e, e', hd, rfl⟩ := hx.exists_cons
    obtain rfl := (List.cons.inj hd).1
    simp [skipLines, hn, hi, hc, hh]

end GatewayLauncher.Toml

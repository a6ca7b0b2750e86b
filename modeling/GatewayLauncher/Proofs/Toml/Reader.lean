import GatewayLauncher.Toml.Reader

namespace GatewayLauncher.Toml

variable {α β : Type} {s t rest : List Char}

/-- What a reading leaves, if it reads anything, is an end of the text. -/
def Leaves (s : List Char) (r : Option (α × List Char)) : Prop :=
  ∀ a rest, r = some (a, rest) → rest <:+ s

namespace Leaves

variable {r : Option (α × List Char)}

theorem none (s : List Char) : Leaves s (none : Option (α × List Char)) := nofun

theorem some (a : α) (h : rest <:+ s) : Leaves s (some (a, rest)) := by
  rintro _ _ ⟨⟩
  exact h

theorem mono (hr : Leaves t r) (h : t <:+ s) : Leaves s r := fun a rest ha => (hr a rest ha).trans h

theorem cons (hr : Leaves s r) (c : Char) : Leaves (c :: s) r := hr.mono (List.suffix_cons c s)

theorem bind {f : α × List Char → Option (β × List Char)} (hr : Leaves s r)
    (hf : ∀ a rest, Leaves rest (f (a, rest))) : Leaves s (r >>= f) := by
  intro b rest h
  obtain ⟨⟨a, t⟩, ha, hb⟩ := Option.bind_eq_some_iff.mp h
  exact (hf a t b rest hb).trans (hr a t ha)

theorem bind_value {o : Option α} {f : α → Option (β × List Char)} (hf : ∀ a, Leaves s (f a)) :
    Leaves s (o >>= f) := by
  intro b rest h
  obtain ⟨a, -, hb⟩ := Option.bind_eq_some_iff.mp h
  exact hf a b rest hb

theorem bind_text {o : Option (List Char)} {f : List Char → Option (β × List Char)}
    (ho : ∀ rest, o = Option.some rest → rest <:+ s) (hf : ∀ rest, Leaves rest (f rest)) :
    Leaves s (o >>= f) := by
  intro b rest h
  obtain ⟨t, ht, hb⟩ := Option.bind_eq_some_iff.mp h
  exact (hf t b rest hb).trans (ho t ht)

theorem map {f : α × List Char → β × List Char} (hr : Leaves s r)
    (hf : ∀ a rest, (f (a, rest)).2 <:+ rest) : Leaves s (r.map f) := by
  intro b rest h
  obtain ⟨⟨a, t⟩, ha, hb⟩ := Option.map_eq_some_iff.mp h
  have hs : (f (a, t)).2 = rest := congrArg Prod.snd hb
  exact hs ▸ (hf a t).trans (hr a t ha)

end Leaves

theorem leaves_basic? (multiline : Bool) (state : BasicState) (s : List Char) :
    Leaves s (basic? multiline state s) := by
  fun_induction basic? multiline state s with
  | case1 => exact .none _
  | case2 _ ih => exact ih.cons _
  | case3 _ _ _ _ ih => exact ih.cons _
  | case4 => exact .none _
  -- the closing quotes, and a quote within a text that spans lines
  | case5 => exact .some _ (List.suffix_append [_, _, _] _)
  | case6 _ _ _ _ _ ih => exact (ih.map fun _ _ => List.suffix_rfl).cons _
  | case7 => exact .some _ (List.suffix_cons _ _)
  -- escapes
  | case8 _ _ _ _ _ _ _ ih =>
    exact .bind_value fun _ => .mono (ih.bind fun _ _ => .some _ List.suffix_rfl)
      (List.suffix_append [_, _, _, _, _, _] _)
  | case9 _ _ _ _ _ _ _ _ _ _ _ ih =>
    exact .bind_value fun _ => .mono (ih.bind fun _ _ => .some _ List.suffix_rfl)
      (List.suffix_append [_, _, _, _, _, _, _, _, _, _] _)
  | case10 _ _ _ _ _ _ _ ih => exact (ih.cons _).cons _
  | case11 _ _ _ _ _ _ _ _ ih => exact (ih.cons _).cons _
  | case12 _ _ _ _ _ _ _ _ ih =>
    exact .bind_value fun _ => .mono (ih.bind fun _ _ => .some _ List.suffix_rfl)
      (List.suffix_append [_, _] _)
  -- characters that are skipped or stand for themselves
  | case13 _ _ _ _ _ _ _ ih => exact ih.cons _
  | case14 _ _ _ _ _ _ _ _ ih => exact (ih.map fun _ _ => List.suffix_rfl).cons _
  | case15 => exact .none _
  | case16 _ _ _ _ _ _ _ ih => exact (ih.map fun _ _ => List.suffix_rfl).cons _
  | case17 => exact .none _

theorem leaves_literal? (multiline : Bool) (s : List Char) : Leaves s (literal? multiline s) := by
  fun_induction literal? multiline s with
  | case1 => exact .none _
  | case2 => exact .some _ (List.suffix_append [_, _, _] _)
  | case3 _ _ _ ih => exact (ih.map fun _ _ => List.suffix_rfl).cons _
  | case4 => exact .some _ (List.suffix_cons _ _)
  | case5 _ _ _ _ ih => exact (ih.map fun _ _ => List.suffix_rfl).cons _
  | case6 => exact .none _

theorem withTrailingQuotes_suffix (q : Char) (t rest : List Char) :
    (withTrailingQuotes q t rest).2 <:+ rest := List.drop_suffix _ _

theorem withoutFirstNewline_suffix (s : List Char) : withoutFirstNewline s <:+ s := by
  unfold withoutFirstNewline
  split
  · exact List.suffix_cons _ _
  · exact List.suffix_rfl

theorem leaves_quotation? (s : List Char) : Leaves s (quotation? s) := by
  unfold quotation?
  split
  · exact ((leaves_basic? _ _ _).map fun _ _ => List.suffix_rfl).cons _
  · exact ((leaves_literal? _ _).map fun _ _ => List.suffix_rfl).cons _
  · exact .none _

theorem leaves_longQuotation? (s : List Char) : Leaves s (longQuotation? s) := by
  unfold longQuotation?
  split
  · rename_i rest
    exact .mono (.map (leaves_basic? _ _ _) (withTrailingQuotes_suffix _))
      ((withoutFirstNewline_suffix rest).trans (List.suffix_append [_, _, _] rest))
  · rename_i rest
    exact .mono (.map (leaves_literal? _ _) (withTrailingQuotes_suffix _))
      ((withoutFirstNewline_suffix rest).trans (List.suffix_append [_, _, _] rest))
  · exact leaves_quotation? _

theorem leaves_twoDigits? (s : List Char) : Leaves s (twoDigits? s) := by
  unfold twoDigits?
  split
  · exact .bind_value fun m => .bind_value fun n => .some _ (List.suffix_append [_, _] _)
  · exact .none _

theorem leaves_twoDigitsWithin? (low high : Nat) (s : List Char) :
    Leaves s (twoDigitsWithin? low high s) := by
  refine (leaves_twoDigits? s).bind fun n rest => ?_
  dsimp only
  split
  · exact .some _ List.suffix_rfl
  · exact .none _

theorem suffix_of_expect? {c : Char} (h : expect? c s = some rest) : rest <:+ s := by
  unfold expect? at h
  split at h
  · split at h
    · cases h
      exact List.suffix_cons _ _
    · cases h
  · cases h

theorem fraction_suffix (s : List Char) : (fraction s).2 <:+ s := by
  unfold fraction
  split
  · dsimp only
    split
    · exact List.suffix_rfl
    · exact (List.dropWhile_suffix _).trans (List.suffix_cons _ _)
  · exact List.suffix_rfl

theorem leaves_time? (s : List Char) : Leaves s (time? s) := by
  refine (leaves_twoDigitsWithin? 0 23 s).bind fun hour s => ?_
  refine .bind_text (fun _ => suffix_of_expect?) fun s => ?_
  refine (leaves_twoDigitsWithin? 0 59 s).bind fun minute s => ?_
  refine .bind_text (fun _ => suffix_of_expect?) fun s => ?_
  refine (leaves_twoDigitsWithin? 0 59 s).bind fun second s => ?_
  exact .some _ (fraction_suffix s)

theorem leaves_date? (s : List Char) : Leaves s (date? s) := by
  refine (leaves_twoDigits? s).bind fun century s => ?_
  refine (leaves_twoDigits? s).bind fun year s => ?_
  refine .bind_text (fun _ => suffix_of_expect?) fun s => ?_
  refine (leaves_twoDigitsWithin? 1 12 s).bind fun month s => ?_
  refine .bind_text (fun _ => suffix_of_expect?) fun s => ?_
  refine (leaves_twoDigitsWithin? 1 31 s).bind fun day s => ?_
  exact .some _ List.suffix_rfl

theorem leaves_offset? (s : List Char) : Leaves s (offset? s) := by
  unfold offset?
  split
  · exact .none _
  split
  · exact .some _ (List.suffix_cons _ _)
  split
  · refine .cons ?_ _
    refine (leaves_twoDigitsWithin? 0 23 _).bind fun hours s => ?_
    refine .bind_text (fun _ => suffix_of_expect?) fun s => ?_
    refine (leaves_twoDigitsWithin? 0 59 s).bind fun minutes s => ?_
    exact .some _ List.suffix_rfl
  · exact .none _

theorem leaves_timeAfterDate? (s : List Char) : Leaves s (timeAfterDate? s) := by
  unfold timeAfterDate?
  split
  · split
    · exact (leaves_time? _).cons _
    · exact .none _
  · exact .none _

theorem leaves_moment? (s : List Char) : Leaves s (moment? s) := by
  unfold moment?
  split
  · rename_i d rest hd
    have hs := leaves_date? s d rest hd
    split
    · exact .some _ hs
    · rename_i t rest' ht
      have ht := leaves_timeAfterDate? rest t rest' ht
      split
      · exact .some _ (ht.trans hs)
      · rename_i ho
        exact .some _ ((leaves_offset? _ _ _ ho).trans (ht.trans hs))
  · exact (leaves_time? s).map fun _ _ => List.suffix_rfl

/-- Digits that have been read at the head of a text stand in a run of digits and underscores. -/
def Heads (p : Char → Bool) (s ds rest : List Char) : Prop :=
  ∃ run, s = run ++ rest ∧ (∀ c ∈ run, p c = true ∨ c = '_') ∧ ds.Sublist run ∧ ∀ c ∈ ds, p c = true

theorem Heads.suffix {p : Char → Bool} {ds : List Char} (h : Heads p s ds rest) : rest <:+ s := by
  obtain ⟨run, rfl, -⟩ := h
  exact List.suffix_append run rest

theorem Heads.cons {p : Char → Bool} {c : Char} {ds : List Char} (hc : p c = true)
    (h : Heads p s ds rest) : Heads p (c :: s) (c :: ds) rest := by
  obtain ⟨run, rfl, hr, hs, hd⟩ := h
  exact ⟨c :: run, rfl, List.forall_mem_cons.mpr ⟨.inl hc, hr⟩, hs.cons_cons c,
    List.forall_mem_cons.mpr ⟨hc, hd⟩⟩

theorem Heads.underscore {p : Char → Bool} {ds : List Char} (h : Heads p s ds rest) :
    Heads p ('_' :: s) ds rest := by
  obtain ⟨run, rfl, hr, hs, hd⟩ := h
  exact ⟨'_' :: run, rfl, List.forall_mem_cons.mpr ⟨.inr rfl, hr⟩, hs.cons _, hd⟩

theorem heads_nil (p : Char → Bool) (s : List Char) : Heads p s [] s :=
  ⟨[], rfl, nofun, List.Sublist.refl _, nofun⟩

theorem heads_moreDigits (p : Char → Bool) (s : List Char) :
    Heads p s (moreDigits p s).1 (moreDigits p s).2 := by
  fun_induction moreDigits p s with
  | case1 => exact heads_nil p _
  | case2 c s hc ds rest hm ih =>
    rw [hm] at ih
    exact (ih.cons hc).underscore
  | case3 => exact heads_nil p _
  | case4 c s _ hc ds rest hm ih =>
    rw [hm] at ih
    exact ih.cons hc
  | case5 => exact heads_nil p _

theorem heads_of_digits? {p : Char → Bool} {ds : List Char} (h : digits? p s = some (ds, rest)) :
    Heads p s ds rest := by
  unfold digits? at h
  split at h
  · rename_i s
    split at h
    · rename_i hc
      cases h
      exact (heads_moreDigits p s).cons hc
    · cases h
  · cases h

theorem heads_of_wholePart? {ds : List Char} (h : wholePart? s = some (ds, rest)) :
    Heads Char.isDigit s ds rest := by
  unfold wholePart? at h
  split at h
  · cases h
    exact (heads_nil _ _).cons rfl
  · exact heads_of_digits? h

theorem leaves_digits? (p : Char → Bool) (s : List Char) : Leaves s (digits? p s) :=
  fun _ _ h => (heads_of_digits? h).suffix

theorem leaves_radixInteger? (s : List Char) : Leaves s (radixInteger? s) := by
  unfold radixInteger?
  split
  · exact (((leaves_digits? _ _).map fun _ _ => List.suffix_rfl).cons _).cons _
  · exact (((leaves_digits? _ _).map fun _ _ => List.suffix_rfl).cons _).cons _
  · exact (((leaves_digits? _ _).map fun _ _ => List.suffix_rfl).cons _).cons _
  · exact .none _

theorem sign_suffix (s : List Char) : (sign s).2 <:+ s := by
  unfold sign
  split
  · exact List.suffix_cons _ _
  · exact List.suffix_cons _ _
  · exact List.suffix_rfl

theorem leaves_fractionPart? (s : List Char) : Leaves s (fractionPart? s) := by
  unfold fractionPart?
  split
  · exact (leaves_digits? _ _).cons _
  · exact .none _

theorem leaves_exponentPart? (s : List Char) : Leaves s (exponentPart? s) := by
  unfold exponentPart?
  split
  · split
    · rename_i rest _
      suffices h : Leaves (sign rest).2 _ from (h.mono (sign_suffix rest)).cons _
      exact (leaves_digits? _ _).bind fun _ _ => .some _ List.suffix_rfl
    · exact .none _
  · exact .none _

theorem leaves_specialFloat? (s : List Char) : Leaves s (specialFloat? s) := by
  have hs := sign_suffix s
  unfold specialFloat?
  split
  · rename_i h
    rw [h] at hs
    exact .some _ ((List.suffix_append [_, _, _] _).trans hs)
  · rename_i h
    rw [h] at hs
    exact .some _ ((List.suffix_append [_, _, _] _).trans hs)
  · exact .none _

theorem skipSpaces_suffix (s : List Char) : skipSpaces s <:+ s := List.dropWhile_suffix _

theorem leaves_keyName? (s : List Char) : Leaves s (keyName? s) := by
  unfold keyName?
  dsimp only
  split
  · exact leaves_quotation? s
  · exact .some _ (List.dropWhile_suffix _)

theorem leaves_moreNames? (fuel : Nat) (parents : List String) (name : String) (s : List Char) :
    Leaves s (moreNames? fuel parents name s) := by
  fun_induction moreNames? fuel parents name s with
  | case1 parents name fuel rest ih =>
    refine .cons (.mono ((leaves_keyName? _).bind fun next t => ?_) (skipSpaces_suffix rest)) _
    exact (ih next t).mono (skipSpaces_suffix t)
  | case2 => exact .none _
  | case3 => exact .some _ List.suffix_rfl

theorem leaves_key? (s : List Char) : Leaves s (key? s) :=
  (leaves_keyName? s).bind fun _ rest => (leaves_moreNames? _ _ _ _).mono (skipSpaces_suffix rest)

/-- Whether a character stands for itself in a basic text on one line. -/
def IsPlain (c : Char) : Prop := allowed false c = true ∧ c ≠ '"' ∧ c ≠ '\\'

instance : DecidablePred IsPlain := fun c =>
  inferInstanceAs (Decidable (allowed false c = true ∧ c ≠ '"' ∧ c ≠ '\\'))

theorem basic?_of_plain (h : ∀ c ∈ s, IsPlain c) (rest : List Char) :
    basic? false .reading (s ++ '"' :: rest) = some (s, rest) := by
  induction s with
  | nil => rfl
  | cons c s ih =>
    obtain ⟨⟨ha, hq, hb⟩, hs⟩ := List.forall_mem_cons.mp h
    have hc : basic? false .reading (c :: (s ++ '"' :: rest)) =
        (basic? false .reading (s ++ '"' :: rest)).map fun r => (c :: r.1, r.2) := by
      rw [basic?.eq_def]
      split <;> simp_all
    rw [List.cons_append, hc, ih hs]
    rfl

/-- A quoted plain text is a value. An empty one could be the start of a longer quotation. -/
theorem scalar_of_plain (hn : s ≠ []) (h : ∀ c ∈ s, IsPlain c) (rest : List Char) :
    scalar ('"' :: (s ++ '"' :: rest)) = .ok (.text (String.ofList s), rest) := by
  have hq : longQuotation? ('"' :: (s ++ '"' :: rest)) = some (String.ofList s, rest) := by
    have hb := basic?_of_plain h rest
    obtain ⟨c, s, rfl⟩ := List.exists_cons_of_ne_nil hn
    have hc : c ≠ '"' := (h c (by simp)).2.1
    rw [List.cons_append] at hb
    simp [longQuotation?, quotation?, hc, hb]
  simp [scalar, hq, orMalformed]

theorem value_of_plain (hn : s ≠ []) (h : ∀ c ∈ s, IsPlain c) (fuel : Nat) (rest : List Char) :
    value (fuel + 1) nestingRoom ('"' :: (s ++ '"' :: rest)) =
      .ok (.text (String.ofList s), rest) := by
  rw [value]
  · simp [scalar_of_plain hn h, roomWithin, nestingRoom, bind, Except.bind]
  · simp
  · simp

theorem fromUTF8?_toUTF8 (t : String) : String.fromUTF8? t.toUTF8 = some t := by
  simp only [String.fromUTF8?, String.toUTF8_eq_toByteArray, t.isValidUTF8, dif_pos]
  rfl

theorem readBytes_toUTF8 (h : '\r' ∉ s) :
    readBytes (String.ofList s).toUTF8 = lines (s.length + 1) {} s := by
  simp only [readBytes, fromUTF8?_toUTF8, readText, String.toList_ofList,
    Text.joinLineEnds_of_not_mem h]

/-- What is asked of a document can be decided, although documents themselves cannot be compared. -/
theorem exists_readBytes_toUTF8 {f : Entries → α} {a : α} (hr : '\r' ∉ s)
    (h : (lines (s.length + 1) {} s).toOption.map f = some a) :
    ∃ es, readBytes (String.ofList s).toUTF8 = .ok es ∧ f es = a := by
  rw [readBytes_toUTF8 hr]
  cases hl : lines (s.length + 1) {} s with
  | error e => simp [hl, Except.toOption] at h
  | ok es => exact ⟨es, rfl, by simpa [hl, Except.toOption] using h⟩

end GatewayLauncher.Toml

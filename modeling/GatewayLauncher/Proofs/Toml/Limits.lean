import GatewayLauncher.Proofs.Toml.Reader

namespace GatewayLauncher.Toml

variable {α β : Type} {room room' : Nat} {s t rest : List Char} {e : ReadError}

def isOpening (c : Char) : Bool := c == '[' || c == '\x7b'

/-- The brackets and braces that may open an array or a table. -/
def openings (s : List Char) : Nat := s.countP isOpening

/-- Some run of digits and underscores has more digits than are read. -/
def HasOverlongRun (s : List Char) : Prop :=
  ∃ run, run <:+: s ∧ (∀ c ∈ run, c.isDigit = true ∨ c = '_') ∧
    Text.digitLimit < run.countP Char.isDigit

theorem HasOverlongRun.mono (h : HasOverlongRun t) (ht : t <:+ s) : HasOverlongRun s := by
  obtain ⟨run, hr, hc, hl⟩ := h
  exact ⟨run, hr.trans ht.isInfix, hc, hl⟩

theorem openings_le (h : t <:+ s) : openings t ≤ openings s := h.sublist.countP_le

theorem openings_cons (c : Char) (s : List Char) (h : isOpening c = true) :
    openings (c :: s) = openings s + 1 := by
  rw [openings, List.countP_cons, if_pos h]
  rfl

/-- Why the reading of a text may stop. Values are nested too deeply only if what is opened in the
    text can take up the room, of which each opening takes at most three units. -/
inductive Stops (room : Nat) (s : List Char) : ReadError → Prop
  | malformed : Stops room s .malformed
  | overlong (h : HasOverlongRun s) : Stops room s .overlongInteger
  | tooDeep (h : room ≤ 3 * openings s) : Stops room s .tooDeep

/-- What stops the reading at an end of a text stops the reading of the text, and there it may have
    had as much more room as the openings before that end take. -/
theorem Stops.mono (he : Stops room t e) (h : t <:+ s)
    (hr : room' + 3 * openings t ≤ room + 3 * openings s) : Stops room' s e := by
  cases he with
  | malformed => exact .malformed
  | overlong ho => exact .overlong (ho.mono h)
  | tooDeep hd => exact .tooDeep (by omega)

theorem Stops.suffix (he : Stops room t e) (h : t <:+ s) : Stops room s e :=
  he.mono h (Nat.add_le_add_left (Nat.mul_le_mul_left 3 (openings_le h)) room)

/-- A reading leaves an end of the text, or it has a reason to stop. -/
def Ends (room : Nat) (s : List Char) : Except ReadError (α × List Char) → Prop
  | .ok r => r.2 <:+ s
  | .error e => Stops room s e

namespace Ends

variable {r : Except ReadError (α × List Char)}

theorem mono (hr : Ends room t r) (h : t <:+ s)
    (hroom : room' + 3 * openings t ≤ room + 3 * openings s) : Ends room' s r := by
  cases r with
  | ok r => exact List.IsSuffix.trans hr h
  | error e => exact Stops.mono hr h hroom

theorem suffix (hr : Ends room t r) (h : t <:+ s) : Ends room s r :=
  hr.mono h (Nat.add_le_add_left (Nat.mul_le_mul_left 3 (openings_le h)) room)

theorem cons (hr : Ends room s r) (c : Char) : Ends room (c :: s) r :=
  hr.suffix (List.suffix_cons c s)

theorem opened {c : Char} (hr : Ends room s r) (hc : isOpening c = true) (h : room' ≤ room + 3) :
    Ends room' (c :: s) r := by
  have ho := openings_cons c s hc
  exact hr.mono (List.suffix_cons c s) (by omega)

theorem of_leaves {o : Option (α × List Char)} (h : Leaves s o) : Ends room s (orMalformed o) := by
  cases o with
  | none => exact .malformed
  | some r => exact h r.1 r.2 rfl

theorem bind {f : α × List Char → Except ReadError (β × List Char)} (hr : Ends room s r)
    (hf : ∀ a rest, Ends room rest (f (a, rest))) : Ends room s (r >>= f) := by
  cases r with
  | ok r => exact (hf r.1 r.2).suffix hr
  | error e => exact hr

theorem bind_value {o : Option α} {f : α → Except ReadError (β × List Char)}
    (hf : ∀ a, Ends room s (f a)) : Ends room s (orMalformed o >>= f) := by
  cases o with
  | none => exact Stops.malformed
  | some a => exact hf a

theorem bind_room {n : Nat} {f : Nat → Except ReadError (β × List Char)}
    (hs : room < n → room ≤ 3 * openings s) (hf : n ≤ room → Ends room s (f (room - n))) :
    Ends room s (roomWithin room n >>= f) := by
  unfold roomWithin
  split
  · rename_i h
    exact Stops.tooDeep (hs h)
  · rename_i h
    exact hf (Nat.le_of_not_lt h)

end Ends

/-- What is passed over leaves an end of the text, or it makes the text malformed. -/
def Passes (s : List Char) : Except ReadError (List Char) → Prop
  | .ok rest => rest <:+ s
  | .error e => e = .malformed

theorem Ends.bind_text {r : Except ReadError (List Char)}
    {f : List Char → Except ReadError (β × List Char)} (hr : Passes s r)
    (hf : ∀ rest, Ends room rest (f rest)) : Ends room s (r >>= f) := by
  cases r with
  | ok rest => exact (hf rest).suffix hr
  | error e =>
    obtain rfl : e = .malformed := hr
    exact Stops.malformed

theorem Ends.stops_of_bind {r : Except ReadError (α × List Char)}
    {f : α × List Char → Except ReadError β} (hr : Ends room s r) (h : r >>= f = .error e)
    (hf : ∀ a rest, f (a, rest) = .error e → Stops room rest e) : Stops room s e := by
  cases r with
  | ok r => exact (hf r.1 r.2 h).suffix hr
  | error e' =>
    cases h
    exact hr

theorem Passes.stops_of_bind {r : Except ReadError (List Char)}
    {f : List Char → Except ReadError β} (hr : Passes s r) (h : r >>= f = .error e)
    (hf : ∀ rest, f rest = .error e → Stops room rest e) : Stops room s e := by
  cases r with
  | ok rest => exact (hf rest h).suffix hr
  | error e' =>
    cases h
    obtain rfl : e = .malformed := hr
    exact .malformed

theorem passes_skipLines (inComment : Bool) (s : List Char) : Passes s (skipLines inComment s) := by
  have cons {t : List Char} {r} (c : Char) (h : Passes t r) : Passes (c :: t) r := by
    cases r with
    | ok rest => exact List.IsSuffix.trans h (List.suffix_cons c t)
    | error e => exact h
  fun_induction skipLines inComment s with
  | case1 => exact List.suffix_rfl
  | case2 _ _ ih => exact cons _ ih
  | case3 _ _ _ _ ih => exact cons _ ih
  | case4 => rfl
  | case5 _ _ _ _ _ _ ih => exact cons _ ih
  | case6 _ _ _ _ _ ih => exact cons _ ih
  | case7 => exact List.suffix_rfl

theorem passes_skipComment (s : List Char) : Passes s (skipComment s) := by
  unfold skipComment
  split
  · split
    · exact (List.dropWhile_suffix _).trans (List.suffix_cons _ _)
    · rfl
  · exact List.suffix_rfl

theorem hasOverlongRun_of_heads {ds : List Char} (h : Heads Char.isDigit s ds rest)
    (hl : Text.digitLimit < ds.length) : HasOverlongRun s := by
  obtain ⟨run, rfl, hr, hs, hd⟩ := h
  have hc : ds.countP Char.isDigit = ds.length := List.countP_eq_length.mpr hd
  have hr' : ds.countP Char.isDigit ≤ run.countP Char.isDigit := hs.countP_le
  exact ⟨run, (List.prefix_append run rest).isInfix, hr, by omega⟩

theorem getD_exponentPart?_suffix (s : List Char) : ((exponentPart? s).getD (0, s)).2 <:+ s := by
  cases h : exponentPart? s with
  | none => exact List.suffix_rfl
  | some r => exact leaves_exponentPart? s r.1 r.2 h

theorem ends_of_decimal? {r : Except ReadError (Value × List Char)} (h : decimal? s = some r) :
    Ends room s r := by
  obtain ⟨⟨whole, rest⟩, hw, h⟩ := Option.bind_eq_some_iff.mp h
  have hh := heads_of_wholePart? hw
  have hs : rest <:+ s := hh.suffix.trans (sign_suffix s)
  dsimp only at h
  split at h
  · split at h
    · rename_i hl
      cases h
      exact Stops.overlong ((hasOverlongRun_of_heads hh hl).mono (sign_suffix s))
    · cases h
      exact hs
  · rename_i he
    cases h
    exact (leaves_exponentPart? _ _ _ he).trans hs
  · rename_i hf
    cases h
    exact (getD_exponentPart?_suffix _).trans ((leaves_fractionPart? _ _ _ hf).trans hs)

theorem ends_scalar (s : List Char) : Ends room s (scalar s) := by
  unfold scalar
  split
  · exact Stops.malformed
  · exact .of_leaves ((leaves_longQuotation? _).map fun _ _ => List.suffix_rfl)
  · exact .of_leaves ((leaves_longQuotation? _).map fun _ _ => List.suffix_rfl)
  · exact List.suffix_append [_, _, _, _] _
  · exact List.suffix_append [_, _, _, _, _] _
  · split
    · rename_i m rest hm
      split
      · exact leaves_moment? _ _ _ hm
      · exact Stops.malformed
    · split
      · rename_i hr
        exact leaves_radixInteger? _ _ _ hr
      · split
        · rename_i hd
          exact ends_of_decimal? hd
        · exact .of_leaves (leaves_specialFloat? _)

theorem ends_keyOfPair (s : List Char) : Ends room s (keyOfPair s) := by
  refine .bind (.of_leaves (leaves_key? s)) fun k rest => ?_
  dsimp only
  split
  · rename_i rest
    exact (skipSpaces_suffix rest).trans (List.suffix_cons _ rest)
  · exact Stops.malformed

-- The bound on length and depth carries the induction, and only an opening takes room away.
mutual

theorem ends_value (fuel room : Nat) (s : List Char) : Ends room s (value fuel room s) := by
  match fuel with
  | 0 =>
    rw [value]
    exact Stops.malformed
  | fuel + 1 =>
    rw [value.eq_def]
    dsimp only
    split
    · rename_i rest
      refine .bind_room (fun h => ?_) fun h => ?_
      · have := openings_cons '[' rest rfl
        omega
      · refine .opened ?_ rfl (Nat.le_add_of_sub_le (Nat.sub_le_sub_left (by decide : 2 ≤ 3) room))
        exact .bind_text (passes_skipLines _ _) fun rest => ends_arrayItems fuel _ _ _
    · rename_i rest
      refine .bind_room (fun h => ?_) fun h => ?_
      · have := openings_cons '\x7b' rest rfl
        omega
      · refine .opened ?_ rfl (Nat.le_add_of_sub_le (Nat.le_refl (room - 3)))
        have hs := skipSpaces_suffix rest
        split
        · rename_i he
          rw [he] at hs
          exact (List.suffix_cons _ _).trans hs
        · exact (ends_inlineEntries fuel _ _ _).suffix hs
    · exact .bind_room (fun h => by omega) fun _ => ends_scalar _

theorem ends_arrayItems (fuel room : Nat) (before : List Value) (s : List Char) :
    Ends room s (arrayItems fuel room before s) := by
  match fuel with
  | 0 =>
    rw [arrayItems]
    exact Stops.malformed
  | fuel + 1 =>
    rw [arrayItems.eq_def]
    dsimp only
    split
    · exact List.suffix_cons _ _
    · refine (ends_value fuel room _).bind fun v rest => ?_
      refine .bind_text (passes_skipLines _ _) fun rest => ?_
      split
      · exact List.suffix_cons _ _
      · refine .cons (.bind_text (passes_skipLines _ _) fun rest => ?_) _
        exact ends_arrayItems fuel room _ _
      · exact Stops.malformed

theorem ends_inlineEntries (fuel room : Nat) (ns : Namespace) (s : List Char) :
    Ends room s (inlineEntries fuel room ns s) := by
  match fuel with
  | 0 =>
    rw [inlineEntries]
    exact Stops.malformed
  | fuel + 1 =>
    rw [inlineEntries.eq_def]
    refine (ends_keyOfPair s).bind fun k rest => ?_
    refine (ends_value fuel room rest).bind fun v rest => .bind_value fun ns => ?_
    have hs := skipSpaces_suffix rest
    split
    · rename_i h
      rw [h] at hs
      exact (List.suffix_cons _ _).trans hs
    · rename_i h
      rw [h] at hs
      exact ((ends_inlineEntries fuel room _ _).suffix (skipSpaces_suffix _)).suffix
        ((List.suffix_cons _ _).trans hs)
    · exact Stops.malformed

end

theorem ends_headerLine (p : Progress) (s : List Char) : Ends room s (headerLine p s) := by
  unfold headerLine
  dsimp only
  split
  · rename_i rest
    refine .cons (.suffix (t := skipSpaces rest) ?_ (skipSpaces_suffix rest)) _
    refine .bind (.of_leaves (leaves_key? _)) fun k rest => .bind_value fun tables => ?_
    dsimp only
    split
    · exact List.suffix_append [_, _] _
    · exact Stops.malformed
  · refine .suffix (t := skipSpaces s) ?_ (skipSpaces_suffix s)
    refine .bind (.of_leaves (leaves_key? _)) fun k rest => .bind_value fun tables => ?_
    dsimp only
    split
    · exact List.suffix_cons _ _
    · exact Stops.malformed

theorem ends_pairLine (p : Progress) (s : List Char) : Ends nestingRoom s (pairLine p s) :=
  (ends_keyOfPair s).bind fun _ rest => (ends_value _ _ rest).bind fun _ _ =>
    .bind_value fun _ => List.suffix_rfl

theorem ends_statement (p : Progress) (s : List Char) : Ends nestingRoom s (statement p s) := by
  unfold statement
  split
  · exact List.suffix_rfl
  split
  · exact List.suffix_rfl
  split
  · exact (ends_headerLine p _).cons _
  · exact ends_pairLine p _

theorem stops_of_lines {fuel : Nat} {p : Progress} (h : lines fuel p s = .error e) :
    Stops nestingRoom s e := by
  induction fuel generalizing p s with
  | zero =>
    cases h
    exact .malformed
  | succ fuel ih =>
    rw [lines] at h
    refine .suffix ?_ (skipSpaces_suffix s)
    refine (ends_statement p (skipSpaces s)).stops_of_bind h fun p rest h => ?_
    refine .suffix ?_ (skipSpaces_suffix rest)
    refine (passes_skipComment (skipSpaces rest)).stops_of_bind h fun rest h => ?_
    split at h
    · cases h
    · exact (ih h).suffix (List.suffix_cons _ _)
    · cases h
      exact .malformed

theorem stops_of_readText {text : String} (h : readText text = .error e) :
    Stops nestingRoom text.toList e := by
  cases stops_of_lines h with
  | malformed => exact .malformed
  | overlong ho =>
    obtain ⟨run, hr, hc, hl⟩ := ho
    have hn : '\n' ∉ run := fun h => by simpa using hc _ h
    exact .overlong ⟨run, Text.isInfix_of_joinLineEnds hn hr, hc, hl⟩
  | tooDeep hd =>
    have hs : openings (Text.joinLineEnds text.toList) ≤ openings text.toList :=
      (Text.joinLineEnds_sublist text.toList).countP_le
    exact .tooDeep (Nat.le_trans hd (Nat.mul_le_mul_left 3 hs))

/-- Bytes that are not read as a document are malformed, or they are no text, or their text has an
    overlong run of digits or as many openings as can take up the room. -/
theorem readBytes_cases {bytes : ByteArray} (h : readBytes bytes = .error e) :
    e = .malformed ∨ (e = .notUtf8 ∧ String.fromUTF8? bytes = none) ∨
    ∃ text, String.fromUTF8? bytes = some text ∧
      (e = .overlongInteger ∧ HasOverlongRun text.toList ∨
        e = .tooDeep ∧ nestingRoom ≤ 3 * openings text.toList) := by
  unfold readBytes at h
  split at h
  · rename_i text ht
    cases stops_of_readText h with
    | malformed => exact .inl rfl
    | overlong ho => exact .inr (.inr ⟨text, ht, .inl ⟨rfl, ho⟩⟩)
    | tooDeep hd => exact .inr (.inr ⟨text, ht, .inr ⟨rfl, hd⟩⟩)
  · rename_i ht
    cases h
    exact .inr (.inl ⟨rfl, ht⟩)

end GatewayLauncher.Toml

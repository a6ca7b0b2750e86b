namespace GatewayLauncher.Text

def splitFirst (mark : Char) (s : List Char) : List Char × Option (List Char) :=
  match s with
  | [] => ([], none)
  | c :: rest =>
    if c = mark then ([], some rest)
    else
      let (before, behind) := splitFirst mark rest
      (c :: before, behind)

theorem splitFirst_append {mark : Char} {b : List Char} (r : List Char) (h : mark ∉ b) :
    splitFirst mark (b ++ mark :: r) = (b, some r) := by
  induction b with
  | nil => simp [splitFirst]
  | cons c b ih =>
    obtain ⟨hc, hb⟩ : c ≠ mark ∧ mark ∉ b := by simpa [eq_comm] using h
    simp [splitFirst, hc, ih hb]

theorem splitFirst_of_not_mem {mark : Char} {s : List Char} (h : mark ∉ s) :
    splitFirst mark s = (s, none) := by
  induction s with
  | nil => rfl
  | cons c s ih =>
    obtain ⟨hc, hs⟩ : c ≠ mark ∧ mark ∉ s := by simpa [eq_comm] using h
    simp [splitFirst, hc, ih hs]

def withoutFinalNewline (s : List Char) : List Char :=
  if s.getLast? = some '\n' then s.dropLast else s

theorem withoutFinalNewline_of_not_mem {s : List Char} (h : '\n' ∉ s) :
    withoutFinalNewline s = s :=
  if_neg fun hl => h (List.mem_of_getLast? hl)

def lines (ls : List String) : String := String.join (ls.map (· ++ "\n"))

/-- Turns each carriage return that a line feed follows, together with it, into one line feed. -/
def joinLineEnds : List Char → List Char
  | '\r' :: '\n' :: rest => '\n' :: joinLineEnds rest
  | c :: rest => c :: joinLineEnds rest
  | [] => []

/-- Turns every line end, of either kind or both together, into one line feed. -/
def unifyLineEnds : List Char → List Char
  | '\r' :: '\n' :: rest => '\n' :: unifyLineEnds rest
  | '\r' :: rest => '\n' :: unifyLineEnds rest
  | c :: rest => c :: unifyLineEnds rest
  | [] => []

theorem joinLineEnds_of_not_mem {s : List Char} (h : '\r' ∉ s) : joinLineEnds s = s := by
  fun_induction joinLineEnds s with
  | case1 rest ih => simp at h
  | case2 c rest _ ih => rw [ih (List.not_mem_of_not_mem_cons h)]
  | case3 => rfl

theorem joinLineEnds_sublist (s : List Char) : (joinLineEnds s).Sublist s := by
  fun_induction joinLineEnds s with
  | case1 rest ih => exact (ih.cons_cons _).cons _
  | case2 c rest _ ih => exact ih.cons_cons c
  | case3 => exact List.Sublist.refl _

theorem isPrefix_of_joinLineEnds {run s : List Char} (hr : '\n' ∉ run)
    (h : run <+: joinLineEnds s) : run <+: s := by
  fun_induction joinLineEnds s generalizing run with
  | case1 rest ih =>
    obtain rfl | ⟨t, rfl, -⟩ := List.prefix_cons_iff.mp h
    · exact List.nil_prefix
    · exact absurd List.mem_cons_self hr
  | case2 c rest _ ih =>
    obtain rfl | ⟨t, rfl, ht⟩ := List.prefix_cons_iff.mp h
    · exact List.nil_prefix
    · exact List.prefix_cons_iff.mpr (.inr ⟨t, rfl, ih (List.not_mem_of_not_mem_cons hr) ht⟩)
  | case3 => exact h

theorem isInfix_of_joinLineEnds {run s : List Char} (hr : '\n' ∉ run)
    (h : run <:+: joinLineEnds s) : run <:+: s := by
  fun_induction joinLineEnds s with
  | case1 rest ih =>
    obtain hp | hi := List.infix_cons_iff.mp h
    · obtain rfl | ⟨t, rfl, -⟩ := List.prefix_cons_iff.mp hp
      · exact List.nil_infix
      · exact absurd List.mem_cons_self hr
    · exact ((ih hi).trans (List.suffix_cons _ _).isInfix).trans (List.suffix_cons _ _).isInfix
  | case2 c rest hc ih =>
    obtain hp | hi := List.infix_cons_iff.mp h
    · obtain rfl | ⟨t, rfl, ht⟩ := List.prefix_cons_iff.mp hp
      · exact List.nil_infix
      · have ht := isPrefix_of_joinLineEnds (List.not_mem_of_not_mem_cons hr) ht
        exact (List.prefix_cons_iff.mpr (.inr ⟨t, rfl, ht⟩)).isInfix
    · exact (ih hi).trans (List.suffix_cons _ _).isInfix
  | case3 => exact h

theorem not_mem_unifyLineEnds (s : List Char) : '\r' ∉ unifyLineEnds s := by
  fun_induction unifyLineEnds s with
  | case1 rest ih => simp [ih]
  | case2 rest _ ih => simp [ih]
  | case3 c rest _ hc ih =>
    have hc : '\r' ≠ c := fun e => hc e.symm
    simp [hc, ih]
  | case4 => simp

theorem unifyLineEnds_of_not_mem {s : List Char} (h : '\r' ∉ s) : unifyLineEnds s = s := by
  fun_induction unifyLineEnds s with
  | case1 rest ih => simp at h
  | case2 rest _ ih => simp at h
  | case3 c rest _ hc ih => rw [ih (List.not_mem_of_not_mem_cons h)]
  | case4 => rfl

theorem mem_joinLineEnds {c : Char} {s : List Char} (h : c ∈ s) (hc : c ≠ '\r') :
    c ∈ joinLineEnds s := by
  fun_induction joinLineEnds s with
  | case1 rest ih =>
    obtain rfl | h := List.mem_cons.mp h
    · exact absurd rfl hc
    obtain rfl | h := List.mem_cons.mp h
    · exact List.mem_cons_self
    · exact List.mem_cons_of_mem _ (ih h)
  | case2 d rest _ ih =>
    obtain rfl | h := List.mem_cons.mp h
    · exact List.mem_cons_self
    · exact List.mem_cons_of_mem _ (ih h)
  | case3 => cases h

/-- Where no lone carriage return is left, both readings of the line ends agree. -/
theorem unifyLineEnds_eq_joinLineEnds {s : List Char} (h : '\r' ∉ joinLineEnds s) :
    unifyLineEnds s = joinLineEnds s := by
  fun_induction joinLineEnds s with
  | case1 rest ih => rw [unifyLineEnds, ih (List.not_mem_of_not_mem_cons h)]
  | case2 c rest hn ih =>
    have hc : c ≠ '\r' := fun hc => h (hc ▸ List.mem_cons_self)
    rw [unifyLineEnds.eq_3 c rest hn fun e => hc e, ih (List.not_mem_of_not_mem_cons h)]
  | case3 => rfl

end GatewayLauncher.Text

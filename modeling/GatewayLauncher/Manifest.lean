import GatewayLauncher.Text.Character

namespace GatewayLauncher.Manifest

/-- A text cut at a literal: what is before it, the literal without its quotes, and what is
    behind. -/
structure Cut where
  before : List Char
  literal : List Char
  behind : List Char
  deriving DecidableEq, Repr

namespace Cut

def text (c : Cut) : List Char := c.before ++ '"' :: c.literal ++ '"' :: c.behind

def replace (c : Cut) (literal : List Char) : Cut := { c with literal }

def within (front : List Char) (c : Cut) : Cut := { c with before := front ++ c.before }

theorem text_within (front : List Char) (c : Cut) : (c.within front).text = front ++ c.text := by
  simp [text, within]

theorem replace_within (front literal : List Char) (c : Cut) :
    (c.within front).replace literal = (c.replace literal).within front := rfl

end Cut

def afterWord? (word s : List Char) : Option (List Char) :=
  if word.isPrefixOf s then some (s.drop word.length) else none

theorem append_of_afterWord? {word s rest : List Char} (h : afterWord? word s = some rest) :
    word ++ rest = s := by
  unfold afterWord? at h
  split at h
  next hp =>
    obtain ⟨r, rfl⟩ := List.isPrefixOf_iff_prefix.mp hp
    simp_all
  next => simp at h

def isQuote (c : Char) : Bool := c == '"'

def literal? : List Char → Option Cut
  | '"' :: s =>
    match s.takeWhile (!isQuote ·), s.dropWhile (!isQuote ·) with
    | literal, '"' :: behind => if literal.isEmpty then none else some ⟨[], literal, behind⟩
    | _, _ => none
  | _ => none

theorem text_of_literal? {s : List Char} {c : Cut} (h : literal? s = some c) : c.text = s := by
  unfold literal? at h
  split at h
  next s =>
    have hs := List.takeWhile_append_dropWhile (p := (!isQuote ·)) (l := s)
    split at h
    next behind hb =>
      split at h
      next => simp at h
      next =>
        obtain rfl := Option.some.inj h
        rw [hb] at hs
        simp [Cut.text, hs]
    next => simp at h
  next => simp at h

def assignment? (name s : List Char) : Option Cut := do
  let rest ← afterWord? name s
  let value ← afterWord? ['='] (rest.dropWhile Text.isBlank)
  let cut ← literal? (value.dropWhile Text.isBlank)
  return cut.within
    (name ++ rest.takeWhile Text.isBlank ++ '=' :: value.takeWhile Text.isBlank)

theorem text_of_assignment? {name s : List Char} {c : Cut} (h : assignment? name s = some c) :
    c.text = s := by
  simp only [assignment?, Option.bind_eq_bind, Option.bind_eq_some_iff, Option.pure_def,
    Option.some.injEq] at h
  obtain ⟨rest, hr, value, hv, cut, hc, rfl⟩ := h
  have hs := List.takeWhile_append_dropWhile (p := Text.isBlank) (l := rest)
  have ht := List.takeWhile_append_dropWhile (p := Text.isBlank) (l := value)
  rw [Cut.text_within, text_of_literal? hc, ← append_of_afterWord? hr]
  calc _ = name ++ (rest.takeWhile Text.isBlank ++ (['='] ++
        (value.takeWhile Text.isBlank ++ value.dropWhile Text.isBlank))) := by simp
    _ = name ++ rest := by rw [ht, append_of_afterWord? hv, hs]

def firstAssignment? (name : List Char) : List Char → Option Cut
  | [] => none
  | c :: s =>
    match assignment? name (c :: s) with
    | some cut => some cut
    | none => (firstAssignment? name s).map (Cut.within [c])

theorem text_of_firstAssignment? {name s : List Char} {cut : Cut}
    (h : firstAssignment? name s = some cut) : cut.text = s := by
  induction s generalizing cut with
  | nil => simp [firstAssignment?] at h
  | cons c s ih =>
    unfold firstAssignment? at h
    split at h
    next found ha =>
      obtain rfl := Option.some.inj h
      exact text_of_assignment? ha
    next =>
      obtain ⟨inner, hi, rfl⟩ := Option.map_eq_some_iff.mp h
      simp [Cut.text_within, ih hi]

/-- The cut at the first assignment to a name behind the first heading. -/
def assignmentBehind? (heading name : List Char) : List Char → Option Cut
  | [] => none
  | c :: s =>
    match afterWord? heading (c :: s) with
    | some rest => (firstAssignment? name rest).map (Cut.within heading)
    | none => (assignmentBehind? heading name s).map (Cut.within [c])

theorem text_of_assignmentBehind? {heading name s : List Char} {cut : Cut}
    (h : assignmentBehind? heading name s = some cut) : cut.text = s := by
  induction s generalizing cut with
  | nil => simp [assignmentBehind?] at h
  | cons c s ih =>
    unfold assignmentBehind? at h
    split at h
    next rest hr =>
      obtain ⟨inner, hi, rfl⟩ := Option.map_eq_some_iff.mp h
      rw [Cut.text_within, text_of_firstAssignment? hi, append_of_afterWord? hr]
    next =>
      obtain ⟨inner, hi, rfl⟩ := Option.map_eq_some_iff.mp h
      simp [Cut.text_within, ih hi]

def projectVersion? (s : List Char) : Option Cut :=
  assignmentBehind? "[project]".toList "version".toList s

def packageVersion? (s : List Char) : Option Cut := firstAssignment? "__version__".toList s

end GatewayLauncher.Manifest

import GatewayLauncher.Proofs.Text.Digit
import GatewayLauncher.Version

namespace GatewayLauncher.Version

variable {v : Version} {ids : List String} {s : List Char} {c : Char}

theorem isNumber_iff : isNumber s = true ↔
    s = ['0'] ∨ ∃ c rest, s = c :: rest ∧ '1' ≤ c ∧ c ≤ '9' ∧ rest.all Text.isDigit = true := by
  unfold isNumber
  split
  · simp
  · rename_i c rest hs
    simp [and_assoc, show c :: rest ≠ ['0'] by simpa using hs]
  · simp

theorem isNumber_concat (hs : isNumber s = true) (h0 : s ≠ ['0']) (hc : Text.isDigit c = true) :
    isNumber (s ++ [c]) = true := by
  obtain h | ⟨d, rest, rfl, hd, hd', hr⟩ := isNumber_iff.mp hs
  · exact absurd h h0
  · exact isNumber_iff.mpr (.inr ⟨d, rest ++ [c], rfl, hd, hd', by simp [hr, hc]⟩)

theorem isNumber_toDigits (n : Nat) : isNumber (Nat.toDigits 10 n) = true := by
  induction n using Nat.strongRecOn with
  | ind n ih =>
    by_cases hn : n < 10
    · have hd : ∀ k : Fin 10, isNumber [k.val.digitChar] = true := by decide
      rw [Nat.toDigits_of_lt_base hn]
      exact hd ⟨n, hn⟩
    · have h0 : Nat.toDigits 10 (n / 10) ≠ ['0'] := by
        intro h
        have hz := Text.numeral_toDigits (n / 10)
        rw [h, show Text.numeral ['0'] = 0 by decide] at hz
        omega
      rw [Nat.toDigits_of_base_le (by decide) (by omega)]
      exact isNumber_concat (ih (n / 10) (by omega)) h0
        (Text.isDigit_digitChar (Nat.mod_lt n (by decide)))

def IsIdLetter (c : Char) : Prop := Text.isDigit c = true ∨ isWordChar c = true

theorem isDigit_of_isNumber (hs : isNumber s = true) (hc : c ∈ s) : Text.isDigit c = true := by
  obtain rfl | ⟨d, rest, rfl, hd, hd', hr⟩ := isNumber_iff.mp hs
  · rw [List.mem_singleton.mp hc]
    decide
  · rcases List.mem_cons.mp hc with rfl | hc
    · exact Text.isDigit_of_ascii (Char.le_trans (by decide) hd) hd'
    · exact List.all_eq_true.mp hr c hc

theorem toNat_of_isAlpha (h : c.isAlpha = true) :
    (65 ≤ c.toNat ∧ c.toNat ≤ 90) ∨ (97 ≤ c.toNat ∧ c.toNat ≤ 122) := by
  change (decide (c.val ≥ 'A'.val ∧ c.val ≤ 'Z'.val) ||
    (decide (c.val ≥ 'a'.val) && decide (c.val ≤ 'z'.val))) = true at h
  simp only [Bool.or_eq_true, Bool.and_eq_true, decide_eq_true_eq, UInt32.le_iff_toNat_le,
    ge_iff_le] at h
  exact h

theorem not_isDigit_of_isAlpha (h : c.isAlpha = true ∨ c = '-') : Text.isDigit c = false := by
  rw [← Bool.not_eq_true]
  intro hd
  rcases h with h | rfl
  · have h := toNat_of_isAlpha h
    have ha := Text.ascii_of_isDigit hd
    omega
  · exact absurd hd (by decide)

theorem isPrereleaseId_iff : isPrereleaseId s = true ↔ isNumber s = true ∨
    ∃ digits c rest, s = digits ++ c :: rest ∧ digits.all Text.isDigit = true ∧
      (c.isAlpha = true ∨ c = '-') ∧ rest.all isWordChar = true := by
  rw [isPrereleaseId, Bool.or_eq_true]
  refine or_congr_right ?_
  constructor
  · intro h
    have hs := List.takeWhile_append_dropWhile (p := Text.isDigit) (l := s)
    split at h
    · rename_i c rest hd
      rw [Bool.and_eq_true, Bool.or_eq_true, beq_iff_eq] at h
      exact ⟨s.takeWhile Text.isDigit, c, rest, by rw [← hd, hs], List.all_takeWhile, h.1, h.2⟩
    · cases h
  · rintro ⟨digits, c, rest, rfl, hd, hc, hr⟩
    have hn := not_isDigit_of_isAlpha hc
    rw [List.dropWhile_append_of_pos (List.all_eq_true.mp hd),
      List.dropWhile_cons_of_neg (by simp [hn])]
    simpa [hr] using hc

theorem isIdLetter_of_isPrereleaseId (hs : isPrereleaseId s = true) (hc : c ∈ s) :
    IsIdLetter c := by
  obtain hs | ⟨digits, d, rest, rfl, hd, hw, hr⟩ := isPrereleaseId_iff.mp hs
  · exact .inl (isDigit_of_isNumber hs hc)
  · rcases List.mem_append.mp hc with hc | hc
    · exact .inl (List.all_eq_true.mp hd c hc)
    · refine .inr ?_
      rcases List.mem_cons.mp hc with rfl | hc
      · rcases hw with hw | rfl
        · simp [isWordChar, Char.isAlphanum, hw]
        · rfl
      · exact List.all_eq_true.mp hr c hc

theorem isIdLetter_of_isBuildId (hs : isBuildId s = true) (hc : c ∈ s) : IsIdLetter c := by
  rw [isBuildId, Bool.and_eq_true] at hs
  exact .inr (List.all_eq_true.mp hs.2 c hc)

/-- The marks between identifiers, and characters that would end the text of a version. -/
def foreign : List Char := ['.', '+', '"', '\n', '\r']

theorem IsIdLetter.not_mem_foreign (h : IsIdLetter c) : c ∉ foreign := by
  intro hc
  have hf : (foreign.all fun d => !Text.isDigit d && !isWordChar d) = true := by decide
  have hn := List.all_eq_true.mp hf c hc
  rw [Bool.and_eq_true, Bool.not_eq_true', Bool.not_eq_true'] at hn
  rcases h with h | h
  · rw [hn.1] at h
    cases h
  · rw [hn.2] at h
    cases h

structure WellFormed (v : Version) : Prop where
  prerelease : ∀ id ∈ v.prerelease, isPrereleaseId id.toList = true
  build : ∀ id ∈ v.build, isBuildId id.toList = true

/-- The numbers are under the digit limit. -/
structure Writable (v : Version) : Prop where
  major : v.major < 10 ^ Text.digitLimit
  minor : v.minor < 10 ^ Text.digitLimit
  patch : v.patch < 10 ^ Text.digitLimit

theorem writable_of_le (hx : v.major ≤ Text.digitLimit) (hy : v.minor ≤ Text.digitLimit)
    (hz : v.patch ≤ Text.digitLimit) : v.Writable :=
  ⟨Text.lt_of_le_digitLimit hx, Text.lt_of_le_digitLimit hy, Text.lt_of_le_digitLimit hz⟩

def joined (pieces : List (List Char)) : List Char := ['.'].intercalate pieces

def coreLetters (v : Version) : List Char :=
  joined [Nat.toDigits 10 v.major, Nat.toDigits 10 v.minor, Nat.toDigits 10 v.patch]

def marked (mark : Char) (ids : List String) : List Char :=
  if ids = [] then [] else mark :: joined (ids.map String.toList)

def letters (v : Version) : List Char :=
  v.coreLetters ++ marked '-' v.prerelease ++ marked '+' v.build

theorem writeNumber_eq_ok_iff {n : Nat} {t : String} : writeNumber n = .ok t ↔
    n < 10 ^ Text.digitLimit ∧ t = String.ofList (Nat.toDigits 10 n) := by
  rw [writeNumber]
  split
  · rename_i s hs
    obtain ⟨hn, rfl⟩ := Text.writeNat?_eq_some_iff.mp hs
    simp [hn, eq_comm]
  · rename_i hs
    refine iff_of_false (by simp) ?_
    rintro ⟨hn, -⟩
    rw [Text.writeNat?_eq_some_iff.mpr ⟨hn, rfl⟩] at hs
    cases hs

theorem toList_dotted (ids : List String) :
    (dotted ids).toList = joined (ids.map String.toList) := by
  rw [dotted, String.toList_intercalate]
  rfl

theorem render_of_writable (h : v.Writable) : v.render = .ok (String.ofList v.letters) := by
  have hm (mark : Char) (m : String) (hm : m.toList = [mark]) (ids : List String) :
      (if ids.isEmpty then "" else m ++ dotted ids) = String.ofList (marked mark ids) := by
    apply String.toList_injective
    cases ids with
    | nil => rfl
    | cons id ids => simp [marked, toList_dotted, hm]
  have hw {n : Nat} (hn : n < 10 ^ Text.digitLimit) :=
    writeNumber_eq_ok_iff.mpr ⟨hn, Eq.refl (String.ofList (Nat.toDigits 10 n))⟩
  simp only [render, hw h.major, hw h.minor, hw h.patch, hm '-' "-" rfl, hm '+' "+" rfl, bind,
    Except.bind, pure, Except.pure]
  congr 1
  apply String.toList_injective
  simp [letters, coreLetters, joined]

theorem render_eq_ok_iff {t : String} :
    v.render = .ok t ↔ v.Writable ∧ t = String.ofList v.letters := by
  constructor
  · intro h
    have hw : v.Writable := by
      simp only [render, bind, Except.bind, pure, Except.pure] at h
      cases hx : writeNumber v.major with
      | error e => simp [hx] at h
      | ok x =>
        cases hy : writeNumber v.minor with
        | error e => simp [hx, hy] at h
        | ok y =>
          cases hz : writeNumber v.patch with
          | error e => simp [hx, hy, hz] at h
          | ok z =>
            exact ⟨(writeNumber_eq_ok_iff.mp hx).1, (writeNumber_eq_ok_iff.mp hy).1,
              (writeNumber_eq_ok_iff.mp hz).1⟩
    rw [render_of_writable hw] at h
    exact ⟨hw, (Except.ok.inj h).symm⟩
  · rintro ⟨hw, rfl⟩
    exact render_of_writable hw

theorem exists_render_iff (v : Version) : (∃ t, v.render = .ok t) ↔ v.Writable := by
  constructor
  · rintro ⟨t, ht⟩
    exact (render_eq_ok_iff.mp ht).1
  · intro hw
    exact ⟨_, render_of_writable hw⟩

theorem eq_of_bind_eq_error {α β : Type} {x y : VersionError} {r : Except VersionError α}
    {f : α → Except VersionError β} (h : r >>= f = .error x) (hr : ∀ z, r = .error z → z = y)
    (hf : ∀ a, r = .ok a → f a = .error x → x = y) : x = y := by
  cases r with
  | error z =>
    cases h
    exact hr x rfl
  | ok a => exact hf a rfl h

theorem eq_overlong_of_writeNumber {n : Nat} {x : VersionError} (h : writeNumber n = .error x) :
    x = .overlong := by
  rw [writeNumber] at h
  split at h <;> cases h
  rfl

theorem eq_overlong_of_render {x : VersionError} (h : v.render = .error x) : x = .overlong := by
  refine eq_of_bind_eq_error h (fun _ => eq_overlong_of_writeNumber) fun major _ h => ?_
  refine eq_of_bind_eq_error h (fun _ => eq_overlong_of_writeNumber) fun minor _ h => ?_
  refine eq_of_bind_eq_error h (fun _ => eq_overlong_of_writeNumber) fun patch _ h => ?_
  cases h

theorem malformed_or_overlong_of_parse {k : Completeness} {text : String} {x : VersionError}
    (h : parse k text = .error x) : x = .malformed text ∨ x = .overlong := by
  rw [parse] at h
  split at h
  · cases h
    exact .inl rfl
  · split at h <;> cases h
    exact .inr rfl

theorem of_identifiers? {test : List Char → Bool} {given : Option (List Char)}
    (h : identifiers? test given = some ids) : ∀ id ∈ ids, test id.toList = true := by
  unfold identifiers? at h
  split at h
  · cases h
    simp
  · dsimp only at h
    split at h
    · rename_i ha
      cases h
      simpa using ha
    · cases h

/-- What has been read has the right letters, and can be written. -/
theorem of_parse {c : Completeness} {text : String} (h : parse c text = .ok v) :
    v.WellFormed ∧ v.Writable := by
  rw [parse] at h
  split at h
  · cases h
  · rename_i w hw
    split at h
    · cases h
    · rename_i v' hv
      cases h
      obtain ⟨⟨x, y, z⟩, -, hw⟩ := Option.bind_eq_some_iff.mp hw
      obtain ⟨-, -, hw⟩ := Option.bind_eq_some_iff.mp hw
      obtain ⟨prerelease, hp, hw⟩ := Option.bind_eq_some_iff.mp hw
      obtain ⟨build, hb, hw⟩ := Option.bind_eq_some_iff.mp hw
      cases hw
      simp only [Written.toVersion?, Option.bind_eq_bind, Option.bind_eq_some_iff, Option.pure_def,
        Option.some.injEq] at hv
      obtain ⟨major, hx, minor, hy, patch, hz, rfl⟩ := hv
      exact ⟨⟨of_identifiers? hp, of_identifiers? hb⟩,
        ⟨Text.lt_of_numeral? hx, Text.lt_of_numeral? hy, Text.lt_of_numeral? hz⟩⟩

theorem mem_joined {pieces : List (List Char)} (h : c ∈ joined pieces) :
    c = '.' ∨ ∃ s ∈ pieces, c ∈ s := by
  induction pieces with
  | nil => cases h
  | cons s pieces ih =>
    cases pieces with
    | nil => simp_all [joined]
    | cons t pieces =>
      simp only [joined, List.intercalate_cons_cons, List.append_assoc, List.mem_append,
        List.mem_singleton] at h
      rcases h with h | h | h
      · exact .inr ⟨s, by simp, h⟩
      · exact .inl h
      · obtain h | ⟨u, hu, h⟩ := ih h
        · exact .inl h
        · exact .inr ⟨u, List.mem_cons_of_mem _ hu, h⟩

theorem mem_coreLetters (h : c ∈ v.coreLetters) : c = '.' ∨ Text.isDigit c = true := by
  obtain h | ⟨s, hs, h⟩ := mem_joined h
  · exact .inl h
  · simp only [List.mem_cons, List.not_mem_nil, or_false] at hs
    rcases hs with rfl | rfl | rfl <;> exact .inr (Text.isDigit_of_mem_toDigits h)

theorem letters_ne_nil (v : Version) : v.letters ≠ [] := by
  simp [letters, coreLetters, joined, List.intercalate_cons_cons]

theorem mem_marked {mark : Char} (hi : ∀ id ∈ ids, ∀ c ∈ id.toList, IsIdLetter c)
    (h : c ∈ marked mark ids) : c = mark ∨ c = '.' ∨ IsIdLetter c := by
  rw [marked] at h
  split at h
  · cases h
  · rcases List.mem_cons.mp h with h | h
    · exact .inl h
    · obtain h | ⟨s, hs, h⟩ := mem_joined h
      · exact .inr (.inl h)
      · obtain ⟨id, hid, rfl⟩ := List.mem_map.mp hs
        exact .inr (.inr (hi id hid c h))

theorem WellFormed.isIdLetter (h : v.WellFormed) :
    (∀ id ∈ v.prerelease, ∀ c ∈ id.toList, IsIdLetter c) ∧
    (∀ id ∈ v.build, ∀ c ∈ id.toList, IsIdLetter c) :=
  ⟨fun id hi _ hc => isIdLetter_of_isPrereleaseId (h.prerelease id hi) hc,
    fun id hi _ hc => isIdLetter_of_isBuildId (h.build id hi) hc⟩

theorem mem_parts {core : List Char} {pre build : List String}
    (hcore : ∀ d ∈ core, d = '.' ∨ Text.isDigit d = true)
    (hpre : ∀ id ∈ pre, ∀ d ∈ id.toList, IsIdLetter d)
    (hbuild : ∀ id ∈ build, ∀ d ∈ id.toList, IsIdLetter d)
    (h : c ∈ core ++ marked '-' pre ++ marked '+' build) : c ∈ ['.', '-', '+'] ∨ IsIdLetter c := by
  simp only [List.mem_append] at h
  rcases h with (h | h) | h
  · rcases hcore c h with rfl | h
    · exact .inl (by decide)
    · exact .inr (.inl h)
  · rcases mem_marked hpre h with rfl | rfl | h
    · exact .inl (by decide)
    · exact .inl (by decide)
    · exact .inr h
  · rcases mem_marked hbuild h with rfl | rfl | h
    · exact .inl (by decide)
    · exact .inl (by decide)
    · exact .inr h

theorem WellFormed.mem_letters (h : v.WellFormed) (hc : c ∈ v.letters) :
    c ∈ ['.', '-', '+'] ∨ IsIdLetter c :=
  mem_parts (fun _ => mem_coreLetters) h.isIdLetter.1 h.isIdLetter.2 hc

theorem WellFormed.not_mem_letters (h : v.WellFormed) {d : Char} (hd : d ∈ ['"', '\n', '\r']) :
    d ∉ v.letters := by
  obtain ⟨hm, hd⟩ : d ∉ ['.', '-', '+'] ∧ d ∈ foreign := by
    simp only [List.mem_cons, List.not_mem_nil, or_false] at hd
    obtain rfl | rfl | rfl := hd <;> decide
  intro hc
  rcases h.mem_letters hc with hc | hc
  · exact hm hc
  · exact hc.not_mem_foreign hd

theorem splitFirst_marked {mark : Char} (h : mark ∉ s) :
    Text.splitFirst mark (s ++ marked mark ids) =
      (s, if ids = [] then none else some (joined (ids.map String.toList))) := by
  rw [marked]
  split
  · rw [List.append_nil, Text.splitFirst_of_not_mem h]
  · exact Text.splitFirst_append _ h

theorem splitOn_joined {pieces : List (List Char)} (hn : pieces ≠ [])
    (h : ∀ s ∈ pieces, '.' ∉ s) : (joined pieces).splitOn '.' = pieces :=
  List.splitOn_intercalate '.' h hn

theorem identifiers?_joined {test : List Char → Bool} (ht : ∀ id ∈ ids, test id.toList = true)
    (hd : ∀ id ∈ ids, '.' ∉ id.toList) :
    identifiers? test (if ids = [] then none else some (joined (ids.map String.toList))) =
      some ids := by
  split
  · rename_i h
    rw [h]
    rfl
  · rename_i h
    rw [identifiers?, splitOn_joined (by simpa using h) (by simpa using hd)]
    simpa using ht

theorem coreNumbers?_coreLetters (k : Completeness) (v : Version) :
    coreNumbers? k v.coreLetters =
      some (Nat.toDigits 10 v.major, Nat.toDigits 10 v.minor, Nat.toDigits 10 v.patch) := by
  have hd (n : Nat) : '.' ∉ Nat.toDigits 10 n := fun h =>
    absurd (Text.isDigit_of_mem_toDigits h) (by decide)
  have hs : v.coreLetters.splitOn '.' =
      [Nat.toDigits 10 v.major, Nat.toDigits 10 v.minor, Nat.toDigits 10 v.patch] :=
    splitOn_joined (by simp) (by simp [hd])
  simp only [coreNumbers?, hs]

theorem numeral?_toDigits {n : Nat} (h : n < 10 ^ Text.digitLimit) :
    Text.numeral? (Nat.toDigits 10 n) = some n :=
  Text.numeral?_of_writeNat? (Text.writeNat?_eq_some_iff.mpr ⟨h, rfl⟩)

/-- The marks stand where the parts of a version meet, and nowhere in them. -/
theorem written?_parts {k : Completeness} {core x y z : List Char} {pre build : List String}
    (hcore : ∀ d ∈ core, d = '.' ∨ Text.isDigit d = true)
    (hc : coreNumbers? k core = some (x, y, z))
    (hn : isNumber x = true ∧ isNumber y = true ∧ isNumber z = true)
    (hpre : ∀ id ∈ pre, isPrereleaseId id.toList = true)
    (hbuild : ∀ id ∈ build, isBuildId id.toList = true) :
    written? k (core ++ marked '-' pre ++ marked '+' build) =
      some { major := x, minor := y, patch := z, prerelease := pre, build } := by
  have hi : ∀ id ∈ pre, ∀ d ∈ id.toList, IsIdLetter d :=
    fun id h _ => isIdLetter_of_isPrereleaseId (hpre id h)
  have hj : ∀ id ∈ build, ∀ d ∈ id.toList, IsIdLetter d :=
    fun id h _ => isIdLetter_of_isBuildId (hbuild id h)
  have hm : '-' ∉ core := by
    intro h
    rcases hcore _ h with h | h <;> exact absurd h (by decide)
  have hp : '+' ∉ core ++ marked '-' pre := by
    intro h
    rcases List.mem_append.mp h with h | h
    · rcases hcore _ h with h | h <;> exact absurd h (by decide)
    · rcases mem_marked hi h with h | h | h
      · exact absurd h (by decide)
      · exact absurd h (by decide)
      · exact h.not_mem_foreign (by simp [foreign])
  have hl : '\n' ∉ core ++ marked '-' pre ++ marked '+' build := by
    intro h
    rcases mem_parts hcore hi hj h with h | h
    · exact absurd h (by decide)
    · exact h.not_mem_foreign (by simp [foreign])
  have hd : ∀ id ∈ pre, '.' ∉ id.toList :=
    fun id h hc => (hi id h _ hc).not_mem_foreign (by simp [foreign])
  have he : ∀ id ∈ build, '.' ∉ id.toList :=
    fun id h hc => (hj id h _ hc).not_mem_foreign (by simp [foreign])
  rw [written?, Text.withoutFinalNewline_of_not_mem hl, splitFirst_marked hp]
  dsimp only
  rw [splitFirst_marked hm]
  dsimp only
  rw [hc, identifiers?_joined hpre hd, identifiers?_joined hbuild he]
  simp [hn, guard]

theorem written?_letters (k : Completeness) (hf : v.WellFormed) : written? k v.letters = some {
    major := Nat.toDigits 10 v.major, minor := Nat.toDigits 10 v.minor
    patch := Nat.toDigits 10 v.patch, prerelease := v.prerelease, build := v.build } :=
  written?_parts (fun _ => mem_coreLetters) (coreNumbers?_coreLetters k v)
    ⟨isNumber_toDigits _, isNumber_toDigits _, isNumber_toDigits _⟩ hf.prerelease hf.build

/-- A written version reads back as it was, also where a part of it would do. -/
theorem parse_letters {k : Completeness} (hf : v.WellFormed) (hw : v.Writable) :
    parse k (String.ofList v.letters) = .ok v := by
  simp only [parse, String.toList_ofList]
  rw [written?_letters k hf]
  simp [Written.toVersion?, numeral?_toDigits hw.major, numeral?_toDigits hw.minor,
    numeral?_toDigits hw.patch]

end GatewayLauncher.Version

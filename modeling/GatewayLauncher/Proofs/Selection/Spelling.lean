import GatewayLauncher.Proofs.Selection.Gate

namespace GatewayLauncher

namespace Version

variable {n : Nat}

def ofMajor (n : Nat) : Version := { major := n, minor := 0, patch := 0 }

theorem underLimit_ofMajor (hn : n < 10 ^ Text.digitLimit) : (ofMajor n).UnderLimit where
  writable := ⟨hn, Nat.pow_pos (by decide), Nat.pow_pos (by decide)⟩
  readable := by
    intro id hi
    cases hi

theorem parse_joined_toDigits (hn : n < 10 ^ Text.digitLimit) {zeros : List (List Char)}
    (hz : zeros = [] ∨ zeros = [['0']] ∨ zeros = [['0'], ['0']]) :
    parse .partialAllowed (String.ofList (joined (Nat.toDigits 10 n :: zeros))) =
      .ok (ofMajor n) := by
  have h0 : ∀ s ∈ zeros, s = ['0'] := by rcases hz with rfl | rfl | rfl <;> simp
  have hd : ∀ s ∈ Nat.toDigits 10 n :: zeros, ∀ d ∈ s, Text.isDigit d = true := by
    intro s hs d hd
    rcases List.mem_cons.mp hs with rfl | hs
    · exact Text.isDigit_of_mem_toDigits hd
    · rw [h0 s hs, List.mem_singleton] at hd
      rw [hd]
      decide
  have hs : (joined (Nat.toDigits 10 n :: zeros)).splitOn '.' = Nat.toDigits 10 n :: zeros :=
    splitOn_joined (by simp) fun s hs h => absurd (hd s hs _ h) (by decide)
  have hc : coreNumbers? .partialAllowed (joined (Nat.toDigits 10 n :: zeros)) =
      some (Nat.toDigits 10 n, ['0'], ['0']) := by
    unfold coreNumbers?
    rw [hs]
    rcases hz with rfl | rfl | rfl <;> rfl
  have hcore : ∀ d ∈ joined (Nat.toDigits 10 n :: zeros), d = '.' ∨ Text.isDigit d = true := by
    intro d h
    obtain h | ⟨s, hs, h⟩ := mem_joined h
    · exact .inl h
    · exact .inr (hd s hs d h)
  have hw := written?_parts hcore hc ⟨isNumber_toDigits n, by decide, by decide⟩
    (List.forall_mem_nil _) (List.forall_mem_nil _)
  simp only [marked, if_true, List.append_nil] at hw
  have hzero : Text.numeral? ['0'] = some 0 := by decide
  simp only [parse, String.toList_ofList]
  rw [hw]
  simp [Written.toVersion?, numeral?_toDigits hn, hzero, ofMajor]

theorem exists_letters_eq (v : Version) :
    ∃ rest, v.letters = Nat.toDigits 10 v.major ++ rest := by
  let behind := '.' :: joined [Nat.toDigits 10 v.minor, Nat.toDigits 10 v.patch]
  refine ⟨behind ++ marked '-' v.prerelease ++ marked '+' v.build, ?_⟩
  simp [letters, coreLetters, joined, behind]

end Version

namespace VersionSpec

variable {n : Nat} {spec : VersionSpec} {v : Version} {t : String}

/-- The values that give the release with this major number and no other: the release, the number,
    and texts of the number, after some letters `v` and with or without the last two numbers. -/
inductive Spells (n : Nat) : VersionSpec → Prop where
  | exact : Spells n (.exact (.ofMajor n))
  | number : Spells n (.number n)
  | text (k : Nat) {ending : String} (h : ending = "" ∨ ending = ".0" ∨ ending = ".0.0") :
      Spells n (.text (String.ofList (List.replicate k 'v') ++ toString n ++ ending))

theorem toVersion_of_head? {given : String} (hv : given.toList.head? ≠ some 'v') :
    (text given).toVersion = Version.parse .partialAllowed given := by
  have hd : given.toList.dropWhile (· = 'v') = given.toList := by
    cases hg : given.toList with
    | nil => rfl
    | cons c cs =>
      rw [hg, List.head?_cons] at hv
      exact List.dropWhile_cons_of_neg (by simpa using hv)
  rw [toVersion, hd, String.ofList_toList]

theorem toVersion_text (k n : Nat) (rest : List Char) :
    (text (String.ofList (List.replicate k 'v' ++ (Nat.toDigits 10 n ++ rest)))).toVersion =
      Version.parse .partialAllowed (String.ofList (Nat.toDigits 10 n ++ rest)) := by
  obtain ⟨c, s, hs⟩ := List.exists_cons_of_ne_nil (Nat.toDigits_ne_nil (n := n) (b := 10))
  have hc : c ≠ 'v' := by
    rintro rfl
    have hd : Text.isDigit 'v' = true := Text.isDigit_of_mem_toDigits (by rw [hs]; simp)
    exact absurd hd (by decide)
  rw [toVersion, String.toList_ofList, List.dropWhile_append_of_pos (by simp), hs,
    List.cons_append, List.dropWhile_cons_of_neg (by simpa using hc)]

theorem Spells.toVersion_eq (h : Spells n spec) (hn : n < 10 ^ Text.digitLimit) :
    spec.toVersion = .ok (.ofMajor n) := by
  cases h with
  | exact => rfl
  | number => simp [toVersion, Version.ofInts, Version.ofMajor]
  | @text k ending h =>
    have hl : String.ofList (List.replicate k 'v') ++ toString n ++ ending =
        String.ofList (List.replicate k 'v' ++ (Nat.toDigits 10 n ++ ending.toList)) := by
      apply String.toList_injective
      simp
    obtain ⟨zeros, hz, he⟩ : ∃ zeros : List (List Char),
        (zeros = [] ∨ zeros = [['0']] ∨ zeros = [['0'], ['0']]) ∧
          Nat.toDigits 10 n ++ ending.toList = Version.joined (Nat.toDigits 10 n :: zeros) := by
      rcases h with rfl | rfl | rfl
      · exact ⟨[], by simp, by simp [Version.joined]⟩
      · exact ⟨[['0']], by simp, by simp [Version.joined]⟩
      · exact ⟨[['0'], ['0']], by simp, by simp [Version.joined]⟩
    rw [hl, toVersion_text, he, Version.parse_joined_toDigits hn hz]

/-- A written version is read back as it was, since it starts with a digit. -/
theorem toVersion_of_render (hf : v.WellFormed) (h : v.render = .ok t) :
    (text t).toVersion = .ok v := by
  obtain ⟨hw, rfl⟩ := Version.render_eq_ok_iff.mp h
  obtain ⟨rest, hl⟩ := v.exists_letters_eq
  have ht := toVersion_text 0 v.major rest
  rw [List.replicate_zero, List.nil_append, ← hl] at ht
  rw [ht, Version.parse_letters hf hw]

end VersionSpec

namespace Selection

open VersionSpec (Spells)

variable {runtime : VersionSpec} {minimum : Option VersionSpec} {v m : Version}
  {system : OperatingSystem} {architecture : Architecture}

theorem selectFor_eq (hv : runtime.toVersion = .ok v)
    (hm : (minimum.getD (.exact defaultMinimum)).toVersion = .ok m) :
    selectFor runtime system architecture minimum =
      select m { runtime := v, system, architecture } := by
  simp [selectFor, hv, hm, bind, Except.bind]

theorem exists_selectFor (hv : runtime.toVersion = .ok v)
    (hm : (minimum.getD (.exact defaultMinimum)).toVersion = .ok m)
    (lv : v.UnderLimit) (lm : m.UnderLimit) :
    ∃ s, selectFor runtime system architecture minimum = .ok s := by
  rw [selectFor_eq hv hm, exists_select_iff_comparable]
  exact ⟨lv.comparable lm, fun _ => ⟨lv.writable, lm.writable⟩⟩

/-- Whatever spells a version selects the same as the version itself, in the place of the runtime
    and in that of the minimum, and something wherever the other of the two is under the digit limit.
    What a selection reports of two versions, the runtime being too old, selects just that again. -/
theorem selectFor_spelled :
    (∀ n spec system architecture, n < 10 ^ Text.digitLimit → Spells n spec →
      (∀ minimum, selectFor spec system architecture minimum =
        selectFor (.exact (.ofMajor n)) system architecture minimum) ∧
      (∀ minimum m, (minimum.getD (.exact defaultMinimum)).toVersion = .ok m → m.UnderLimit →
        ∃ s, selectFor spec system architecture minimum = .ok s) ∧
      (∀ runtime, selectFor runtime system architecture (some spec) =
        selectFor runtime system architecture (some (.exact (.ofMajor n)))) ∧
      (∀ runtime v, runtime.toVersion = .ok v → v.UnderLimit →
        ∃ s, selectFor runtime system architecture (some spec) = .ok s)) ∧
    ∀ minimum e current required, e.runtime.WellFormed → minimum.WellFormed →
      select minimum e = .ok (.incompatible current required) →
      selectFor (.text current) e.system e.architecture (some (.text required)) =
        .ok (.incompatible current required) := by
  constructor
  · intro n spec system architecture hn hs
    have ht := hs.toVersion_eq hn
    have he := Spells.exact.toVersion_eq hn
    have ln := Version.underLimit_ofMajor hn
    refine ⟨fun minimum => ?_, fun minimum m hm lm => ?_, fun runtime => ?_,
      fun runtime v hv lv => ?_⟩
    · simp only [selectFor, ht, he]
    · exact exists_selectFor ht hm ln lm
    · simp only [selectFor, Option.getD_some, ht, he]
    · exact exists_selectFor hv ht lv ln
  · intro minimum e current required hr hm h
    obtain ⟨hc, ⟨hlt, current', required', hx, hy, hs⟩ | ⟨-, hs⟩⟩ := select_eq_ok_iff.mp h
    · cases hs
      -- What is reported reads back as the versions that have been compared.
      have hv := VersionSpec.toVersion_of_render hr hx
      have hw : ((some (VersionSpec.text required)).getD (.exact defaultMinimum)).toVersion =
          .ok minimum := VersionSpec.toVersion_of_render hm hy
      rw [selectFor_eq hv hw]
      exact select_eq_ok_iff.mpr ⟨hc, .inl ⟨hlt, current, required, hx, hy, rfl⟩⟩
    · exact absurd ⟨current, required, hs.symm⟩ (not_isIncompatible_ofPlatform e)

/-- A short spelling behind two letters, and the report on a candidate fed back. -/
theorem selectFor_spelled_candidate :
    let tenth : Version :=
      { major := 3, minor := 10, patch := 0, prerelease := ["rc", "10"], build := ["b5"] }
    selectFor (.text "vv3.0") .linux .x64 (some (.number 3)) =
      .ok (.resolved "ai-gateway-linux") ∧
    select defaultMinimum { runtime := tenth, system := .linux, architecture := .x64 } =
      .ok (.incompatible "3.10.0-rc.10+b5" "3.10.0") ∧
    selectFor (.text "3.10.0-rc.10+b5") .linux .x64 (some (.text "3.10.0")) =
      .ok (.incompatible "3.10.0-rc.10+b5" "3.10.0") := by
  intro tenth
  let e : Environment := { runtime := tenth, system := .linux, architecture := .x64 }
  have h3 : 3 < 10 ^ Text.digitLimit := Text.lt_of_le_digitLimit (by decide)
  have hs : select defaultMinimum e = .ok (.incompatible "3.10.0-rc.10+b5" "3.10.0") := by decide
  have hr : tenth.WellFormed := ⟨by decide, by decide⟩
  have hm : defaultMinimum.WellFormed := ⟨by decide, by decide⟩
  have ht := (selectFor_spelled.1 3 _ .linux .x64 h3 (.text 2 (.inr (.inl rfl)))).1
  exact ⟨(ht (some (.number 3))).trans (by decide), hs,
    selectFor_spelled.2 defaultMinimum e _ _ hr hm hs⟩

end Selection

end GatewayLauncher

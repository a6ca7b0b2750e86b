import GatewayLauncher.Proofs.FileTree
import GatewayLauncher.Proofs.Toml.Reader
import GatewayLauncher.Settings

namespace GatewayLauncher

theorem mapError_ok {ε ε' α : Type} (f : ε → ε') (a : α) :
    (Except.ok a : Except ε α).mapError f = .ok a := rfl

theorem mapError_error {ε ε' α : Type} (f : ε → ε') (e : ε) :
    (Except.error e : Except ε α).mapError f = .error (f e) := rfl

namespace Settings

variable {s : Settings}

@[simp]
theorem installRoot_applyLevel (word origin : String) (s : Settings) :
    (applyLevel word origin s).1.installRoot = s.installRoot := by
  rw [applyLevel]
  split <;> rfl

@[simp]
theorem installRoot_applyMinimum (es : Toml.Entries) (s : Settings) :
    (applyMinimum es s).1.installRoot = s.installRoot := by
  rw [applyMinimum]
  split
  · rfl
  · split <;> rfl
  · rfl

@[simp]
theorem installRoot_applyShowBanner (es : Toml.Entries) (s : Settings) :
    (applyShowBanner es s).installRoot = s.installRoot := by
  rw [applyShowBanner]
  split <;> rfl

@[simp]
theorem installRoot_applyBanner (es : Toml.Entries) (s : Settings) :
    (applyBanner es s).installRoot = s.installRoot := by
  rw [applyBanner]
  split <;> rfl

@[simp]
theorem installRoot_applyDocument (document : Toml.Entries) (s : Settings) :
    (applyDocument document s).1.installRoot = s.installRoot := by
  have hl : (applyLauncher document s).1.installRoot = s.installRoot := by
    rw [applyLauncher]
    split <;> simp
  have hd (s : Settings) : (applyLogging document s).1.installRoot = s.installRoot := by
    rw [applyLogging]
    split <;> simp
  simp [applyDocument, hd, hl]

@[simp]
theorem installRoot_applyVariable (value : Option String) (s : Settings) :
    (applyVariable value s).1.installRoot = s.installRoot := by
  cases value with
  | none => rfl
  | some word =>
    simp only [applyVariable]
    split <;> simp

theorem load_cases {t : FileTree} {root : Path} {value : Option String} {notices : List Notice}
    (h : load t root value = .ok (s, notices)) :
    s = (applyVariable value { installRoot := root }).1 ∨
    ∃ document, s = (applyVariable value (applyDocument document { installRoot := root }).1).1 := by
  simp only [load, bind, Except.bind, pure, Except.pure] at h
  cases hf : findFile t root with
  | error e => simp [hf, mapError_error] at h
  | ok found =>
    cases found with
    | none =>
      simp only [hf, mapError_ok, Except.ok.injEq, Prod.mk.injEq] at h
      exact .inl h.1.symm
    | some p =>
      cases hr : readDocument t p with
      | error e => simp [hf, hr, mapError_ok, mapError_error] at h
      | ok r =>
        simp only [hf, hr, mapError_ok, Except.ok.injEq, Prod.mk.injEq] at h
        exact .inr ⟨r.1, h.1.symm⟩

/-- No document and no variable moves the installation. -/
theorem installRoot_load {t : FileTree} {root : Path} {value : Option String}
    {notices : List Notice} (h : load t root value = .ok (s, notices)) : s.installRoot = root := by
  obtain rfl | ⟨document, rfl⟩ := load_cases h
  · rw [installRoot_applyVariable]
  · rw [installRoot_applyVariable, installRoot_applyDocument]

@[simp]
theorem minimum_applyLevel (word origin : String) (s : Settings) :
    (applyLevel word origin s).1.minimum = s.minimum := by
  rw [applyLevel]
  split <;> rfl

@[simp]
theorem minimum_applyShowBanner (es : Toml.Entries) (s : Settings) :
    (applyShowBanner es s).minimum = s.minimum := by
  rw [applyShowBanner]
  split <;> rfl

@[simp]
theorem minimum_applyBanner (es : Toml.Entries) (s : Settings) :
    (applyBanner es s).minimum = s.minimum := by
  rw [applyBanner]
  split <;> rfl

@[simp]
theorem minimum_applyLogging (document : Toml.Entries) (s : Settings) :
    (applyLogging document s).1.minimum = s.minimum := by
  rw [applyLogging]
  split <;> simp

@[simp]
theorem minimum_applyVariable (value : Option String) (s : Settings) :
    (applyVariable value s).1.minimum = s.minimum := by
  cases value with
  | none => rfl
  | some word =>
    simp only [applyVariable]
    split <;> simp

section Minimum

variable {P : Version → Prop}
  (hp : ∀ text v, Version.parse .partialAllowed text = .ok v → P v)
include hp

theorem minimum_applyMinimum (es : Toml.Entries) (h : P s.minimum) :
    P (applyMinimum es s).1.minimum := by
  rw [applyMinimum]
  split
  · exact h
  · split
    · rename_i minimum hm
      exact hp _ minimum hm
    · exact h
  · exact h

theorem minimum_applyDocument (document : Toml.Entries) (h : P s.minimum) :
    P (applyDocument document s).1.minimum := by
  have hl : P (applyLauncher document s).1.minimum := by
    rw [applyLauncher]
    split
    · exact h
    · simpa using minimum_applyMinimum hp _ h
  simpa [applyDocument] using hl

/-- What holds of the default minimum and of every version that can be read holds of the minimum
    that is loaded. -/
theorem minimum_load (h0 : P Selection.defaultMinimum) {t : FileTree} {root : Path}
    {value : Option String} {notices : List Notice} (h : load t root value = .ok (s, notices)) :
    P s.minimum := by
  obtain rfl | ⟨document, rfl⟩ := load_cases h
  · rw [minimum_applyVariable]
    exact h0
  · rw [minimum_applyVariable]
    exact minimum_applyDocument hp document h0

end Minimum

theorem findFile_of_find {t : FileTree} {root : Path} {content : Content} {executable : Bool}
    (hf : t.find (root.child fileName) = .ok (.file content executable)) :
    findFile t root = .ok (some (root.child fileName)) := by
  have ha := FileTree.askable_of_find hf
  have hi := FileTree.isFile_of_find hf
  simp [findFile, ha, hi, bind, Except.bind, pure, Except.pure]

theorem load_of_document {t : FileTree} {root : Path} {content : Content} {executable : Bool}
    {document : Toml.Entries}
    (hf : t.find (root.child fileName) = .ok (.file content executable))
    (hd : Toml.readBytes content.trimmed.toBytes = .ok document) :
    load t root none = .ok (applyDocument document { installRoot := root }) := by
  have hw := findFile_of_find hf
  have ho := FileTree.openFile_of_find hf
  have hr : readDocument t (root.child fileName) = .ok (document, []) := by
    rw [readDocument, ho]
    simp only [hd]
  simp [load, hw, hr, applyVariable, mapError_ok, bind, Except.bind, pure, Except.pure]

/-- The document of one line that gives a minimum. -/
def minimumDocument (s : List Char) : List Char :=
  "launcher.min_runtime_version = \"".toList ++ (s ++ ['"'])

theorem not_mem_minimumDocument {s : List Char} (h : ∀ c ∈ s, Toml.IsPlain c) :
    '\r' ∉ minimumDocument s := by
  have hk : '\r' ∉ "launcher.min_runtime_version = \"".toList := by decide
  unfold minimumDocument
  rw [List.mem_append, List.mem_append, List.mem_singleton]
  rintro (hc | hc | hc)
  · exact hk hc
  · exact absurd (h '\r' hc).1 (by decide)
  · exact absurd hc (by decide)

open Toml in
theorem lines_minimumDocument {s : List Char} (hn : s ≠ []) (h : ∀ c ∈ s, IsPlain c)
    (fuel : Nat) :
    lines (fuel + 1) {} (minimumDocument s) =
      .ok [("launcher", .table [("min_runtime_version", .text (String.ofList s))])] := by
  have hk : keyOfPair (minimumDocument s) =
      .ok (⟨["launcher"], "min_runtime_version"⟩, '"' :: (s ++ ['"'])) := rfl
  have hs (p : Progress) :
      statement p (skipSpaces (minimumDocument s)) = pairLine p (minimumDocument s) := rfl
  rw [lines, hs, pairLine, hk]
  simp only [bind, Except.bind, value_of_plain hn h]
  rfl

theorem load_minimumDocument {t : FileTree} {root : Path} {s : List Char} {executable : Bool}
    {v : Version} (hn : s ≠ []) (h : ∀ c ∈ s, Toml.IsPlain c)
    (hf : t.find (root.child fileName) =
      .ok (.file (.ofString (String.ofList (minimumDocument s))) executable))
    (hv : Version.parse .partialAllowed (String.ofList s) = .ok v) :
    load t root none = .ok ({ installRoot := root, minimum := v }, []) := by
  let es : Toml.Entries := [("min_runtime_version", .text (String.ofList s))]
  let d : Settings := { installRoot := root }
  have hr := not_mem_minimumDocument h
  have hd : Toml.readBytes
      (Content.ofString (String.ofList (minimumDocument s))).trimmed.toBytes =
        .ok [("launcher", .table es)] := by
    rw [Content.toBytes_trimmed_ofString, Toml.readBytes_toUTF8 hr]
    exact lines_minimumDocument hn h (minimumDocument s).length
  have hm : applyMinimum es d = ({ d with minimum := v }, []) := by
    have hg : es.get? "min_runtime_version" = some (.text (String.ofList s)) := rfl
    simp only [applyMinimum, hg, hv]
  have hl : applyLauncher [("launcher", .table es)] d = ({ d with minimum := v }, []) := by
    have hs : section? "launcher" [("launcher", .table es)] = some es := rfl
    simp only [applyLauncher, hs, hm]
    rfl
  rw [load_of_document hf hd, applyDocument, hl]
  rfl

end Settings

end GatewayLauncher

import GatewayLauncher.Proofs.Release.Verdict
import Mathlib.Data.List.Basic

namespace GatewayLauncher.Release

variable {t : FileTree} {dir : Path} {e : Environment} {minimum : Version} {s : Selection}

def nativeFormat? : OperatingSystem → Option BinaryFormat
  | .macos => some .machO
  | .linux => some .elf
  | .other => none

/-- The format that is expected of a binary is that of the system that the table has for its name.
    -/
def expectedFormat? (name : String) : Option BinaryFormat :=
  (Prebuilt.named? name).bind fun b => nativeFormat? b.system

/-- The size of the file in the place of a binary, and its first four bytes or fewer. -/
def look? (t : FileTree) (dir : Path) (name : String) : Option (Nat × List UInt8) :=
  (file? t dir name).map fun (content, _) =>
    (content.toBytes.size, content.toBytes.data.toList.take 4)

def missing (name : String) : String :=
  s!"{name} missing (package will not run on that platform)"

def large (name : String) (size : Nat) : String :=
  s!"{name} is quite large ({Decimal.megabytes size}) - consider optimization"

def foreign (name : String) (format : BinaryFormat) : String :=
  s!"{name} doesn't appear to be a {format.name} binary"

def warningsAbout (name : String) : Option (Nat × List UInt8) → List String
  | none => [missing name]
  | some (size, magic) =>
    (if 50 * 1024 * 1024 < size then [large name size] else []) ++
      ((expectedFormat? name).toList.filter fun format => formatOf magic ≠ some format).map
        (foreign name)

def platformWarnings (e : Environment) : Selection → List String
  | .resolved _ => []
  | _ => [s!"Cannot verify the current platform ({e.describe}): no prebuilt binary"]

def tooMuch (size : Nat) : List String :=
  if 100 * 1024 * 1024 < size then
    [s!"Binaries total {Decimal.megabytes size} - PyPI rejects files over 100.00MB by default"]
  else []

def sizeThere (t : FileTree) (dir : Path) : Nat :=
  (Prebuilt.names.filterMap (look? t dir)).foldr (fun (size, _) n => size + n) 0

theorem expectedFormat?_name : ∀ b ∈ Prebuilt.all, expectedFormat? b.name = some b.format := by
  decide

/-- Only four bytes announce a format. -/
theorem formatOf_of_length_ne {magic : List UInt8} (h : magic.length ≠ 4) :
    formatOf magic = none := by
  have hm : ∀ known ∈ elfMagic :: machOMagics, known.length = 4 := by decide
  have hn : magic ∉ elfMagic :: machOMagics := fun hk => h (hm magic hk)
  rw [List.mem_cons, not_or] at hn
  rw [formatOf, if_neg hn.1, if_neg hn.2]

theorem formatWarnings_name (name : String) (format : BinaryFormat)
    (detected : Option BinaryFormat) :
    formatWarnings name (some format.name) detected =
      ([format].filter fun format => detected ≠ some format).map (foreign name) := by
  cases detected with
  | none => cases format <;> rfl
  | some other => cases format <;> cases other <;> rfl

theorem warnings_checkOf {b : Prebuilt} (hb : b ∈ Prebuilt.all) :
    (checkOf t dir b).warnings ++ statusWarnings (checkOf t dir b) =
      warningsAbout b.name (look? t dir b.name) := by
  cases h : file? t dir b.name with
  | none =>
    rw [checkOf_of_no_file h, look?, h]
    rfl
  | some found =>
    obtain ⟨content, executable⟩ := found
    have hs : statusWarnings (checkOf t dir b) = [] := by
      rw [checkOf_of_file h]
      cases executable <;> rfl
    rw [hs, checkOf_of_file h, look?, h, formatWarnings_name, Content.firstBytes_eq_take]
    simp only [Option.map_some, warningsAbout, expectedFormat?_name b hb, Content.size_toBytes,
      List.append_nil]
    rfl

theorem name_checkOf (b : Prebuilt) : (checkOf t dir b).name = b.name := by
  cases h : file? t dir b.name with
  | none => rw [checkOf_of_no_file h]
  | some found => rw [checkOf_of_file h]

theorem size_checkOf (b : Prebuilt) :
    (checkOf t dir b).size = ((look? t dir b.name).map Prod.fst).getD 0 := by
  cases h : file? t dir b.name with
  | none =>
    rw [checkOf_of_no_file h, look?, h]
    rfl
  | some found =>
    rw [checkOf_of_file h, look?, h]
    exact (Content.size_toBytes _).symm

theorem sizeOfAll_checks (bs : List Prebuilt) :
    sizeOfAll (bs.map (checkOf t dir)) =
      ((bs.map Prebuilt.name).filterMap (look? t dir)).foldr (fun (size, _) n => size + n) 0 := by
  induction bs with
  | nil => rfl
  | cons b bs ih =>
    have hs : sizeOfAll ((b :: bs).map (checkOf t dir)) =
        (checkOf t dir b).size + sizeOfAll (bs.map (checkOf t dir)) := rfl
    rw [hs, ih, size_checkOf, List.map_cons, List.filterMap_cons]
    cases look? t dir b.name with
    | none => exact Nat.zero_add _
    | some found => rfl

theorem warnings_checks (t : FileTree) (dir : Path) :
    (Prebuilt.all.map (checkOf t dir)).flatMap (fun c => c.warnings ++ statusWarnings c) =
      Prebuilt.names.flatMap fun name => warningsAbout name (look? t dir name) := by
  rw [List.flatMap_map, Prebuilt.names, List.flatMap_map]
  exact List.flatMap_congr fun b hb => warnings_checkOf hb

theorem warnings_currentPlatform (s : Selection) :
    (currentPlatform t dir e s).2.1 = platformWarnings e s := by
  cases s <;> rfl

theorem totalWarnings_eq (size : Nat) : totalWarnings size = tooMuch size := by
  have hm : Decimal.megabytes totalSizeLimit = "100.00MB" := by decide
  have ht : " - " ++ ("PyPI rejects files over " ++ "100.00MB" ++ " by default") =
      " - PyPI rejects files over 100.00MB by default" := rfl
  simp only [totalWarnings, hm, tooMuch, toString]
  rw [String.append_assoc, ht]
  rfl

theorem warnings_reportOn (s : Selection) :
    (reportOn t dir (Prebuilt.all.map (checkOf t dir)) e s).warnings =
      (Prebuilt.names.flatMap fun name => warningsAbout name (look? t dir name)) ++
        platformWarnings e s ++ tooMuch (sizeThere t dir) := by
  rw [← warnings_checks, ← warnings_currentPlatform, sizeThere, Prebuilt.names, ← sizeOfAll_checks,
    ← totalWarnings_eq]
  rfl

theorem warnings_congr {t' : FileTree} {dir' : Path}
    (hl : ∀ name ∈ Prebuilt.names, look? t' dir' name = look? t dir name) :
    (Prebuilt.names.flatMap fun name => warningsAbout name (look? t' dir' name)) =
      (Prebuilt.names.flatMap fun name => warningsAbout name (look? t dir name)) ∧
    sizeThere t' dir' = sizeThere t dir := by
  constructor
  · exact List.flatMap_congr fun name hn => by rw [hl name hn]
  · rw [sizeThere, sizeThere, List.filterMap_congr hl]

/-- A binary that is missing is warned of for that alone; one that is there if it is large, and then
    if its first four bytes do not announce the format of its system. Behind these stand the warning
    about a platform without binary and the one about the size of all binaries. -/
theorem check_warnings (t : FileTree) (dir : Path) (hd : t.isDirectory dir = true)
    (e : Environment) (minimum : Version) :
    ((∃ r, check t dir (.ok e) minimum = .ok r) ↔ ¬Stuck t dir e minimum) ∧
    (∀ magic, magic.length < 4 → formatOf magic = none) ∧
    ∀ r, check t dir (.ok e) minimum = .ok r →
      r.binaries.map BinaryCheck.name = Prebuilt.names ∧
      (∃ s, Selection.select minimum e = .ok s ∧
        r.warnings = (Prebuilt.names.flatMap fun name => warningsAbout name (look? t dir name)) ++
          platformWarnings e s ++ tooMuch (sizeThere t dir)) ∧
      ∀ t' dir' r', t'.isDirectory dir' = true → check t' dir' (.ok e) minimum = .ok r' →
        (∀ name ∈ Prebuilt.names, look? t' dir' name = look? t dir name) →
        r'.warnings = r.warnings := by
  refine ⟨exists_check_iff, fun magic hm => formatOf_of_length_ne (Nat.ne_of_lt hm), ?_⟩
  intro r hr
  obtain ⟨-, ⟨h, -⟩ | ⟨-, -, e₁, s, he, hs, rfl⟩⟩ := check_eq_ok_iff.mp hr
  · cases h.symm.trans hd
  cases he
  refine ⟨?_, ⟨s, hs, warnings_reportOn s⟩, ?_⟩
  · have hb : (reportOn t dir (Prebuilt.all.map (checkOf t dir)) e s).binaries =
        Prebuilt.all.map (checkOf t dir) := rfl
    rw [hb, List.map_map, Prebuilt.names]
    exact List.map_congr_left fun b _ => name_checkOf b
  · intro t' dir' r' hd' hr' hl
    obtain ⟨-, ⟨h, -⟩ | ⟨-, -, e₂, s', he', hs', rfl⟩⟩ := check_eq_ok_iff.mp hr'
    · cases h.symm.trans hd'
    cases he'
    cases hs'.symm.trans hs
    obtain ⟨hw, hz⟩ := warnings_congr hl
    rw [warnings_reportOn, warnings_reportOn, hw, hz]

theorem check_warnings_unready : ∃ r,
    check unready releaseDir (.ok otherHost) Selection.defaultMinimum = .ok r ∧ r.warnings = [
      "ai-gateway-macos doesn't appear to be a Mach-O binary",
      "ai-gateway-linux missing (package will not run on that platform)",
      "Cannot verify the current platform (other/x64): no prebuilt binary"] := by
  have hd : unready.isDirectory releaseDir = true := by decide
  have hs : Selection.select Selection.defaultMinimum otherHost =
      .ok (Selection.unsupportedSystem otherHost) := by decide
  obtain ⟨r, hr⟩ := check_unready hs
  obtain ⟨-, -, hw⟩ := check_warnings unready releaseDir hd otherHost Selection.defaultMinimum
  obtain ⟨-, ⟨s, hs', hw⟩, -⟩ := hw r hr
  cases hs.symm.trans hs'
  refine ⟨r, hr, ?_⟩
  rw [hw]
  decide

/-- There is no check of any binary if the minimum has a number over the digit limit in its
    prerelease. -/
theorem overlong_minimum_gives_no_warnings :
    ¬∀ (t : FileTree) (dir : Path) (e : Environment) (minimum : Version),
      t.isDirectory dir = true → ∃ r, check t dir (.ok e) minimum = .ok r ∧
        r.binaries.map BinaryCheck.name = Prebuilt.names := by
  intro h
  have hd : unready.isDirectory releaseDir = true := by decide
  obtain ⟨r, hr, -⟩ := h unready releaseDir otherHost Gateway.overlongMinimum hd
  exact exists_check_iff.mp ⟨r, hr⟩ (stuck_overlongMinimum hd)

end GatewayLauncher.Release

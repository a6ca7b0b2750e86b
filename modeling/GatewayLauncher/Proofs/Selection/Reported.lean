import GatewayLauncher.Proofs.Platform
import GatewayLauncher.Proofs.Selection.Gate

namespace GatewayLauncher

def Environment.reported (runtime : Version) (platform machine : String) : Environment where
  runtime
  system := .ofReported platform
  architecture := .ofReported machine
  reportedSystem := platform
  reportedMachine := machine

theorem Environment.capture_eq (h : Host) :
    capture h = (Version.ofInts h.major h.minor h.patch).map fun runtime =>
      reported runtime h.platform h.machine := by
  rw [capture]
  cases Version.ofInts h.major h.minor h.patch <;> rfl

namespace Selection

variable {runtime minimum : Version} {platform machine platform' machine' : String}

/-- The gateway for the reported names, or the guidance where there is none. The first line of the
    guidance gives a name as it is reported, or the word for any other one if it is empty. -/
def fitting (platform machine : String) : Selection :=
  let onMachine := Environment.orElse machine "other"
  let onPlatform := Environment.orElse platform "other"
  if Reads platform "darwin" then
    if Reads machine "arm64" ∨ Reads machine "aarch64" then .resolved "ai-gateway-macos"
    else .unsupported "macOS architecture not prebuilt" ([
      "No prebuilt binary for macOS on " ++ onMachine,
      "Supported macOS architectures: arm64"] ++ Prebuilt.guidance)
  else if StartsAs platform "linux" then
    if Reads machine "x86_64" ∨ Reads machine "amd64" ∨ Reads machine "x64" then
      .resolved "ai-gateway-linux"
    else .unsupported "Linux architecture not prebuilt" ([
      "No prebuilt binary for Linux on " ++ onMachine,
      "Supported Linux architectures: x64"] ++ Prebuilt.guidance)
  else .unsupported "platform not supported" ([
    "Unsupported platform: " ++ onPlatform,
    "Supported platforms: macOS (arm64), Linux (x64)"] ++ Prebuilt.guidance)

theorem orElse_congr {raw value value' : String} (h : raw = "" → value = value') :
    Environment.orElse raw value = Environment.orElse raw value' := by
  by_cases hr : raw = ""
  · rw [h hr]
  · simp only [Environment.orElse, if_neg hr]

theorem ofPlatform_reported (runtime : Version) (platform machine : String) :
    ofPlatform (.reported runtime platform machine) = fitting platform machine := by
  have hm : Environment.orElse machine (Architecture.ofReported machine).value =
      Environment.orElse machine "other" := orElse_congr fun h => by rw [h]; rfl
  have hp : Environment.orElse platform (OperatingSystem.ofReported platform).value =
      Environment.orElse platform "other" := orElse_congr fun h => by rw [h]; rfl
  rw [fitting, ← hm, ← hp]
  simp only [← OperatingSystem.ofReported_eq_macos_iff, ← OperatingSystem.ofReported_eq_linux_iff,
    ← Architecture.ofReported_eq_arm64_iff, ← Architecture.ofReported_eq_x64_iff,
    Environment.reported]
  generalize OperatingSystem.ofReported platform = system
  generalize Architecture.ofReported machine = architecture
  cases system <;> cases architecture <;> rfl

/-- The selection without the line that gives the reported name. -/
def withoutName : Selection → Selection
  | .unsupported reason guidance => .unsupported reason guidance.tail
  | s => s

theorem withoutName_ofPlatform_congr {e e' : Environment} (hs : e'.system = e.system)
    (ha : e'.architecture = e.architecture) :
    (ofPlatform e').withoutName = (ofPlatform e).withoutName := by
  simp only [ofPlatform, unsupportedSystem, unsupportedArchitecture, hs, ha]
  split
  · rfl
  · split <;> rfl

/-- Whatever names are reported, there is a selection: the runtime is too old, or the names decide.
    White space around them and the case of ASCII letters make no difference but to the name that
    the guidance gives. -/
theorem select_reported (hr : runtime.UnderLimit) (hm : minimum.UnderLimit)
    (platform machine : String) :
    (∃ current required, runtime.render = .ok current ∧ minimum.render = .ok required ∧
      select minimum (.reported runtime platform machine) = .ok (
        if runtime < minimum then .incompatible current required
        else fitting platform machine)) ∧
    ∀ platform' machine', Respells platform platform' → Respells machine machine' →
      (select minimum (.reported runtime platform' machine')).map withoutName =
        (select minimum (.reported runtime platform machine)).map withoutName := by
  obtain ⟨current, hcur⟩ := (Version.exists_render_iff runtime).mpr hr.writable
  obtain ⟨required, hreq⟩ := (Version.exists_render_iff minimum).mpr hm.writable
  have hsel (platform machine : String) :
      select minimum (.reported runtime platform machine) = .ok (
        if runtime < minimum then .incompatible current required
        else ofPlatform (.reported runtime platform machine)) := by
    refine select_eq_ok_iff.mpr ⟨hr.comparable hm, ?_⟩
    split
    · rename_i hlt
      exact .inl ⟨hlt, current, required, hcur, hreq, rfl⟩
    · rename_i hge
      exact .inr ⟨Version.not_lt.mp hge, rfl⟩
  refine ⟨⟨current, required, hcur, hreq, ?_⟩, ?_⟩
  · rw [hsel, ofPlatform_reported]
  · intro platform' machine' hp hq
    have hw : (ofPlatform (.reported runtime platform' machine')).withoutName =
        (ofPlatform (.reported runtime platform machine)).withoutName := by
      apply withoutName_ofPlatform_congr
      · simp only [Environment.reported, hp.system_eq]
      · simp only [Environment.reported, hq.architecture_eq]
    rw [hsel, hsel]
    simp only [Except.map, apply_ite withoutName, hw]

theorem select_reported_shouted :
    let ninth : Version := { major := 3, minor := 10, patch := 0, prerelease := ["rc", "9"] }
    let tenth : Version := { major := 3, minor := 10, patch := 0, prerelease := ["rc", "10"] }
    select ninth (.reported tenth "linux" "amd64") = .ok (.resolved "ai-gateway-linux") ∧
    (select ninth (.reported tenth " LINUX\n" "AMD64")).map withoutName =
      .ok (.resolved "ai-gateway-linux") := by
  intro ninth tenth
  have h0 : 0 ≤ Text.digitLimit := by decide
  have h3 : 3 ≤ Text.digitLimit := by decide
  have h10 : 10 ≤ Text.digitLimit := by decide
  have hr : tenth.UnderLimit :=
    ⟨Version.writable_of_le h3 h10 h0, Version.isReadable_iff.mpr (by decide)⟩
  have hm : ninth.UnderLimit :=
    ⟨Version.writable_of_le h3 h10 h0, Version.isReadable_iff.mpr (by decide)⟩
  have hp : Respells "linux" " LINUX\n" :=
    ⟨[' '], "LINUX".toList, ['\n'], List.all_eq_true.mp (by decide),
      List.all_eq_true.mp (by decide), by decide, by decide⟩
  have hq : Respells "amd64" "AMD64" :=
    ⟨[], "AMD64".toList, [], by simp, by simp, by decide, by decide⟩
  obtain ⟨⟨current, required, -, -, hs⟩, hw⟩ := select_reported hr hm "linux" "amd64"
  have hl : select ninth (.reported tenth "linux" "amd64") =
      .ok (.resolved "ai-gateway-linux") := by
    rw [hs, if_neg (by decide)]
    decide
  exact ⟨hl, by rw [hw _ _ hp hq, hl]; rfl⟩

end Selection

end GatewayLauncher

import GatewayLauncher.Command.Gateway
import GatewayLauncher.Proofs.Launch
import GatewayLauncher.Proofs.Selection
import GatewayLauncher.Proofs.Settings
import GatewayLauncher.Proofs.Version.Order
import GatewayLauncher.Proofs.Version.Render

namespace GatewayLauncher

theorem Environment.capture_eq_ok_iff {h : Host} {e : Environment} :
    capture h = .ok e ↔ ∃ v, Version.ofInts h.major h.minor h.patch = .ok v ∧ e = {
      runtime := v
      system := .ofReported h.platform
      architecture := .ofReported h.machine
      reportedSystem := h.platform
      reportedMachine := h.machine } := by
  cases hv : Version.ofInts h.major h.minor h.patch with
  | error x => simp [capture, hv, bind, Except.bind]
  | ok v => simp [capture, hv, bind, Except.bind, pure, Except.pure, eq_comm]

theorem Journal.configure_severity (j : Journal) (s : Severity) (stream : String) :
    (j.configure s.name stream).2 = .ok () := by
  cases s <;> rfl

/-- The runtime of the host is compared with a minimum, and found not to be below it. -/
def Host.Meets (h : Host) (minimum : Version) : Prop :=
  ∃ v, Version.ofInts h.major h.minor h.patch = .ok v ∧ v.isBelow minimum = .ok false

theorem Host.meets_iff {h : Host} {minimum : Version} :
    h.Meets minimum ↔ ∃ v, Version.ofInts h.major h.minor h.patch = .ok v ∧
      v.Reaches minimum ∧ (v.SameNumbers minimum → minimum.IsReadable) := by
  constructor
  · rintro ⟨v, hv, hb⟩
    exact ⟨v, hv, (Version.isBelow_eq_ok_false_iff (Version.prerelease_of_ofInts hv)).mp hb⟩
  · rintro ⟨v, hv, hb⟩
    exact ⟨v, hv, (Version.isBelow_eq_ok_false_iff (Version.prerelease_of_ofInts hv)).mpr hb⟩

namespace Gateway

def gatewayPath? (root : Path) (h : Host) : Option Path :=
  (Prebuilt.find? (.ofReported h.platform) (.ofReported h.machine)).map fun b =>
    (root.child "dist").child b.name

/-- The settings are loaded. A notice that cannot be written ends their reading. -/
def Setting.Loads (x : Setting) (s : Settings) : Prop :=
  ∃ notices, Settings.load x.tree x.root x.level = .ok (s, notices) ∧
    notices.any Notice.isTooDeep = false

/-- With the settings at hand the file at a path is the one to be started. -/
def Setting.Ready (x : Setting) (s : Settings) (p : Path) : Prop :=
  x.host.Meets s.minimum ∧ gatewayPath? x.root x.host = some p ∧
    ∃ content, x.tree.find p = .ok (.file content true)

variable {x : Setting} {s : Settings} {p : Path}

theorem spawns_runWith_of_resolved {e : Environment} {b : Prebuilt}
    (hc : Environment.capture x.host = .ok e)
    (hs : Selection.select s.minimum e = .ok (.resolved b.name))
    (hk : Prebuilt.isKnown b.name = true) :
    (runWith x s).outcome.spawns =
      if x.tree.isExecutable (s.delegateDir.child b.name)
        then [(s.delegateDir.child b.name, x.args)] else [] := by
  simp only [runWith, hc, hs, follow]
  exact spawns_launch hk x.args s.bannerLine? x.course

theorem spawns_runWith_of_not_resolved
    (h : ∀ e name, Environment.capture x.host = .ok e →
      Selection.select s.minimum e ≠ .ok (.resolved name)) :
    (runWith x s).outcome.spawns = [] := by
  cases hc : Environment.capture x.host with
  | error error => simp [runWith, hc, Outcome.spawns]
  | ok e =>
    cases hs : Selection.select s.minimum e with
    | error error => simp [runWith, hc, hs, Outcome.spawns]
    | ok selection =>
      cases selection with
      | resolved name => exact absurd hs (h e name hc)
      | unsupported reason guidance => simp [runWith, hc, hs, follow, Outcome.spawns]
      | incompatible current required => simp [runWith, hc, hs, follow, failed, Outcome.spawns]

theorem spawns_runWith (hr : s.installRoot = x.root) :
    (∃ p, x.Ready s p ∧ (runWith x s).outcome.spawns = [(p, x.args)]) ∨
    ((∀ p, ¬x.Ready s p) ∧ (runWith x s).outcome.spawns = []) := by
  by_cases h : ∃ e name, Environment.capture x.host = .ok e ∧
      Selection.select s.minimum e = .ok (.resolved name)
  · obtain ⟨e, name, hc, hs⟩ := h
    obtain ⟨hb, b, hf, rfl⟩ := Selection.select_eq_resolved_iff.mp hs
    obtain ⟨v, hv, rfl⟩ := Environment.capture_eq_ok_iff.mp hc
    have hp : gatewayPath? x.root x.host = some (s.delegateDir.child b.name) := by
      rw [gatewayPath?, hf, Settings.delegateDir, hr]
      rfl
    have hw := spawns_runWith_of_resolved hc hs (Prebuilt.isKnown_of_find? hf)
    cases hx : x.tree.isExecutable (s.delegateDir.child b.name) with
    | true =>
      rw [hx] at hw
      exact .inl ⟨_, ⟨⟨v, hv, hb⟩, hp, FileTree.isExecutable_iff.mp hx⟩, hw⟩
    | false =>
      rw [hx] at hw
      refine .inr ⟨?_, hw⟩
      rintro p ⟨-, hq, hf⟩
      obtain rfl : s.delegateDir.child b.name = p := by simpa [hp] using hq
      simp [FileTree.isExecutable_iff.mpr hf] at hx
  · refine .inr ⟨?_, spawns_runWith_of_not_resolved fun e name hc hs => h ⟨e, name, hc, hs⟩⟩
    rintro p ⟨⟨v, hv, hb⟩, hp, -⟩
    obtain ⟨b, hf, -⟩ := Option.map_eq_some_iff.mp hp
    exact h ⟨_, b.name, Environment.capture_eq_ok_iff.mpr ⟨v, hv, rfl⟩,
      Selection.select_eq_resolved_iff.mpr ⟨hb, b, hf, rfl⟩⟩

theorem run_of_loads (h : x.Loads s) : ∃ early, run x =
    { (runWith x s).outcome with stderr := early ++ (runWith x s).outcome.stderr } := by
  obtain ⟨notices, hl, hn⟩ := h
  have hc := Journal.configure_severity {} s.level Journal.standardError
  simp only [run, hl, hn, Bool.false_eq_true, if_false]
  split
  · rename_i he
    rw [he] at hc
    cases hc
  · exact ⟨_, rfl⟩

theorem calls_run_of_loads (h : x.Loads s) : (run x).calls = (runWith x s).outcome.calls := by
  obtain ⟨early, hr⟩ := run_of_loads h
  rw [hr]

theorem calls_run_of_not_loads (h : ∀ s, ¬x.Loads s) : (run x).calls = [] := by
  cases hl : Settings.load x.tree x.root x.level with
  | error f => simp [run, hl]
  | ok r =>
    obtain ⟨s, notices⟩ := r
    cases hn : notices.any Notice.isTooDeep with
    | false => exact absurd ⟨notices, hl, hn⟩ (h s)
    | true => simp [run, hl, hn]

theorem Setting.Loads.unique {s s' : Settings} (h : x.Loads s) (h' : x.Loads s') : s = s' := by
  obtain ⟨notices, hl, -⟩ := h
  obtain ⟨notices', hl', -⟩ := h'
  rw [hl] at hl'
  cases hl'
  rfl

theorem delegateDir_of_loads (hl : x.Loads s) : s.delegateDir = x.root.child "dist" := by
  rw [Settings.delegateDir, Settings.installRoot_load hl.choose_spec.1]

theorem spawns_run (x : Setting) :
    (∃ s p, x.Loads s ∧ x.Ready s p ∧ (run x).spawns = [(p, x.args)]) ∨
    ((∀ s p, x.Loads s → ¬x.Ready s p) ∧ (run x).spawns = []) := by
  by_cases h : ∃ s, x.Loads s
  · obtain ⟨s, hl⟩ := h
    have hr : s.installRoot = x.root := Settings.installRoot_load hl.choose_spec.1
    have hc := calls_run_of_loads hl
    obtain ⟨p, hp, hw⟩ | ⟨hp, hw⟩ := spawns_runWith hr
    · refine .inl ⟨s, p, hl, hp, ?_⟩
      rw [Outcome.spawns, hc]
      exact hw
    · refine .inr ⟨?_, ?_⟩
      · intro s' p hl'
        rw [hl'.unique hl]
        exact hp p
      · rw [Outcome.spawns, hc]
        exact hw
  · have hn : ∀ s, ¬x.Loads s := fun s hl => h ⟨s, hl⟩
    refine .inr ⟨fun s p hl => absurd hl (hn s), ?_⟩
    rw [Outcome.spawns, calls_run_of_not_loads hn]
    rfl

theorem mem_spawns_start {given : Option (List String)} {words : List String}
    {call : Path × List String} (h : call ∈ (start x given words).spawns) :
    gatewayPath? x.root x.host = some call.1 ∧ call.2 = given.getD (words.drop 1) := by
  obtain ⟨s, p, -, hp, hw⟩ | ⟨-, hw⟩ := spawns_run { x with args := forwarded given words }
  · rw [start, hw, List.mem_singleton] at h
    rw [h]
    exact ⟨hp.2.1, rfl⟩
  · rw [start, hw] at h
    cases h

/-- A run starts one file at most, and it does so exactly if the settings are loaded, the runtime
    reaches the minimum, the minimum can be read in case the numbers are the same, and the gateway
    for the host stands in its place as a file that can be run. -/
theorem spawns_start (x : Setting) (given : Option (List String)) (words : List String) :
    (start x given words).spawns.length ≤ 1 ∧
    ((start x given words).spawns ≠ [] ↔ ∃ s v p, x.Loads s ∧
      Version.ofInts x.host.major x.host.minor x.host.patch = .ok v ∧ v.Reaches s.minimum ∧
      (v.SameNumbers s.minimum → s.minimum.IsReadable) ∧
      gatewayPath? x.root x.host = some p ∧
      ∃ content, x.tree.find p = .ok (.file content true)) ∧
    (∀ call ∈ (start x given words).spawns, gatewayPath? x.root x.host = some call.1 ∧
      call.2 = given.getD (words.drop 1)) ∧
    (∀ (y : Setting) (given' : Option (List String)) (words' : List String),
      y.root = x.root → y.host.platform = x.host.platform → y.host.machine = x.host.machine →
      ∀ a ∈ (start x given words).spawns, ∀ b ∈ (start y given' words').spawns, a.1 = b.1) := by
  refine ⟨?_, ?_, fun call hc => mem_spawns_start hc, ?_⟩
  · obtain ⟨s, p, -, -, hw⟩ | ⟨-, hw⟩ := spawns_run { x with args := forwarded given words } <;>
      simp [start, hw]
  · obtain ⟨s, p, hl, ⟨hm, hp⟩, hw⟩ | ⟨hn, hw⟩ :=
      spawns_run { x with args := forwarded given words }
    · obtain ⟨v, hv, hr, hc⟩ := Host.meets_iff.mp hm
      rw [start, hw]
      exact iff_of_true (by simp) ⟨s, v, p, hl, hv, hr, hc, hp⟩
    · rw [start, hw]
      refine iff_of_false (by simp) ?_
      rintro ⟨s, v, p, hl, hv, hr, hc, hp⟩
      exact hn s p hl ⟨Host.meets_iff.mpr ⟨v, hv, hr, hc⟩, hp⟩
  · intro y given' words' hr hs hm a ha b hb
    have hx := (mem_spawns_start ha).1
    have hy := (mem_spawns_start hb).1
    rw [gatewayPath?, hr, hs, hm, ← gatewayPath?, hx] at hy
    exact Option.some.inj hy

/-- An empty list of arguments is passed on as such, though the command line has one. -/
theorem start_without_arguments :
    let x : Setting := {
      host := { major := 3, minor := 12, patch := 0, platform := "linux2", machine := "AMD64" }
      tree.working := .directory [("pkg", .directory [("dist", .directory [
        ("ai-gateway-linux", .file (.ofString "") true)])])]
      root := ⟨"", ["pkg"]⟩
      course := { attempt := { result := .refused "no memory" } } }
    (start x (some []) ["ai-gateway", "-v"]).spawns =
      [(⟨"", ["pkg", "dist", "ai-gateway-linux"]⟩, [])] := by
  intro x
  have hp : gatewayPath? x.root x.host = some ⟨"", ["pkg", "dist", "ai-gateway-linux"]⟩ := by
    decide
  have hv : Version.ofInts x.host.major x.host.minor x.host.patch =
      .ok { major := 3, minor := 12, patch := 0 } := rfl
  have hr : Version.Reaches { major := 3, minor := 12, patch := 0 } Selection.defaultMinimum := by
    simp [Version.Reaches, Selection.defaultMinimum]
  obtain ⟨hl, hn, hk, -⟩ := spawns_start x (some []) ["ai-gateway", "-v"]
  have hw : (start x (some []) ["ai-gateway", "-v"]).spawns ≠ [] :=
    hn.mpr ⟨{ installRoot := x.root }, _, _, ⟨[], rfl, rfl⟩, hv, hr, fun _ _ h => (by cases h),
      hp, _, rfl⟩
  obtain ⟨call, hc⟩ := List.exists_mem_of_ne_nil _ hw
  obtain ⟨hq, ha⟩ := hk call hc
  have hq : call.1 = ⟨"", ["pkg", "dist", "ai-gateway-linux"]⟩ := by simpa [hp] using hq.symm
  have he : call = (⟨"", ["pkg", "dist", "ai-gateway-linux"]⟩, []) := Prod.ext hq ha
  obtain ⟨only, ho⟩ := List.length_eq_one_iff.mp
    (Nat.le_antisymm hl (List.length_pos_iff.mpr hw))
  rw [ho, List.mem_singleton] at hc
  rw [ho, ← hc, he]

def linuxHost : Host :=
  { major := 3, minor := 12, patch := 0, platform := "linux", machine := "x86_64" }

def delivered (gateways : List (String × FileNode)) (c : Course) : Setting where
  host := linuxHost
  tree.working := .directory [("pkg", .directory [("dist", .directory gateways)])]
  root := ⟨"", ["pkg"]⟩
  course := c

def overlongNumber : List Char := List.replicate (Text.digitLimit + 1) '9'

def overlongMinimum : Version :=
  { major := 3, minor := 10, patch := 0, prerelease := [String.ofList overlongNumber] }

theorem eq_of_mem_overlongNumber {c : Char} (h : c ∈ overlongNumber) : c = '9' :=
  List.eq_of_mem_replicate h

theorem parse_overlongMinimum :
    Version.parse .partialAllowed (String.ofList ("3.10.0-".toList ++ overlongNumber)) =
      .ok overlongMinimum := by
  have hi : Version.isPrereleaseId overlongNumber = true := by
    have hs : overlongNumber = '9' :: List.replicate Text.digitLimit '9' := List.replicate_succ
    have hd : Text.isDigit '9' = true := by decide
    simp [hs, Version.isPrereleaseId, Version.isNumber, List.all_replicate, hd]
  have hf : overlongMinimum.WellFormed :=
    ⟨by simpa [overlongMinimum] using hi, by simp [overlongMinimum]⟩
  have hw : overlongMinimum.Writable :=
    Version.writable_of_le (by decide) (by decide) (by decide)
  have hl : overlongMinimum.letters = "3.10.0-".toList ++ overlongNumber := by
    have hc : overlongMinimum.coreLetters = "3.10.0".toList := by decide
    rw [Version.letters, hc]
    simp [Version.marked, Version.joined, overlongMinimum]
  rw [← hl]
  exact Version.parse_letters hf hw

theorem isPlain_overlongMinimum : ∀ c ∈ "3.10.0-".toList ++ overlongNumber, Toml.IsPlain c := by
  have hs : ("3.10.0-".toList.all fun c => decide (Toml.IsPlain c)) = true := by decide
  intro c hc
  rcases List.mem_append.mp hc with hc | hc
  · exact of_decide_eq_true (List.all_eq_true.mp hs c hc)
  · rw [eq_of_mem_overlongNumber hc]
    decide

theorem not_isReadable_overlongMinimum : ¬overlongMinimum.IsReadable := by
  intro h
  have hd : overlongNumber.all Text.isDigit = true :=
    List.all_eq_true.mpr fun c hc => by rw [eq_of_mem_overlongNumber hc]; decide
  have hl := h (String.ofList overlongNumber) (List.mem_singleton_self _)
  rw [String.toList_ofList] at hl
  have hn : overlongNumber.length = Text.digitLimit + 1 := List.length_replicate
  have hb := hl hd
  omega

def installed (document : Content) : Setting where
  host := { major := 3, minor := 10, patch := 0, platform := "linux", machine := "x86_64" }
  tree.working := .directory [("pkg", .directory [
    ("launcher.toml", .file document false),
    ("dist", .directory [("ai-gateway-linux", .file (.ofString "x") true)])])]
  root := ⟨"", ["pkg"]⟩
  course := { attempt := { result := .started { pid := 1, child := {} } } }

def overlongDocument : Content :=
  .ofString (String.ofList (Settings.minimumDocument ("3.10.0-".toList ++ overlongNumber)))

theorem loads_overlongDocument : (installed overlongDocument).Loads
    { installRoot := (installed overlongDocument).root, minimum := overlongMinimum } := by
  have hf (c : Content) :
      (installed c).tree.find ((installed c).root.child Settings.fileName) =
        .ok (.file c false) := rfl
  exact ⟨[], Settings.load_minimumDocument (by simp) isPlain_overlongMinimum (hf _)
    parse_overlongMinimum, rfl⟩

/-- A prerelease with a number over the digit limit is below the release that the host has, and yet
    as a minimum it keeps the gateway from being started. -/
theorem overlong_minimum_starts_nothing :
    ¬∀ (x : Setting) (given : Option (List String)) (words : List String),
      (∃ s v p, x.Loads s ∧
        Version.ofInts x.host.major x.host.minor x.host.patch = .ok v ∧ v.Reaches s.minimum ∧
        gatewayPath? x.root x.host = some p ∧
        ∃ content, x.tree.find p = .ok (.file content true)) →
      (start x given words).spawns ≠ [] := by
  intro h
  let x := installed overlongDocument
  have hl : x.Loads { installRoot := x.root, minimum := overlongMinimum } := loads_overlongDocument
  have hr : Version.Reaches { major := 3, minor := 10, patch := 0 } overlongMinimum := by
    simp [Version.Reaches, overlongMinimum]
  have hp : gatewayPath? x.root x.host = some ⟨"", ["pkg", "dist", "ai-gateway-linux"]⟩ := by
    decide
  have hw := h x none [] ⟨_, _, _, hl, rfl, hr, hp, .ofString "x", rfl⟩
  obtain ⟨s, p, hl', hs, -⟩ | ⟨-, hn⟩ := spawns_run { x with args := forwarded none [] }
  · -- The numbers are the same, and so the minimum has to be read.
    obtain ⟨v, hv, -, hc⟩ := Host.meets_iff.mp hs.1
    cases hv
    cases hl'.unique hl
    exact not_isReadable_overlongMinimum (hc ⟨rfl, rfl, rfl⟩)
  · exact hw hn

end Gateway

end GatewayLauncher

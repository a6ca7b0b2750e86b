import GatewayLauncher.Proofs.Command.Gateway
import GatewayLauncher.Proofs.Version.Render

namespace GatewayLauncher

/-- The operating system refuses to start the child, or the child is started and ends. -/
def Course.Settles (c : Course) : Prop :=
  (∃ reason, c.attempt.result = .refused reason) ∨ ∃ code, c.finalCode? = some code

/-- The program has ended with status one, and with the whole text of a failure as the last that it
    has reported. -/
structure Outcome.FailsWith (o : Outcome) (stdout : String) (f : Failure) : Prop where
  ending : o.ending = .exit 1
  stdout : o.stdout = stdout
  stderr : ∃ early, o.stderr = early ++ ("❌ Error: " ++ f.text ++ "\n")

theorem failsWith_failed (stdout : String) (calls : List Call) (f : Failure) :
    (failed stdout calls f).FailsWith stdout f :=
  ⟨rfl, rfl, "", by rw [failed, Failure.printed_eq, String.empty_append]⟩

namespace Gateway

def bannerShown (s : Settings) : String :=
  if s.showBanner = true ∧ s.banner ≠ "" then s.banner ++ "\n" else ""

theorem bannerText_bannerLine? (s : Settings) : bannerText s.bannerLine? = bannerShown s := by
  cases hs : s.showBanner with
  | false => simp [Settings.bannerLine?, bannerShown, bannerText, hs]
  | true => simp [Settings.bannerLine?, bannerShown, bannerText_of_line, hs]

/-- The run comes to no exit status: the runtime has no version, or one that cannot be compared with
    the minimum or cannot be written, or there is no asking about the place of the gateway. -/
def Setting.Stuck (x : Setting) (s : Settings) : Prop :=
  ∀ v, Version.ofInts x.host.major x.host.minor x.host.patch = .ok v →
    (v.SameNumbers s.minimum ∧ ¬s.minimum.IsReadable) ∨
    (¬v.Reaches s.minimum ∧ ¬v.Writable) ∨
    (v.Reaches s.minimum ∧
      ∃ p, gatewayPath? x.root x.host = some p ∧ x.tree.refuses p = true)

/-- The outcomes where the gateway for the host has its place at `p`. -/
structure Setting.GatewayEndsAs (x : Setting) (s : Settings) (p : Path) (o : Outcome) : Prop where
  missing : x.tree.isFile p = false → o.FailsWith "" (.binaryMissing p)
  notExecutable : x.tree.isFile p = true → x.tree.isExecutable p = false →
    o.FailsWith "" (.binaryNotExecutable p)
  refused : x.tree.isExecutable p = true →
    ∀ reason, x.course.attempt.result = .refused reason →
      o.FailsWith (bannerShown s) (.spawnRefused p reason)
  ended : x.tree.isExecutable p = true → ∀ code, x.course.finalCode? = some code →
    o.ending = .exit (if code < 0 then 0 else code) ∧ o.stdout = bannerShown s

structure Setting.EndsAs (x : Setting) (s : Settings) (v : Version) (o : Outcome) : Prop where
  tooOld : ¬v.Reaches s.minimum → ∃ current required, v.render = .ok current ∧
    s.minimum.render = .ok required ∧ o.FailsWith "" (.runtimeTooOld current required)
  unsupported : v.Reaches s.minimum → gatewayPath? x.root x.host = none →
    o.ending = .exit 0 ∧ o.stdout = "" ∧ ∃ e reason guidance early,
      Environment.capture x.host = .ok e ∧
      Selection.select s.minimum e = .ok (.unsupported reason guidance) ∧
      o.stderr = early ++ printedGuidance reason guidance
  gateway : v.Reaches s.minimum → ∀ p, gatewayPath? x.root x.host = some p →
    x.GatewayEndsAs s p o

variable {x : Setting} {s : Settings} {v : Version} {o : Outcome}

theorem Setting.EndsAs.behind (h : x.EndsAs s v o) (early : String) :
    x.EndsAs s v { o with stderr := early ++ o.stderr } := by
  have hf {stdout : String} {f : Failure} (h : o.FailsWith stdout f) :
      ({ o with stderr := early ++ o.stderr } : Outcome).FailsWith stdout f := by
    obtain ⟨first, he⟩ := h.stderr
    exact ⟨h.ending, h.stdout, early ++ first, by simp only [he, String.append_assoc]⟩
  constructor
  · intro hr
    obtain ⟨current, required, hc, hq, hw⟩ := h.tooOld hr
    exact ⟨current, required, hc, hq, hf hw⟩
  · intro hr hn
    obtain ⟨he, ho, e, reason, guidance, first, hc, hs, hw⟩ := h.unsupported hr hn
    exact ⟨he, ho, e, reason, guidance, early ++ first, hc, hs, by
      simp only [hw, String.append_assoc]⟩
  · intro hr p hp
    have hg := h.gateway hr p hp
    exact ⟨fun hi => hf (hg.missing hi), fun hi hx => hf (hg.notExecutable hi hx),
      fun hx reason hc => hf (hg.refused hx reason hc), hg.ended⟩

theorem gatewayEndsAs_launch {name : String} (hk : Prebuilt.isKnown name = true)
    (ha : x.tree.askable (s.delegateDir.child name) = .ok ()) (hc : x.course.Settles) :
    let r := launch x.tree name x.args s.delegateDir s.bannerLine? x.course
    (∃ n, r.outcome.ending = .exit n) ∧
      x.GatewayEndsAs s (s.delegateDir.child name) r.outcome := by
  have hl := launch_of_askable hk ha x.args s.bannerLine? x.course
  generalize s.delegateDir.child name = p at hl ⊢
  intro r
  cases hi : x.tree.isFile p with
  | false =>
    have hx : x.tree.isExecutable p = false := by
      rw [← Bool.not_eq_true]
      intro hx
      rw [FileTree.isFile_of_isExecutable hx] at hi
      cases hi
    have ho : r.outcome = failed "" [] (.binaryMissing p) := by simp [r, hl, hi]
    rw [ho]
    refine ⟨⟨1, rfl⟩, fun _ => failsWith_failed _ _ _, ?_, ?_, ?_⟩ <;> simp [hi, hx]
  | true =>
    cases hx : x.tree.isExecutable p with
    | false =>
      have ho : r.outcome = failed "" [] (.binaryNotExecutable p) := by simp [r, hl, hi, hx]
      rw [ho]
      refine ⟨⟨1, rfl⟩, ?_, fun _ _ => failsWith_failed _ _ _, ?_, ?_⟩ <;> simp [hi, hx]
    | true =>
      have ho : r = launchAt p x.args s.bannerLine? x.course := by simp [r, hl, hi, hx]
      -- A start that is refused leaves no child, and so no code.
      have hn (reason : String) (code : Int) (hr : x.course.attempt.result = .refused reason)
          (hf : x.course.finalCode? = some code) : False := by
        obtain ⟨child, hs⟩ := Course.started_of_finalCode? hf
        rw [hr] at hs
        cases hs
      rw [ho]
      obtain ⟨reason, hq⟩ | ⟨code, hq⟩ := hc
      · obtain ⟨calls, hw⟩ := launchAt_of_refused p x.args s.bannerLine? hq
        rw [hw, bannerText_bannerLine?]
        refine ⟨⟨1, rfl⟩, by simp [hi], by simp [hx], ?_, fun _ code h => (hn _ _ hq h).elim⟩
        intro _ reason' hq'
        obtain rfl : reason = reason' := by simpa [hq] using hq'
        exact failsWith_failed _ _ _
      · obtain ⟨calls, hw⟩ := launchAt_of_code p x.args s.bannerLine? hq
        rw [hw, bannerText_bannerLine?]
        refine ⟨⟨_, rfl⟩, by simp [hi], by simp [hx], fun _ reason h => (hn _ _ h hq).elim, ?_⟩
        intro _ code' hq'
        obtain rfl : code = code' := by simpa [hq] using hq'
        exact ⟨rfl, rfl⟩

theorem stuck_iff (hv : Version.ofInts x.host.major x.host.minor x.host.patch = .ok v) :
    x.Stuck s ↔ (v.SameNumbers s.minimum ∧ ¬s.minimum.IsReadable) ∨
      (¬v.Reaches s.minimum ∧ ¬v.Writable) ∨
      (v.Reaches s.minimum ∧
        ∃ p, gatewayPath? x.root x.host = some p ∧ x.tree.refuses p = true) := by
  refine ⟨fun h => h v hv, fun h w hw => ?_⟩
  obtain rfl : v = w := Except.ok.inj (hv.symm.trans hw)
  exact h

theorem follow_ofPlatform (hr : s.installRoot = x.root) (hc : x.course.Settles) {e : Environment}
    (he : Environment.capture x.host = .ok e) (hb : v.Reaches s.minimum)
    (hs : Selection.select s.minimum e = .ok (Selection.ofPlatform e)) :
    let o := (follow x s (Selection.ofPlatform e)).outcome
    ((∃ p, gatewayPath? x.root x.host = some p ∧ x.tree.refuses p = true) ∧
      ∃ f, o.ending = .fault f) ∨
    (¬(∃ p, gatewayPath? x.root x.host = some p ∧ x.tree.refuses p = true) ∧
      (∃ n, o.ending = .exit n) ∧ x.EndsAs s v o) := by
  obtain ⟨w, -, hw⟩ := Environment.capture_eq_ok_iff.mp he
  have hp : gatewayPath? x.root x.host =
      (Prebuilt.find? e.system e.architecture).map fun b => s.delegateDir.child b.name := by
    rw [gatewayPath?, hw, Settings.delegateDir, hr]
  cases hf : Prebuilt.find? e.system e.architecture with
  | none =>
    have hp : gatewayPath? x.root x.host = none := by simp [hp, hf]
    obtain ⟨reason, guidance, hg⟩ := Selection.ofPlatform_of_not_found hf
    rw [hg] at hs ⊢
    refine .inr ⟨by simp [hp], ⟨0, rfl⟩, fun h => absurd hb h, fun _ _ => ?_, by simp [hp]⟩
    exact ⟨rfl, rfl, e, reason, guidance, "", he, hs, (String.empty_append ..).symm⟩
  | some b =>
    have hp : gatewayPath? x.root x.host = some (s.delegateDir.child b.name) := by simp [hp, hf]
    have hk := Prebuilt.isKnown_of_find? hf
    rw [Selection.ofPlatform_of_find? hf, follow]
    cases hx : x.tree.refuses (s.delegateDir.child b.name) with
    | true =>
      rw [launch_of_refuses hk hx]
      exact .inl ⟨⟨_, hp, hx⟩, _, rfl⟩
    | false =>
      have ha : x.tree.askable (s.delegateDir.child b.name) = .ok () := by
        simp [FileTree.askable, hx]
      obtain ⟨hn, hg⟩ := gatewayEndsAs_launch hk ha hc
      refine .inr ⟨by simp [hp, hx], hn, fun h => absurd hb h, by simp [hp], ?_⟩
      intro _ p h
      obtain rfl : s.delegateDir.child b.name = p := by simpa [hp] using h
      exact hg

/-- Without a fault in between, the run from the settings on ends as the host, the files and the
    course call for. -/
theorem runWith_cases (hr : s.installRoot = x.root) (hm : s.minimum.Writable)
    (hc : x.course.Settles) :
    (x.Stuck s ∧ ∃ f, (runWith x s).outcome.ending = .fault f) ∨
    (¬x.Stuck s ∧ (∃ n, (runWith x s).outcome.ending = .exit n) ∧
      ∃ v, Version.ofInts x.host.major x.host.minor x.host.patch = .ok v ∧
        x.EndsAs s v (runWith x s).outcome) := by
  cases hv : Version.ofInts x.host.major x.host.minor x.host.patch with
  | error error =>
    have he : Environment.capture x.host = .error error := by
      simp [Environment.capture, hv, bind, Except.bind]
    refine .inl ⟨fun v h => ?_, .version error, by simp only [runWith, he]⟩
    rw [hv] at h
    cases h
  | ok v =>
    obtain ⟨e, he, hev⟩ : ∃ e, Environment.capture x.host = .ok e ∧ e.runtime = v :=
      ⟨_, Environment.capture_eq_ok_iff.mpr ⟨v, hv, rfl⟩, rfl⟩
    have hn : e.runtime.prerelease = [] := hev ▸ Version.prerelease_of_ofInts hv
    have hs := Selection.select_cases hn s.minimum
    rw [hev] at hs
    rw [stuck_iff hv]
    obtain ⟨hb, ⟨current, required, hcur, hreq, hs⟩ | ⟨hw, error, hs⟩⟩ | ⟨hq, hi, hs⟩ |
      ⟨hb, hi, hs⟩ := hs
    · -- The runtime is too old, and both versions can be written.
      have ho : (runWith x s).outcome = failed "" [] (.runtimeTooOld current required) := by
        simp only [runWith, he, hs, follow]
      have hw := (Version.render_eq_ok_iff.mp hcur).1
      rw [ho]
      refine .inr ⟨?_, ⟨1, rfl⟩, v, rfl, ?_, fun h => absurd h hb, fun h => absurd h hb⟩
      · rintro (⟨hq, -⟩ | ⟨-, hn⟩ | ⟨hq, -⟩)
        · exact hb hq.reaches
        · exact hn hw
        · exact hb hq
      · exact fun _ => ⟨current, required, hcur, hreq, failsWith_failed _ _ _⟩
    · have ho : (runWith x s).outcome.ending = .fault (.version error) := by
        simp only [runWith, he, hs]
      -- The minimum can always be written, and so it is the runtime that cannot.
      have hn : ¬v.Writable := fun h =>
        hw _ _ (Version.render_of_writable h) (Version.render_of_writable hm)
      exact .inl ⟨.inr (.inl ⟨hb, hn⟩), _, ho⟩
    · have ho : (runWith x s).outcome.ending = .fault (.version .overlong) := by
        simp only [runWith, he, hs]
      exact .inl ⟨.inl ⟨hq, hi⟩, _, ho⟩
    · -- Past the versions, only the place of the gateway can still be refused.
      have ho : (runWith x s).outcome = (follow x s (Selection.ofPlatform e)).outcome := by
        simp only [runWith, he, hs]
      rw [ho]
      obtain ⟨hp, hf⟩ | ⟨hp, hn, he⟩ := follow_ofPlatform hr hc he hb hs
      · exact .inl ⟨.inr (.inr ⟨hb, hp⟩), hf⟩
      · refine .inr ⟨?_, hn, v, rfl, he⟩
        rintro (⟨hq, hn⟩ | ⟨hn, -⟩ | ⟨-, hq⟩)
        · exact hn (hi hq)
        · exact hn hb
        · exact hp hq

theorem run_cases (hl : x.Loads s) (hc : x.course.Settles) :
    (x.Stuck s ∧ ∃ f, (run x).ending = .fault f) ∨
    (¬x.Stuck s ∧ (∃ n, (run x).ending = .exit n) ∧
      ∃ v, Version.ofInts x.host.major x.host.minor x.host.patch = .ok v ∧
        x.EndsAs s v (run x)) := by
  obtain ⟨notices, hload, -⟩ := id hl
  have hm : s.minimum.Writable := Settings.minimum_load
    (fun _ _ h => (Version.of_parse h).2)
    (Version.writable_of_le (by decide) (by decide) (by decide)) hload
  obtain ⟨early, hr⟩ := run_of_loads hl
  rw [hr]
  obtain h | ⟨hn, he, v, hv, hw⟩ := runWith_cases (Settings.installRoot_load hload) hm hc
  · exact .inl h
  · exact .inr ⟨hn, he, v, hv, hw.behind early⟩

theorem Setting.EndsAs.of_args {args : List String}
    (h : Setting.EndsAs { x with args } s v o) : x.EndsAs s v o :=
  ⟨h.tooOld, h.unsupported, fun hr p hp =>
    have hg := h.gateway hr p hp
    ⟨hg.missing, hg.notExecutable, hg.refused, hg.ended⟩⟩

/-- A run whose settings are loaded, and whose gateway is refused or ends in case it is asked for,
    never just returns. A fault ends it if and only if it is stuck, and else it ends with the status
    and the texts that the host, the files and the course of the gateway call for. -/
theorem ending_start (x : Setting) (given : Option (List String)) (words : List String)
    {s : Settings} (hl : x.Loads s) (hc : x.course.Settles) :
    (start x given words).ending ≠ .returned ∧
    ((∃ f, (start x given words).ending = .fault f) ↔ x.Stuck s) ∧
    (¬x.Stuck s → ∃ v, Version.ofInts x.host.major x.host.minor x.host.patch = .ok v ∧
      x.EndsAs s v (start x given words)) := by
  let y : Setting := { x with args := forwarded given words }
  have hy : y.Loads s := hl
  rw [start]
  obtain ⟨hs, f, hf⟩ | ⟨hs, ⟨n, hn⟩, v, hv, he⟩ := run_cases hy hc
  · rw [hf]
    exact ⟨by simp, iff_of_true ⟨f, rfl⟩ hs, fun h => absurd hs h⟩
  · rw [hn]
    exact ⟨by simp, iff_of_false (by simp) hs, fun _ => ⟨v, hv, he.of_args⟩⟩

/-- A gateway that a relayed signal has ended gives status zero. -/
theorem ending_start_terminated :
    let child : Child := { onSignal := [(.terminate, .ends (-15))] }
    let x := delivered [("ai-gateway-linux", .file (.ofString "x") true)] {
      attempt := { result := .started { pid := 1, child } }, duringWait := [.terminate] }
    (start x none ["ai-gateway", "-v"]).ending = .exit 0 ∧
    (start x none ["ai-gateway", "-v"]).stdout = "🚀 Starting AI Gateway...\n" := by
  intro child x
  have hl : x.Loads { installRoot := x.root } := ⟨[], rfl, rfl⟩
  have hc : x.course.finalCode? = some (-15) := rfl
  have hv : Version.ofInts x.host.major x.host.minor x.host.patch =
      .ok { major := 3, minor := 12, patch := 0 } := rfl
  have hr : Version.Reaches { major := 3, minor := 12, patch := 0 } Selection.defaultMinimum := by
    simp [Version.Reaches, Selection.defaultMinimum]
  have hp : gatewayPath? x.root x.host = some ⟨"", ["pkg", "dist", "ai-gateway-linux"]⟩ := by
    decide
  have hs : ¬x.Stuck { installRoot := x.root } := by
    rw [stuck_iff hv]
    rintro (⟨⟨-, hn, -⟩, -⟩ | ⟨hn, -⟩ | ⟨-, p, hq, hn⟩)
    · cases hn
    · exact hn hr
    · rw [hp] at hq
      cases hq
      cases hn
  obtain ⟨-, -, he⟩ := ending_start x none ["ai-gateway", "-v"] hl (.inr ⟨-15, hc⟩)
  obtain ⟨v, hw, he⟩ := he hs
  cases hv.symm.trans hw
  exact (he.gateway hr _ hp).ended rfl (-15) hc

/-- The overlong minimum leaves a run without an exit status, though the settings are loaded and the
    gateway would be started and would end. -/
theorem overlong_minimum_gives_no_status :
    ¬∀ (x : Setting) (given : Option (List String)) (words : List String) (s : Settings),
      x.Loads s → x.course.Settles → ∃ n, (start x given words).ending = .exit n := by
  intro h
  let x := installed overlongDocument
  have hc : x.course.Settles := .inr ⟨0, rfl⟩
  have hv : Version.ofInts x.host.major x.host.minor x.host.patch =
      .ok { major := 3, minor := 10, patch := 0 } := rfl
  have hs : x.Stuck { installRoot := x.root, minimum := overlongMinimum } :=
    (stuck_iff hv).mpr (.inl ⟨⟨rfl, rfl, rfl⟩, not_isReadable_overlongMinimum⟩)
  let y : Setting := { x with args := forwarded none [] }
  have hy : y.Loads { installRoot := x.root, minimum := overlongMinimum } := loads_overlongDocument
  obtain ⟨n, hn⟩ := h x none [] _ loads_overlongDocument hc
  rw [start] at hn
  obtain ⟨-, f, hf⟩ | ⟨hns, -⟩ := run_cases hy hc
  · rw [hf] at hn
    cases hn
  · exact hns hs

end Gateway

end GatewayLauncher

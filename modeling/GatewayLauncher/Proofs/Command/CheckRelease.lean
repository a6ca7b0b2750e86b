import GatewayLauncher.Command.CheckRelease
import GatewayLauncher.Proofs.Command.Gateway
import GatewayLauncher.Proofs.Release.Report

namespace GatewayLauncher

namespace CheckRelease

variable {x : Setting} {s : Settings}

theorem run_of_load {notices : List Notice}
    (hl : Settings.load x.tree x.root x.level = .ok (s, notices))
    (hn : notices.any Notice.isTooDeep = false) :
    (run x).ending = (runWith x s).ending ∧ (run x).stdout = (runWith x s).stdout := by
  simp [run, hl, hn]

theorem exists_check_of_exit {n : Int} (ha : x.args = []) (h : (runWith x s).ending = .exit n) :
    ∃ r, check x s none = .ok r ∧ (runWith x s).stdout = r.stdout ∧
      n = if r.ok then 0 else 1 := by
  have hg : grammar.read [] = .ok {} := rfl
  simp only [runWith, ha, hg] at h ⊢
  cases hc : check x s none with
  | error f => simp [hc] at h
  | ok r =>
    simp only [hc, Ending.exit.injEq] at h
    exact ⟨r, rfl, rfl, h.symm⟩

end CheckRelease

namespace Gateway

variable {x : Setting} {s : Settings} {e : Environment} {name : String}

/-- The check, without arguments, of the release that a run of the launcher finds. -/
def Setting.release (x : Setting) : CheckRelease.Setting :=
  { host := x.host, tree := x.tree, root := x.root, level := x.level }

theorem exists_report_of_exit {n : Int} (hl : x.Loads s)
    (h : (CheckRelease.run x.release).ending = .exit n) :
    ∃ r, CheckRelease.check x.release s none = .ok r ∧
      (CheckRelease.run x.release).stdout = r.stdout ∧ n = if r.ok then 0 else 1 := by
  obtain ⟨notices, hl, hn⟩ := hl
  obtain ⟨hr, ho⟩ := CheckRelease.run_of_load (x := x.release) hl hn
  rw [hr] at h
  rw [ho]
  exact CheckRelease.exists_check_of_exit rfl h

theorem check_release (hl : x.Loads s) :
    CheckRelease.check x.release s none =
      Release.check x.tree (x.root.child "dist") (Environment.capture x.host) s.minimum := by
  rw [← delegateDir_of_loads hl]
  rfl

theorem executable_of_report {r : Release.Report} (hl : x.Loads s)
    (hc : Environment.capture x.host = .ok e)
    (hs : Selection.select s.minimum e = .ok (.resolved name))
    (hr : CheckRelease.check x.release s none = .ok r) (hk : r.ok = true) :
    r.current = some name ∧ x.tree.isExecutable ((x.root.child "dist").child name) = true := by
  rw [check_release hl] at hr
  obtain ⟨-, ⟨-, rfl⟩ | ⟨-, -, e', selection, hc', hs', rfl⟩⟩ := Release.check_eq_ok_iff.mp hr
  · cases hk
  · obtain rfl : e = e' := Except.ok.inj (hc.symm.trans hc')
    obtain rfl : .resolved name = selection := Except.ok.inj (hs.symm.trans hs')
    obtain ⟨hp, hi⟩ := Release.ok_reportOn_iff.mp hk
    obtain ⟨-, b, hb, rfl⟩ := Selection.select_eq_resolved_iff.mp hs
    refine ⟨rfl, ?_⟩
    rw [FileTree.isExecutable_iff]
    obtain ⟨content, executable, hf⟩ := FileTree.isFile_iff.mp (hi b.name rfl)
    cases executable with
    | true => exact ⟨content, hf⟩
    | false => exact absurd ⟨content, hf⟩ (hp b (List.mem_of_find?_eq_some hb))

theorem unpermitted_of_report {r : Release.Report} {b : Prebuilt} (hl : x.Loads s)
    (hb : b ∈ Prebuilt.all)
    (hx : x.tree.isExecutable ((x.root.child "dist").child b.name) = true)
    (hc : Environment.capture x.host = .ok e)
    (hs : Selection.select s.minimum e = .ok (.resolved b.name))
    (hr : CheckRelease.check x.release s none = .ok r) (hk : r.ok = false) :
    ∃ b' ∈ Prebuilt.all, b'.name ≠ b.name ∧
      Release.Unpermitted x.tree (x.root.child "dist") b' := by
  obtain ⟨content, hf⟩ := FileTree.isExecutable_iff.mp hx
  rw [check_release hl] at hr
  obtain ⟨-, ⟨hd, -⟩ | ⟨-, -, e', selection, hc', hs', rfl⟩⟩ := Release.check_eq_ok_iff.mp hr
  · have hd' := FileTree.isDirectory_of_find_child (Prebuilt.isStep_name b hb) hf
    exact absurd (hd'.symm.trans hd) (by decide)
  · obtain rfl : e = e' := Except.ok.inj (hc.symm.trans hc')
    obtain rfl : .resolved b.name = selection := Except.ok.inj (hs.symm.trans hs')
    have hi (name : String) (hn : Selection.resolved b.name = .resolved name) :
        x.tree.isFile ((x.root.child "dist").child name) = true := by
      cases hn
      exact FileTree.isFile_of_find hf
    obtain ⟨b', hb', hu⟩ :
        ∃ b' ∈ Prebuilt.all, Release.Unpermitted x.tree (x.root.child "dist") b' := by
      refine Classical.byContradiction fun hn => ?_
      rw [Release.ok_reportOn_iff.mpr ⟨fun b' hb' hu => hn ⟨b', hb', hu⟩, hi⟩] at hk
      cases hk
    refine ⟨b', hb', ?_, hu⟩
    -- The gateway of the host may be run, and so it is not the one that fails.
    intro hne
    obtain ⟨content', hu⟩ := hu
    rw [hne, hf] at hu
    cases hu

theorem Setting.Ready.selection {p : Path} (h : x.Ready s p) :
    ∃ e b, Environment.capture x.host = .ok e ∧
      Selection.select s.minimum e = .ok (.resolved b.name) ∧ b ∈ Prebuilt.all ∧
      x.tree.isExecutable ((x.root.child "dist").child b.name) = true := by
  obtain ⟨⟨v, hv, hb⟩, hp, hf⟩ := h
  obtain ⟨b, hfb, rfl⟩ := Option.map_eq_some_iff.mp hp
  exact ⟨_, b, Environment.capture_eq_ok_iff.mpr ⟨v, hv, rfl⟩,
    Selection.select_eq_resolved_iff.mpr ⟨hb, b, hfb, rfl⟩,
    List.mem_of_find?_eq_some hfb, FileTree.isExecutable_iff.mpr hf⟩

theorem spawns_start_of_executable {b : Prebuilt} (hl : x.Loads s)
    (hc : Environment.capture x.host = .ok e)
    (hs : Selection.select s.minimum e = .ok (.resolved b.name))
    (hk : Prebuilt.isKnown b.name = true)
    (hx : x.tree.isExecutable ((x.root.child "dist").child b.name) = true)
    (given : Option (List String)) (words : List String) :
    (start x given words).spawns =
      [((x.root.child "dist").child b.name, forwarded given words)] := by
  let y : Setting := { x with args := forwarded given words }
  have hy : y.Loads s := hl
  have hw := spawns_runWith_of_resolved (x := y) hc hs hk
  rw [delegateDir_of_loads hl, if_pos hx] at hw
  rw [start, Outcome.spawns, calls_run_of_loads hy]
  exact hw

/-- If the check passes and a gateway is selected for the host, the launcher starts that gateway. If
    the launcher starts a gateway although the check fails, another gateway of the table stands in
    its place as a file that may not be run. -/
theorem start_agrees_with_check (x : Setting) (given : Option (List String)) (words : List String)
    {s : Settings} (hl : x.Loads s) :
    (∀ e name, Environment.capture x.host = .ok e →
      Selection.select s.minimum e = .ok (.resolved name) →
      (CheckRelease.run x.release).ending = .exit 0 →
      (∃ r, CheckRelease.check x.release s none = .ok r ∧ r.current = some name ∧
        (CheckRelease.run x.release).stdout = r.stdout) ∧
      (∃ l, locate x.tree name (x.root.child "dist") = .ok l ∧ l.verify = .ok ()) ∧
      (start x given words).spawns =
        [((x.root.child "dist").child name, forwarded given words)]) ∧
    ((start x given words).spawns ≠ [] → (CheckRelease.run x.release).ending = .exit 1 →
      ∃ e name, Environment.capture x.host = .ok e ∧
        Selection.select s.minimum e = .ok (.resolved name) ∧
        ∃ b ∈ Prebuilt.all, b.name ≠ name ∧
          ∃ content, x.tree.find ((x.root.child "dist").child b.name) =
            .ok (.file content false)) := by
  constructor
  · intro e name hc hs hx
    obtain ⟨r, hr, ho, hn⟩ := exists_report_of_exit hl hx
    have hk : r.ok = true := by
      cases hk : r.ok <;> simp [hk] at hn ⊢
    obtain ⟨hcur, hf⟩ := executable_of_report hl hc hs hr hk
    obtain ⟨-, b, hb, rfl⟩ := Selection.select_eq_resolved_iff.mp hs
    have hkn := Prebuilt.isKnown_of_find? hb
    have hv : (⟨(x.root.child "dist").child b.name, true, true⟩ : Location).verify = .ok () := rfl
    have hw := spawns_start_of_executable hl hc hs hkn hf given words
    have hp := locate_of_executable hkn hf
    exact ⟨⟨r, hr, hcur, ho⟩, ⟨_, hp, hv⟩, hw⟩
  · intro hw hx
    obtain ⟨r, hr, -, hn⟩ := exists_report_of_exit hl hx
    have hk : r.ok = false := by
      cases hk : r.ok <;> simp [hk] at hn ⊢
    obtain ⟨s', p, hl', hp, hw'⟩ | ⟨hn, hw'⟩ := spawns_run { x with args := forwarded given words }
    · obtain rfl := hl'.unique hl
      have hr' : x.Ready s' p := hp
      obtain ⟨e, b, hc, hs, hb, hx⟩ := hr'.selection
      exact ⟨e, b.name, hc, hs, unpermitted_of_report hl hb hx hc hs hr hk⟩
    · exact absurd hw' hw

theorem select_linuxHost :
    ∃ e, Environment.capture linuxHost = .ok e ∧
      Selection.select Selection.defaultMinimum e = .ok (.resolved "ai-gateway-linux") :=
  ⟨_, rfl, Selection.select_eq_resolved_iff.mpr ⟨rfl, _, rfl, rfl⟩⟩

/-- The gateway is delivered alone, and then beside another one that may not be run. -/
theorem start_agrees_with_check_delivered :
    let gateway := FileNode.file (.ofString "x") true
    let c : Course := { attempt := { result := .refused "no memory" } }
    let x := delivered [("ai-gateway-linux", gateway)] c
    let y := delivered [("ai-gateway-linux", gateway),
      ("ai-gateway-macos", .file (.ofString "x") false)] c
    (start x none ["ai-gateway", "-v"]).spawns =
      [(⟨"", ["pkg", "dist", "ai-gateway-linux"]⟩, ["-v"])] ∧
    ∃ b ∈ Prebuilt.all, b.name ≠ "ai-gateway-linux" ∧
      ∃ content, y.tree.find ((y.root.child "dist").child b.name) = .ok (.file content false) := by
  intro gateway c x y
  have hx : x.Loads { installRoot := x.root } := ⟨[], rfl, rfl⟩
  have hy : y.Loads { installRoot := y.root } := ⟨[], rfl, rfl⟩
  obtain ⟨e, hc, hs⟩ := select_linuxHost
  constructor
  · obtain ⟨-, -, hw⟩ := (start_agrees_with_check x none ["ai-gateway", "-v"] hx).1 e _ hc hs
      (by decide +kernel)
    exact hw
  · obtain ⟨e', n, hc', hs', hb⟩ := (start_agrees_with_check y none [] hy).2
      (by decide +kernel) (by decide +kernel)
    obtain rfl : e = e' := Except.ok.inj (hc.symm.trans hc')
    have hn : .resolved "ai-gateway-linux" = Selection.resolved n :=
      Except.ok.inj (hs.symm.trans hs')
    rw [Selection.resolved.injEq] at hn
    rw [hn]
    exact hb

end Gateway

end GatewayLauncher

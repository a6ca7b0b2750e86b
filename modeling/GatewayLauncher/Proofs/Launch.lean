import GatewayLauncher.Launch
import GatewayLauncher.Proofs.Delegate.Ending
import GatewayLauncher.Proofs.FileTree

namespace GatewayLauncher

theorem Prebuilt.isStep_name : ∀ b ∈ all, Path.IsStep b.name := by decide

theorem Prebuilt.isStep_of_isKnown {name : String} (h : isKnown name = true) :
    Path.IsStep name := by
  obtain ⟨b, hb, rfl⟩ := List.mem_map.mp (List.contains_iff_mem.mp h)
  exact isStep_name b hb

variable {t : FileTree} {p : Path}

theorem Location.probe_of_askable (h : t.askable p = .ok ()) :
    probe t p = .ok ⟨p, t.isFile p, t.isExecutable p⟩ := by
  rw [probe, h]
  rfl

theorem Location.eq_of_probe {l : Location} (h : probe t p = .ok l) :
    l = ⟨p, t.isFile p, t.isExecutable p⟩ := by
  cases ha : t.askable p with
  | error e =>
    rw [probe, ha] at h
    cases h
  | ok u =>
    rw [probe_of_askable ha] at h
    cases h
    rfl

theorem Location.verify_eq_ok_iff (l : Location) :
    l.verify = .ok () ↔ l.isThere = true ∧ l.executable = true := by
  cases ht : l.isThere <;> cases hx : l.executable <;> simp [verify, ht, hx]

variable {name : String} {base : Path}

theorem eq_of_locate {l : Location} (h : locate t name base = .ok l) :
    l = ⟨base.child name, t.isFile (base.child name), t.isExecutable (base.child name)⟩ := by
  rw [locate] at h
  split at h
  · cases hp : Location.probe t (base.child name) with
    | error e =>
      rw [hp] at h
      cases h
    | ok k =>
      rw [hp] at h
      cases h
      exact Location.eq_of_probe hp
  · cases h

theorem locate_of_executable (hn : Prebuilt.isKnown name = true)
    (hx : t.isExecutable (base.child name) = true) :
    locate t name base = .ok ⟨base.child name, true, true⟩ := by
  obtain ⟨content, hf⟩ := FileTree.isExecutable_iff.mp hx
  rw [locate, if_pos hn, Location.probe_of_askable (FileTree.askable_of_find hf),
    FileTree.isFile_of_find hf, hx]
  rfl

def Outcome.spawns (o : Outcome) : List (Path × List String) := o.calls.filterMap Call.spawn?

theorem spawns_launchAt (path : Path) (args : List String) (banner : Option String) (c : Course) :
    (launchAt path args banner c).outcome.spawns = [(path, args)] := by
  have hr := Delegate.spawns_run path args c
  rw [launchAt]
  split <;> rename_i he <;> rw [he] at hr <;> exact hr

/-- A gateway from the table is asked for once if the file in its place can be run, and else not at
    all. -/
theorem spawns_launch (hn : Prebuilt.isKnown name = true) (args : List String)
    (banner : Option String) (c : Course) :
    (launch t name args base banner c).outcome.spawns =
      if t.isExecutable (base.child name) then [(base.child name, args)] else [] := by
  cases hx : t.isExecutable (base.child name) with
  | true =>
    have hl := locate_of_executable hn hx
    have hv : (⟨base.child name, true, true⟩ : Location).verify = .ok () := rfl
    simp only [launch, hl, hv]
    exact spawns_launchAt _ args banner c
  | false =>
    cases hl : locate t name base with
    | error f => simp [launch, hl, Outcome.spawns]
    | ok l =>
      have he : l.executable = false := by
        rw [eq_of_locate hl]
        exact hx
      cases hv : l.verify with
      | error f => simp [launch, hl, hv, failed, Outcome.spawns]
      | ok u =>
        have hc := l.verify_eq_ok_iff.mp hv
        simp [he] at hc

theorem Text.lines_cons (s : String) (ls : List String) :
    lines (s :: ls) = "\n".intercalate (s :: ls) ++ "\n" := by
  induction ls generalizing s with
  | nil => simp [lines]
  | cons t ls ih =>
    have h := ih t
    simp only [lines, List.map_cons, String.join_cons] at h ⊢
    rw [h, String.intercalate_cons_cons]
    simp [String.append_assoc]

theorem Failure.printed_eq (f : Failure) : f.printed = "❌ Error: " ++ f.text ++ "\n" := by
  rw [printed, Text.lines_cons, text]
  cases f.hints with
  | nil =>
    simp only [String.intercalate_singleton]
    rfl
  | cons hint hints =>
    simp only [String.intercalate_cons_cons, String.append_assoc]
    rfl

theorem bannerText_of_line (banner : String) :
    bannerText (some banner) = if banner = "" then "" else banner ++ "\n" := by
  simp [bannerText, printedStatus, Text.lines]

theorem launch_of_askable (hn : Prebuilt.isKnown name = true)
    (ha : t.askable (base.child name) = .ok ()) (args : List String) (banner : Option String)
    (c : Course) :
    launch t name args base banner c =
      if t.isFile (base.child name) = false then
        ⟨failed "" [] (.binaryMissing (base.child name)), []⟩
      else if t.isExecutable (base.child name) = false then
        ⟨failed "" [] (.binaryNotExecutable (base.child name)), []⟩
      else launchAt (base.child name) args banner c := by
  have hl : locate t name base =
      .ok ⟨base.child name, t.isFile (base.child name), t.isExecutable (base.child name)⟩ := by
    rw [locate, if_pos hn, Location.probe_of_askable ha]
    rfl
  cases hi : t.isFile (base.child name) <;> cases hx : t.isExecutable (base.child name) <;>
    simp [launch, hl, hi, hx, Location.verify]

theorem launch_of_refuses (hn : Prebuilt.isKnown name = true)
    (hr : t.refuses (base.child name) = true) (args : List String) (banner : Option String)
    (c : Course) :
    launch t name args base banner c = ⟨{ ending := .fault (.opening .nameTooLong) }, []⟩ := by
  have hl : locate t name base = .error (.opening .nameTooLong) := by
    rw [locate, if_pos hn, Location.probe, FileTree.askable, if_pos hr]
    rfl
  simp only [launch, hl]

theorem launchAt_of_refused (path : Path) (args : List String) (banner : Option String) {c : Course}
    {reason : String} (h : c.attempt.result = .refused reason) :
    ∃ calls, (launchAt path args banner c).outcome =
      failed (bannerText banner) calls (.spawnRefused path reason) := by
  obtain ⟨d, hr⟩ := Delegate.run_of_refused path args h
  exact ⟨d.calls, by simp only [launchAt, hr]⟩

theorem launchAt_of_code (path : Path) (args : List String) (banner : Option String) {c : Course}
    {code : Int} (h : c.finalCode? = some code) :
    ∃ calls, (launchAt path args banner c).outcome =
      { stdout := bannerText banner, calls, ending := .exit (exitStatus (some code)) } := by
  obtain ⟨d, hr, -⟩ := Delegate.run_of_code path args h
  exact ⟨d.calls, by simp only [launchAt, hr]⟩

end GatewayLauncher

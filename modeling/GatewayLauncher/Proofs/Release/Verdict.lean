import GatewayLauncher.Proofs.Command.Gateway
import GatewayLauncher.Proofs.Release.Report

namespace GatewayLauncher.Release

variable {t : FileTree} {dir : Path} {e : Environment} {minimum : Version} {s : Selection}

theorem mem_lacking_iff {name : String} :
    name ∈ lacking t dir s ↔ s = .resolved name ∧ permission? t dir name = none := by
  cases s with
  | resolved other =>
    rw [lacking, Selection.resolved.injEq]
    split
    · rename_i h
      rw [List.mem_singleton, @eq_comm _ name]
      exact (and_iff_left_of_imp fun hn => hn ▸ h).symm
    · rename_i h
      simp only [List.not_mem_nil, false_iff]
      rintro ⟨rfl, hp⟩
      exact h hp
  | unsupported reason guidance => simp [lacking]
  | incompatible current required => simp [lacking]

theorem nodup_names : Prebuilt.names.Nodup := by decide

theorem nodup_failing (t : FileTree) (dir : Path) (s : Selection) :
    (unpermitted t dir ++ lacking t dir s).Nodup := by
  have hl : (lacking t dir s).Nodup := by
    cases s with
    | resolved name =>
      rw [lacking]
      split <;> simp
    | unsupported reason guidance => exact List.nodup_nil
    | incompatible current required => exact List.nodup_nil
  refine List.nodup_append.mpr ⟨nodup_names.filter _, hl, ?_⟩
  rintro name hu _ hn rfl
  have hp := (List.mem_filter.mp hu).2
  rw [(mem_lacking_iff.mp hn).2] at hp
  cases hp

theorem failures_congr {t' : FileTree} (hp : ∀ name ∈ Prebuilt.names,
    permission? t' dir name = permission? t dir name) (hs : Selection.select minimum e = .ok s) :
    unpermitted t' dir = unpermitted t dir ∧ lacking t' dir s = lacking t dir s := by
  refine ⟨List.filter_congr fun name hn => by rw [hp name hn], ?_⟩
  cases s with
  | resolved name =>
    have hn : name ∈ Prebuilt.names := by
      obtain ⟨-, b, hb, rfl⟩ := Selection.select_eq_resolved_iff.mp hs
      exact List.mem_map_of_mem (List.mem_of_find?_eq_some hb)
    simp only [lacking, hp name hn]
  | unsupported reason guidance => rfl
  | incompatible current required => rfl

/-- The failures are the missing directory, or else each binary of the table that may not be run, in
    its order, and behind them the one that is selected and not there. So two trees with the same
    permissions have the same failures, whatever else their files are. -/
theorem check_verdict (t : FileTree) (dir : Path) (e : Environment) (minimum : Version) :
    ((∃ r, check t dir (.ok e) minimum = .ok r) ↔ ¬Stuck t dir e minimum) ∧
    ∀ r, check t dir (.ok e) minimum = .ok r →
      (t.isDirectory dir = false →
        r = { dir, failures := [s!"Delegate directory not found: {dir.toString}"] }) ∧
      (t.isDirectory dir = true → ∃ s, Selection.select minimum e = .ok s ∧
        r.failures = (unpermitted t dir).map (notExecutable dir) ++
          (lacking t dir s).map (notFound dir e) ∧
        (unpermitted t dir ++ lacking t dir s).Nodup) ∧
      (r.ok = true ↔ t.isDirectory dir = true ∧
        (∀ b ∈ Prebuilt.all, ¬Unpermitted t dir b) ∧
        ∀ name, Selection.select minimum e = .ok (.resolved name) →
          t.isFile (dir.child name) = true) ∧
      ∀ t' r', check t' dir (.ok e) minimum = .ok r' →
        t'.isDirectory dir = t.isDirectory dir →
        (∀ name ∈ Prebuilt.names, permission? t' dir name = permission? t dir name) →
        r'.failures = r.failures := by
  refine ⟨exists_check_iff, fun r hr => ?_⟩
  obtain ⟨-, ⟨hd, rfl⟩ | ⟨hd, -, e', s, he, hs, rfl⟩⟩ := check_eq_ok_iff.mp hr
  · refine ⟨fun _ => rfl, fun h => absurd (hd.symm.trans h) (by decide), ?_, ?_⟩
    · simp [hd, absence, Report.ok]
    · intro t' r' hr' hd' hp
      obtain ⟨-, ⟨-, rfl⟩ | ⟨h, -⟩⟩ := check_eq_ok_iff.mp hr'
      · rfl
      · cases h.symm.trans (hd'.trans hd)
  · cases he
    refine ⟨fun h => absurd (hd.symm.trans h) (by decide),
      fun _ => ⟨s, hs, failures_reportOn s, nodup_failing t dir s⟩, ?_, ?_⟩
    · rw [ok_reportOn_iff, hs]
      simp [hd]
    · intro t' r' hr' hd' hp
      obtain ⟨-, ⟨h, -⟩ | ⟨-, -, e', s', he', hs', rfl⟩⟩ := check_eq_ok_iff.mp hr'
      · cases h.symm.trans (hd'.trans hd)
      · cases he'
        cases hs'.symm.trans hs
        obtain ⟨hu, hl⟩ := failures_congr hp hs
        rw [failures_reportOn, failures_reportOn, hu, hl]

def releaseDir : Path := ⟨"", ["dist"]⟩

def release (entries : List (String × FileNode)) : FileTree where
  working := .directory [("dist", .directory entries)]

def unready : FileTree := release [
  ("ai-gateway-macos", .file (.ofString "x") false), ("ai-gateway-linux", .empty)]

def linuxHost : Environment :=
  { runtime := { major := 3, minor := 12, patch := 0 }, system := .linux, architecture := .x64 }

theorem select_linuxHost :
    Selection.select Selection.defaultMinimum linuxHost = .ok (.resolved "ai-gateway-linux") := by
  decide

theorem check_unready (hs : Selection.select Selection.defaultMinimum e = .ok s) :
    ∃ r, check unready releaseDir (.ok e) Selection.defaultMinimum = .ok r := by
  have hd : unready.isDirectory releaseDir = true := by decide
  have hn : ∀ b ∈ Prebuilt.all, unready.refuses (releaseDir.child b.name) = false := by decide
  exact ⟨_, check_eq_ok_iff.mpr
    ⟨by decide, .inr ⟨hd, hn, e, s, rfl, hs, rfl⟩⟩⟩

theorem check_verdict_unready : ∃ r,
    check unready releaseDir (.ok linuxHost) Selection.defaultMinimum = .ok r ∧
    r.ok = false ∧ r.failures = [
      "ai-gateway-macos is not executable. Run: chmod +x dist/ai-gateway-macos",
      "Detected binary ai-gateway-linux for linux/x64 not found in dist"] := by
  obtain ⟨r, hr⟩ := check_unready select_linuxHost
  obtain ⟨-, hf, -, -⟩ :=
    (check_verdict unready releaseDir linuxHost Selection.defaultMinimum).2 r hr
  obtain ⟨s, hs, hf, -⟩ := hf (by decide)
  cases select_linuxHost.symm.trans hs
  have hl : r.failures = [
      "ai-gateway-macos is not executable. Run: chmod +x dist/ai-gateway-macos",
      "Detected binary ai-gateway-linux for linux/x64 not found in dist"] := by
    rw [hf]
    decide
  exact ⟨r, hr, by rw [Report.ok, hl]; rfl, hl⟩

def otherHost : Environment :=
  { runtime := { major := 3, minor := 10, patch := 0 }, system := .other, architecture := .x64 }

theorem stuck_overlongMinimum (ht : t.isDirectory dir = true) :
    Stuck t dir otherHost Gateway.overlongMinimum := by
  have hs : otherHost.runtime.SameNumbers Gateway.overlongMinimum := ⟨rfl, rfl, rfl⟩
  exact .inr ⟨ht, .inr (.inl ⟨hs, fun h => Gateway.not_isReadable_overlongMinimum h.2⟩)⟩

/-- A release in good order does not pass its check if the minimum has a number over the digit limit
    in its prerelease. -/
theorem overlong_minimum_gives_no_verdict :
    ¬∀ (t : FileTree) (dir : Path) (e : Environment) (minimum : Version),
      t.isDirectory dir = true → (∀ b ∈ Prebuilt.all, ¬Unpermitted t dir b) →
      (∀ name, Selection.select minimum e = .ok (.resolved name) →
        t.isFile (dir.child name) = true) →
      ∃ r, check t dir (.ok e) minimum = .ok r ∧ r.ok = true := by
  intro h
  have hd : (release []).isDirectory releaseDir = true := by decide
  have hp : ∀ b ∈ Prebuilt.all, ¬Unpermitted (release []) releaseDir b := by
    simp only [← permission?_eq_some_false_iff]
    decide
  have hs (name : String) : Selection.select Gateway.overlongMinimum otherHost ≠
      .ok (.resolved name) := by
    intro hs
    obtain ⟨-, b, hb, -⟩ := Selection.select_eq_resolved_iff.mp hs
    cases hb
  obtain ⟨r, hr, -⟩ := h _ _ _ _ hd hp fun name hn => absurd hn (hs name)
  exact exists_check_iff.mp ⟨r, hr⟩ (stuck_overlongMinimum hd)

end GatewayLauncher.Release

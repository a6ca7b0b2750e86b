import GatewayLauncher.Proofs.Release.Verdict
import Mathlib.Data.List.Nodup
import Mathlib.Data.String.Basic

namespace GatewayLauncher

/-- What has been kept is filtered out of the rest, which so gets shorter. -/
theorem nodup_eraseDups {α : Type} [BEq α] [LawfulBEq α] (xs : List α) : xs.eraseDups.Nodup := by
  cases xs with
  | nil => exact List.nodup_nil
  | cons x xs =>
    rw [List.eraseDups_cons, List.nodup_cons]
    exact ⟨by simp [List.mem_eraseDups], nodup_eraseDups _⟩
termination_by xs.length
decreasing_by
  exact Nat.lt_succ_of_le (List.length_filter_le _ _)

def ExactlyOne (p q r : Prop) : Prop := (p ∧ ¬q ∧ ¬r) ∨ (¬p ∧ q ∧ ¬r) ∨ (¬p ∧ ¬q ∧ r)

theorem ExactlyOne.third_iff {p q r : Prop} (h : ExactlyOne p q r) : r ↔ ¬p ∧ ¬q := by
  rw [ExactlyOne] at h
  tauto

namespace FileTree

variable {t : FileTree} {p : Path} {entries : List (String × FileNode)}

theorem names_of_find (h : t.find p = .ok (.directory entries)) :
    t.names p = (entries.map Prod.fst).eraseDups := by
  rw [names, h]

theorem isDirectory_of_find (h : t.find p = .ok (.directory entries)) :
    t.isDirectory p = true := by
  simp [isDirectory, h]

end FileTree

namespace Release

variable {t : FileTree} {dir : Path} {e : Environment} {minimum : Version}
  {entries : List (String × FileNode)} {names names' : List String} {name : String}

def codePoints (name : String) : List Nat := name.toList.map Char.toNat

def IsHidden (name : String) : Prop := ∃ rest, name.toList = '.' :: rest

theorem isPrefixOf_dot_iff : ".".toList.isPrefixOf name.toList = true ↔ IsHidden name := by
  have hd : ".".toList = ['.'] := rfl
  rw [List.isPrefixOf_iff_prefix, hd, IsHidden]
  constructor
  · rintro ⟨rest, hr⟩
    exact ⟨rest, hr.symm⟩
  · rintro ⟨rest, hr⟩
    exact ⟨rest, hr.symm⟩

instance : DecidablePred IsHidden := fun _ => decidable_of_iff _ isPrefixOf_dot_iff

theorem mem_unexpectedNames_iff :
    name ∈ unexpectedNames names ↔ name ∈ names ∧ name ∉ Prebuilt.names ∧ ¬IsHidden name := by
  simp only [unexpectedNames, List.mem_mergeSort, List.mem_filter, ← isPrefixOf_dot_iff,
    Bool.and_eq_true, Bool.not_eq_true', List.contains_eq_mem, decide_eq_false_iff_not,
    Bool.not_eq_true]

theorem pairwise_le_unexpectedNames (names : List String) :
    (unexpectedNames names).Pairwise (· ≤ ·) := by
  have htrans (s t u : String) (hst : decide (s ≤ t) = true) (htu : decide (t ≤ u) = true) :
      decide (s ≤ u) = true := by
    rw [decide_eq_true_eq] at hst htu ⊢
    exact le_trans hst htu
  have htotal (s t : String) : (decide (s ≤ t) || decide (t ≤ s)) = true := by
    rw [Bool.or_eq_true, decide_eq_true_eq, decide_eq_true_eq]
    exact le_total s t
  have hs := List.pairwise_mergeSort htrans htotal
    (names.filter fun n => !Prebuilt.names.contains n && !".".toList.isPrefixOf n.toList)
  exact hs.imp fun h => of_decide_eq_true h

theorem nodup_unexpectedNames (h : names.Nodup) : (unexpectedNames names).Nodup :=
  (List.mergeSort_perm _ _).nodup_iff.mpr (h.filter _)

theorem codePoints_lt {s t : String} (h : s < t) : codePoints s < codePoints t :=
  List.map_lt (fun _ _ hc => hc) (String.lt_iff_toList_lt.mp h)

theorem pairwise_lt_unexpectedNames (h : names.Nodup) :
    (unexpectedNames names).Pairwise fun s t => codePoints s < codePoints t :=
  (pairwise_le_unexpectedNames names).imp₂
    (fun _ _ hle hne => codePoints_lt (lt_of_le_of_ne hle hne)) (nodup_unexpectedNames h)

/-- The order of the names makes no difference: there is only one way to sort them. -/
theorem unexpectedNames_congr (h : names.Nodup) (h' : names'.Nodup)
    (hm : ∀ name, name ∈ names' ↔ name ∈ names) :
    unexpectedNames names' = unexpectedNames names := by
  have hp : (unexpectedNames names').Perm (unexpectedNames names) := by
    rw [List.perm_ext_iff_of_nodup (nodup_unexpectedNames h') (nodup_unexpectedNames h)]
    intro name
    rw [mem_unexpectedNames_iff, mem_unexpectedNames_iff, hm]
  exact hp.eq_of_pairwise (fun _ _ _ _ => le_antisymm) (pairwise_le_unexpectedNames names')
    (pairwise_le_unexpectedNames names)

theorem mem_names_iff (h : t.find dir = .ok (.directory entries)) :
    name ∈ t.names dir ↔ ∃ u, (name, u) ∈ entries := by
  rw [FileTree.names_of_find h, List.mem_eraseDups, List.mem_map]
  constructor
  · rintro ⟨⟨_, u⟩, hu, rfl⟩
    exact ⟨u, hu⟩
  · rintro ⟨u, hu⟩
    exact ⟨(name, u), hu, rfl⟩

theorem nodup_names_of_find (h : t.find dir = .ok (.directory entries)) :
    (t.names dir).Nodup := by
  rw [FileTree.names_of_find h]
  exact nodup_eraseDups _

theorem not_isHidden_of_mem_names : ∀ name ∈ Prebuilt.names, ¬IsHidden name := by decide

theorem exactlyOne_of_mem (h : names.Nodup) (hm : name ∈ names) :
    ExactlyOne (name ∈ Prebuilt.names) (IsHidden name)
      ((unexpectedNames names).count name = 1) := by
  have hc : (unexpectedNames names).count name = 1 ↔
      name ∉ Prebuilt.names ∧ ¬IsHidden name := by
    constructor
    · intro h1
      have hn : name ∈ unexpectedNames names := List.count_pos_iff.mp (by omega)
      exact (mem_unexpectedNames_iff.mp hn).2
    · intro hn
      exact List.count_eq_one_of_mem (nodup_unexpectedNames h)
        (mem_unexpectedNames_iff.mpr ⟨hm, hn⟩)
  have hx := not_isHidden_of_mem_names name
  rw [ExactlyOne, hc]
  tauto

theorem unexpected_of_check {environment : Except VersionError Environment} {r : Report}
    (hd : t.find dir = .ok (.directory entries)) (hr : check t dir environment minimum = .ok r) :
    r.unexpected = unexpectedNames (t.names dir) := by
  obtain ⟨-, ⟨h, -⟩ | ⟨-, -, e', s, -, -, rfl⟩⟩ := check_eq_ok_iff.mp hr
  · cases h.symm.trans (FileTree.isDirectory_of_find hd)
  · rfl

/-- The names listed as unexpected are in strictly increasing order of their code points, and each
    entry of the directory is known, hidden or listed once. Neither what the entries are nor the
    order in which the directory has them comes into the list. -/
theorem check_unexpected (hd : t.find dir = .ok (.directory entries)) (e : Environment)
    (minimum : Version) :
    ((∃ r, check t dir (.ok e) minimum = .ok r) ↔ ¬Stuck t dir e minimum) ∧
    ∀ r, check t dir (.ok e) minimum = .ok r →
      (r.unexpected.Pairwise fun s t => codePoints s < codePoints t) ∧
      (∀ entry ∈ entries, ExactlyOne (entry.1 ∈ Prebuilt.names) (IsHidden entry.1)
        (r.unexpected.count entry.1 = 1)) ∧
      (∀ name ∈ r.unexpected, (∃ u, (name, u) ∈ entries) ∧ name ∉ Prebuilt.names ∧
        ¬IsHidden name) ∧
      ∀ t' dir' e' minimum' entries' r', t'.find dir' = .ok (.directory entries') →
        check t' dir' (.ok e') minimum' = .ok r' →
        (∀ name, name ∈ entries'.map Prod.fst ↔ name ∈ entries.map Prod.fst) →
        r'.unexpected = r.unexpected := by
  refine ⟨exists_check_iff, fun r hr => ?_⟩
  have hn := nodup_names_of_find hd
  rw [unexpected_of_check hd hr]
  refine ⟨pairwise_lt_unexpectedNames hn, fun entry he => ?_, fun name hm => ?_, ?_⟩
  · exact exactlyOne_of_mem hn ((mem_names_iff hd).mpr ⟨entry.2, he⟩)
  · obtain ⟨hm, hx⟩ := mem_unexpectedNames_iff.mp hm
    exact ⟨(mem_names_iff hd).mp hm, hx⟩
  · intro t' dir' e' minimum' entries' r' hd' hr' hm
    rw [unexpected_of_check hd' hr']
    refine unexpectedNames_congr hn (nodup_names_of_find hd') fun name => ?_
    rw [FileTree.names_of_find hd', FileTree.names_of_find hd, List.mem_eraseDups,
      List.mem_eraseDups, hm]

/-- A release with names that only look like those of its binaries, a directory in the place of one
    of them, and a hidden file. -/
def cluttered : List (String × FileNode) := [
  ("ai-gateway-linux.bak", .file (.ofString "x") true), (".keep", .file (.ofString "") false),
  ("ai-gateway-macos", .empty), ("AI-gateway-linux", .file (.ofString "x") true)]

theorem check_unexpected_cluttered : ∃ r,
    check (release cluttered) releaseDir (.ok otherHost) Selection.defaultMinimum = .ok r ∧
    r.unexpected.count "ai-gateway-linux.bak" = 1 ∧ r.unexpected.count "AI-gateway-linux" = 1 ∧
    r.unexpected.count ".keep" ≠ 1 ∧ r.unexpected.count "ai-gateway-macos" ≠ 1 := by
  have hd : (release cluttered).find releaseDir = .ok (.directory cluttered) := rfl
  have hs : Selection.select Selection.defaultMinimum otherHost =
      .ok (Selection.unsupportedSystem otherHost) := by decide
  have hn : ∀ b ∈ Prebuilt.all,
      (release cluttered).refuses (releaseDir.child b.name) = false := by decide
  have hr := check_eq_ok_iff.mpr
    ⟨rfl, .inr ⟨FileTree.isDirectory_of_find hd, hn, otherHost, _, rfl, hs, rfl⟩⟩
  obtain ⟨-, hu⟩ := check_unexpected hd otherHost Selection.defaultMinimum
  obtain ⟨-, hc, -, -⟩ := hu _ hr
  simp only [cluttered, List.forall_mem_cons] at hc
  obtain ⟨hb, hk, hm, ha, -⟩ := hc
  exact ⟨_, hr, hb.third_iff.mpr (by decide), ha.third_iff.mpr (by decide),
    mt hk.third_iff.mp (by decide), mt hm.third_iff.mp (by decide)⟩

end Release

end GatewayLauncher

import GatewayLauncher.FileTree

namespace GatewayLauncher

theorem Content.toBytes_trimmed (bytes : ByteArray) : (trimmed { bytes }).toBytes = bytes := by
  have he : (⟨Array.replicate 0 0⟩ : ByteArray) = .empty := rfl
  rw [toBytes, trimmed, Nat.zero_min, he, ByteArray.append_empty]

theorem Content.toBytes_trimmed_ofString (s : String) :
    (Content.ofString s).trimmed.toBytes = s.toUTF8 := toBytes_trimmed s.toUTF8

theorem Content.size_toBytes (c : Content) : c.toBytes.size = c.size := by
  have hz : (⟨Array.replicate c.padding 0⟩ : ByteArray).size = c.padding := Array.size_replicate
  rw [toBytes, ByteArray.size_append, hz, size]

theorem toList_loop_eq (bytes : ByteArray) (i : Nat) (done : List UInt8) :
    ByteArray.toList.loop bytes i done = done.reverse ++ bytes.data.toList.drop i := by
  induction i, done using ByteArray.toList.loop.induct bytes with
  | case1 i done hi ih =>
    have hl : i < bytes.data.toList.length := hi
    have hg : bytes.get! i = bytes.data.toList[i] := by
      rw [ByteArray.get!, getElem!_pos bytes.data i hi, Array.getElem_toList]
    rw [ByteArray.toList.loop, if_pos hi, ih, List.drop_eq_getElem_cons hl, hg,
      List.reverse_cons, List.append_assoc]
    rfl
  | case2 i done hi =>
    have hl : bytes.data.toList.length ≤ i := Nat.le_of_not_lt hi
    rw [ByteArray.toList.loop, if_neg hi, List.drop_eq_nil_of_le hl, List.append_nil]

theorem Content.firstBytes_eq_take (c : Content) (n : Nat) :
    c.firstBytes n = c.toBytes.data.toList.take n := by
  have hb : c.bytes.toList = c.bytes.data.toList := toList_loop_eq c.bytes 0 []
  have hz : (⟨Array.replicate c.padding 0⟩ : ByteArray).data.toList = List.replicate c.padding 0 :=
    Array.toList_replicate
  have hm : min (n - c.bytes.data.toList.length) (min n c.padding) =
      min (n - c.bytes.data.toList.length) c.padding := by omega
  rw [firstBytes, toBytes, ByteArray.toList_data_append, hb, hz, List.take_append,
    List.take_append, List.take_replicate, List.take_replicate, hm]

namespace Path

/-- A name that is one step of its own. -/
def IsStep (name : String) : Prop := ofString name = ⟨"", [name]⟩ ∧ name ≠ ".."

instance : DecidablePred IsStep := fun name =>
  inferInstanceAs (Decidable (ofString name = ⟨"", [name]⟩ ∧ name ≠ ".."))

variable {p : Path} {name : String}

theorem child_of_isStep (h : IsStep name) (p : Path) :
    p.child name = { p with parts := p.parts ++ [name] } := by
  simp [child, h.1, join]

theorem hasNul_of_child (h : IsStep name) (hp : p.hasNul = true) :
    (p.child name).hasNul = true := by
  rw [child_of_isStep h]
  simp_all [hasNul]

theorem isOverlong_of_child (h : IsStep name) (hp : p.isOverlong = true) :
    (p.child name).isOverlong = true := by
  rw [child_of_isStep h]
  simp only [isOverlong, decide_eq_true_eq] at hp ⊢
  refine Nat.lt_of_lt_of_le hp ?_
  by_cases hs : p.parts = []
  · by_cases ha : p.anchor = ""
    · have hd : p.toString.utf8ByteSize = 1 := by
        rw [toString, if_pos ⟨ha, hs⟩]
        rfl
      rw [hd, lengthLimit] at hp
      omega
    · simp [toString, hs, ha]
  · simp only [toString, hs, and_false, if_false, List.append_eq_nil_iff, List.cons_ne_self,
      String.utf8ByteSize_append, String.intercalate_append_of_ne_nil hs (List.cons_ne_nil _ _)]
    omega

/-- A path that goes down from the working directory, step by step. -/
structure IsDirect (p : Path) : Prop where
  anchor : p.anchor = ""
  parts : ".." ∉ p.parts

/-- Two paths that part at their first steps. -/
def Apart (p q : Path) : Prop :=
  ∃ step steps other others, p.parts = step :: steps ∧ q.parts = other :: others ∧ step ≠ other

theorem Apart.symm {q : Path} (h : p.Apart q) : q.Apart p := by
  obtain ⟨step, steps, other, others, hs, ho, hne⟩ := h
  exact ⟨other, others, step, steps, ho, hs, hne.symm⟩

theorem directSteps_of_isDirect (h : p.IsDirect) : p.directSteps = p.parts := by
  have hf (done steps : List String) (hs : ".." ∉ steps) :
      steps.foldl (fun steps s => if s = ".." then steps.dropLast else steps ++ [s]) done =
        done ++ steps := by
    induction steps generalizing done with
    | nil => simp
    | cons step steps ih =>
      obtain ⟨hn, hs⟩ : step ≠ ".." ∧ ".." ∉ steps := by simpa [eq_comm] using hs
      simp [hn, ih (done ++ [step]) hs]
  exact hf [] p.parts h.parts

end Path

namespace FileNode

variable {t u top : FileNode} {name : String}

theorem entries_of_walk_append {above : List FileNode} {here : FileNode} {steps : List String}
    (hn : name ≠ "..") (h : walk top above here (steps ++ [name]) = .ok u) :
    ∃ entries, walk top above here steps = .ok (.directory entries) ∧ entries.lookup name = some u := by
  induction steps generalizing above here with
  | nil =>
    cases here with
    | file content executable => cases h
    | directory entries =>
      simp only [List.nil_append, walk, hn, if_false] at h
      split at h
      · cases h
      · cases hl : entries.lookup name with
        | none => simp [hl] at h
        | some next =>
          simp only [hl, Except.ok.injEq] at h
          exact ⟨entries, rfl, by rw [← h, hl]⟩
  | cons step steps ih =>
    cases here with
    | file content executable => cases h
    | directory entries =>
      by_cases hd : step = ".."
      · cases above with
        | nil =>
          simp only [List.cons_append, walk, hd, if_true] at h ⊢
          exact ih h
        | cons parent above =>
          simp only [List.cons_append, walk, hd, if_true] at h ⊢
          exact ih h
      · by_cases ho : Path.nameLimit < step.utf8ByteSize
        · simp [walk, hd, ho] at h
        · cases hl : entries.lookup step with
          | none => simp [walk, hd, ho, hl] at h
          | some next =>
            simp only [List.cons_append, walk, hd, ho, hl, if_false] at h ⊢
            exact ih h

theorem setEntry_setEntry (name : String) (a b : FileNode) (es : List (String × FileNode)) :
    setEntry name a (setEntry name b es) = setEntry name a es := by
  induction es with
  | nil => simp [setEntry]
  | cons e es ih =>
    by_cases h : e.1 = name <;> simp [setEntry, h, ih]

/-- Entries that are there keep their places, so that changes to two of them can be swapped. -/
theorem setEntry_comm {m n : String} (hmn : m ≠ n) (a b : FileNode)
    {es : List (String × FileNode)} (hm : (es.lookup m).isSome = true)
    (hn : (es.lookup n).isSome = true) :
    setEntry m a (setEntry n b es) = setEntry n b (setEntry m a es) := by
  induction es with
  | nil => cases hm
  | cons e es ih =>
    obtain ⟨k, u⟩ := e
    by_cases hkm : k = m
    · have hkn : k ≠ n := hkm ▸ hmn
      simp [setEntry, hkm, hmn]
    · by_cases hkn : k = n
      · simp [setEntry, hkn, hmn.symm]
      · have hm' : (es.lookup m).isSome = true := by
          simpa [List.lookup_cons, beq_eq_false_iff_ne.mpr (Ne.symm hkm)] using hm
        have hn' : (es.lookup n).isSome = true := by
          simpa [List.lookup_cons, beq_eq_false_iff_ne.mpr (Ne.symm hkn)] using hn
        simp [setEntry, hkm, hkn, ih hm' hn']

theorem walk_congr {steps : List String} (h : ".." ∉ steps) (above above' : List FileNode)
    (here : FileNode) : walk top above here steps = walk top above' here steps := by
  induction steps generalizing above above' here with
  | nil => rfl
  | cons step steps ih =>
    obtain ⟨hs, h⟩ : step ≠ ".." ∧ ".." ∉ steps := by simpa [eq_comm] using h
    cases here with
    | file content executable => rfl
    | directory entries =>
      simp only [walk, hs, if_false]
      split
      · rfl
      · split
        · rfl
        · exact ih h _ _ _

theorem walk_put {new : FileNode} {steps : List String} (h : ".." ∉ steps) {above : List FileNode}
    (ht : walk top above t steps = .ok u) : walk top above (put new steps t) steps = .ok new := by
  induction steps generalizing above t with
  | nil => rfl
  | cons step steps ih =>
    obtain ⟨hs, h⟩ : step ≠ ".." ∧ ".." ∉ steps := by simpa [eq_comm] using h
    cases t with
    | file content executable => cases ht
    | directory entries =>
      by_cases ho : Path.nameLimit < step.utf8ByteSize
      · simp [walk, hs, ho] at ht
      · cases hl : entries.lookup step with
        | none => simp [walk, hs, ho, hl] at ht
        | some next =>
          simp only [walk, hs, ho, hl, if_false] at ht
          simp only [put, entriesOf, hl, Option.getD_some, walk, hs, ho, if_false,
            lookup_setEntry_self]
          rw [walk_congr h _ (.directory entries :: above)]
          exact ih h ht

theorem walk_put_of_ne {new : FileNode} {step other : String} (hne : other ≠ step)
    {steps others : List String} (h : ".." ∉ other :: others) {above : List FileNode}
    {entries : List (String × FileNode)} :
    walk top above (put new (step :: steps) (.directory entries)) (other :: others) =
      walk top above (.directory entries) (other :: others) := by
  obtain ⟨hs, h⟩ : other ≠ ".." ∧ ".." ∉ others := by simpa [eq_comm] using h
  simp only [put, entriesOf, walk, hs, if_false, lookup_setEntry_of_ne _ hne]
  split
  · rfl
  · split
    · rfl
    · exact walk_congr h _ _ _

theorem put_put (a b : FileNode) (steps : List String) (t : FileNode) :
    put a steps (put b steps t) = put a steps t := by
  induction steps generalizing t with
  | nil => rfl
  | cons step steps ih =>
    simp [put, entriesOf, lookup_setEntry_self, setEntry_setEntry, ih]

theorem put_comm {step other : String} (hne : step ≠ other) (a b : FileNode)
    (steps others : List String) {entries : List (String × FileNode)}
    (hs : (entries.lookup step).isSome = true) (ho : (entries.lookup other).isSome = true) :
    put a (step :: steps) (put b (other :: others) (.directory entries)) =
      put b (other :: others) (put a (step :: steps) (.directory entries)) := by
  simp only [put, entriesOf, lookup_setEntry_of_ne _ hne, lookup_setEntry_of_ne _ hne.symm]
  rw [setEntry_comm hne _ _ hs ho]

end FileNode

namespace FileTree

variable {t : FileTree} {u : FileNode} {p : Path} {content : Content} {executable : Bool} {name : String}

theorem isFile_of_find (h : t.find p = .ok (.file content executable)) : t.isFile p = true := by
  simp [isFile, h]

theorem askable_of_find (h : t.find p = .ok u) : t.askable p = .ok () := by
  simp [askable, refuses, h]

theorem openFile_of_find (h : t.find p = .ok (.file content executable)) :
    t.openFile p = .ok content := by
  simp [openFile, h]

theorem isExecutable_iff :
    t.isExecutable p = true ↔ ∃ content, t.find p = .ok (.file content true) := by
  rw [isExecutable]
  split
  · rename_i content h
    simp [h]
  · rename_i h
    simpa using h

theorem isFile_iff :
    t.isFile p = true ↔ ∃ content executable, t.find p = .ok (.file content executable) := by
  rw [isFile]
  split
  · rename_i content executable h
    simp [h]
  · rename_i h
    simpa using h

theorem isFile_of_isExecutable (h : t.isExecutable p = true) : t.isFile p = true := by
  obtain ⟨content, hf⟩ := isExecutable_iff.mp h
  exact isFile_of_find hf

theorem find_of_find_child (hs : Path.IsStep name) (h : t.find (p.child name) = .ok u) :
    ∃ entries, t.find p = .ok (.directory entries) ∧ entries.lookup name = some u := by
  have hn : p.hasNul = false := by
    rw [← Bool.not_eq_true]
    intro hp
    simp [find, Path.hasNul_of_child hs hp] at h
  have ho : p.isOverlong = false := by
    rw [← Bool.not_eq_true]
    intro hp
    rw [find, Path.isOverlong_of_child hs hp] at h
    split at h <;> cases h
  rw [find] at h
  split at h
  · cases h
  · split at h
    · cases h
    · rw [Path.child_of_isStep hs] at h
      rw [find, hn, ho]
      simp only [Bool.false_eq_true, if_false]
      split at h <;> rename_i ha
      · rw [if_pos ha]
        exact FileNode.entries_of_walk_append hs.2 h
      · rw [if_neg ha]
        exact FileNode.entries_of_walk_append hs.2 h

theorem isDirectory_of_find_child (hs : Path.IsStep name) (h : t.find (p.child name) = .ok u) :
    t.isDirectory p = true := by
  obtain ⟨entries, hp, -⟩ := find_of_find_child hs h
  simp [isDirectory, hp]

variable {q : Path} {c d : Content}

theorem find_eq_of_walk_eq {t' : FileTree} (hp : p.IsDirect)
    (h : FileNode.walk .empty [] t'.working p.parts = FileNode.walk .empty [] t.working p.parts) :
    t'.find p = t.find p := by
  simp only [find, hp.anchor, if_true, h]

theorem find_eq_ok_iff (hp : p.IsDirect) : t.find p = .ok u ↔
    p.hasNul = false ∧ p.isOverlong = false ∧
      FileNode.walk .empty [] t.working p.parts = .ok u := by
  cases hn : p.hasNul <;> cases ho : p.isOverlong <;> simp [find, hp.anchor, hn, ho]

theorem isExecutable_of_find (h : t.find p = .ok (.file content executable)) :
    t.isExecutable p = executable := by
  cases executable <;> simp [isExecutable, h]

theorem writeFile_eq (hp : p.IsDirect) (h : t.find p = .ok (.file content executable))
    (c : Content) :
    t.writeFile p c = { t with working := .put (.file c executable) p.parts t.working } := by
  rw [writeFile, putFile, isExecutable_of_find h, Path.directSteps_of_isDirect hp, change,
    if_pos hp.anchor]

theorem find_writeFile (hp : p.IsDirect) (h : t.find p = .ok (.file content executable))
    (c : Content) : (t.writeFile p c).find p = .ok (.file c executable) := by
  obtain ⟨hn, ho, hw⟩ := (find_eq_ok_iff hp).mp h
  rw [writeFile_eq hp h]
  exact (find_eq_ok_iff hp).mpr ⟨hn, ho, FileNode.walk_put hp.parts hw⟩

theorem exists_entries_of_find (hp : p.IsDirect) {step : String} {steps : List String}
    (hs : p.parts = step :: steps) (h : t.find p = .ok u) :
    ∃ entries, t.working = .directory entries ∧ (entries.lookup step).isSome = true := by
  obtain ⟨-, -, hw⟩ := (find_eq_ok_iff hp).mp h
  have hn : step ≠ ".." := fun h => hp.parts (by simp [hs, h])
  rw [hs] at hw
  cases hd : t.working with
  | file content executable =>
    rw [hd] at hw
    cases hw
  | directory entries =>
    refine ⟨entries, rfl, ?_⟩
    simp only [hd, FileNode.walk, hn, if_false] at hw
    split at hw
    · cases hw
    · cases hl : entries.lookup step with
      | none => simp [hl] at hw
      | some next => rfl

theorem find_writeFile_of_apart (hp : p.IsDirect) (hq : q.IsDirect) (ha : p.Apart q)
    (h : t.find p = .ok (.file content executable)) (c : Content) :
    (t.writeFile p c).find q = t.find q := by
  obtain ⟨step, steps, other, others, hs, ho, hne⟩ := ha
  obtain ⟨entries, he, -⟩ := exists_entries_of_find hp hs h
  have hd : ".." ∉ other :: others := ho ▸ hq.parts
  refine find_eq_of_walk_eq hq ?_
  rw [writeFile_eq hp h, hs, ho, he]
  exact FileNode.walk_put_of_ne hne.symm hd

theorem writeFile_writeFile (hp : p.IsDirect) (h : t.find p = .ok (.file content executable))
    (c d : Content) : (t.writeFile p c).writeFile p d = t.writeFile p d := by
  rw [writeFile_eq hp (find_writeFile hp h c), writeFile_eq hp h, writeFile_eq hp h,
    FileNode.put_put]

theorem writeFile_comm (hp : p.IsDirect) (hq : q.IsDirect) (ha : p.Apart q) {other : Content}
    {executable' : Bool} (h : t.find p = .ok (.file content executable))
    (h' : t.find q = .ok (.file other executable')) (c d : Content) :
    (t.writeFile p c).writeFile q d = (t.writeFile q d).writeFile p c := by
  have hq' := (find_writeFile_of_apart hp hq ha h c).trans h'
  have hp' := (find_writeFile_of_apart hq hp ha.symm h' d).trans h
  rw [writeFile_eq hq hq', writeFile_eq hp hp', writeFile_eq hp h, writeFile_eq hq h']
  obtain ⟨step, steps, other, others, hs, ho, hne⟩ := ha
  obtain ⟨entries, he, hl⟩ := exists_entries_of_find hp hs h
  obtain ⟨entries', he', hl'⟩ := exists_entries_of_find hq ho h'
  obtain rfl := FileNode.directory.inj (he.symm.trans he')
  simp only [hs, ho, he, FileNode.put_comm hne.symm _ _ _ _ hl' hl]

/-- Of two writes to each of two files the second one counts. -/
theorem writeFile_pair (hp : p.IsDirect) (hq : q.IsDirect) (ha : p.Apart q) {other : Content}
    {executable' : Bool} (h : t.find p = .ok (.file content executable))
    (h' : t.find q = .ok (.file other executable')) (a b c d : Content) :
    (((t.writeFile p a).writeFile q b).writeFile p c).writeFile q d =
      (t.writeFile p c).writeFile q d := by
  have hpa := find_writeFile hp h a
  have hqa := (find_writeFile_of_apart hp hq ha h a).trans h'
  have hqc := (find_writeFile_of_apart hp hq ha h c).trans h'
  calc (((t.writeFile p a).writeFile q b).writeFile p c).writeFile q d
    _ = (((t.writeFile p a).writeFile p c).writeFile q b).writeFile q d := by
        rw [writeFile_comm hp hq ha hpa hqa c b]
    _ = ((t.writeFile p c).writeFile q b).writeFile q d := by rw [writeFile_writeFile hp h]
    _ = (t.writeFile p c).writeFile q d := writeFile_writeFile hq hqc b d

end FileTree

end GatewayLauncher

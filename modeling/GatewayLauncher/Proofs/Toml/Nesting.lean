import GatewayLauncher.Proofs.Toml.Reader

namespace GatewayLauncher.Toml

variable {name rest : List Char} {names : List (List Char)}

/-- The value under a path: a table for every name on the way. -/
def under (path : TablePath) (v : Value) : Value :=
  path.foldr (fun name sub => .table [(name, sub)]) v

def nest (path : TablePath) (es : Entries) : Entries :=
  path.foldr (fun name sub => [(name, .table sub)]) es

theorem table_nest (path : TablePath) (es : Entries) :
    .table (nest path es) = under path (.table es) := by
  induction path with
  | nil => rfl
  | cons name path ih => exact congrArg (fun v => Value.table [(name, v)]) ih

/-- From an empty table on, all tables on a path are made. -/
theorem modify?_nil (f : Entries → Option Entries) (path : TablePath) :
    Entries.modify? f path [] = (f []).map (nest path) := by
  induction path with
  | nil => exact Option.map_id'.symm
  | cons name path ih =>
    have hg : Entries.get? [] name = none := rfl
    rw [Entries.modify?, hg]
    simp only [ih, Option.map_map]
    rfl

theorem exists_assign_empty (k : Key) (v : Value) :
    ∃ ns, Namespace.assign {} [] k v = some ns ∧ .table ns.entries = under k.path v := by
  have hd : (Namespace.between [] k).any (Namespace.isDeclared {}) = false := by
    simp [Namespace.isDeclared]
  have hc : Namespace.isClosed {} ([] ++ k.parents) = false := rfl
  have hm : Entries.modify? (Namespace.addEntry k.name v) ([] ++ k.parents) [] =
      some (nest k.parents [(k.name, v)]) := by
    rw [modify?_nil]
    rfl
  refine ⟨_, by rw [Namespace.assign, hd, hc, hm]; rfl, ?_⟩
  change Value.table (nest k.parents [(k.name, v)]) = _
  rw [table_nest, Key.path, under, under, List.foldr_append]
  rfl

def IsBare (name : List Char) : Prop := name ≠ [] ∧ ∀ c ∈ name, isBareKeyChar c = true

def pointed (names : List (List Char)) : List Char := names.flatMap ('.' :: ·)

theorem length_le_pointed (names : List (List Char)) : names.length ≤ (pointed names).length := by
  induction names with
  | nil => exact Nat.le_refl 0
  | cons name names ih =>
    simp only [pointed, List.flatMap_cons, List.length_append, List.length_cons] at ih ⊢
    omega

theorem skipSpaces_of_bare (h : IsBare name) (rest : List Char) :
    skipSpaces (name ++ rest) = name ++ rest := by
  obtain ⟨c, name, rfl⟩ := List.exists_cons_of_ne_nil h.1
  have hc : isSpace c = false := by
    have hb := h.2 c List.mem_cons_self
    rw [← Bool.not_eq_true, isSpace, Bool.or_eq_true, beq_iff_eq, beq_iff_eq]
    rintro (rfl | rfl)
    · cases hb
    · cases hb
  exact List.dropWhile_cons_of_neg (by simp [hc])

theorem keyName?_of_bare (h : IsBare name) {c : Char} (hc : isBareKeyChar c = false) :
    keyName? (name ++ c :: rest) = some (String.ofList name, c :: rest) := by
  have ht : (name ++ c :: rest).takeWhile isBareKeyChar = name := by
    rw [List.takeWhile_append_of_pos h.2, List.takeWhile_cons_of_neg (by simp [hc]),
      List.append_nil]
  have hd : (name ++ c :: rest).dropWhile isBareKeyChar = c :: rest := by
    rw [List.dropWhile_append_of_pos h.2, List.dropWhile_cons_of_neg (by simp [hc])]
  simp [keyName?, ht, hd, h.1]

theorem exists_cons_of_pointed (names : List (List Char)) (rest : List Char) :
    ∃ c s, pointed names ++ '=' :: rest = c :: s ∧ isBareKeyChar c = false ∧ isSpace c = false := by
  cases names with
  | nil => exact ⟨'=', rest, rfl, rfl, rfl⟩
  | cons name names => exact ⟨'.', _, rfl, rfl, rfl⟩

theorem skipSpaces_pointed (names : List (List Char)) (rest : List Char) :
    skipSpaces (pointed names ++ '=' :: rest) = pointed names ++ '=' :: rest := by
  obtain ⟨c, s, hs, -, hc⟩ := exists_cons_of_pointed names rest
  rw [hs]
  exact List.dropWhile_cons_of_neg (by simp [hc])

theorem keyName?_pointed (h : IsBare name) (names : List (List Char)) (rest : List Char) :
    keyName? (name ++ (pointed names ++ '=' :: rest)) =
      some (String.ofList name, pointed names ++ '=' :: rest) := by
  obtain ⟨c, s, hs, hc, -⟩ := exists_cons_of_pointed names rest
  rw [hs]
  exact keyName?_of_bare h hc

theorem moreNames?_pointed (h : ∀ name ∈ names, IsBare name) {fuel : Nat}
    (hf : names.length ≤ fuel) (parents : List String) (last : String) (rest : List Char) :
    ∃ k, moreNames? fuel parents last (pointed names ++ '=' :: rest) = some (k, '=' :: rest) ∧
      k.path = parents ++ last :: names.map String.ofList := by
  induction names generalizing fuel parents last with
  | nil => exact ⟨⟨parents, last⟩, by cases fuel <;> rfl, rfl⟩
  | cons name names ih =>
    obtain ⟨hn, h⟩ := List.forall_mem_cons.mp h
    cases fuel with
    | zero => cases hf
    | succ fuel =>
      obtain ⟨k, hk, hp⟩ := ih h (Nat.le_of_succ_le_succ hf) (parents ++ [last])
        (String.ofList name)
      have hs : pointed (name :: names) ++ '=' :: rest =
          '.' :: (name ++ (pointed names ++ '=' :: rest)) := by
        simp [pointed]
      refine ⟨k, ?_, by rw [hp, List.append_assoc]; rfl⟩
      rw [hs, moreNames?, skipSpaces_of_bare hn, keyName?_pointed hn]
      simp only [Option.bind_eq_bind, Option.bind_some, skipSpaces_pointed, hk]

theorem keyOfPair_pointed (hn : IsBare name) (h : ∀ name ∈ names, IsBare name)
    (rest : List Char) :
    ∃ k, keyOfPair (name ++ (pointed names ++ '=' :: rest)) = .ok (k, skipSpaces rest) ∧
      k.path = String.ofList name :: names.map String.ofList := by
  have hf : names.length ≤ (name ++ (pointed names ++ '=' :: rest)).length := by
    have hl := length_le_pointed names
    simp only [List.length_append]
    omega
  obtain ⟨k, hk, hp⟩ := moreNames?_pointed h hf [] (String.ofList name) rest
  refine ⟨k, ?_, hp⟩
  simp only [keyOfPair, key?, keyName?_pointed hn, skipSpaces_pointed, hk, Option.bind_some,
    orMalformed, bind, Except.bind]

theorem pairLine_of_assign {k : Key} {v : Value} {ns : Namespace} {s : List Char}
    (hk : keyOfPair s = .ok (k, rest))
    (hv : value (2 * rest.length + 2) nestingRoom rest = .ok (v, []))
    (ha : Namespace.assign {} [] k v = some ns) :
    pairLine {} s = .ok ({ tables := ns }, []) := by
  simp only [pairLine, hk, hv, ha, orMalformed, bind, Except.bind, pure, Except.pure]

/-- A value that lies deeper than values are followed is not written. -/
theorem writeWithin_under {depth : Nat} {path : TablePath} (h : depth ≤ path.length) (v : Value) :
    (under path v).writeWithin depth = .error .tooDeep := by
  induction path generalizing depth with
  | nil =>
    obtain rfl := Nat.le_zero.mp h
    rw [Value.writeWithin]
  | cons name path ih =>
    cases depth with
    | zero => rw [Value.writeWithin]
    | succ depth =>
      have hw := ih (Nat.le_of_succ_le_succ h)
      rw [under, List.foldr_cons, ← under, Value.writeWithin, writeEntries, hw]
      rfl

end GatewayLauncher.Toml

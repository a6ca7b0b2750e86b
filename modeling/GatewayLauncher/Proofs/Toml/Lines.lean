import GatewayLauncher.Proofs.Toml.Grammar

namespace GatewayLauncher.Toml

variable {p q r : Progress} {s t u : List Char} {k : Key} {es : Entries}

/-- A pair starts with a name, so that its line is neither blank nor a comment nor a header. -/
theorem head_of_keyOfPair (h : keyOfPair s = .ok (k, t)) :
    ∃ c rest, s = c :: rest ∧ c ≠ '\n' ∧ c ≠ '#' ∧ c ≠ '[' := by
  have hn : keyName? s ≠ none := by
    intro hn
    obtain ⟨rest, hk, -⟩ := keyOfPair_eq_ok_iff.mp h
    simp [key?, hn] at hk
  cases s with
  | nil => exact (hn rfl).elim
  | cons c s =>
    refine ⟨c, s, rfl, ?_, ?_, ?_⟩
    all_goals
      rintro rfl
      exact hn rfl

/-- What one statement does. -/
inductive States (p : Progress) : List Char → Progress → List Char → Prop
  | nothing {s : List Char} (hs : s = [] ∨ (∃ rest, s = '\n' :: rest) ∨ ∃ rest, s = '#' :: rest) :
      States p s p s
  | item {s t : List Char} {k : Key} {tables : Namespace}
      (hk : key? (skipSpaces s) = some (k, ']' :: ']' :: t))
      (hd : p.tables.settle.declareItem k = some tables) :
      States p ('[' :: '[' :: s) { tables, header := k.path } t
  | table {s t : List Char} {k : Key} {tables : Namespace} (hn : ∀ rest, s = '[' :: rest → False)
      (hk : key? (skipSpaces s) = some (k, ']' :: t))
      (hd : p.tables.settle.declareTable k.path = some tables) :
      States p ('[' :: s) { tables, header := k.path } t
  | pair {s u t : List Char} {k : Key} {v : Value} {tables : Namespace}
      (hk : keyOfPair s = .ok (k, u)) (hv : Reads .value nestingRoom u v t)
      (ha : p.tables.assign p.header k v = some tables) : States p s { p with tables } t

theorem pairLine_eq_ok_iff : pairLine p s = .ok (q, t) ↔
    ∃ k u v tables, keyOfPair s = .ok (k, u) ∧ Reads .value nestingRoom u v t ∧
      p.tables.assign p.header k v = some tables ∧ q = { p with tables } := by
  simp only [pairLine, bind_eq_ok_iff, orMalformed_eq_ok_iff, Prod.exists]
  constructor
  · rintro ⟨k, u, hk, v, w, hv, tables, ha, h⟩
    obtain ⟨rfl, rfl⟩ := Prod.mk.inj (Except.ok.inj h)
    have hr : Form.read (2 * u.length + 2) nestingRoom u .value = .ok (v, w) := hv
    exact ⟨k, u, v, tables, hk, reads_of_read hr, ha, rfl⟩
  · rintro ⟨k, u, v, tables, hk, hv, ha, rfl⟩
    have hr : Form.read (2 * u.length + 2) nestingRoom u .value = .ok (v, t) :=
      hv.read_eq (by simp only [Form.bound]; omega)
    exact ⟨k, u, hk, v, t, hr, tables, ha, rfl⟩

theorem headerLine_item : headerLine p ('[' :: s) = .ok (q, t) ↔
    ∃ k tables, key? (skipSpaces s) = some (k, ']' :: ']' :: t) ∧
      p.tables.settle.declareItem k = some tables ∧ q = { tables, header := k.path } := by
  simp only [headerLine, bind_eq_ok_iff, orMalformed_eq_ok_iff, Prod.exists]
  constructor
  · rintro ⟨k, u, hk, tables, hd, h⟩
    split at h
    · obtain ⟨rfl, rfl⟩ := Prod.mk.inj (Except.ok.inj h)
      exact ⟨k, tables, hk, hd, rfl⟩
    · cases h
  · rintro ⟨k, tables, hk, hd, rfl⟩
    exact ⟨k, _, hk, tables, hd, rfl⟩

theorem headerLine_table (hn : ∀ rest, s = '[' :: rest → False) : headerLine p s = .ok (q, t) ↔
    ∃ k tables, key? (skipSpaces s) = some (k, ']' :: t) ∧
      p.tables.settle.declareTable k.path = some tables ∧ q = { tables, header := k.path } := by
  rw [headerLine.eq_2 p s hn]
  simp only [bind_eq_ok_iff, orMalformed_eq_ok_iff, Prod.exists]
  constructor
  · rintro ⟨k, u, hk, tables, hd, h⟩
    split at h
    · obtain ⟨rfl, rfl⟩ := Prod.mk.inj (Except.ok.inj h)
      exact ⟨k, tables, hk, hd, rfl⟩
    · cases h
  · rintro ⟨k, tables, hk, hd, rfl⟩
    exact ⟨k, _, hk, tables, hd, rfl⟩

theorem states_of_statement (h : statement p s = .ok (q, t)) : States p s q t := by
  unfold statement at h
  split at h
  · obtain ⟨rfl, rfl⟩ := Prod.mk.inj (Except.ok.inj h)
    exact .nothing (.inl rfl)
  rename_i c s
  split at h
  · rename_i hc
    obtain ⟨rfl, rfl⟩ := Prod.mk.inj (Except.ok.inj h)
    obtain rfl | rfl := hc
    · exact .nothing (.inr (.inl ⟨s, rfl⟩))
    · exact .nothing (.inr (.inr ⟨s, rfl⟩))
  split at h
  · rename_i hc
    subst hc
    by_cases hn : ∃ rest, s = '[' :: rest
    · obtain ⟨s, rfl⟩ := hn
      obtain ⟨k, tables, hk, hd, rfl⟩ := headerLine_item.mp h
      exact .item hk hd
    · have hn' : ∀ rest, s = '[' :: rest → False := fun rest hs => hn ⟨rest, hs⟩
      obtain ⟨k, tables, hk, hd, rfl⟩ := (headerLine_table hn').mp h
      exact .table hn' hk hd
  · obtain ⟨k, u, v, tables, hk, hv, ha, rfl⟩ := pairLine_eq_ok_iff.mp h
    exact .pair hk hv ha

theorem statement_eq_ok_iff : statement p s = .ok (q, t) ↔ States p s q t := by
  refine ⟨states_of_statement, fun h => ?_⟩
  cases h with
  | nothing hs => obtain rfl | ⟨_, rfl⟩ | ⟨_, rfl⟩ := hs <;> rfl
  | item hk hd => exact headerLine_item.mpr ⟨_, _, hk, hd, rfl⟩
  | table hn hk hd => exact (headerLine_table hn).mpr ⟨_, _, hk, hd, rfl⟩
  | pair hk hv ha =>
    obtain ⟨c, rest, rfl, hc, hh, hb⟩ := head_of_keyOfPair hk
    have hp := pairLine_eq_ok_iff.mpr ⟨_, _, _, _, hk, hv, ha, rfl⟩
    rw [statement, if_neg (not_or.mpr ⟨hc, hh⟩), if_neg hb]
    exact hp

theorem States.local (h : States p s q t) : Locally (fun x y => States p x q y) s t := by
  cases h with
  | nothing hs =>
    refine (Locally.refl s).mono ?_
    rintro x _ hx rfl
    obtain ⟨c, e, e', rfl, rfl⟩ := hx.exists_cons
    refine .nothing ?_
    simpa using hs
  | @item s t k _ hk hd =>
    have hl := locally_skipSpaces s
    refine ((Locally.char (by decide) _).trans ((Locally.char (by decide) s).trans (hl.trans
      ((local_key? _ k _ hk).trans ((Locally.char (by decide) _).trans
        (.char (by decide) t)))))).mono ?_
    rintro x y - ⟨_, rfl, _, rfl, _, rfl, _, hk, _, rfl, rfl⟩
    exact .item hk hd
  | @table s t k _ hn hk hd =>
    have hs : Locally (fun x y => (∀ rest, x = '[' :: rest → False) ∧ skipSpaces x = y) s
        (skipSpaces s) :=
      (locally_skipSpaces s).mono fun x y hx he => ⟨hx.not_starts (w := ['[']) (by decide) hn, he⟩
    refine ((Locally.char (by decide) s).trans (hs.trans ((local_key? _ k _ hk).trans
      (.char (by decide) t)))).mono ?_
    rintro x y - ⟨_, rfl, _, ⟨hn, rfl⟩, _, hk, rfl⟩
    exact .table hn hk hd
  | pair hk hv ha =>
    refine ((locally_keyOfPair hk).trans hv.local).mono ?_
    rintro x y - ⟨_, hk, hv⟩
    exact .pair hk hv ha

/-- A line with its comment. It ends with the text or in front of a line feed. -/
def ReadsLine (p : Progress) (s : List Char) (q : Progress) (t : List Char) : Prop :=
  ∃ u, statement p (skipSpaces s) = .ok (q, u) ∧ skipComment (skipSpaces u) = .ok t

/-- The lines in front of a place. -/
inductive Leads : Progress → List Char → Progress → List Char → Prop
  | refl (p : Progress) (s : List Char) : Leads p s p s
  | line {p q r : Progress} {s u t : List Char} (hl : ReadsLine p s q ('\n' :: u))
      (h : Leads q u r t) : Leads p s r t

/-- The document that a text gives, read to its end. -/
def Gives (p : Progress) (s : List Char) (es : Entries) : Prop :=
  ∃ q u r, Leads p s q u ∧ ReadsLine q u r [] ∧ r.tables.entries = es

theorem ReadsLine.unique {q' : Progress} {t' : List Char} (h : ReadsLine p s q t)
    (h' : ReadsLine p s q' t') : q = q' ∧ t = t' := by
  obtain ⟨u, hs, hc⟩ := h
  obtain ⟨u', hs', hc'⟩ := h'
  obtain ⟨rfl, rfl⟩ := Prod.mk.inj (Except.ok.inj (hs.symm.trans hs'))
  exact ⟨rfl, Except.ok.inj (hc.symm.trans hc')⟩

theorem ReadsLine.local (h : ReadsLine p s q t) : Locally (fun x y => ReadsLine p x q y) s t := by
  obtain ⟨u, hs, hc⟩ := h
  refine ((locally_skipSpaces s).trans ((statement_eq_ok_iff.mp hs).local.trans
    ((locally_skipSpaces u).trans (locally_skipComment hc)))).mono ?_
  rintro x y - ⟨_, rfl, _, hs, _, rfl, hc⟩
  exact ⟨_, statement_eq_ok_iff.mpr hs, hc⟩

theorem Leads.gives_iff (h : Leads p s q t) : Gives p s es ↔ Gives q t es := by
  induction h with
  | refl => rfl
  | line hl h ih =>
    rw [← ih]
    constructor
    · rintro ⟨q', u', r', hq, hr, he⟩
      cases hq with
      | refl => cases (hl.unique hr).2
      | line hl' hq =>
        obtain ⟨rfl, hu⟩ := hl.unique hl'
        obtain rfl := (List.cons.inj hu).2
        exact ⟨q', u', r', hq, hr, he⟩
    · rintro ⟨q', u', r', hq, hr, he⟩
      exact ⟨q', u', r', .line hl hq, hr, he⟩

/-- The lines in front of a place are clean, and they leave the same for whatever stands there. -/
theorem Leads.local (h : Leads p s q t) :
    ∃ front, s = front ++ t ∧ IsClean front ∧ ∀ t', Leads p (front ++ t') q t' := by
  induction h with
  | refl p s => exact ⟨[], rfl, List.forall_mem_nil _, fun t' => .refl p t'⟩
  | @line p q r s u t hl h ih =>
    obtain ⟨line, rfl, hc, hr⟩ := hl.local
    obtain ⟨front, rfl, hf, hs⟩ := ih
    refine ⟨line ++ '\n' :: front, by simp, ?_, fun t' => ?_⟩
    · exact List.forall_mem_append.mpr ⟨hc, List.forall_mem_cons.mpr ⟨by decide, hf⟩⟩
    · rw [List.append_assoc]
      exact .line (hr _ (agree_of_isStop (by decide) _ _)) (hs t')

theorem Gives.isClean (h : Gives p s es) : IsClean s := by
  obtain ⟨q, u, r, hq, hr, -⟩ := h
  obtain ⟨front, rfl, hf, -⟩ := hq.local
  obtain ⟨last, hu, hl, -⟩ := hr.local
  rw [hu, List.append_nil]
  exact List.forall_mem_append.mpr ⟨hf, hl⟩

def afterLines? : Nat → Progress → List Char → Option (Progress × List Char)
  | 0, p, s => some (p, s)
  | n + 1, p, s =>
    match statement p (skipSpaces s) with
    | .ok (q, u) =>
      match skipComment (skipSpaces u) with
      | .ok ('\n' :: t) => afterLines? n q t
      | _ => none
    | .error _ => none

theorem leads_of_afterLines? {n : Nat} (h : afterLines? n p s = some (q, t)) : Leads p s q t := by
  induction n generalizing p s with
  | zero =>
    obtain ⟨rfl, rfl⟩ := Prod.mk.inj (Option.some.inj h)
    exact .refl p s
  | succ n ih =>
    rw [afterLines?] at h
    split at h
    · rename_i u hs
      split at h
      · rename_i hc
        exact .line ⟨u, hs, hc⟩ (ih h)
      · cases h
    · cases h

/-- A bound above the length of the text suffices for its lines. -/
theorem lines_eq_ok_iff {fuel : Nat} (hf : s.length < fuel) :
    lines fuel p s = .ok es ↔ Gives p s es := by
  induction fuel generalizing p s with
  | zero => cases hf
  | succ fuel ih =>
    rw [lines]
    simp only [bind_eq_ok_iff, Prod.exists]
    constructor
    · rintro ⟨q, u, hs, t, hc, h⟩
      have hl : ReadsLine p s q t := ⟨u, hs, hc⟩
      split at h
      · exact ⟨p, s, q, .refl p s, hl, Except.ok.inj h⟩
      · have ht := hl.local.length_le
        rw [List.length_cons] at ht
        exact (Leads.line hl (.refl q _)).gives_iff.mpr ((ih (by omega)).mp h)
      · cases h
    · rintro ⟨q, u, r, hq, hr, he⟩
      cases hq with
      | refl =>
        obtain ⟨u, hs, hc⟩ := hr
        exact ⟨r, u, hs, [], hc, congrArg _ he⟩
      | line hl hq =>
        have ht := hl.local.length_le
        rw [List.length_cons] at ht
        obtain ⟨w, hs, hc⟩ := hl
        exact ⟨_, w, hs, _, hc, (ih (by omega)).mpr ⟨q, u, r, hq, hr, he⟩⟩

end GatewayLauncher.Toml

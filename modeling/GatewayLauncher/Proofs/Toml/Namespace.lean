import GatewayLauncher.Toml.Namespace

namespace GatewayLauncher.Toml

variable {es es' : Entries} {name other : String} {v w : Value}

namespace Entries

theorem get?_cons (n : String) (w : Value) (es : Entries) (name : String) :
    get? ((n, w) :: es) name = if n = name then some w else es.get? name := by
  rw [get?, List.lookup_cons]
  by_cases h : n = name
  · simp [h]
  · simp [h, beq_false_of_ne (Ne.symm h), get?]

@[simp] theorem get?_set_self (es : Entries) (name : String) (v : Value) :
    (es.set name v).get? name = some v := by
  induction es with
  | nil => simp [set, get?_cons]
  | cons e es ih =>
    rw [set]
    split
    · rename_i h
      rw [get?_cons, if_pos h]
    · rename_i h
      rw [get?_cons, if_neg h, ih]

theorem get?_set_of_ne (h : other ≠ name) (es : Entries) (v : Value) :
    (es.set name v).get? other = es.get? other := by
  induction es with
  | nil => rw [set, get?_cons, if_neg h.symm]
  | cons e es ih =>
    rw [set]
    split
    · rename_i hn
      obtain ⟨n, w⟩ := e
      obtain rfl : n = name := hn
      rw [get?_cons, get?_cons, if_neg h.symm, if_neg h.symm]
    · rw [get?_cons, get?_cons, ih]

@[simp] theorem set_set (es : Entries) (name : String) (v w : Value) :
    (es.set name v).set name w = es.set name w := by
  induction es with
  | nil => simp [set]
  | cons e es ih =>
    rw [set, set]
    split
    · rename_i h
      rw [set, if_pos h]
    · rename_i h
      rw [set, if_neg h, ih]

/-- Two entries are given their values in either order, unless both of them are new. -/
theorem set_comm (h : other ≠ name) (hs : (es.get? name).isSome) (v w : Value) :
    (es.set name v).set other w = (es.set other w).set name v := by
  induction es with
  | nil => cases hs
  | cons e es ih =>
    obtain ⟨n, u⟩ := e
    rw [get?_cons] at hs
    by_cases hn : n = name
    · subst hn
      simp [set, h.symm]
    · rw [if_neg hn] at hs
      by_cases ho : n = other
      · subst ho
        simp [set, hn]
      · simp [set, hn, ho, ih hs]

def at? (es : Entries) (path : TablePath) (name : String) : Option Value :=
  match path with
  | [] => es.get? name
  | parent :: path =>
    match es.get? parent with
    | some (.table sub) => at? sub path name
    | _ => none

def replace (es : Entries) (path : TablePath) (name : String) (v : Value) : Entries :=
  match path with
  | [] => es.set name v
  | parent :: path =>
    match es.get? parent with
    | some (.table sub) => es.set parent (.table (replace sub path name v))
    | _ => es

/-- On the way through the tables of a path there is an array. -/
def MeetsArray (es : Entries) (path : TablePath) : Prop :=
  match path with
  | [] => False
  | parent :: path =>
    match es.get? parent with
    | some (.array _) => True
    | some (.table sub) => MeetsArray sub path
    | _ => False

variable {path : TablePath} {x y : String}

theorem at?_cons_eq_some_iff {parent : String} : es.at? (parent :: path) name = some v ↔
    ∃ sub, es.get? parent = some (.table sub) ∧ at? sub path name = some v := by
  rw [at?]
  split
  · rename_i h
    simp [h]
  · rename_i h
    simp only [reduceCtorEq, false_iff, not_exists, not_and]
    exact fun sub hs => (h sub hs).elim

def textAt? (es : Entries) (path : TablePath) (name : String) : Option String :=
  match es.at? path name with
  | some (.text x) => some x
  | _ => none

theorem textAt?_eq_some_iff :
    es.textAt? path name = some x ↔ es.at? path name = some (.text x) := by
  rw [textAt?]
  split
  · rename_i h
    simp [h]
  · rename_i h
    simp only [reduceCtorEq, false_iff]
    exact h x

theorem replace_cons {parent : String} {sub : Entries} (h : es.get? parent = some (.table sub)) :
    es.replace (parent :: path) name v = es.set parent (.table (replace sub path name v)) := by
  rw [replace, h]

theorem not_meetsArray_of_at? (h : es.at? path name = some v) : ¬es.MeetsArray path := by
  induction path generalizing es with
  | nil => exact id
  | cons parent path ih =>
    obtain ⟨sub, hs, h⟩ := at?_cons_eq_some_iff.mp h
    rw [MeetsArray, hs]
    exact ih h

def alter (name : String) (g : Option Value → Option Value) (es : Entries) : Option Entries :=
  (g (es.get? name)).map (es.set name)

theorem alter_eq_some_iff {g : Option Value → Option Value} :
    es.alter name g = some es' ↔ ∃ v, g (es.get? name) = some v ∧ es.set name v = es' :=
  Option.map_eq_some_iff

theorem addEntry_eq_alter (name : String) (v : Value) :
    Namespace.addEntry name v = alter name fun o => if o.isSome then none else some v := by
  funext es
  rw [Namespace.addEntry, alter]
  split <;> rfl

def withItem : Option Value → Option Value
  | none => some (.array [.table []])
  | some (.array items) => some (.array (items ++ [.table []]))
  | some _ => none

theorem addItem_eq_alter (name : String) : Namespace.addItem name = alter name withItem := by
  funext es
  rw [Namespace.addItem, alter]
  cases es.get? name with
  | none => rfl
  | some v => cases v <;> rfl

/-- What becomes of a value when it is entered: a table is changed, or the last item of an array. -/
def entered (f : Entries → Option Entries) : Option Value → Option Value
  | none => (f []).map .table
  | some (.table sub) => (f sub).map .table
  | some (.array items) =>
    match items.getLast? with
    | some (.table sub) => (f sub).map fun sub => .array (items.dropLast ++ [.table sub])
    | _ => none
  | some _ => none

theorem modify?_cons_eq_alter (f : Entries → Option Entries) (path : TablePath) :
    modify? f (name :: path) = alter name (entered (modify? f path)) := by
  funext es
  rw [modify?, alter]
  cases es.get? name with
  | none => simp [entered, Function.comp_def]
  | some v =>
    cases v with
    | table sub => simp [entered, Function.comp_def]
    | array items =>
      simp only [entered]
      cases items.getLast? with
      | none => rfl
      | some u => cases u <;> simp [Function.comp_def]
    | _ => rfl

theorem entered_cases {f : Entries → Option Entries} {o : Option Value}
    (h : entered f o = some v) :
    (∃ items, v = .array items) ∨ ∃ sub, ∀ f, entered f o = (f sub).map .table := by
  cases o with
  | none => exact .inr ⟨[], fun _ => rfl⟩
  | some u =>
    cases u with
    | table sub => exact .inr ⟨sub, fun _ => rfl⟩
    | array items =>
      simp only [entered] at h
      split at h
      · obtain ⟨sub, -, rfl⟩ := Option.map_eq_some_iff.mp h
        exact .inl ⟨_, rfl⟩
      · cases h
    | _ => cases h

/-- A change leaves texts at their places and does not depend on them, and an array stays one. -/
structure Respects (f : Entries → Option Entries) : Prop where
  kept : ∀ {es es' : Entries} {path : TablePath} {name x : String}, f es = some es' →
    es.at? path name = some (.text x) → es'.at? path name = some (.text x)
  replaced : ∀ {es es' : Entries} {path : TablePath} {name x : String} (y : String),
    f es = some es' → es.at? path name = some (.text x) →
    f (es.replace path name (.text y)) = some (es'.replace path name (.text y))
  array : ∀ {es es' : Entries} {path : TablePath}, f es = some es' → es.MeetsArray path →
    es'.MeetsArray path

theorem respects_some : Respects some where
  kept h hx := by
    cases h
    exact hx
  replaced y h hx := by
    cases h
    rfl
  array h ha := by
    cases h
    exact ha

theorem respects_none : Respects fun _ => none := ⟨nofun, nofun, nofun⟩

theorem Respects.bind {f g : Entries → Option Entries} (hf : Respects f) (hg : Respects g) :
    Respects fun es => f es >>= g where
  kept h hx := by
    obtain ⟨mid, hm, h⟩ := Option.bind_eq_some_iff.mp h
    exact hg.kept h (hf.kept hm hx)
  replaced y h hx := by
    obtain ⟨mid, hm, h⟩ := Option.bind_eq_some_iff.mp h
    have hr := hg.replaced y h (hf.kept hm hx)
    exact Option.bind_eq_some_iff.mpr ⟨_, hf.replaced y hm hx, hr⟩
  array h ha := by
    obtain ⟨mid, hm, h⟩ := Option.bind_eq_some_iff.mp h
    exact hg.array h (hf.array hm ha)

section Alter

variable {g : Option Value → Option Value} {f : Entries → Option Entries} {other x : String}

theorem at?_of_alter (ht : ∀ x, g (some (.text x)) = none)
    (hs : ∀ sub, g (some (.table sub)) = (f sub).map .table) (hf : Respects f)
    (h : es.alter name g = some es') (hx : es.at? path other = some (.text x)) :
    es'.at? path other = some (.text x) := by
  obtain ⟨v, hv, rfl⟩ := alter_eq_some_iff.mp h
  cases path with
  | nil =>
    by_cases hn : other = name
    · subst hn
      rw [at?] at hx
      rw [hx, ht] at hv
      cases hv
    · rwa [at?, get?_set_of_ne hn]
  | cons parent path =>
    obtain ⟨sub, hp, hx⟩ := at?_cons_eq_some_iff.mp hx
    by_cases hn : parent = name
    · subst hn
      rw [hp, hs] at hv
      obtain ⟨sub', hf', rfl⟩ := Option.map_eq_some_iff.mp hv
      exact at?_cons_eq_some_iff.mpr ⟨sub', get?_set_self _ _ _, hf.kept hf' hx⟩
    · exact at?_cons_eq_some_iff.mpr ⟨sub, (get?_set_of_ne hn _ _).trans hp, hx⟩

theorem alter_replace (ht : ∀ x, g (some (.text x)) = none)
    (hs : ∀ sub, g (some (.table sub)) = (f sub).map .table) (hf : Respects f) (y : String)
    (h : es.alter name g = some es') (hx : es.at? path other = some (.text x)) :
    (es.replace path other (.text y)).alter name g =
      some (es'.replace path other (.text y)) := by
  obtain ⟨v, hv, rfl⟩ := alter_eq_some_iff.mp h
  cases path with
  | nil =>
    rw [at?] at hx
    by_cases hn : other = name
    · subst hn
      rw [hx, ht] at hv
      cases hv
    · refine alter_eq_some_iff.mpr ⟨v, ?_, ?_⟩
      · rw [replace, get?_set_of_ne (Ne.symm hn), hv]
      · exact set_comm (Ne.symm hn) (by rw [hx]; rfl) _ _
  | cons parent path =>
    obtain ⟨sub, hp, hx⟩ := at?_cons_eq_some_iff.mp hx
    rw [replace_cons hp]
    by_cases hn : parent = name
    · subst hn
      rw [hp, hs] at hv
      obtain ⟨sub', hf', rfl⟩ := Option.map_eq_some_iff.mp hv
      refine alter_eq_some_iff.mpr ⟨.table (sub'.replace path other (.text y)), ?_, ?_⟩
      · rw [get?_set_self, hs, hf.replaced y hf' hx]
        rfl
      · rw [replace_cons (get?_set_self _ _ _), set_set, set_set]
    · refine alter_eq_some_iff.mpr ⟨v, ?_, ?_⟩
      · rw [get?_set_of_ne (Ne.symm hn), hv]
      · rw [replace_cons ((get?_set_of_ne hn _ _).trans hp)]
        exact set_comm (Ne.symm hn) (by rw [hp]; rfl) _ _

theorem meetsArray_of_alter (hs : ∀ sub, g (some (.table sub)) = (f sub).map .table)
    (ha : ∀ items v, g (some (.array items)) = some v → ∃ items', v = .array items')
    (hf : Respects f) (h : es.alter name g = some es') (hm : es.MeetsArray path) :
    es'.MeetsArray path := by
  obtain ⟨v, hv, rfl⟩ := alter_eq_some_iff.mp h
  cases path with
  | nil => exact hm
  | cons parent path =>
    by_cases hn : parent = name
    · subst hn
      rw [MeetsArray] at hm ⊢
      rw [get?_set_self]
      split at hm
      · rename_i items hp
        rw [hp] at hv
        obtain ⟨items', rfl⟩ := ha items v hv
        trivial
      · rename_i sub hp
        rw [hp, hs] at hv
        obtain ⟨sub', hf', rfl⟩ := Option.map_eq_some_iff.mp hv
        exact hf.array hf' hm
      · exact hm.elim
    · rw [MeetsArray] at hm ⊢
      rwa [get?_set_of_ne hn]

/-- A change of one entry that refuses texts, leaves arrays arrays and changes only the inside of a
    table leaves alone what the change of the inside does. -/
theorem respects_alter (ht : ∀ x, g (some (.text x)) = none)
    (hs : ∀ sub, g (some (.table sub)) = (f sub).map .table)
    (ha : ∀ items v, g (some (.array items)) = some v → ∃ items', v = .array items')
    (hf : Respects f) : Respects (alter name g) where
  kept := at?_of_alter ht hs hf
  replaced y := alter_replace ht hs hf y
  array := meetsArray_of_alter hs ha hf

end Alter

theorem respects_addEntry (name : String) (v : Value) : Respects (Namespace.addEntry name v) := by
  rw [addEntry_eq_alter]
  exact respects_alter (fun _ => rfl) (fun _ => rfl) nofun respects_none

theorem respects_addItem (name : String) : Respects (Namespace.addItem name) := by
  rw [addItem_eq_alter]
  exact respects_alter (fun _ => rfl) (fun _ => rfl) (fun _ _ h => ⟨_, (Option.some.inj h).symm⟩)
    respects_none

theorem respects_modify? {f : Entries → Option Entries} (hf : Respects f) (path : TablePath) :
    Respects (modify? f path) := by
  induction path with
  | nil => exact hf
  | cons name path ih =>
    rw [modify?_cons_eq_alter]
    refine respects_alter (fun _ => rfl) (fun _ => rfl) (fun items v h => ?_) ih
    simp only [entered] at h
    split at h
    · obtain ⟨sub, -, rfl⟩ := Option.map_eq_some_iff.mp h
      exact ⟨_, rfl⟩
    · cases h

/-- A new entry is found at its place, unless that lies within an array, and it is given another
    value there as if it had been made with that value. -/
theorem at?_of_modify?_addEntry (h : es.modify? (Namespace.addEntry name v) path = some es')
    (ha : ¬es'.MeetsArray path) :
    es'.at? path name = some v ∧ ∀ w,
      es.modify? (Namespace.addEntry name w) path = some (es'.replace path name w) := by
  induction path generalizing es es' with
  | nil =>
    rw [modify?, addEntry_eq_alter, alter_eq_some_iff] at h
    obtain ⟨u, hu, rfl⟩ := h
    split at hu
    · cases hu
    rename_i hn
    obtain rfl := Option.some.inj hu
    refine ⟨get?_set_self _ _ _, fun w => ?_⟩
    rw [modify?, addEntry_eq_alter, alter_eq_some_iff]
    exact ⟨w, if_neg hn, by rw [replace, set_set]⟩
  | cons parent path ih =>
    rw [modify?_cons_eq_alter, alter_eq_some_iff] at h
    obtain ⟨u, hu, rfl⟩ := h
    rw [MeetsArray, get?_set_self] at ha
    obtain ⟨items, rfl⟩ | ⟨sub, hs⟩ := entered_cases hu
    · exact (ha trivial).elim
    rw [hs] at hu
    obtain ⟨sub', hf, rfl⟩ := Option.map_eq_some_iff.mp hu
    obtain ⟨hv, hr⟩ := ih hf ha
    refine ⟨at?_cons_eq_some_iff.mpr ⟨sub', get?_set_self _ _ _, hv⟩, fun w => ?_⟩
    rw [modify?_cons_eq_alter, alter_eq_some_iff, hs, hr w, replace_cons (get?_set_self _ _ _),
      set_set]
    exact ⟨_, rfl, rfl⟩

end Entries

end GatewayLauncher.Toml

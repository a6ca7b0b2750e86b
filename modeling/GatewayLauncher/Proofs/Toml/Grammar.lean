import GatewayLauncher.Proofs.Toml.Local

namespace GatewayLauncher.Toml

variable {room fuel : Nat} {s t : List Char} {v : Value}

theorem roomWithin_eq_ok_iff {taken left : Nat} :
    roomWithin room taken = .ok left ↔ room = left + taken := by
  unfold roomWithin
  split
  · simp only [reduceCtorEq, false_iff]
    omega
  · rw [Except.ok.injEq]
    omega

theorem bind_eq_ok_iff {ε α β : Type} {r : Except ε α} {f : α → Except ε β} {b : β} :
    r >>= f = .ok b ↔ ∃ a, r = .ok a ∧ f a = .ok b := by
  cases r <;> simp [bind, Except.bind]

theorem orMalformed_eq_ok_iff {α : Type} {o : Option α} {a : α} :
    orMalformed o = .ok a ↔ o = some a := by
  cases o <;> simp [orMalformed]

/-- What is being read: a value, or the rest of an array or of a table on one line, given what has
    been read of it. -/
inductive Form where
  | value
  | items (before : List Value)
  | entries (ns : Namespace)

def Form.read (fuel room : Nat) (s : List Char) : Form → Except ReadError (Value × List Char)
  | .value => Toml.value fuel room s
  | .items before => arrayItems fuel room before s
  | .entries ns => inlineEntries fuel room ns s

/-- A value at the head of a text, and the text behind it. -/
inductive Reads : Form → Nat → List Char → Value → List Char → Prop
  | array {room : Nat} {s u t : List Char} {v : Value} (hs : skipFiller s = .ok u)
      (hi : Reads (.items []) room u v t) : Reads .value (room + 2) ('[' :: s) v t
  | emptyTable {room : Nat} {s t : List Char} (hs : skipSpaces s = '\x7d' :: t) :
      Reads .value (room + 3) ('\x7b' :: s) (.table []) t
  | table {room : Nat} {s t : List Char} {v : Value}
      (hn : ∀ rest, skipSpaces s = '\x7d' :: rest → False)
      (he : Reads (.entries {}) room (skipSpaces s) v t) : Reads .value (room + 3) ('\x7b' :: s) v t
  | scalar {room : Nat} {s t : List Char} {v : Value} (ha : ∀ rest, s = '[' :: rest → False)
      (ht : ∀ rest, s = '\x7b' :: rest → False) (hs : scalar s = .ok (v, t)) :
      Reads .value (room + 1) s v t
  | endOfItems {room : Nat} {before : List Value} {t : List Char} :
      Reads (.items before) room (']' :: t) (.array before.reverse) t
  | lastItem {room : Nat} {before : List Value} {s u t : List Char} {a : Value}
      (hn : ∀ rest, s = ']' :: rest → False) (hv : Reads .value room s a u)
      (hu : skipFiller u = .ok (']' :: t)) :
      Reads (.items before) room s (.array (a :: before).reverse) t
  | item {room : Nat} {before : List Value} {s u w x t : List Char} {a v : Value}
      (hn : ∀ rest, s = ']' :: rest → False) (hv : Reads .value room s a u)
      (hu : skipFiller u = .ok (',' :: w)) (hw : skipFiller w = .ok x)
      (hi : Reads (.items (a :: before)) room x v t) : Reads (.items before) room s v t
  | lastEntry {room : Nat} {ns ns' : Namespace} {s u w t : List Char} {k : Key} {a : Value}
      (hk : keyOfPair s = .ok (k, u)) (hv : Reads .value room u a w)
      (ha : ns.assign [] k a = some ns') (hw : skipSpaces w = '\x7d' :: t) :
      Reads (.entries ns) room s (.table ns'.entries) t
  | entry {room : Nat} {ns ns' : Namespace} {s u w x t : List Char} {k : Key} {a v : Value}
      (hk : keyOfPair s = .ok (k, u)) (hv : Reads .value room u a w)
      (ha : ns.assign [] k a = some ns') (hw : skipSpaces w = ',' :: x)
      (he : Reads (.entries ns') room (skipSpaces x) v t) : Reads (.entries ns) room s v t

/-- The bound carries the induction, as each of the readers calls the others with one less. -/
theorem reads_of_read {f : Form} (h : f.read fuel room s = .ok (v, t)) : Reads f room s v t := by
  induction fuel generalizing f room s v t with
  | zero => cases f <;> cases h
  | succ fuel ih =>
    cases f with
    | value =>
      rw [Form.read] at h
      by_cases ha : ∃ rest, s = '[' :: rest
      · obtain ⟨s, rfl⟩ := ha
        rw [value.eq_2] at h
        obtain ⟨room', hr, hb⟩ := bind_eq_ok_iff.mp h
        obtain ⟨u, hu, hi⟩ := bind_eq_ok_iff.mp hb
        obtain rfl := roomWithin_eq_ok_iff.mp hr
        exact .array hu (ih (f := .items []) hi)
      by_cases ht : ∃ rest, s = '\x7b' :: rest
      · obtain ⟨s, rfl⟩ := ht
        rw [value.eq_3] at h
        obtain ⟨room', hr, h⟩ := bind_eq_ok_iff.mp h
        obtain rfl := roomWithin_eq_ok_iff.mp hr
        split at h
        · rename_i hs
          obtain ⟨rfl, rfl⟩ := Prod.mk.inj (Except.ok.inj h)
          exact .emptyTable hs
        · rename_i hn
          exact .table hn (ih (f := .entries {}) h)
      · have ha' : ∀ rest, s = '[' :: rest → False := fun rest hs => ha ⟨rest, hs⟩
        have ht' : ∀ rest, s = '\x7b' :: rest → False := fun rest hs => ht ⟨rest, hs⟩
        rw [value.eq_4 room s fuel ha' ht'] at h
        obtain ⟨room', hr, h⟩ := bind_eq_ok_iff.mp h
        obtain rfl := roomWithin_eq_ok_iff.mp hr
        exact .scalar ha' ht' h
    | items before =>
      rw [Form.read] at h
      by_cases hn : ∃ rest, s = ']' :: rest
      · obtain ⟨s, rfl⟩ := hn
        rw [arrayItems.eq_2] at h
        obtain ⟨rfl, rfl⟩ := Prod.mk.inj (Except.ok.inj h)
        exact .endOfItems
      · have hn' : ∀ rest, s = ']' :: rest → False := fun rest hs => hn ⟨rest, hs⟩
        rw [arrayItems.eq_3 room before s fuel hn'] at h
        obtain ⟨⟨a, u⟩, hv, h⟩ := bind_eq_ok_iff.mp h
        obtain ⟨w, hu, h⟩ := bind_eq_ok_iff.mp h
        split at h
        · obtain ⟨rfl, rfl⟩ := Prod.mk.inj (Except.ok.inj h)
          exact .lastItem hn' (ih (f := .value) hv) hu
        · obtain ⟨x, hx, h⟩ := bind_eq_ok_iff.mp h
          exact .item hn' (ih (f := .value) hv) hu hx (ih (f := .items (a :: before)) h)
        · cases h
    | entries ns =>
      rw [Form.read, inlineEntries.eq_2] at h
      obtain ⟨⟨k, u⟩, hk, h⟩ := bind_eq_ok_iff.mp h
      obtain ⟨⟨a, w⟩, hv, h⟩ := bind_eq_ok_iff.mp h
      obtain ⟨ns', ha, h⟩ := bind_eq_ok_iff.mp h
      have ha' := orMalformed_eq_ok_iff.mp ha
      split at h
      · rename_i hw
        obtain ⟨rfl, rfl⟩ := Prod.mk.inj (Except.ok.inj h)
        exact .lastEntry hk (ih (f := .value) hv) ha' hw
      · rename_i hw
        exact .entry hk (ih (f := .value) hv) ha' hw (ih (f := .entries ns') h)
      · cases h

theorem Reads.local {f : Form} (h : Reads f room s v t) :
    Locally (fun x y => Reads f room x v y) s t := by
  induction h with
  | @array _ s _ _ _ hs _ ih =>
    refine ((Locally.char (by decide) s).trans ((locally_skipLines hs).trans ih)).mono ?_
    rintro x y - ⟨x, rfl, z, hz, hy⟩
    exact .array hz hy
  | @emptyTable _ s t hs =>
    have hl := locally_skipSpaces s
    rw [hs] at hl
    refine ((Locally.char (by decide) s).trans (hl.trans (.char (by decide) t))).mono ?_
    rintro x y - ⟨x, rfl, z, hz, rfl⟩
    exact .emptyTable hz
  | @table room s _ v hn _ ih =>
    have he : Locally (fun x y => (∀ rest, x = '\x7d' :: rest → False) ∧
        Reads (.entries {}) room x v y) (skipSpaces s) _ :=
      ih.mono fun x y hx he => ⟨hx.not_starts (w := ['\x7d']) (by decide) hn, he⟩
    refine ((Locally.char (by decide) s).trans ((locally_skipSpaces s).trans he)).mono ?_
    rintro x y - ⟨x, rfl, _, rfl, hn, he⟩
    exact .table hn he
  | scalar ha ht hs =>
    refine (locally_scalar hs).mono fun x y hx he => .scalar ?_ ?_ he
    · exact hx.not_starts (w := ['[']) (by decide) ha
    · exact hx.not_starts (w := ['\x7b']) (by decide) ht
  | @endOfItems _ _ t =>
    refine (Locally.char (by decide) t).mono ?_
    rintro x y - rfl
    exact .endOfItems
  | @lastItem _ _ _ _ t _ hn _ hu ih =>
    refine (ih.trans ((locally_skipLines hu).trans (.char (by decide) t))).mono ?_
    rintro x y hx ⟨z, hz, _, hy, rfl⟩
    exact .lastItem (hx.not_starts (w := [']']) (by decide) hn) hz hy
  | @item _ _ _ _ w _ _ _ _ hn _ hu hw _ ihv ihi =>
    refine (ihv.trans ((locally_skipLines hu).trans ((Locally.char (by decide) w).trans
      ((locally_skipLines hw).trans ihi)))).mono ?_
    rintro x y hx ⟨z, hz, _, hy, _, rfl, _, hw, hi⟩
    exact .item (hx.not_starts (w := [']']) (by decide) hn) hz hy hw hi
  | @lastEntry _ _ _ _ _ w t _ _ hk _ ha hw ih =>
    have hl := locally_skipSpaces w
    rw [hw] at hl
    refine ((locally_keyOfPair hk).trans (ih.trans (hl.trans (.char (by decide) t)))).mono ?_
    rintro x y - ⟨_, hk, _, hv, _, hw, rfl⟩
    exact .lastEntry hk hv ha hw
  | @entry _ _ _ _ _ w x _ _ _ _ hk _ ha hw _ ihv ihe =>
    have hl := locally_skipSpaces w
    rw [hw] at hl
    refine ((locally_keyOfPair hk).trans (ihv.trans (hl.trans ((Locally.char (by decide) x).trans
      ((locally_skipSpaces x).trans ihe))))).mono ?_
    rintro x y - ⟨_, hk, _, hv, _, hw, _, rfl, _, rfl, he⟩
    exact .entry hk hv ha hw he

/-- Each character pays for two calls: a value is read for one of them, an item or an entry in front
    of it for the other. -/
def Form.bound (n : Nat) : Form → Nat
  | .value => 2 * n + 1
  | .items _ => 2 * n + 2
  | .entries _ => 2 * n + 2

theorem length_le_of_skipFiller (h : skipFiller s = .ok t) : t.length ≤ s.length :=
  (locally_skipLines h).length_le

theorem length_lt_of_skipSpaces {c : Char} (h : skipSpaces s = c :: t) : t.length < s.length := by
  have hl := (skipSpaces_suffix s).length_le
  rwa [h, List.length_cons] at hl

theorem Reads.read_eq {f : Form} (h : Reads f room s v t)
    (hf : f.bound s.length ≤ fuel + 2 * t.length) : f.read fuel room s = .ok (v, t) := by
  -- Something has been read in every case, and it has paid for the call.
  have next : ∃ n, fuel = n + 1 := by
    have hl := h.local.length_le
    cases f <;> exact ⟨fuel - 1, by simp only [Form.bound] at hf; omega⟩
  induction h generalizing fuel with
  | @array room _ _ _ _ hs hi ih =>
    have h1 := length_le_of_skipFiller hs
    have h2 := hi.local.length_le
    obtain ⟨n, rfl⟩ := next
    simp only [Form.bound, List.length_cons, Form.read] at hf ih ⊢
    rw [value.eq_2, roomWithin_eq_ok_iff.mpr rfl, hs]
    exact ih (by omega) ⟨n - 1, by omega⟩
  | emptyTable hs =>
    obtain ⟨n, rfl⟩ := next
    simp only [Form.read]
    rw [value.eq_3, roomWithin_eq_ok_iff.mpr rfl, hs]
    rfl
  | @table _ s _ _ hn he ih =>
    have h1 := (skipSpaces_suffix s).length_le
    have h2 := he.local.length_le
    obtain ⟨n, rfl⟩ := next
    simp only [Form.bound, List.length_cons, Form.read] at hf ih ⊢
    rw [value.eq_3]
    simp only [roomWithin_eq_ok_iff.mpr rfl, bind, Except.bind]
    exact ih (by omega) ⟨n - 1, by omega⟩
  | scalar ha ht hs =>
    obtain ⟨n, rfl⟩ := next
    simp only [Form.read]
    rw [value.eq_4 _ _ n ha ht, roomWithin_eq_ok_iff.mpr rfl, hs]
    rfl
  | @endOfItems room before t =>
    obtain ⟨n, rfl⟩ := next
    exact arrayItems.eq_2 room before n t
  | lastItem hn hv hu ih =>
    have h1 := length_le_of_skipFiller hu
    have h2 := hv.local.length_le
    obtain ⟨n, rfl⟩ := next
    simp only [Form.bound, List.length_cons, Form.read] at hf ih h1 ⊢
    rw [arrayItems.eq_3 _ _ _ n hn, ih (by omega) ⟨n - 1, by omega⟩]
    simp only [hu, bind, Except.bind]
  | item hn hv hu hw hi ihv ihi =>
    have h1 := length_le_of_skipFiller hu
    have h2 := length_le_of_skipFiller hw
    have h3 := hv.local.length_le
    have h4 := hi.local.length_le
    obtain ⟨n, rfl⟩ := next
    simp only [Form.bound, List.length_cons, Form.read] at hf ihv ihi h1 ⊢
    rw [arrayItems.eq_3 _ _ _ n hn, ihv (by omega) ⟨n - 1, by omega⟩]
    simp only [hu, hw, ihi (show _ ≤ n + _ by omega) ⟨n - 1, by omega⟩, bind, Except.bind]
  | lastEntry hk hv ha hw ih =>
    have h1 := (locally_keyOfPair hk).length_le
    have h2 := length_lt_of_skipSpaces hw
    have h3 := hv.local.length_le
    obtain ⟨n, rfl⟩ := next
    simp only [Form.bound, Form.read] at hf ih ⊢
    rw [inlineEntries.eq_2]
    simp only [hk, ih (show _ ≤ n + _ by omega) ⟨n - 1, by omega⟩, orMalformed_eq_ok_iff.mpr ha, hw,
      bind, Except.bind]
  | @entry _ _ _ _ _ _ x _ _ _ _ hk hv ha hw he ihv ihe =>
    have h1 := (locally_keyOfPair hk).length_le
    have h2 := length_lt_of_skipSpaces hw
    have h3 := (skipSpaces_suffix x).length_le
    have h4 := hv.local.length_le
    have h5 := he.local.length_le
    obtain ⟨n, rfl⟩ := next
    simp only [Form.bound, Form.read] at hf ihv ihe ⊢
    rw [inlineEntries.eq_2]
    simp only [hk, ihv (show _ ≤ n + _ by omega) ⟨n - 1, by omega⟩, orMalformed_eq_ok_iff.mpr ha,
      hw, ihe (show _ ≤ n + _ by omega) ⟨n - 1, by omega⟩, bind, Except.bind]

end GatewayLauncher.Toml

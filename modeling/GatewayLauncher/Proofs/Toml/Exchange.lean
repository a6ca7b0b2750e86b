import GatewayLauncher.FileTree
import GatewayLauncher.Proofs.Toml.Lines
import GatewayLauncher.Proofs.Toml.Namespace
import GatewayLauncher.Proofs.Toml.Reader

namespace GatewayLauncher.Toml

variable {s : List Char} {es : Entries}

theorem eq_of_zero_mem_utf8EncodeChar {c : Char} (h : 0 ∈ String.utf8EncodeChar c) :
    c = '\x00' := by
  have zero {n : Nat} (hn : n < 256) (h : (0 : UInt8) = UInt8.ofNat n) : n = 0 := by
    have ht := congrArg UInt8.toNat h
    rw [UInt8.toNat_ofNat', Nat.mod_eq_of_lt hn] at ht
    exact ht.symm
  have multi (ns : List Nat) (hn : ∀ n ∈ ns, 0 < n ∧ n < 256) : 0 ∉ ns.map UInt8.ofNat := by
    intro hz
    obtain ⟨n, hm, he⟩ := List.mem_map.mp hz
    have hp := hn n hm
    have hz := zero hp.2 he.symm
    omega
  have hz : c.val.toNat = 0 := by
    rw [String.utf8EncodeChar.eq_1] at h
    split at h
    · exact zero (by omega) (List.mem_singleton.mp h)
    split at h
    · exact (multi [_, _] (by simp; omega) h).elim
    split at h
    · exact (multi [_, _, _] (by simp; omega) h).elim
    · exact (multi [_, _, _, _] (by simp; omega) h).elim
  exact Char.ext (UInt32.toNat_inj.mp hz)

theorem nul_mem_of_zero_mem {text : String} (h : 0 ∈ text.toUTF8.data.toList) :
    '\x00' ∈ text.toList := by
  rw [String.toUTF8_eq_toByteArray, ← String.ofList_toList (s := text), String.toByteArray_ofList,
    List.utf8Encode, List.data_toByteArray] at h
  obtain ⟨c, hc, hz⟩ := List.mem_flatMap.mp h
  rwa [eq_of_zero_mem_utf8EncodeChar hz] at hc

theorem Gives.not_mem {c : Char} (h : Gives {} s es) (hc : allowed true c = false) : c ∉ s :=
  fun hm => by simp [h.isClean c hm] at hc

theorem readBytes_of_gives (h : Gives {} s es) : readBytes (String.ofList s).toUTF8 = .ok es := by
  rw [readBytes_toUTF8 (h.not_mem (by decide))]
  exact (lines_eq_ok_iff (Nat.lt_succ_self _)).mpr h

/-- A file that gives a document is the text of the document in UTF-8, with nothing behind it. -/
theorem exists_text_of_readBytes {c : Content} (h : readBytes c.toBytes = .ok es) :
    c.padding = 0 ∧ ∃ s, c.bytes = (String.ofList s).toUTF8 ∧ '\r' ∉ Text.joinLineEnds s ∧
      Gives {} (Text.joinLineEnds s) es := by
  rw [readBytes] at h
  split at h
  case h_2 => cases h
  rename_i text ht
  rw [String.fromUTF8?] at ht
  split at ht
  case isFalse => cases ht
  rename_i hv
  have hb : c.toBytes = text.toUTF8 := by
    rw [← Option.some.inj ht]
    rfl
  have hg := (lines_eq_ok_iff (Nat.lt_succ_self _)).mp h
  have hpad : c.padding = 0 := by
    refine Nat.eq_zero_of_not_pos fun hp => ?_
    refine hg.not_mem (by decide) (Text.mem_joinLineEnds (nul_mem_of_zero_mem ?_) (by decide))
    rw [← hb, Content.toBytes, ByteArray.toList_data_append]
    refine List.mem_append_right _ ?_
    rw [Array.toList_replicate]
    exact List.mem_replicate.mpr ⟨Nat.ne_of_gt hp, rfl⟩
  refine ⟨hpad, text.toList, ?_, hg.not_mem (by decide), hg⟩
  rw [String.ofList_toList, ← hb, Content.toBytes, hpad]
  exact ByteArray.append_empty.symm

open Entries

variable {p q : Progress} {t literal behind : List Char} {k : Key}

namespace Namespace

variable {ns ns' : Namespace}

theorem guard_not_bind_eq_some_iff {b : Bool} {r : Option Namespace} :
    ((guard (!b) : Option Unit) >>= fun _ => r) = some ns ↔ b = false ∧ r = some ns := by
  cases b with
  | false => exact (and_iff_right rfl).symm
  | true => exact ⟨nofun, nofun⟩

theorem bind_pure_eq_some_iff {x : Option Entries} {f : Entries → Namespace} :
    (x >>= fun entries => pure (f entries)) = some ns ↔
      ∃ entries, x = some entries ∧ f entries = ns := by
  cases x with
  | none => exact ⟨nofun, nofun⟩
  | some entries => simp

theorem assign_eq_some_iff {header : TablePath} {v : Value} : ns.assign header k v = some ns' ↔
    (between header k).any ns.isDeclared = false ∧ ns.isClosed (header ++ k.parents) = false ∧
    ∃ entries, ns.entries.modify? (addEntry k.name v) (header ++ k.parents) = some entries ∧
      { ns with
        entries
        closed := if isCompound v then (header ++ k.path) :: ns.closed else ns.closed
        pending := between header k ++ ns.pending } = ns' :=
  guard_not_bind_eq_some_iff.trans <| and_congr_right fun _ =>
    guard_not_bind_eq_some_iff.trans <| and_congr_right fun _ => bind_pure_eq_some_iff

theorem declareTable_eq_some_iff {path : TablePath} : ns.declareTable path = some ns' ↔
    (ns.isDeclared path || ns.isClosed path) = false ∧
    ∃ entries, ns.entries.modify? some path = some entries ∧
      { ns with entries, declared := path :: ns.declared } = ns' :=
  guard_not_bind_eq_some_iff.trans <| and_congr_right fun _ => bind_pure_eq_some_iff

theorem declareItem_eq_some_iff : ns.declareItem k = some ns' ↔
    ns.isClosed k.path = false ∧
    ∃ entries, ns.entries.modify? (addItem k.name) k.parents = some entries ∧
      { ns with
        entries
        closed := ns.closed.filter fun p => !k.path.isPrefixOf p
        declared := k.path :: ns.declared.filter fun p => !k.path.isPrefixOf p } = ns' :=
  guard_not_bind_eq_some_iff.trans <| and_congr_right fun _ => bind_pure_eq_some_iff

/-- An operation on the tables makes a change of their entries that respects what is there, and the
    entries matter for nothing else. -/
def Respectful (op : Namespace → Option Namespace) : Prop :=
  ∀ {ns ns' : Namespace}, op ns = some ns' → ∃ f, Respects f ∧ f ns.entries = some ns'.entries ∧
    ∀ es es', f es = some es' → op { ns with entries := es } = some { ns' with entries := es' }

theorem respectful_assign (header : TablePath) (k : Key) (v : Value) :
    Respectful fun ns => ns.assign header k v := by
  intro ns ns' h
  obtain ⟨hd, hc, entries, he, rfl⟩ := assign_eq_some_iff.mp h
  refine ⟨_, respects_modify? (respects_addEntry k.name v) _, he, fun es es' hf => ?_⟩
  exact assign_eq_some_iff.mpr ⟨hd, hc, es', hf, rfl⟩

theorem respectful_declareTable (path : TablePath) :
    Respectful fun ns => ns.settle.declareTable path := by
  intro ns ns' h
  obtain ⟨hd, entries, he, rfl⟩ := declareTable_eq_some_iff.mp h
  refine ⟨_, respects_modify? respects_some path, he, fun es es' hf => ?_⟩
  exact declareTable_eq_some_iff.mpr ⟨hd, es', hf, rfl⟩

theorem respectful_declareItem (k : Key) : Respectful fun ns => ns.settle.declareItem k := by
  intro ns ns' h
  obtain ⟨hc, entries, he, rfl⟩ := declareItem_eq_some_iff.mp h
  refine ⟨_, respects_modify? (respects_addItem k.name) k.parents, he, fun es es' hf => ?_⟩
  exact declareItem_eq_some_iff.mpr ⟨hc, es', hf, rfl⟩

end Namespace

def Progress.withEntries (p : Progress) (es : Entries) : Progress :=
  { p with tables := { p.tables with entries := es } }

theorem States.respects (h : States p s q t) :
    ∃ f, Respects f ∧ f p.tables.entries = some q.tables.entries ∧
      ∀ es es', f es = some es' → States (p.withEntries es) s (q.withEntries es') t := by
  cases h with
  | nothing hs =>
    refine ⟨some, respects_some, rfl, ?_⟩
    rintro es _ ⟨⟩
    exact .nothing hs
  | item hk hd =>
    obtain ⟨f, hf, he, hr⟩ := Namespace.respectful_declareItem _ hd
    exact ⟨f, hf, he, fun es es' h => .item hk (hr es es' h)⟩
  | table hn hk hd =>
    obtain ⟨f, hf, he, hr⟩ := Namespace.respectful_declareTable _ hd
    exact ⟨f, hf, he, fun es es' h => .table hn hk (hr es es' h)⟩
  | pair hk hv ha =>
    obtain ⟨f, hf, he, hr⟩ := Namespace.respectful_assign _ _ _ ha
    exact ⟨f, hf, he, fun es es' h => .pair hk hv (hr es es' h)⟩

theorem ReadsLine.respects (h : ReadsLine p s q t) :
    ∃ f, Respects f ∧ f p.tables.entries = some q.tables.entries ∧
      ∀ es es', f es = some es' → ReadsLine (p.withEntries es) s (q.withEntries es') t := by
  obtain ⟨u, hs, hc⟩ := h
  obtain ⟨f, hf, he, hr⟩ := (statement_eq_ok_iff.mp hs).respects
  exact ⟨f, hf, he, fun es es' h => ⟨u, statement_eq_ok_iff.mpr (hr es es' h), hc⟩⟩

theorem Leads.respects (h : Leads p s q t) :
    ∃ f, Respects f ∧ f p.tables.entries = some q.tables.entries ∧
      ∀ es es', f es = some es' → Leads (p.withEntries es) s (q.withEntries es') t := by
  induction h with
  | refl p s =>
    refine ⟨some, respects_some, rfl, ?_⟩
    rintro es _ ⟨⟩
    exact .refl _ s
  | line hl h ih =>
    obtain ⟨f, hf, he, hr⟩ := hl.respects
    obtain ⟨g, hg, he', hr'⟩ := ih
    refine ⟨fun es => f es >>= g, hf.bind hg, ?_, fun es es' h => ?_⟩
    · exact Option.bind_eq_some_iff.mpr ⟨_, he, he'⟩
    · obtain ⟨mid, hm, h⟩ := Option.bind_eq_some_iff.mp h
      exact .line (hr es mid hm) (hr' mid es' h)

/-- Behind a line the text ends or goes on, and the document is what comes of the rest. -/
def GoesOn (p : Progress) (t : List Char) (es : Entries) : Prop :=
  (t = [] ∧ p.tables.entries = es) ∨ ∃ s, t = '\n' :: s ∧ Gives p s es

theorem gives_iff_line : Gives p s es ↔ ∃ q t, ReadsLine p s q t ∧ GoesOn q t es := by
  constructor
  · rintro ⟨q, u, r, hq, hr, he⟩
    cases hq with
    | refl => exact ⟨r, [], hr, .inl ⟨rfl, he⟩⟩
    | line hl hq => exact ⟨_, _, hl, .inr ⟨_, rfl, _, _, _, hq, hr, he⟩⟩
  · rintro ⟨q, t, hl, ⟨rfl, he⟩ | ⟨u, rfl, q', u', r, hq, hr, he⟩⟩
    · exact ⟨p, s, q, .refl p s, hl, he⟩
    · exact ⟨q', u', r, .line hl hq, hr, he⟩

theorem GoesOn.respects (h : GoesOn p t es) :
    ∃ f, Respects f ∧ f p.tables.entries = some es ∧
      ∀ es₁ es₂, f es₁ = some es₂ → GoesOn (p.withEntries es₁) t es₂ := by
  obtain ⟨rfl, rfl⟩ | ⟨s, rfl, q, u, r, hq, hr, rfl⟩ := h
  · refine ⟨some, respects_some, rfl, ?_⟩
    rintro es₁ _ ⟨⟩
    exact .inl ⟨rfl, rfl⟩
  · obtain ⟨f, hf, he, hl⟩ := hq.respects
    obtain ⟨g, hg, he', hl'⟩ := hr.respects
    refine ⟨fun es => f es >>= g, hf.bind hg, ?_, fun es₁ es₂ h => ?_⟩
    · exact Option.bind_eq_some_iff.mpr ⟨_, he, he'⟩
    · obtain ⟨mid, hm, h⟩ := Option.bind_eq_some_iff.mp h
      exact .inr ⟨s, rfl, _, u, _, hl es₁ mid hm, hl' mid es₂ h, rfl⟩

theorem basic?_plain_only (hl : ∀ c ∈ literal, c ≠ '"' ∧ c ≠ '\\') {rest : List Char}
    {r : List Char × List Char} (h : basic? false .reading (literal ++ '"' :: rest) = some r) :
    ∀ c ∈ literal, IsPlain c := by
  induction literal generalizing r with
  | nil => nofun
  | cons c literal ih =>
    obtain ⟨⟨hq, hb⟩, hl⟩ := List.forall_mem_cons.mp hl
    rw [List.cons_append, basic?_reading hq hb] at h
    split at h
    · rename_i ha
      obtain ⟨r', hr, -⟩ := Option.map_eq_some_iff.mp h
      exact List.forall_mem_cons.mpr ⟨⟨ha, hq, hb⟩, ih hl hr⟩
    · cases h

theorem scalar_quoted (hn : literal ≠ []) (hl : ∀ c ∈ literal, c ≠ '"' ∧ c ≠ '\\') {v : Value}
    (h : scalar ('"' :: (literal ++ '"' :: behind)) = .ok (v, t)) :
    v = .text (String.ofList literal) ∧ t = behind := by
  have hp : ∀ c ∈ literal, IsPlain c := by
    obtain ⟨c, rest, rfl⟩ := List.exists_cons_of_ne_nil hn
    have hc : c ≠ '"' := (hl c List.mem_cons_self).1
    cases hb : basic? false .reading ((c :: rest) ++ '"' :: behind) with
    | some r => exact basic?_plain_only hl hb
    | none =>
      rw [List.cons_append] at hb h
      simp [scalar, longQuotation?, quotation?, hc, hb, orMalformed] at h
  rw [scalar_of_plain hn hp] at h
  obtain ⟨rfl, rfl⟩ := Prod.mk.inj (Except.ok.inj h)
  exact ⟨rfl, rfl⟩

theorem reads_of_plain (hn : literal ≠ []) (hl : ∀ c ∈ literal, IsPlain c) (behind : List Char) :
    Reads .value nestingRoom ('"' :: (literal ++ '"' :: behind))
      (.text (String.ofList literal)) behind :=
  .scalar nofun nofun (scalar_of_plain hn hl behind)

theorem reads_quoted (hn : literal ≠ []) (hl : ∀ c ∈ literal, c ≠ '"' ∧ c ≠ '\\') {room : Nat}
    {v : Value} (h : Reads .value room ('"' :: (literal ++ '"' :: behind)) v t) :
    v = .text (String.ofList literal) ∧ t = behind := by
  cases h with
  | scalar _ _ hs => exact scalar_quoted hn hl hs

/-- In front of a quotation a key is read whatever is quoted. -/
theorem exists_front_of_keyOfPair (h : keyOfPair (skipSpaces s) = .ok (k, '"' :: t)) :
    ∃ front, s = front ++ '"' :: t ∧
      ∀ t', keyOfPair (skipSpaces (front ++ '"' :: t')) = .ok (k, '"' :: t') := by
  obtain ⟨rest, hk, ht⟩ := keyOfPair_eq_ok_iff.mp h
  obtain ⟨used, hs, -, hl⟩ := (locally_skipSpaces s).trans (local_key? _ k _ hk)
  have hr : rest = rest.takeWhile isSpace ++ '"' :: t := by
    rw [ht]
    exact List.takeWhile_append_dropWhile.symm
  refine ⟨used ++ '=' :: rest.takeWhile isSpace, ?_, fun t' => ?_⟩
  · rw [List.append_assoc, List.cons_append, ← hr]
    exact hs
  · rw [List.append_assoc, List.cons_append]
    obtain ⟨_, rfl, hk'⟩ := hl ('=' :: (rest.takeWhile isSpace ++ '"' :: t'))
      (agree_of_isStop (by decide) _ _)
    refine keyOfPair_eq_ok_iff.mpr ⟨_, hk', ?_⟩
    have hw : ∀ c ∈ rest.takeWhile isSpace, isSpace c = true :=
      List.all_eq_true.mp List.all_takeWhile
    rw [skipSpaces, List.dropWhile_append_of_pos hw]
    rfl

/-- A line that starts with a key and a quotation ends with that quotation and assigns it. -/
theorem exists_assign_of_statement
    (hk : keyOfPair s = .ok (k, '"' :: (literal ++ '"' :: behind))) (hn : literal ≠ [])
    (hl : ∀ c ∈ literal, c ≠ '"' ∧ c ≠ '\\') (h : statement p s = .ok (q, t)) :
    t = behind ∧ ∃ tables,
      p.tables.assign p.header k (.text (String.ofList literal)) = some tables ∧
      q = { p with tables } := by
  obtain ⟨c, rest, rfl, hc, hh, hb⟩ := head_of_keyOfPair hk
  cases statement_eq_ok_iff.mp h with
  | nothing hs => simp [hc, hh] at hs
  | item => exact (hb rfl).elim
  | table => exact (hb rfl).elim
  | pair hk' hv ha =>
    rw [hk] at hk'
    obtain ⟨rfl, rfl⟩ := Prod.mk.inj (Except.ok.inj hk')
    obtain ⟨rfl, rfl⟩ := reads_quoted hn hl hv
    exact ⟨rfl, _, ha, rfl⟩

/-- A quotation in a text stands where the value of a name in a table is written. -/
def WrittenAt (path : TablePath) (text literal behind : List Char) : Prop :=
  ∃ p s k, Leads {} text p s ∧
    keyOfPair (skipSpaces s) = .ok (k, '"' :: (literal ++ '"' :: behind)) ∧
    p.header ++ k.path = path

theorem Gives.exchange {text : List Char} {path : TablePath} {name x : String}
    (hg : Gives {} text es) (hx : es.at? path name = some (.text x))
    (hw : WrittenAt (path ++ [name]) text literal behind) (hn : literal ≠ [])
    (hl : ∀ c ∈ literal, c ≠ '"' ∧ c ≠ '\\') :
    x = String.ofList literal ∧ ∃ front, text = front ++ '"' :: (literal ++ '"' :: behind) ∧
      ∀ other, other ≠ [] → (∀ c ∈ other, IsPlain c) →
        Gives {} (front ++ '"' :: (other ++ '"' :: behind))
          (es.replace path name (.text (String.ofList other))) := by
  obtain ⟨p, s, k, hp, hk, hpath⟩ := hw
  obtain ⟨hheader, hname⟩ : p.header ++ k.parents = path ∧ k.name = name := by
    rw [Key.path, ← List.append_assoc] at hpath
    obtain ⟨h1, h2⟩ := List.append_inj' hpath rfl
    exact ⟨h1, (List.cons.inj h2).1⟩
  obtain ⟨q, t, ⟨u, hs, hc⟩, hgo⟩ := gives_iff_line.mp (hp.gives_iff.mp hg)
  obtain ⟨rfl, tables, ha, rfl⟩ := exists_assign_of_statement hk hn hl hs
  obtain ⟨hd, hcl, entries, he, rfl⟩ := Namespace.assign_eq_some_iff.mp ha
  rw [hheader, hname] at he
  -- What follows leaves the text alone, and the place is not within an array.
  obtain ⟨f, hf, hfe, hgo'⟩ := hgo.respects
  have hna : ¬entries.MeetsArray path := fun h => not_meetsArray_of_at? hx (hf.array hfe h)
  obtain ⟨hat, hadd⟩ := at?_of_modify?_addEntry he hna
  have hkept := hf.kept hfe hat
  rw [hx] at hkept
  obtain rfl : x = String.ofList literal := by simpa using hkept
  obtain ⟨front, hT, -, hlead⟩ := hp.local
  obtain ⟨front', rfl, hkey⟩ := exists_front_of_keyOfPair hk
  refine ⟨rfl, front ++ front', by rw [hT, List.append_assoc], fun other ho hpo => ?_⟩
  have ha' : p.tables.assign p.header k (.text (String.ofList other)) = some _ :=
    Namespace.assign_eq_some_iff.mpr ⟨hd, hcl, _, by rw [hheader, hname]; exact hadd _, rfl⟩
  have hs' := statement_eq_ok_iff.mpr (.pair (hkey _) (reads_of_plain ho hpo u) ha')
  rw [List.append_assoc]
  refine (hlead _).gives_iff.mpr (gives_iff_line.mpr ⟨_, t, ⟨u, hs', hc⟩, ?_⟩)
  exact hgo' _ _ (hf.replaced _ hfe hat)

end GatewayLauncher.Toml

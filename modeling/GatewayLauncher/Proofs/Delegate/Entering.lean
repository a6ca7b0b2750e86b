import GatewayLauncher.Proofs.Delegate.Consistency

namespace GatewayLauncher.Delegate

variable {d : Delegate} {s : Signal} {x : DelegateError}

/-- The signals whose relays can be put in place one after the other. -/
def catchablePart (signals : List Signal) : List Signal := signals.takeWhile Signal.isCatchable

/-- The signals that still have a relay when an entering has failed. -/
def leftBehind (signals : List Signal) : DelegateError → List Signal
  | .refused _ _ => []
  | _ => catchablePart signals

theorem catchablePart_eq_nil_iff {signals : List Signal} :
    catchablePart signals = [] ↔ ∀ s, signals.head? = some s → s.isCatchable = false := by
  cases signals with
  | nil => simp [catchablePart]
  | cons s signals => cases hs : s.isCatchable <;> simp [catchablePart, hs]

theorem installed_installRelays (d : Delegate) (ss : List Signal) :
    (d.installRelays ss).1.installed = d.installed ++ catchablePart ss := by
  induction ss generalizing d with
  | nil => simp [installRelays, catchablePart]
  | cons s ss ih =>
    rw [installRelays, catchablePart, List.takeWhile_cons]
    cases hs : s.isCatchable with
    | true =>
      rw [if_pos rfl, if_pos rfl, ih, installRelay, List.append_assoc, catchablePart]
      rfl
    | false => simp

theorem mem_handlers_installRelays (d : Delegate) (ss : List Signal) :
    s ∈ (d.installRelays ss).1.handlers ↔ s ∈ d.handlers ∨ s ∈ catchablePart ss := by
  induction ss generalizing d with
  | nil => simp [installRelays, catchablePart]
  | cons t ss ih =>
    rw [installRelays, catchablePart, List.takeWhile_cons]
    cases ht : t.isCatchable with
    | true =>
      rw [if_pos rfl, if_pos rfl, ih, installRelay, mem_addHandler, catchablePart, List.mem_cons,
        or_assoc, or_left_comm]
    | false => simp

theorem installed_asking (d : Delegate) :
    d.asking.installed = d.installed ++ catchablePart d.signals :=
  installed_installRelays d d.signals

theorem mem_handlers_asking_iff (d : Delegate) :
    s ∈ d.asking.handlers ↔ s ∈ d.handlers ∨ s ∈ catchablePart d.signals :=
  mem_handlers_installRelays d d.signals

/-- After a failed entering the record has grown by the signals left behind, unless the system has
    refused the start: then the record is empty, and with it all its handlers are gone. -/
theorem relays_enter_of_error {a : SpawnAttempt} (h : (d.enter a).2 = .error x) :
    ((∃ path reason, x = .refused path reason) ∧ (d.enter a).1.installed = [] ∧
      ∀ s, s ∈ (d.enter a).1.handlers ↔
        s ∈ d.handlers ∧ s ∉ d.installed ∧ s ∉ catchablePart d.signals) ∨
    ((∀ path reason, x ≠ .refused path reason) ∧
      (d.enter a).1.installed = d.installed ++ catchablePart d.signals ∧
      ∀ s, s ∈ (d.enter a).1.handlers ↔ s ∈ d.handlers ∨ s ∈ catchablePart d.signals) := by
  obtain ⟨y, hy, he⟩ | ⟨-, he⟩ := enter_cases d a
  · -- Nobody takes back the relays in front of the signal that stops the entering.
    obtain ⟨t, -, -, rfl⟩ := exists_uncatchable_of_installRelays hy
    rw [he] at h ⊢
    cases h
    exact .inr ⟨by simp, installed_installRelays d _, fun s => mem_handlers_installRelays d _⟩
  · have hi : (d.asking.arriveAll a.arriving).installed = d.installed ++ catchablePart d.signals :=
      (installed_arriveAll _ _).trans (installed_asking d)
    have hh (s : Signal) : s ∈ (d.asking.arriveAll a.arriving).handlers ↔
        s ∈ d.handlers ∨ s ∈ catchablePart d.signals := by
      rw [handlers_arriveAll, mem_handlers_asking_iff]
    rw [he] at h ⊢
    cases ha : a.result with
    | started p =>
      rw [ha] at h
      cases h
    | refused reason =>
      rw [ha] at h
      cases h
      refine .inl ⟨⟨_, _, rfl⟩, installed_removeRelays _, fun s => ?_⟩
      rw [spawned, mem_handlers_removeRelays, hh, hi, List.mem_append, not_or]
      constructor
      · rintro ⟨hs, hn, hc⟩
        exact ⟨hs.resolve_right hc, hn, hc⟩
      · rintro ⟨hs, hn, hc⟩
        exact ⟨.inl hs, hn, hc⟩
    | broken text =>
      rw [ha] at h
      cases h
      exact .inr ⟨by simp, hi, hh⟩

/-- The record then holds the signals left behind, and the handlers are those of others and those of
    the record. So everything is as before exactly if the system has refused the start or already
    the first signal cannot be caught. -/
theorem relays_after_failed_enter (path : Path) (args : List String) (signals others : List Signal)
    (ho : ∀ s ∈ signals, s ∉ others) (a : SpawnAttempt) {x : DelegateError}
    (h : (({ path, args, signals, handlers := others } : Delegate).enter a).2 = .error x) :
    let d := (({ path, args, signals, handlers := others } : Delegate).enter a).1
    d.installed = leftBehind signals x ∧
    (∀ s, s ∈ d.handlers ↔ s ∈ others ∨ s ∈ leftBehind signals x) ∧
    ((d.installed = [] ∧ ∀ s ∈ signals, s ∉ d.handlers) ↔
      (∃ place reason, x = .refused place reason) ∨
        ∀ s, signals.head? = some s → s.isCatchable = false) := by
  intro d
  have hr : d.installed = leftBehind signals x ∧
      ∀ s, s ∈ d.handlers ↔ s ∈ others ∨ s ∈ leftBehind signals x := by
    obtain ⟨⟨place, reason, rfl⟩, hi, hh⟩ | ⟨hx, hi, hh⟩ := relays_enter_of_error h
    · refine ⟨hi, fun s => ?_⟩
      -- The handlers of others are for other signals, and so they stay.
      have hn : s ∈ others → s ∉ catchablePart signals := fun hs hc =>
        ho s ((List.takeWhile_prefix _).subset hc) hs
      rw [hh]
      simp only [leftBehind, List.not_mem_nil, not_false_eq_true, true_and, or_false,
        and_iff_left_iff_imp]
      exact hn
    · have hl : leftBehind signals x = catchablePart signals := by
        cases x with
        | refused place reason => exact absurd rfl (hx place reason)
        | _ => rfl
      rw [hl]
      exact ⟨hi, hh⟩
  refine ⟨hr.1, hr.2, ?_⟩
  have hc : (d.installed = [] ∧ ∀ s ∈ signals, s ∉ d.handlers) ↔ leftBehind signals x = [] := by
    rw [hr.1]
    refine ⟨And.left, fun hn => ⟨hn, fun s hs hm => ?_⟩⟩
    rw [hr.2, hn] at hm
    exact ho s hs (hm.resolve_right (List.not_mem_nil))
  rw [hc, ← catchablePart_eq_nil_iff]
  cases x <;> simp [leftBehind]

theorem relays_after_failed_enter_at_third :
    let fresh : Delegate := {
      path := ⟨"", ["gw"]⟩
      args := []
      signals := [.interrupt, .terminate, .kill, .hangup]
      handlers := [.child] }
    let d := (fresh.enter { result := .refused "no memory" }).1
    d.installed = [.interrupt, .terminate] ∧
    ∀ s, s ∈ d.handlers ↔ s ∈ [Signal.child] ∨ s ∈ [Signal.interrupt, Signal.terminate] := by
  intro fresh d
  obtain ⟨hi, hh, -⟩ := relays_after_failed_enter ⟨"", ["gw"]⟩ []
    [.interrupt, .terminate, .kill, .hangup] [.child] (by decide) { result := .refused "no memory" }
    (x := .uncatchable .kill) rfl
  exact ⟨hi, hh⟩

/-- A start that breaks down before the system is asked leaves the usual relays in place. -/
theorem broken_start_leaves_relays :
    ¬∀ (path : Path) (args : List String) (signals : List Signal) (a : SpawnAttempt)
      (x : DelegateError), (({ path, args, signals } : Delegate).enter a).2 = .error x →
      (({ path, args, signals } : Delegate).enter a).1.installed = [] ∧
      ∀ s ∈ signals, s ∉ (({ path, args, signals } : Delegate).enter a).1.handlers := by
  intro h
  obtain ⟨hi, -⟩ := h ⟨"", ["gw"]⟩ ["-x"] Signal.relayed { result := .broken "embedded null byte" }
    (.broken "embedded null byte") rfl
  cases hi

end GatewayLauncher.Delegate

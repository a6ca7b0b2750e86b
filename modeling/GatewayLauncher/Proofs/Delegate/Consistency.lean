import GatewayLauncher.Proofs.Delegate.Leaving

namespace GatewayLauncher.Delegate

/-- The signals with a handler are those on record, and no signal waits for a child that is
    there. -/
structure Consistent (d : Delegate) : Prop where
  recorded : ∀ s, s ∈ d.handlers ↔ s ∈ d.installed
  delivered : d.process.isSome = true → d.pending = []

variable {d e : Delegate}

theorem Consistent.onRecord (h : d.Consistent) : d.OnRecord := fun s hs => (h.recorded s).mp hs

theorem Consistent.congr (h : d.Consistent) (hh : e.handlers = d.handlers)
    (hi : e.installed = d.installed) (hp : e.process.isSome = d.process.isSome)
    (hq : e.pending = d.pending) : e.Consistent where
  recorded s := by rw [hh, hi, h.recorded s]
  delivered he := by rw [hq, h.delivered (hp ▸ he)]

theorem Consistent.relay (h : d.Consistent) (s : Signal) : (d.relay s).Consistent where
  recorded t := by rw [handlers_relay, installed_relay, h.recorded t]
  delivered hr := by
    have hd : d.process.isSome = true := by simpa using hr
    rw [pending_relay hd, h.delivered hd]

theorem Consistent.call (h : d.Consistent) (c : Call) : (d.call c).Consistent :=
  h.congr rfl rfl rfl rfl

theorem Consistent.arriveAll (h : d.Consistent) (ss : List Signal) :
    (d.arriveAll ss).Consistent :=
  arriveAll_invariant (fun _ s h => h.relay s) (fun _ _ _ h => h.call _) h ss

theorem Consistent.endChild (h : d.Consistent) (code : Int) : (d.endChild code).Consistent :=
  h.congr rfl rfl (by simp [Delegate.endChild]) rfl

theorem Consistent.installRelay (h : d.Consistent) (s : Signal) :
    (d.installRelay s).Consistent where
  recorded t := by
    simp only [Delegate.installRelay, mem_addHandler, List.mem_append, List.mem_singleton,
      h.recorded t, or_comm]
  delivered := h.delivered

theorem Consistent.installRelays (h : d.Consistent) (ss : List Signal) :
    (d.installRelays ss).1.Consistent := by
  induction ss generalizing d with
  | nil => exact h
  | cons s ss ih =>
    rw [Delegate.installRelays]
    split
    · exact ih (h.installRelay s)
    · exact h

theorem Consistent.removeRelays (h : d.Consistent) : d.removeRelays.Consistent where
  recorded s := by simp [handlers_removeRelays h.onRecord, installed_removeRelays]
  delivered := h.delivered

theorem Consistent.asking (h : d.Consistent) : d.asking.Consistent :=
  (h.installRelays d.signals).call _

theorem Consistent.spawned (h : d.Consistent) (r : SpawnResult) : (d.spawned r).1.Consistent := by
  cases r with
  | started p =>
    -- The queue is emptied here, so that it does not matter what it has held.
    refine ⟨fun s => ?_, fun _ => pending_flush _⟩
    rw [Delegate.spawned, handlers_flush, installed_flush]
    exact h.recorded s
  | refused reason => exact h.removeRelays
  | broken text => exact h

theorem Consistent.enter (h : d.Consistent) (a : SpawnAttempt) : (d.enter a).1.Consistent := by
  obtain ⟨_, -, he⟩ | ⟨-, he⟩ := enter_cases d a
  · rw [he]
    exact h.installRelays d.signals
  · rw [he]
    exact (h.asking.arriveAll a.arriving).spawned a.result

theorem Consistent.wait (h : d.Consistent) (ss : List Signal) : (d.wait ss).1.Consistent := by
  have hw := (h.call .wait).arriveAll ss
  obtain he | he | ⟨code, he⟩ := wait_cases d ss
  · rw [he]
    exact h
  · rw [he]
    exact hw
  · rw [he]
    exact hw.endChild code

theorem relays_leave (h : d.OnRecord) (a : ShutdownArrivals) :
    (d.leave a).1.handlers = [] ∧ (d.leave a).1.installed = [] := by
  obtain ⟨-, he⟩ | ⟨_, _, -, -, he⟩ := leave_cases h a
  · rw [he]
    exact ⟨handlers_removeRelays h, installed_removeRelays d⟩
  · rw [he]
    exact ⟨rfl, rfl⟩

theorem Consistent.leave (h : d.Consistent) (a : ShutdownArrivals) :
    (d.leave a).1.Consistent := by
  obtain ⟨hh, hi⟩ := relays_leave h.onRecord a
  refine ⟨fun s => by rw [hh, hi], ?_⟩
  obtain ⟨-, he⟩ | ⟨p, _, hd, -, he⟩ := leave_cases h.onRecord a
  · rw [he]
    exact h.delivered
  · intro _
    rw [he]
    exact h.delivered (by rw [hd]; rfl)

theorem Consistent.receive (h : d.Consistent) (s : Signal) : (d.receive s).Consistent := by
  rw [Delegate.receive]
  split
  · exact h.relay s
  · exact h

theorem Consistent.step (h : d.Consistent) (s : Step) : (d.step s).1.Consistent := by
  cases s with
  | enter a => rw [step_enter]; exact h.enter a
  | wait ss => rw [step_wait]; exact h.wait ss
  | leave a => rw [step_leave]; exact h.leave a
  | receive s => exact h.receive s
  | relay s => exact h.relay s
  | childEnds code => exact h.endChild code
  | childTurns c => exact h.congr rfl rfl (by simp [step_childTurns, turnChild]) rfl

theorem Consistent.after (h : d.Consistent) (steps : List Step) : (d.after steps).Consistent := by
  induction steps generalizing d with
  | nil => exact h
  | cons s steps ih => exact ih (h.step s)

theorem consistent_fresh (path : Path) (args : List String) (signals : List Signal) :
    ({ path, args, signals } : Delegate).Consistent :=
  ⟨fun _ => Iff.rfl, fun _ => rfl⟩

theorem exists_uncatchable_of_installRelays {ss : List Signal} {x : DelegateError}
    (h : (d.installRelays ss).2 = .error x) :
    ∃ s ∈ ss, s.isCatchable = false ∧ x = .uncatchable s := by
  induction ss generalizing d with
  | nil => cases h
  | cons s ss ih =>
    rw [Delegate.installRelays] at h
    split at h
    · obtain ⟨t, ht, hc, hx⟩ := ih h
      exact ⟨t, List.mem_cons_of_mem s ht, hc, hx⟩
    · rename_i hs
      cases h
      exact ⟨s, List.mem_cons_self, Bool.not_eq_true _ ▸ hs, rfl⟩

theorem relays_enter_of_refused (h : d.OnRecord) {a : SpawnAttempt} {path : Path} {reason : String}
    (hr : (d.enter a).2 = .error (.refused path reason)) :
    (d.enter a).1.handlers = [] ∧ (d.enter a).1.installed = [] := by
  obtain ⟨x, hx, he⟩ | ⟨-, he⟩ := enter_cases d a
  · -- The system has not been asked at all.
    obtain ⟨s, -, -, rfl⟩ := exists_uncatchable_of_installRelays hx
    rw [he] at hr
    cases hr
  · rw [he] at hr ⊢
    cases ha : a.result with
    | started p =>
      rw [ha] at hr
      cases hr
    | refused reason =>
      have ho : (d.asking.arriveAll a.arriving).OnRecord :=
        (OnRecord.installRelays h d.signals).congr (handlers_arriveAll _ _)
          (installed_arriveAll _ _)
      exact ⟨handlers_removeRelays ho, installed_removeRelays _⟩
    | broken text =>
      rw [ha] at hr
      cases hr

theorem enter_of_step {a : SpawnAttempt} {x : DelegateError}
    (h : (d.step (.enter a)).2 = .failed x) : (d.enter a).2 = .error x := by
  simp only [Delegate.step] at h
  split at h
  · cases h
  · rename_i he
    cases h
    rw [he]

/-- After any history, with any signals, the signals with a handler are those on record, and no
    signal waits for a child that is there. A leaving, whatever it comes to, and a start that the
    system refuses leave no handler and no record. -/
theorem relays_as_recorded (path : Path) (args : List String) (signals : List Signal)
    (steps : List Step) :
    let d := ({ path, args, signals } : Delegate).after steps
    (∀ s, s ∈ d.handlers ↔ s ∈ d.installed) ∧
    (d.process ≠ none → d.pending = []) ∧
    (∀ arriving, (d.step (.leave arriving)).1.handlers = [] ∧
      (d.step (.leave arriving)).1.installed = []) ∧
    (∀ attempt place reason, (d.step (.enter attempt)).2 = .failed (.refused place reason) →
      (d.step (.enter attempt)).1.handlers = [] ∧ (d.step (.enter attempt)).1.installed = []) := by
  intro d
  have h : d.Consistent := (consistent_fresh path args signals).after steps
  refine ⟨h.recorded, ?_, ?_, ?_⟩
  · intro hd
    exact h.delivered (Option.isSome_iff_ne_none.mpr hd)
  · intro arriving
    rw [step_leave]
    exact relays_leave h.onRecord arriving
  · intro attempt place reason hr
    rw [step_enter]
    exact relays_enter_of_refused h.onRecord (enter_of_step hr)

/-- A signal comes before the start, and the second start is refused while the first child runs. -/
theorem relays_of_second_start :
    let d := ({ path := ⟨"", ["gw"]⟩, args := [], signals := [.interrupt, .interrupt] } : Delegate).after
      [.relay .interrupt, .enter { result := .started { pid := 1, child := {} } }]
    let e := (d.step (.enter { arriving := [.interrupt], result := .refused "no memory" })).1
    d.installed = [.interrupt, .interrupt] ∧ d.pending = [] ∧ e.handlers = [] ∧
      e.installed = [] := by
  intro d e
  obtain ⟨-, hq, -, hr⟩ := relays_as_recorded ⟨"", ["gw"]⟩ [] [.interrupt, .interrupt]
    [.relay .interrupt, .enter { result := .started { pid := 1, child := {} } }]
  have hd : d.process ≠ none := by
    intro hd
    cases hd
  exact ⟨rfl, hq hd, hr _ ⟨"", ["gw"]⟩ "no memory" rfl⟩

end GatewayLauncher.Delegate

import GatewayLauncher.Delegate.History

namespace GatewayLauncher.Delegate

variable {d : Delegate} {p : ChildProcess} {s : Signal}

/-- The three cases of passing a signal on: it is kept, dropped or sent. -/
theorem relay_cases (d : Delegate) (s : Signal) :
    (d.process = none ∧ d.relay s = { d with pending := d.pending ++ [s] }) ∨
    (∃ p, d.process = some p ∧ p.isRunning = false ∧ d.relay s = d) ∨
    (∃ p notices, d.process = some p ∧ p.isRunning = true ∧
      d.relay s = { d with
        process := some (p.hear s)
        calls := d.calls ++ [.signal s]
        notices := notices }) := by
  obtain hd | ⟨p, hd⟩ := Option.eq_none_or_eq_some d.process
  · exact .inl ⟨hd, relay_of_not_started hd s⟩
  · cases hp : p.isRunning with
    | false => exact .inr (.inl ⟨p, hd, hp, relay_of_ended hd hp s⟩)
    | true =>
      refine .inr (.inr ⟨p, (d.relay s).notices, hd, hp, ?_⟩)
      simp only [relay, hd, hp, if_true]
      split <;> rfl

@[simp]
theorem handlers_relay (d : Delegate) (s : Signal) : (d.relay s).handlers = d.handlers := by
  obtain ⟨-, he⟩ | ⟨_, -, -, he⟩ | ⟨_, _, -, -, he⟩ := relay_cases d s <;> rw [he]

@[simp]
theorem installed_relay (d : Delegate) (s : Signal) : (d.relay s).installed = d.installed := by
  obtain ⟨-, he⟩ | ⟨_, -, -, he⟩ | ⟨_, _, -, -, he⟩ := relay_cases d s <;> rw [he]

@[simp]
theorem isSome_process_relay (d : Delegate) (s : Signal) :
    (d.relay s).process.isSome = d.process.isSome := by
  obtain ⟨h, he⟩ | ⟨_, h, -, he⟩ | ⟨_, _, h, -, he⟩ := relay_cases d s <;> simp [he, h]

theorem pending_relay (h : d.process.isSome = true) (s : Signal) :
    (d.relay s).pending = d.pending := by
  obtain ⟨hn, -⟩ | ⟨_, -, -, he⟩ | ⟨_, _, -, -, he⟩ := relay_cases d s
  · simp [hn] at h
  · rw [he]
  · rw [he]

theorem arrive_of_handled (h : s ∈ d.handlers) :
    d.arrive s = (d.relay s).call (.arrival s true) := by
  simp [arrive, receive, h]

theorem arrive_of_unhandled (h : s ∉ d.handlers) : d.arrive s = d.call (.arrival s false) := by
  simp [arrive, receive, h]

/-- What passing a signal on and recording an arrival preserve, any number of arrivals preserves. -/
theorem arriveAll_invariant {R : Delegate → Prop} (hr : ∀ d s, R d → R (d.relay s))
    (hc : ∀ d s handled, R d → R (d.call (.arrival s handled))) (h : R d) (ss : List Signal) :
    R (d.arriveAll ss) := by
  induction ss generalizing d with
  | nil => exact h
  | cons s ss ih =>
    apply ih
    by_cases hs : s ∈ d.handlers
    · rw [arrive_of_handled hs]
      exact hc _ _ _ (hr _ _ h)
    · rw [arrive_of_unhandled hs]
      exact hc _ _ _ h

theorem foldl_relay_invariant {R : Delegate → Prop} (hr : ∀ d s, R d → R (d.relay s)) (h : R d)
    (ss : List Signal) : R (ss.foldl relay d) := by
  induction ss generalizing d with
  | nil => exact h
  | cons s ss ih => exact ih (hr _ _ h)

@[simp]
theorem handlers_arriveAll (d : Delegate) (ss : List Signal) :
    (d.arriveAll ss).handlers = d.handlers :=
  arriveAll_invariant (R := fun e => e.handlers = d.handlers) (fun _ _ h => by simp [h])
    (fun _ _ _ h => h) rfl ss

@[simp]
theorem installed_arriveAll (d : Delegate) (ss : List Signal) :
    (d.arriveAll ss).installed = d.installed :=
  arriveAll_invariant (R := fun e => e.installed = d.installed) (fun _ _ h => by simp [h])
    (fun _ _ _ h => h) rfl ss

@[simp]
theorem isSome_process_arriveAll (d : Delegate) (ss : List Signal) :
    (d.arriveAll ss).process.isSome = d.process.isSome :=
  arriveAll_invariant (R := fun e => e.process.isSome = d.process.isSome)
    (fun _ _ h => by simp [h]) (fun _ _ _ h => h) rfl ss

@[simp]
theorem handlers_flush (d : Delegate) : d.flush.handlers = d.handlers :=
  foldl_relay_invariant (R := fun e => e.handlers = d.handlers) (fun _ _ h => by simp [h]) rfl _

@[simp]
theorem installed_flush (d : Delegate) : d.flush.installed = d.installed :=
  foldl_relay_invariant (R := fun e => e.installed = d.installed) (fun _ _ h => by simp [h]) rfl _

theorem arriveAll_of_quiet (h : d.handlers = []) (ss : List Signal) :
    d.arriveAll ss = { d with calls := d.calls ++ ss.map (.arrival · false) } := by
  induction ss generalizing d with
  | nil => simp [arriveAll]
  | cons s ss ih =>
    have hs : d.arrive s = d.call (.arrival s false) := arrive_of_unhandled (by simp [h])
    change (d.arrive s).arriveAll ss = _
    rw [hs, ih (show (d.call _).handlers = [] from h)]
    simp [call]

theorem installRelays_eq (d : Delegate) (ss : List Signal) :
    ∃ handlers installed, (d.installRelays ss).1 = { d with handlers, installed } := by
  induction ss generalizing d with
  | nil => exact ⟨_, _, rfl⟩
  | cons s ss ih =>
    rw [installRelays]
    split
    · obtain ⟨handlers, installed, h⟩ := ih (d.installRelay s)
      exact ⟨handlers, installed, h⟩
    · exact ⟨_, _, rfl⟩

theorem installRelays_of_catchable (d : Delegate) {ss : List Signal}
    (h : ∀ s ∈ ss, s.isCatchable = true) : (d.installRelays ss).2 = .ok () := by
  induction ss generalizing d with
  | nil => rfl
  | cons s ss ih =>
    rw [installRelays, if_pos (h s (by simp))]
    exact ih _ fun t ht => h t (by simp [ht])

/-- The supervisor as it asks for the child, with the relays in place. -/
def asking (d : Delegate) : Delegate :=
  (d.installRelays d.signals).1.call (.spawn d.path d.args)

theorem asking_eq (d : Delegate) : ∃ handlers installed, d.asking = { d with
    handlers, installed, calls := d.calls ++ [.spawn d.path d.args] } := by
  obtain ⟨handlers, installed, hi⟩ := installRelays_eq d d.signals
  exact ⟨handlers, installed, by rw [asking, hi]; rfl⟩

@[simp]
theorem process_asking (d : Delegate) : d.asking.process = d.process := by
  obtain ⟨_, _, he⟩ := asking_eq d
  rw [he]

@[simp]
theorem pending_asking (d : Delegate) : d.asking.pending = d.pending := by
  obtain ⟨_, _, he⟩ := asking_eq d
  rw [he]

theorem calls_asking (d : Delegate) : d.asking.calls = d.calls ++ [.spawn d.path d.args] := by
  obtain ⟨_, _, he⟩ := asking_eq d
  rw [he]

/-- Entering stops at a signal that cannot be caught; otherwise the child is asked for, whatever
    reaches the launcher meanwhile. -/
theorem enter_cases (d : Delegate) (a : SpawnAttempt) :
    (∃ e, (d.installRelays d.signals).2 = .error e ∧
      d.enter a = ((d.installRelays d.signals).1, .error e)) ∨
    ((d.installRelays d.signals).2 = .ok () ∧
      d.enter a = (d.asking.arriveAll a.arriving).spawned a.result) := by
  rw [enter, asking]
  split
  · rename_i e he
    exact .inl ⟨e, by rw [he], by rw [he]⟩
  · rename_i he
    obtain ⟨handlers, installed, hi⟩ := installRelays_eq d d.signals
    refine .inr ⟨by rw [he], ?_⟩
    rw [he] at hi ⊢
    subst hi
    rfl

theorem await_cases (d : Delegate) (p : ChildProcess) (ss : List Signal) :
    (d.await p ss).1 = (d.call .wait).arriveAll ss ∨
      ∃ code, (d.await p ss).1 = ((d.call .wait).arriveAll ss).endChild code := by
  rw [await]
  split
  · exact .inl rfl
  · exact .inr ⟨_, rfl⟩
  · exact .inl rfl

theorem wait_cases (d : Delegate) (ss : List Signal) :
    (d.wait ss).1 = d ∨ (d.wait ss).1 = (d.call .wait).arriveAll ss ∨
      ∃ code, (d.wait ss).1 = ((d.call .wait).arriveAll ss).endChild code := by
  rw [wait]
  split
  · exact .inl rfl
  · exact .inr (await_cases d _ ss)

/-- What no signal that is passed on shows, passing signals on leaves as it is. -/
theorem filterMap_calls_relay {α : Type} {f : Call → Option α} (hf : ∀ s, f (.signal s) = none)
    (d : Delegate) (s : Signal) : (d.relay s).calls.filterMap f = d.calls.filterMap f := by
  obtain ⟨-, he⟩ | ⟨_, -, -, he⟩ | ⟨_, _, -, -, he⟩ := relay_cases d s <;> simp [he, hf]

theorem filterMap_calls_flush {α : Type} {f : Call → Option α} (hf : ∀ s, f (.signal s) = none)
    (d : Delegate) : d.flush.calls.filterMap f = d.calls.filterMap f :=
  foldl_relay_invariant (R := fun e => e.calls.filterMap f = d.calls.filterMap f)
    (fun e s h => (filterMap_calls_relay hf e s).trans h) rfl d.pending

theorem filterMap_calls_spawned {α : Type} {f : Call → Option α} (hf : ∀ s, f (.signal s) = none)
    (d : Delegate) (r : SpawnResult) : (d.spawned r).1.calls.filterMap f = d.calls.filterMap f := by
  cases r with
  | started p => exact filterMap_calls_flush hf _
  | refused reason => rfl
  | broken text => rfl

/-- Every handler stands in the record of the supervisor. -/
def OnRecord (d : Delegate) : Prop := ∀ s ∈ d.handlers, s ∈ d.installed

theorem OnRecord.congr {e : Delegate} (h : d.OnRecord) (hh : e.handlers = d.handlers)
    (hi : e.installed = d.installed) : e.OnRecord := by
  simpa [OnRecord, hh, hi] using h

theorem OnRecord.installRelays (h : d.OnRecord) (ss : List Signal) :
    (d.installRelays ss).1.OnRecord := by
  induction ss generalizing d with
  | nil => exact h
  | cons s ss ih =>
    rw [Delegate.installRelays]
    split
    · apply ih
      intro t ht
      have ht : t = s ∨ t ∈ d.handlers := mem_addHandler.mp ht
      have hi : t ∈ d.installed ++ [s] := by
        rcases ht with rfl | ht
        · simp
        · simp [h t ht]
      exact hi
    · exact h

theorem handlers_removeRelays (h : d.OnRecord) : d.removeRelays.handlers = [] :=
  List.eq_nil_iff_forall_not_mem.mpr fun s hs =>
    (mem_handlers_removeRelays.mp hs).2 (h s (mem_handlers_removeRelays.mp hs).1)

theorem OnRecord.removeRelays (h : d.OnRecord) : d.removeRelays.OnRecord := by
  simp [OnRecord, handlers_removeRelays h]

theorem OnRecord.spawned (h : d.OnRecord) (r : SpawnResult) : (d.spawned r).1.OnRecord := by
  cases r with
  | started p => exact h.congr (handlers_flush _) (installed_flush _)
  | refused reason => exact h.removeRelays
  | broken text => exact h

theorem OnRecord.enter (h : d.OnRecord) (a : SpawnAttempt) : (d.enter a).1.OnRecord := by
  have hi := h.installRelays d.signals
  obtain ⟨_, -, he⟩ | ⟨-, he⟩ := enter_cases d a
  · rw [he]
    exact hi
  · have hc : d.asking.OnRecord := hi
    rw [he]
    exact (hc.congr (handlers_arriveAll _ _) (installed_arriveAll _ _)).spawned _

theorem OnRecord.wait (h : d.OnRecord) (ss : List Signal) : (d.wait ss).1.OnRecord := by
  have hc : ((d.call .wait).arriveAll ss).OnRecord :=
    h.congr (handlers_arriveAll _ _) (installed_arriveAll _ _)
  obtain he | he | ⟨code, he⟩ := wait_cases d ss
  · rw [he]
    exact h
  · rw [he]
    exact hc
  · rw [he]
    exact hc

end GatewayLauncher.Delegate

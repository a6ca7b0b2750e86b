import GatewayLauncher.Proofs.Delegate.Frame

namespace GatewayLauncher

def Call.quietWait (ss : List Signal) : List Call := .wait :: ss.map (.arrival · false)

/-- How the end of a running child turns out. -/
structure Closing where
  calls : List Call
  returnCode : Option Int
  outcome : Except DelegateError Unit

namespace Child

def killing (c : Child) (arriving : List Signal) : Closing :=
  match c.onKill with
  | .gone => ⟨[.kill], none, .error .gone⟩
  | .ends code => ⟨.kill :: Call.quietWait arriving, some code, .ok ()⟩
  | .ignores => ⟨.kill :: Call.quietWait arriving, none, .error .endless⟩

def closing (c : Child) (a : Delegate.ShutdownArrivals) : Closing :=
  let terminated := .terminate :: Call.quietWait a.grace
  match c.onTerminate, c.exit with
  | .gone, _ => ⟨[.terminate], none, .ok ()⟩
  | .ends code, _ => ⟨terminated, some code, .ok ()⟩
  | .ignores, some code => ⟨terminated, some code, .ok ()⟩
  | .ignores, none => { c.killing a.afterKill with calls := terminated ++ (c.killing a.afterKill).calls }

/-- The child outlives its termination and vanishes before it is killed. -/
def SlipsAway (c : Child) : Prop := c.onTerminate = .ignores ∧ c.exit = none ∧ c.onKill = .gone

def Escapes (c : Child) : Prop := c.onTerminate = .gone ∨ c.SlipsAway

variable {c : Child}

theorem outcome_closing (hk : c.onKill ≠ .ignores) (a : Delegate.ShutdownArrivals) :
    (c.SlipsAway → (c.closing a).outcome = .error .gone) ∧
    (¬c.SlipsAway → (c.closing a).outcome = .ok ()) := by
  cases ht : c.onTerminate <;> cases he : c.exit <;> cases hc : c.onKill <;>
    simp_all [closing, killing, SlipsAway]

theorem returnCode_closing (hk : c.onKill ≠ .ignores) (a : Delegate.ShutdownArrivals) :
    (c.closing a).returnCode = none ↔ c.Escapes := by
  cases ht : c.onTerminate <;> cases he : c.exit <;> cases hc : c.onKill <;>
    simp_all [closing, killing, SlipsAway, Escapes]

theorem wait_mem_closing (h : ¬c.Escapes) (a : Delegate.ShutdownArrivals) :
    Call.wait ∈ (c.closing a).calls := by
  cases ht : c.onTerminate <;> cases he : c.exit <;> cases hc : c.onKill <;>
    simp_all [closing, killing, SlipsAway, Escapes, Call.quietWait]

/-- The end of a child consists of waits, a termination and a kill, with signals that nobody
    handles. -/
theorem filterMap_calls_closing {α : Type} {f : Call → Option α} (hw : f .wait = none)
    (ha : ∀ s, f (.arrival s false) = none) (ht : f .terminate = none) (hk : f .kill = none)
    (c : Child) (a : Delegate.ShutdownArrivals) : (c.closing a).calls.filterMap f = [] := by
  have hq (ss : List Signal) : (Call.quietWait ss).filterMap f = [] := by
    simp [Call.quietWait, hw, ha]
  cases hc : c.onTerminate <;> cases he : c.exit <;> cases hd : c.onKill <;>
    simp [closing, killing, hc, he, hd, hq, ht, hk]

end Child

namespace Delegate

variable {d : Delegate} {p : ChildProcess}

theorem await_of_ended {q : ChildProcess} {code : Int} (hh : d.handlers = [])
    (hd : d.process = some q) (hq : q.returnCode = some code) (p : ChildProcess)
    (ss : List Signal) :
    d.await p ss = ({ d with calls := d.calls ++ Call.quietWait ss }, .ok code) := by
  have he : (d.call .wait).arriveAll ss = { d with calls := d.calls ++ Call.quietWait ss } := by
    rw [arriveAll_of_quiet (show (d.call .wait).handlers = [] from hh)]
    simp [call, Call.quietWait]
  simp [await, he, returnCode, hd, hq]

theorem await_of_running (hh : d.handlers = []) (hd : d.process = some p)
    (hp : p.returnCode = none) (ss : List Signal) :
    d.await p ss = match p.child.exit with
      | some code => ({ d with
          process := some (p.ended code)
          calls := d.calls ++ Call.quietWait ss }, .ok code)
      | none => ({ d with calls := d.calls ++ Call.quietWait ss }, .error .endless) := by
  have he : (d.call .wait).arriveAll ss = { d with calls := d.calls ++ Call.quietWait ss } := by
    rw [arriveAll_of_quiet (show (d.call .wait).handlers = [] from hh)]
    simp [call, Call.quietWait]
  cases hx : p.child.exit <;> simp [await, he, returnCode, hd, hp, hx, endChild]

/-- What a closing says of a shutdown: all else stays as it is. -/
def Closed (d : Delegate) (p : ChildProcess) (c : Closing)
    (r : Delegate × Except DelegateError Unit) : Prop :=
  ∃ notices, r = ({ d with
    process := some { p with returnCode := c.returnCode }
    calls := d.calls ++ c.calls
    notices := notices }, c.outcome)

def terminated (d : Delegate) (p : ChildProcess) : Delegate :=
  (d.note .debug s!"Terminating still-running delegate pid {p.pid}").strike .terminate
    p.child.onTerminate

def killed (d : Delegate) (p : ChildProcess) : Delegate :=
  (d.note .warning s!"Delegate pid {p.pid} ignored SIGTERM, killing it").strike .kill
    p.child.onKill

theorem terminated_eq (hd : d.process = some p) : d.terminated p = { d with
    process := some (p.take p.child.onTerminate)
    calls := d.calls ++ [.terminate]
    notices := (d.terminated p).notices } := by
  simp [terminated, strike, note, call, hd]

theorem killed_eq (hd : d.process = some p) : d.killed p = { d with
    process := some (p.take p.child.onKill)
    calls := d.calls ++ [.kill]
    notices := (d.killed p).notices } := by
  simp [killed, strike, note, call, hd]

theorem killOff_of_gone (hk : p.child.onKill = .gone) (ss : List Signal) :
    d.killOff p ss = (d.killed p, .error .gone) := by
  unfold killOff
  exact if_pos hk

theorem killOff_of_await {e : Delegate} {r : Except DelegateError Int}
    (hk : p.child.onKill ≠ .gone) {ss : List Signal} (hw : (d.killed p).await p ss = (e, r)) :
    d.killOff p ss = (e, r.map fun _ => ()) := by
  unfold killed at hw
  cases r <;> simp only [killOff, hk, if_false, hw] <;> rfl

theorem shutdown_of_gone (ht : p.child.onTerminate = .gone) (a : ShutdownArrivals) :
    d.shutdown p a = (d.terminated p, .ok ()) := by
  unfold shutdown
  exact if_pos ht

theorem shutdown_of_await_ok {e : Delegate} {code : Int} (ht : p.child.onTerminate ≠ .gone)
    {a : ShutdownArrivals} (hw : (d.terminated p).await p a.grace = (e, .ok code)) :
    d.shutdown p a = (e, .ok ()) := by
  unfold terminated at hw
  simp only [shutdown, ht, if_false, hw]

theorem shutdown_of_await_error {e : Delegate} {x : DelegateError}
    (ht : p.child.onTerminate ≠ .gone) {a : ShutdownArrivals}
    (hw : (d.terminated p).await p a.grace = (e, .error x)) :
    d.shutdown p a = e.killOff p a.afterKill := by
  unfold terminated at hw
  simp only [shutdown, ht, if_false, hw]

theorem closed_killOff (hh : d.handlers = []) (hd : d.process = some p)
    (hp : p.returnCode = none) (hx : p.child.exit = none) (ss : List Signal) :
    d.Closed p (p.child.killing ss) (d.killOff p ss) := by
  have he := killed_eq hd
  refine ⟨(d.killed p).notices, ?_⟩
  cases hk : p.child.onKill with
  | gone =>
    rw [killOff_of_gone hk, he]
    simp [Child.killing, hk, ChildProcess.take, ← hp]
  | ends code =>
    have hc : (p.take p.child.onKill).returnCode = some code := by
      simp [hk, ChildProcess.take, ChildProcess.ended, hp]
    have hw := await_of_ended (d := d.killed p) hh (by rw [he]) hc p ss
    rw [killOff_of_await (by simp [hk]) hw, he]
    simp [Child.killing, hk, ChildProcess.take, ChildProcess.ended, hp, Except.map]
  | ignores =>
    have hw := await_of_running (d := d.killed p) hh (by rw [he, hk]; rfl) hp ss
    rw [hx] at hw
    rw [killOff_of_await (by simp [hk]) hw, he]
    simp [Child.killing, hk, ChildProcess.take, ← hp, Except.map]

theorem closed_shutdown (hh : d.handlers = []) (hd : d.process = some p)
    (hp : p.returnCode = none) (a : ShutdownArrivals) :
    d.Closed p (p.child.closing a) (d.shutdown p a) := by
  have he := terminated_eq hd
  cases ht : p.child.onTerminate with
  | gone =>
    refine ⟨(d.terminated p).notices, ?_⟩
    rw [shutdown_of_gone ht, he]
    simp [Child.closing, ht, ChildProcess.take, ← hp]
  | ends code =>
    have hc : (p.take p.child.onTerminate).returnCode = some code := by
      simp [ht, ChildProcess.take, ChildProcess.ended, hp]
    have hw := await_of_ended (d := d.terminated p) hh (by rw [he]) hc p a.grace
    refine ⟨(d.terminated p).notices, ?_⟩
    rw [shutdown_of_await_ok (by simp [ht]) hw, he]
    simp [Child.closing, ht, ChildProcess.take, ChildProcess.ended, hp]
  | ignores =>
    have hw := await_of_running (d := d.terminated p) hh (by rw [he, ht]; rfl) hp a.grace
    cases hx : p.child.exit with
    | some code =>
      rw [hx] at hw
      refine ⟨(d.terminated p).notices, ?_⟩
      rw [shutdown_of_await_ok (by simp [ht]) hw, he]
      simp [Child.closing, ht, hx, ChildProcess.ended, hp]
    | none =>
      -- The child has outlived the wait, and so it is killed.
      rw [hx] at hw
      obtain ⟨notices, hk⟩ := closed_killOff
        (d := { d.terminated p with calls := (d.terminated p).calls ++ Call.quietWait a.grace }) hh
        (by rw [he, ht]; rfl) hp hx a.afterKill
      refine ⟨notices, ?_⟩
      rw [shutdown_of_await_error (by simp [ht]) hw, hk, he]
      simp [Child.closing, ht, hx]

theorem leave_of_not_running (h : ∀ p, d.process = some p → p.isRunning = false)
    (a : ShutdownArrivals) : d.leave a = (d.removeRelays, .ok false) := by
  obtain hd | ⟨p, hd⟩ := Option.eq_none_or_eq_some d.process
  · simp [leave, show d.removeRelays.process = none from hd]
  · simp [leave, show d.removeRelays.process = some p from hd, h p hd]

theorem leave_of_running (ho : d.OnRecord) (hd : d.process = some p) (hp : p.isRunning = true)
    (a : ShutdownArrivals) :
    ∃ notices, d.leave a = ({ d with
      process := some { p with returnCode := (p.child.closing a).returnCode }
      installed := []
      handlers := []
      calls := d.calls ++ (p.child.closing a).calls
      notices := notices }, (p.child.closing a).outcome.map fun _ => false) := by
  have hr : p.returnCode = none := by simpa [ChildProcess.isRunning] using hp
  obtain ⟨notices, hs⟩ := closed_shutdown (handlers_removeRelays ho)
    (show d.removeRelays.process = some p from hd) hr a
  refine ⟨notices, ?_⟩
  simp only [leave, show d.removeRelays.process = some p from hd, hp, if_true, hs]
  cases (p.child.closing a).outcome <;> simp [removeRelays, Except.map] <;> exact ho

theorem leave_cases (ho : d.OnRecord) (a : ShutdownArrivals) :
    ((∀ p, d.process = some p → p.isRunning = false) ∧ d.leave a = (d.removeRelays, .ok false)) ∨
    ∃ p notices, d.process = some p ∧ p.isRunning = true ∧ d.leave a = ({ d with
      process := some { p with returnCode := (p.child.closing a).returnCode }
      installed := []
      handlers := []
      calls := d.calls ++ (p.child.closing a).calls
      notices := notices }, (p.child.closing a).outcome.map fun _ => false) := by
  by_cases hr : ∃ p, d.process = some p ∧ p.isRunning = true
  · obtain ⟨p, hd, hp⟩ := hr
    obtain ⟨notices, hl⟩ := leave_of_running ho hd hp a
    exact .inr ⟨p, notices, hd, hp, hl⟩
  · have hn : ∀ p, d.process = some p → p.isRunning = false := by simpa using hr
    exact .inl ⟨hn, leave_of_not_running hn a⟩

@[simp]
theorem step_enter (d : Delegate) (a : SpawnAttempt) :
    (d.step (.enter a)).1 = (d.enter a).1 := by
  simp only [step]
  split <;> rename_i he <;> rw [he]

@[simp]
theorem step_wait (d : Delegate) (ss : List Signal) : (d.step (.wait ss)).1 = (d.wait ss).1 := by
  simp only [step]
  split <;> rename_i he <;> rw [he]

@[simp]
theorem step_leave (d : Delegate) (a : ShutdownArrivals) :
    (d.step (.leave a)).1 = (d.leave a).1 := by
  simp only [step]
  split <;> rename_i he <;> rw [he]

@[simp]
theorem step_receive (d : Delegate) (s : Signal) : (d.step (.receive s)).1 = d.receive s := rfl

@[simp]
theorem step_relay (d : Delegate) (s : Signal) : (d.step (.relay s)).1 = d.relay s := rfl

@[simp]
theorem step_childEnds (d : Delegate) (code : Int) :
    (d.step (.childEnds code)).1 = d.endChild code := by
  rw [step]

@[simp]
theorem step_childTurns (d : Delegate) (c : Child) :
    (d.step (.childTurns c)).1 = d.turnChild c := by
  rw [step]

theorem OnRecord.leave (h : d.OnRecord) (a : ShutdownArrivals) : (d.leave a).1.OnRecord := by
  obtain ⟨-, he⟩ | ⟨p, notices, -, -, he⟩ := leave_cases h a
  · rw [he]
    exact h.removeRelays
  · simp [he, OnRecord]

theorem OnRecord.receive (h : d.OnRecord) (s : Signal) : (d.receive s).OnRecord := by
  rw [Delegate.receive]
  split
  · exact h.congr (handlers_relay d s) (installed_relay d s)
  · exact h

theorem OnRecord.step (h : d.OnRecord) (s : Step) : (d.step s).1.OnRecord := by
  cases s with
  | enter a => rw [step_enter]; exact h.enter a
  | wait ss => rw [step_wait]; exact h.wait ss
  | leave a => rw [step_leave]; exact h.leave a
  | receive s => exact h.receive s
  | relay s => exact h.congr (handlers_relay d s) (installed_relay d s)
  | childEnds code => exact h
  | childTurns c => exact h

theorem OnRecord.after (h : d.OnRecord) (steps : List Step) : (d.after steps).OnRecord := by
  induction steps generalizing d with
  | nil => exact h
  | cons s steps ih => exact ih (h.step s)

theorem onRecord_fresh (path : Path) (args : List String) (signals : List Signal) :
    ({ path, args, signals } : Delegate).OnRecord := by
  simp [OnRecord]

/-- After any history the child is reaped by leaving, unless it vanishes under its termination, or
    under the kill that follows an ignored termination. -/
theorem reaped_unless_escaped (path : Path) (args : List String) (signals : List Signal)
    (steps : List Step) (arriving : ShutdownArrivals) {p : ChildProcess}
    (hd : (({ path, args, signals } : Delegate).after steps).process = some p)
    (hk : p.child.onKill ≠ .ignores) :
    let d := ({ path, args, signals } : Delegate).after steps
    ((d.leave arriving).1.returnCode = none ↔ p.isRunning = true ∧ p.child.Escapes) ∧
    (p.isRunning = true → ¬p.child.Escapes →
      ∃ calls, (d.leave arriving).1.calls = d.calls ++ calls ∧ .wait ∈ calls) := by
  intro d
  have ho : d.OnRecord := (onRecord_fresh path args signals).after steps
  cases hp : p.isRunning with
  | false =>
    have hl := leave_of_not_running (d := d) (by simp [d, hd, hp]) arriving
    have hr : p.returnCode ≠ none := by
      intro h
      simp [ChildProcess.isRunning, h] at hp
    have hc : d.removeRelays.returnCode = p.returnCode := by
      simp [returnCode, removeRelays, d, hd]
    simp [hl, hc, hr]
  | true =>
    obtain ⟨notices, hl⟩ := leave_of_running ho hd hp arriving
    rw [hl]
    refine ⟨?_, fun _ he => ⟨_, rfl, Child.wait_mem_closing he arriving⟩⟩
    simpa [returnCode] using Child.returnCode_closing hk arriving

theorem stubborn_child_reaped :
    let d := ({ path := ⟨"", ["gw"]⟩, args := [] } : Delegate).after
      [.enter { result := .started { pid := 1, child := { exit := none, onTerminate := .ignores } } },
        .receive .interrupt]
    (d.leave {}).1.returnCode ≠ none ∧
      ∃ calls, (d.leave {}).1.calls = d.calls ++ calls ∧ .wait ∈ calls := by
  have h := reaped_unless_escaped ⟨"", ["gw"]⟩ [] Signal.relayed
    [.enter { result := .started { pid := 1, child := { exit := none, onTerminate := .ignores } } },
      .receive .interrupt] {} rfl (by decide)
  have he : ¬Child.Escapes { exit := none, onTerminate := .ignores } := by
    simp [Child.Escapes, Child.SlipsAway]
  exact ⟨fun hn => he (h.1.mp hn).2, h.2 rfl he⟩

/-- A child that has vanished when it comes to be terminated is left without its return code, though
    it would have ended by itself. -/
theorem vanished_child_unreaped :
    ¬∀ (path : Path) (args : List String) (signals : List Signal) (steps : List Step)
      (arriving : ShutdownArrivals) (p : ChildProcess),
      (({ path, args, signals } : Delegate).after steps).process = some p →
      p.child.onKill ≠ .ignores →
      ((({ path, args, signals } : Delegate).after steps).leave arriving).1.returnCode ≠ none := by
  intro h
  exact h ⟨"", ["gw"]⟩ [] Signal.relayed
    [.enter { result := .started { pid := 1, child := { onTerminate := .gone } } }] {} _ rfl
    (by decide) rfl

/-- What the caller of a block sees. An error of leaving the block comes before the outcome of the
    block itself; an error of the block is swallowed if leaving answers so. -/
def seen {ε α : Type} (own : Except ε α) :
    Except DelegateError Bool → Except (DelegateError ⊕ ε) (Option α)
  | .error e => .error (.inl e)
  | .ok swallowed =>
    match own with
    | .ok a => .ok (some a)
    | .error e => if swallowed then .ok none else .error (.inr e)

/-- After any history leaving answers that nothing is swallowed, and the caller sees the outcome of
    the block. Only if a running child outlives its termination and vanishes before it is killed
    does leaving fail, whatever the outcome of the block. -/
theorem seen_leave (path : Path) (args : List String) (signals : List Signal) (steps : List Step)
    (arriving : ShutdownArrivals)
    (hk : ∀ p, (({ path, args, signals } : Delegate).after steps).process = some p →
      p.child.onKill ≠ .ignores)
    {ε α : Type} (own : Except ε α) :
    let d := ({ path, args, signals } : Delegate).after steps
    let lost := ∃ p, d.process = some p ∧ p.isRunning = true ∧ p.child.SlipsAway
    (lost → (d.leave arriving).2 = .error .gone ∧
      seen own (d.leave arriving).2 = .error (.inl .gone)) ∧
    (¬lost → (d.leave arriving).2 = .ok false ∧
      seen own (d.leave arriving).2 = (own.mapError .inr).map some) := by
  intro d lost
  have ho : d.OnRecord := (onRecord_fresh path args signals).after steps
  constructor
  · rintro ⟨p, hd, hp, hs⟩
    obtain ⟨notices, hl⟩ := leave_of_running ho hd hp arriving
    have hc := (Child.outcome_closing (hk p hd) arriving).1 hs
    simp [hl, hc, Except.map, seen]
  · intro hn
    have hl : (d.leave arriving).2 = .ok false := by
      by_cases hr : ∃ p, d.process = some p ∧ p.isRunning = true
      · obtain ⟨p, hd, hp⟩ := hr
        obtain ⟨notices, hl⟩ := leave_of_running ho hd hp arriving
        have hc := (Child.outcome_closing (hk p hd) arriving).2 fun hs => hn ⟨p, hd, hp, hs⟩
        simp [hl, hc, Except.map]
      · have hs : ∀ p, d.process = some p → p.isRunning = false := by simpa using hr
        rw [leave_of_not_running hs]
    refine ⟨hl, ?_⟩
    rw [hl]
    cases own <;> rfl

theorem seen_error_of_stubborn_child :
    let d := ({ path := ⟨"", ["gw"]⟩, args := [] } : Delegate).after
      [.enter { result := .started { pid := 1, child := { exit := none, onTerminate := .ignores } } }]
    seen (.error "cancelled" : Except String Nat) (d.leave {}).2 = .error (.inr "cancelled") := by
  have h := seen_leave ⟨"", ["gw"]⟩ [] Signal.relayed
    [.enter { result := .started { pid := 1, child := { exit := none, onTerminate := .ignores } } }]
    {} (by rintro p ⟨⟩; decide) (.error "cancelled" : Except String Nat)
  refine (h.2 ?_).2
  rintro ⟨p, ⟨⟩, -, hs⟩
  exact absurd hs.2.2 (by decide)

/-- A child that vanishes before it is killed makes leaving fail. -/
theorem leave_of_vanished_child_fails :
    ¬∀ (path : Path) (args : List String) (signals : List Signal) (steps : List Step)
      (arriving : ShutdownArrivals),
      (∀ p, (({ path, args, signals } : Delegate).after steps).process = some p →
        p.child.onKill ≠ .ignores) →
      ((({ path, args, signals } : Delegate).after steps).leave arriving).2 = .ok false := by
  intro h
  have hf := h ⟨"", ["gw"]⟩ [] Signal.relayed
    [.enter { result := .started {
      pid := 1
      child := { exit := none, onTerminate := .ignores, onKill := .gone } } }] {}
    (by rintro p ⟨⟩; decide)
  exact absurd hf (by intro hc; cases hc)

end Delegate

end GatewayLauncher

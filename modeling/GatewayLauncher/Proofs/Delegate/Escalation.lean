import GatewayLauncher.Proofs.Delegate.Consistency
import GatewayLauncher.Proofs.Delegate.Relaying

namespace GatewayLauncher

/-- Whether a call is made on a child. The other calls record what reaches the launcher. -/
def Call.isDeed : Call → Bool
  | .arrival _ _ => false
  | _ => true

def Step.isEnter : Step → Bool
  | .enter _ => true
  | _ => false

/-- Whether a signal is passed on without having reached the launcher. -/
def Step.isDirect : Step → Bool
  | .relay _ => true
  | _ => false

namespace Child

/-- The child still runs when the wait behind its termination is over. -/
def Outlasts (c : Child) : Prop := c.onTerminate = .ignores ∧ c.exit = none

instance (c : Child) : Decidable c.Outlasts := by unfold Outlasts; infer_instance

def escalation (c : Child) : List Call :=
  .terminate ::
    if c.onTerminate = .gone then []
    else .wait ::
      if c.Outlasts then .kill :: if c.onKill = .gone then [] else [.wait]
      else []

theorem filter_quietWait (ss : List Signal) :
    (Call.quietWait ss).filter Call.isDeed = [.wait] := by
  have ha : (ss.map (Call.arrival · false)).filter Call.isDeed = [] := by
    rw [List.filter_eq_nil_iff]
    intro c hc
    obtain ⟨s, -, rfl⟩ := List.mem_map.mp hc
    simp [Call.isDeed]
  rw [Call.quietWait, List.filter_cons_of_pos rfl, ha]

theorem filter_killing (c : Child) (ss : List Signal) :
    (c.killing ss).calls.filter Call.isDeed =
      .kill :: if c.onKill = .gone then [] else [.wait] := by
  have hd : Call.isDeed .kill = true := rfl
  cases hk : c.onKill with
  | gone => simp [killing, hk, hd]
  | ends code => simp [killing, hk, hd, filter_quietWait]
  | ignores => simp [killing, hk, hd, filter_quietWait]

theorem filter_closing (c : Child) (a : Delegate.ShutdownArrivals) :
    (c.closing a).calls.filter Call.isDeed = c.escalation := by
  have ht : Call.isDeed .terminate = true := rfl
  cases hc : c.onTerminate with
  | gone => simp [closing, escalation, hc, ht]
  | ends code => simp [closing, escalation, Outlasts, hc, ht, filter_quietWait]
  | ignores =>
    cases he : c.exit with
    | some code =>
      simp [closing, escalation, Outlasts, hc, he, ht, filter_quietWait]
    | none =>
      have hk := c.filter_killing a.afterKill
      simp [closing, escalation, Outlasts, hc, he, ht, filter_quietWait, hk]

end Child

namespace Delegate

variable {d : Delegate}

def ending (d : Delegate) : List Call :=
  match d.process with
  | none => []
  | some p => if p.isRunning then p.child.escalation else []

theorem calls_leave (ho : d.OnRecord) (a : ShutdownArrivals) :
    ∃ calls, (d.leave a).1.calls = d.calls ++ calls ∧ calls.filter Call.isDeed = d.ending := by
  obtain ⟨hn, he⟩ | ⟨p, notices, hd, hp, he⟩ := leave_cases ho a
  · refine ⟨[], ?_, ?_⟩
    · rw [he, List.append_nil]
      rfl
    · cases hd : d.process with
      | none => simp [ending, hd]
      | some p => simp [ending, hd, hn p hd]
  · refine ⟨(p.child.closing a).calls, by rw [he], ?_⟩
    rw [Child.filter_closing]
    simp [ending, hd, hp]

theorem sent_leave (ho : d.OnRecord) (a : ShutdownArrivals) : (d.leave a).1.sent = d.sent := by
  obtain ⟨-, he⟩ | ⟨p, notices, -, -, he⟩ := leave_cases ho a
  · rw [he]
    rfl
  · have hc : (p.child.closing a).calls.filterMap Call.sent? = [] :=
      Child.filterMap_calls_closing rfl (fun _ => rfl) rfl rfl p.child a
    simp [he, sent, hc]

theorem onRecord_of_quiet (h : d.handlers = []) : d.OnRecord := by
  intro s hs
  rw [h] at hs
  cases hs

theorem receive_of_quiet (h : d.handlers = []) (s : Signal) : d.receive s = d := by
  simp [receive, h]

/-- Only entering puts relays in place. -/
theorem handlers_step_of_quiet (h : d.handlers = []) {s : Step} (hs : s.isEnter = false) :
    (d.step s).1.handlers = [] := by
  cases s with
  | enter a => cases hs
  | wait ss =>
    have hw : ((d.call .wait).arriveAll ss).handlers = [] := (handlers_arriveAll _ _).trans h
    rw [step_wait]
    obtain he | he | ⟨code, he⟩ := wait_cases d ss
    · rw [he, h]
    · rw [he, hw]
    · rw [he]
      exact hw
  | leave a =>
    rw [step_leave]
    exact (relays_leave (onRecord_of_quiet h) a).1
  | receive s => rw [step_receive, receive_of_quiet h, h]
  | relay s => rw [step_relay, handlers_relay, h]
  | childEnds code => exact h
  | childTurns c => exact h

theorem handlers_after_of_quiet (h : d.handlers = []) {steps : List Step}
    (hs : ∀ s ∈ steps, s.isEnter = false) : (d.after steps).handlers = [] := by
  induction steps generalizing d with
  | nil => exact h
  | cons s steps ih =>
    obtain ⟨hn, hr⟩ := List.forall_mem_cons.mp hs
    exact ih (handlers_step_of_quiet h hn) hr

theorem sent_step_of_quiet (h : d.handlers = []) {s : Step} (hs : s.isEnter = false)
    (hd : s.isDirect = false) : (d.step s).1.sent = d.sent := by
  cases s with
  | enter a => cases hs
  | wait ss =>
    have hw : ((d.call .wait).arriveAll ss).sent = d.sent := by
      have ha : (ss.map (Call.arrival · false)).filterMap Call.sent? = [] := by
        simp [Call.sent?]
      rw [arriveAll_of_quiet (show (d.call .wait).handlers = [] from h)]
      simp [sent, call, Call.sent?, List.filterMap_cons, ha]
    rw [step_wait]
    obtain he | he | ⟨code, he⟩ := wait_cases d ss
    · rw [he]
    · rw [he, hw]
    · rw [he]
      exact hw
  | leave a =>
    rw [step_leave]
    exact sent_leave (onRecord_of_quiet h) a
  | receive s => rw [step_receive, receive_of_quiet h]
  | relay s => cases hd
  | childEnds code => rfl
  | childTurns c => rfl

/-- After any history leaving does to the child what its behaviour calls for. No signal is sent
    meanwhile, and none that reaches the launcher later is before it is entered again. -/
theorem leaving_escalates (path : Path) (args : List String) (signals : List Signal)
    (steps : List Step) (arriving : ShutdownArrivals) :
    let d := ({ path, args, signals } : Delegate).after steps
    let e := (d.leave arriving).1
    (∃ calls, e.calls = d.calls ++ calls ∧ calls.filter Call.isDeed = d.ending) ∧
    e.sent = d.sent ∧
    ∀ more : List Step, (∀ s ∈ more, s.isEnter = false) →
      (e.after more).handlers = [] ∧
      ∀ s : Step, s.isEnter = false → s.isDirect = false →
        ((e.after more).step s).1.sent = (e.after more).sent := by
  intro d e
  have ho : d.OnRecord := (onRecord_fresh path args signals).after steps
  refine ⟨calls_leave ho arriving, sent_leave ho arriving, ?_⟩
  intro more hm
  have hq : (e.after more).handlers = [] :=
    handlers_after_of_quiet (relays_leave ho arriving).1 hm
  refine ⟨hq, ?_⟩
  intro s hs hd
  exact sent_step_of_quiet hq hs hd

theorem leaving_escalates_to_kill :
    let d := ({ path := ⟨"", ["gw"]⟩, args := [] } : Delegate).after
      [.enter { result := .started { pid := 1, child := { exit := none, onTerminate := .ignores } } },
        .receive .interrupt]
    let e := (d.leave { grace := [.interrupt], afterKill := [.terminate] }).1
    (∃ calls, e.calls = d.calls ++ calls ∧
      calls.filter Call.isDeed = [.terminate, .wait, .kill, .wait]) ∧
    e.sent = [.interrupt] ∧
    ((e.after [.wait [.terminate]]).step (.receive .interrupt)).1.sent =
      (e.after [.wait [.terminate]]).sent := by
  intro d e
  obtain ⟨hc, hs, hm⟩ := leaving_escalates ⟨"", ["gw"]⟩ [] Signal.relayed
    [.enter { result := .started { pid := 1, child := { exit := none, onTerminate := .ignores } } },
      .receive .interrupt] { grace := [.interrupt], afterKill := [.terminate] }
  obtain ⟨-, hr⟩ := hm [.wait [.terminate]] (by decide)
  exact ⟨hc, hs, hr (.receive .interrupt) rfl rfl⟩

end Delegate

end GatewayLauncher

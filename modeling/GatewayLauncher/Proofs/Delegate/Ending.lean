import GatewayLauncher.Delegate.History
import GatewayLauncher.Proofs.Delegate.Leaving
import GatewayLauncher.Proofs.Delegate.Relaying

namespace GatewayLauncher

def Call.spawn? : Call → Option (Path × List String)
  | .spawn path args => some (path, args)
  | _ => none

namespace Delegate

def spawns (d : Delegate) : List (Path × List String) := d.calls.filterMap Call.spawn?

variable {d : Delegate}

theorem spawns_arriveAll (d : Delegate) (ss : List Signal) :
    (d.arriveAll ss).spawns = d.spawns :=
  arriveAll_invariant (R := fun e => e.spawns = d.spawns)
    (fun e s h => (filterMap_calls_relay (fun _ => rfl) e s).trans h)
    (fun e s _ h => by
      rw [← h]
      simp [spawns, call, List.filterMap_cons, Call.spawn?]) rfl ss

theorem spawns_enter (h : ∀ s ∈ d.signals, s.isCatchable = true) (a : SpawnAttempt) :
    (d.enter a).1.spawns = d.spawns ++ [(d.path, d.args)] := by
  have hk := installRelays_of_catchable d h
  have ha : d.asking.spawns = d.spawns ++ [(d.path, d.args)] := by
    simp [spawns, calls_asking, Call.spawn?]
  obtain ⟨x, hx, -⟩ | ⟨-, he⟩ := enter_cases d a
  · rw [hk] at hx
    cases hx
  · have hs := filterMap_calls_spawned (f := Call.spawn?) (fun _ => rfl)
      (d.asking.arriveAll a.arriving) a.result
    rw [he, ← ha, ← spawns_arriveAll d.asking a.arriving]
    exact hs

theorem spawns_wait (d : Delegate) (ss : List Signal) : (d.wait ss).1.spawns = d.spawns := by
  have hc : (d.call .wait).spawns = d.spawns := by
    simp [spawns, call, List.filterMap_cons, Call.spawn?]
  have hv : ((d.call .wait).arriveAll ss).spawns = d.spawns := by rw [spawns_arriveAll, hc]
  obtain he | he | ⟨code, he⟩ := wait_cases d ss
  · rw [he]
  · rw [he, hv]
  · rw [he, ← hv]
    rfl

theorem spawns_leave (ho : d.OnRecord) (a : ShutdownArrivals) :
    (d.leave a).1.spawns = d.spawns := by
  obtain ⟨-, he⟩ | ⟨p, notices, -, -, he⟩ := leave_cases ho a
  · rw [he]
    rfl
  · have hc : (p.child.closing a).calls.filterMap Call.spawn? = [] :=
      Child.filterMap_calls_closing rfl (fun _ => rfl) rfl rfl p.child a
    simp [he, spawns, hc]

theorem spawns_run (path : Path) (args : List String) (c : Course) :
    (run path args c).1.spawns = [(path, args)] := by
  have hk : ∀ s ∈ Signal.relayed, s.isCatchable = true := by decide
  have he : (({ path, args } : Delegate).enter c.attempt).1.spawns = [(path, args)] :=
    spawns_enter hk c.attempt
  have ho : (({ path, args } : Delegate).enter c.attempt).1.OnRecord :=
    (onRecord_fresh path args _).enter c.attempt
  rw [run, runToEnd]
  split
  · rename_i hx
    rwa [hx] at he
  · rename_i d hx
    rw [hx] at he ho
    have hl := spawns_leave (ho.wait c.duringWait) ⟨c.duringWait, c.duringWait⟩
    rw [spawns_wait, he] at hl
    dsimp only
    split <;> exact hl

end Delegate

namespace ChildProcess

/-- The process after some signals. Once it has ended it hears no more. -/
def hearAll (p : ChildProcess) (ss : List Signal) : ChildProcess :=
  ss.foldl (fun p s => if p.isRunning then p.hear s else p) p

theorem hearAll_append (p : ChildProcess) (ss ts : List Signal) :
    p.hearAll (ss ++ ts) = (p.hearAll ss).hearAll ts := List.foldl_append

@[simp]
theorem exit_hearAll (p : ChildProcess) (ss : List Signal) :
    (p.hearAll ss).child.exit = p.child.exit := by
  induction ss generalizing p with
  | nil => rfl
  | cons s ss ih =>
    have hs : (if p.isRunning then p.hear s else p).child.exit = p.child.exit := by
      split <;> rfl
    exact (ih _).trans hs

end ChildProcess

/-- The code that a child of this course ends with, if it is started and ends. -/
def Course.finalCode? (c : Course) : Option Int :=
  match c.attempt.result with
  | .started p =>
    let q := p.hearAll ((c.attempt.arriving ++ c.duringWait).filter (· ∈ Signal.relayed))
    q.returnCode.or q.child.exit
  | _ => none

theorem Course.started_of_finalCode? {c : Course} {code : Int} (h : c.finalCode? = some code) :
    ∃ p, c.attempt.result = .started p := by
  rw [finalCode?] at h
  split at h
  · rename_i p hp
    exact ⟨p, hp⟩
  · cases h

namespace Delegate

variable {d : Delegate} {p : ChildProcess}

theorem process_foldl_relay (h : d.process = some p) (ss : List Signal) :
    (ss.foldl relay d).process = some (p.hearAll ss) := by
  induction ss generalizing d p with
  | nil => exact h
  | cons s ss ih => exact ih (by rw [process_relay, h]; rfl)

theorem process_arriveAll (h : d.process = some p) (ss : List Signal) :
    (d.arriveAll ss).process = some (p.hearAll (ss.filter (· ∈ d.handlers))) := by
  induction ss generalizing d p with
  | nil => exact h
  | cons s ss ih =>
    have hh : (d.arrive s).handlers = d.handlers := handlers_arriveAll d [s]
    change ((d.arrive s).arriveAll ss).process = _
    by_cases hs : s ∈ d.handlers
    · have hp : (d.arrive s).process = some (if p.isRunning then p.hear s else p) := by
        rw [arrive_of_handled hs]
        change (d.relay s).process = _
        rw [process_relay, h]
        rfl
      rw [ih hp, hh, List.filter_cons_of_pos (by simpa using hs)]
      rfl
    · have hp : (d.arrive s).process = some p := by
        rw [arrive_of_unhandled hs]
        exact h
      rw [ih hp, hh, List.filter_cons_of_neg (by simpa using hs)]

theorem pending_arriveAll (h : d.process = none) (ss : List Signal) :
    (d.arriveAll ss).pending = d.pending ++ ss.filter (· ∈ d.handlers) := by
  induction ss generalizing d with
  | nil => simp [arriveAll]
  | cons s ss ih =>
    have hh : (d.arrive s).handlers = d.handlers := handlers_arriveAll d [s]
    have hp : (d.arrive s).process.isSome = d.process.isSome := isSome_process_arriveAll d [s]
    have hn : (d.arrive s).process = none := by simpa [h] using hp
    change ((d.arrive s).arriveAll ss).pending = _
    by_cases hs : s ∈ d.handlers
    · have hq : (d.arrive s).pending = d.pending ++ [s] := by
        rw [arrive_of_handled hs, relay_of_not_started h]
        rfl
      rw [ih hn, hh, hq, List.filter_cons_of_pos (by simpa using hs)]
      simp
    · have hq : (d.arrive s).pending = d.pending := by
        rw [arrive_of_unhandled hs]
        rfl
      rw [ih hn, hh, hq, List.filter_cons_of_neg (by simpa using hs)]

theorem path_arriveAll (d : Delegate) (ss : List Signal) : (d.arriveAll ss).path = d.path :=
  arriveAll_invariant (R := fun e => e.path = d.path) (fun e s h => by
      obtain ⟨-, he⟩ | ⟨_, -, -, he⟩ | ⟨_, _, -, -, he⟩ := relay_cases e s <;> rw [he] <;> exact h)
    (fun _ _ _ h => h) rfl ss

theorem mem_handlers_asking (path : Path) (args : List String) (s : Signal) :
    s ∈ ({ path, args } : Delegate).asking.handlers ↔ s ∈ Signal.relayed := by
  change s ∈ addHandler (addHandler [] .interrupt) .terminate ↔ _
  simp [mem_addHandler, Signal.relayed, or_comm]

theorem enter_of_started (path : Path) (args : List String) {a : SpawnAttempt}
    (hs : a.result = .started p) :
    ∃ d, ({ path, args } : Delegate).enter a = (d, .ok ()) ∧
      d.process = some (p.hearAll (a.arriving.filter (· ∈ Signal.relayed))) ∧
      (∀ s, s ∈ d.handlers ↔ s ∈ Signal.relayed) := by
  let d : Delegate := { path, args }
  have hk : (d.installRelays Signal.relayed).2 = .ok () :=
    installRelays_of_catchable d (by decide)
  have hm (s : Signal) : s ∈ d.asking.handlers ↔ s ∈ Signal.relayed :=
    mem_handlers_asking path args s
  have hq : (d.asking.arriveAll a.arriving).pending =
      a.arriving.filter (· ∈ Signal.relayed) := by
    rw [pending_arriveAll (process_asking d), pending_asking]
    simp [d, hm]
  obtain ⟨e, he, -⟩ | ⟨-, he⟩ := enter_cases d a
  · exact absurd (hk.symm.trans he) (by simp)
  · rw [hs] at he
    refine ⟨_, he, ?_, ?_⟩
    · change (List.foldl relay _ (d.asking.arriveAll a.arriving).pending).process = _
      rw [process_foldl_relay rfl, hq]
    · intro s
      rw [← hm]
      simp [note]

theorem wait_of_code {code : Int} {ss : List Signal} (hd : d.process = some p)
    (hc : (p.hearAll (ss.filter (· ∈ d.handlers))).returnCode.or p.child.exit = some code) :
    ∃ e, d.wait ss = (e, .ok code) ∧ e.returnCode = some code := by
  let e := (d.call .wait).arriveAll ss
  let q := p.hearAll (ss.filter (· ∈ d.handlers))
  have he : e.process = some q := process_arriveAll (d := d.call .wait) hd ss
  have hr : e.returnCode = q.returnCode := by simp [returnCode, he]
  have hw : d.wait ss = d.await p ss := by simp [wait, hd]
  cases hq : q.returnCode with
  | some own =>
    have hc : own = code := by simpa [q, hq] using hc
    exact ⟨e, by simp [hw, await, e, hr, hq, hc], by rw [hr, hq, hc]⟩
  | none =>
    have hc : p.child.exit = some code := by simpa [q, hq] using hc
    have hx : (e.endChild code).returnCode = some code := by
      simp [returnCode, endChild, he, ChildProcess.ended, hq]
    exact ⟨e.endChild code, by simp [hw, await, e, hr, hq, hc], hx⟩

/-- The stages of a run with a child that ends: it is entered, its code is there when the wait is
    over, and so leaving only takes the relays away. -/
theorem stages_of_code (path : Path) (args : List String) {c : Course} {p : ChildProcess}
    {code : Int} (hs : c.attempt.result = .started p) (hc : c.finalCode? = some code) :
    ∃ d e q, ({ path, args } : Delegate).enter c.attempt = (d, .ok ()) ∧ d.process = some q ∧
      d.wait c.duringWait = (e, .ok code) ∧ e.returnCode = some code ∧
      run path args c = (e.removeRelays.note .debug s!"Delegate exited with return code {code}",
        .ok (exitStatus (some code))) := by
  obtain ⟨d, he, hd, hh⟩ := enter_of_started path args hs
  have hf : ((p.hearAll (c.attempt.arriving.filter (· ∈ Signal.relayed))).hearAll
      (c.duringWait.filter (· ∈ d.handlers))).returnCode.or
        (p.hearAll (c.attempt.arriving.filter (· ∈ Signal.relayed))).child.exit = some code := by
    simpa [Course.finalCode?, hs, hh, ChildProcess.hearAll_append] using hc
  obtain ⟨e, hw, hr⟩ := wait_of_code hd hf
  have hn (q : ChildProcess) (hq : e.process = some q) : q.isRunning = false := by
    have hr : q.returnCode = some code := by simpa [returnCode, hq] using hr
    simp [ChildProcess.isRunning, hr]
  refine ⟨d, e, _, he, hd, hw, hr, ?_⟩
  simp only [run, runToEnd, he, hw, leave_of_not_running hn]

theorem run_of_code (path : Path) (args : List String) {c : Course} {code : Int}
    (hc : c.finalCode? = some code) :
    ∃ d, run path args c = (d, .ok (exitStatus (some code))) ∧ d.returnCode = some code := by
  obtain ⟨p, hs⟩ := Course.started_of_finalCode? hc
  obtain ⟨d, e, q, -, -, -, hr, he⟩ := stages_of_code path args hs hc
  exact ⟨_, he, hr⟩

theorem run_eq_of_refused (path : Path) (args : List String) {c : Course} {reason : String}
    (hs : c.attempt.result = .refused reason) :
    run path args c = ((({ path, args } : Delegate).asking.arriveAll c.attempt.arriving).removeRelays,
      .error (.refused path reason)) := by
  let d : Delegate := { path, args }
  have hk : (d.installRelays Signal.relayed).2 = .ok () :=
    installRelays_of_catchable d (by decide)
  have hp : (d.asking.arriveAll c.attempt.arriving).path = path := path_arriveAll _ _
  obtain ⟨e, he, -⟩ | ⟨-, he⟩ := enter_cases d c.attempt
  · exact absurd (hk.symm.trans he) (by simp)
  · rw [hs, spawned, hp] at he
    simp only [run, runToEnd, d, he]

theorem run_of_refused (path : Path) (args : List String) {c : Course} {reason : String}
    (hs : c.attempt.result = .refused reason) :
    ∃ d, run path args c = (d, .error (.refused path reason)) :=
  ⟨_, run_eq_of_refused path args hs⟩

theorem run_of_broken (path : Path) (args : List String) {c : Course} {text : String}
    (hs : c.attempt.result = .broken text) :
    ∃ d, run path args c = (d, .error (.broken text)) := by
  let d : Delegate := { path, args }
  have hk : (d.installRelays Signal.relayed).2 = .ok () :=
    installRelays_of_catchable d (by decide)
  obtain ⟨e, he, -⟩ | ⟨-, he⟩ := enter_cases d c.attempt
  · exact absurd (hk.symm.trans he) (by simp)
  · rw [hs, spawned] at he
    exact ⟨d.asking.arriveAll c.attempt.arriving, by simp only [run, runToEnd, d, he]⟩

end Delegate

end GatewayLauncher

import GatewayLauncher.Proofs.Delegate.Leaving

namespace GatewayLauncher

def Call.sent? : Call → Option Signal
  | .signal s => some s
  | _ => none

def Call.heard? : Call → Option Signal
  | .arrival s true => some s
  | _ => none

namespace Delegate

def sent (d : Delegate) : List Signal := d.calls.filterMap Call.sent?

def heard (d : Delegate) : List Signal := d.calls.filterMap Call.heard?

/-- The signals that a step hands to the relay. -/
def handed (d : Delegate) : Step → List Signal
  | .receive s => if s ∈ d.handlers then [s] else []
  | .relay s => [s]
  | s => (d.step s).1.heard.drop d.heard.length

def started (d : Delegate) : Step → List ChildProcess
  | .enter a =>
    match (d.enter a).2, a.result with
    | .ok (), .started p => [p]
    | _, _ => []
  | _ => []

/-- The signals that a child is given in turn, each with the return code that the child has when it
    is given to it. Without a child they are kept. -/
def given (d : Delegate) : List Signal → List (Signal × Option Int)
  | [] => []
  | s :: ss => (if d.process.isSome then [(s, d.returnCode)] else []) ++ (d.relay s).given ss

def adopt (d : Delegate) (p : ChildProcess) : Delegate := { d with process := some p }

/-- The signals that a step processes: those handed to a child that is there, and those in the queue
    of a child that is started. -/
def processed (d : Delegate) (s : Step) : List (Signal × Option Int) :=
  d.given (d.handed s) ++ (d.started s).flatMap fun p =>
    (d.adopt p).given (if d.process.isSome then d.pending else d.pending ++ d.handed s)

/-- What the steps of a history yield, one after the other. -/
def along {α : Type} (f : Delegate → Step → List α) (d : Delegate) : List Step → List α
  | [] => []
  | s :: steps => f d s ++ along f (d.step s).1 steps

variable {d e : Delegate} {p : ChildProcess}

theorem process_relay (d : Delegate) (s : Signal) :
    (d.relay s).process = d.process.map fun p => if p.isRunning then p.hear s else p := by
  obtain ⟨h, he⟩ | ⟨p, h, hp, he⟩ | ⟨p, _, h, hp, he⟩ := relay_cases d s <;> simp [*]

theorem given_congr (h : e.process = d.process) (ss : List Signal) : e.given ss = d.given ss := by
  induction ss generalizing d e with
  | nil => rfl
  | cons s ss ih =>
    have hr : (e.relay s).process = (d.relay s).process := by rw [process_relay, process_relay, h]
    have hc : e.returnCode = d.returnCode := by rw [returnCode, returnCode, h]
    rw [given, given, h, hc, ih hr]

theorem given_of_not_started (h : d.process = none) (ss : List Signal) : d.given ss = [] := by
  induction ss generalizing d with
  | nil => rfl
  | cons s ss ih => simp [given, h, ih (show (d.relay s).process = none by simp [process_relay, h])]

theorem map_fst_given (h : d.process.isSome = true) (ss : List Signal) :
    (d.given ss).map Prod.fst = ss := by
  induction ss generalizing d with
  | nil => rfl
  | cons s ss ih => simp [given, h, ih (show (d.relay s).process.isSome = true by simp [h])]

theorem heard_arriveAll (d : Delegate) (ss : List Signal) :
    (d.arriveAll ss).heard = d.heard ++ ss.filter (· ∈ d.handlers) := by
  induction ss generalizing d with
  | nil => simp [arriveAll]
  | cons s ss ih =>
    change ((d.arrive s).arriveAll ss).heard = _
    rw [ih]
    by_cases hs : s ∈ d.handlers
    · have hc : (d.arrive s).heard = d.heard ++ [s] := by
        have hr : (d.relay s).heard = d.heard := filterMap_calls_relay (fun _ => rfl) d s
        rw [arrive_of_handled hs, ← hr]
        simp [heard, call, Call.heard?]
      have hh : (d.arrive s).handlers = d.handlers := by
        rw [arrive_of_handled hs]
        exact handlers_relay d s
      simp [hc, hh, hs]
    · have hc : (d.call (.arrival s false)).heard = d.heard := by
        simp [heard, call, List.filterMap_cons, Call.heard?]
      have hh : (d.call (.arrival s false)).handlers = d.handlers := rfl
      simp [arrive_of_unhandled hs, hc, hh, hs]

/-- What is sent are the signals processed while the return code was unknown, and these come
    first. -/
structure Settled (d : Delegate) (processed : List (Signal × Option Int)) : Prop where
  sent : d.sent = (processed.filter (·.2.isNone)).map Prod.fst
  ordered : processed.Pairwise fun x y => y.2 = none → x.2 = none
  live : d.returnCode = none → ∀ x ∈ processed, x.2 = none

/-- Every signal that has been handed over has been processed once or waits behind those that have;
    the queue and the child exclude each other. -/
structure Ledger (d : Delegate) (handed : List Signal) (processed : List (Signal × Option Int)) :
    Prop extends d.Settled processed where
  complete : processed.map Prod.fst ++ d.pending = handed
  waiting : d.process = none → processed = []
  delivered : d.process.isSome = true → d.pending = []

variable {H : List Signal} {P : List (Signal × Option Int)}

theorem Settled.congr (h : d.Settled P) (hr : e.returnCode = none → d.returnCode = none)
    (hs : e.sent = d.sent) : e.Settled P :=
  ⟨hs.trans h.sent, h.ordered, fun he => h.live (hr he)⟩

theorem Ledger.congr (h : d.Ledger H P) (hp : e.process.isSome = d.process.isSome)
    (hr : e.returnCode = none → d.returnCode = none) (hq : e.pending = d.pending)
    (hs : e.sent = d.sent) : e.Ledger H P where
  toSettled := h.toSettled.congr hr hs
  complete := by rw [hq, h.complete]
  waiting he := h.waiting (by simpa [he] using hp.symm)
  delivered he := by rw [hq, h.delivered (hp ▸ he)]

theorem Settled.relay (h : d.Settled P) (hd : d.process.isSome = true) (s : Signal) :
    (d.relay s).Settled (P ++ [(s, d.returnCode)]) := by
  obtain ⟨hn, -⟩ | ⟨p, hp, hr, he⟩ | ⟨p, notices, hp, hr, he⟩ := relay_cases d s
  · simp [hn] at hd
  · -- The child has ended: nothing is sent, now or later.
    obtain ⟨code, hc⟩ : ∃ code, d.returnCode = some code := by
      cases hc : p.returnCode <;> simp_all [ChildProcess.isRunning, returnCode]
    rw [he]
    refine ⟨?_, ?_, ?_⟩
    · simp [h.sent, hc]
    · simp [List.pairwise_append, h.ordered, hc]
    · simp [hc]
  · have hc : d.returnCode = none := by
      cases hc : p.returnCode <;> simp_all [ChildProcess.isRunning, returnCode]
    have hl := h.live hc
    refine ⟨?_, ?_, ?_⟩
    · have hs : (d.relay s).sent = d.sent ++ [s] := by simp [he, Delegate.sent, Call.sent?]
      simp [hs, h.sent, hc]
    · simp only [List.pairwise_append, hc]
      exact ⟨h.ordered, List.pairwise_singleton _ _, fun x hx _ _ _ => hl x hx⟩
    · intro _ x hx
      rcases List.mem_append.mp hx with hx | hx
      · exact hl x hx
      · simp_all

theorem Settled.foldl_relay (h : d.Settled P) (hd : d.process.isSome = true) (ss : List Signal) :
    (ss.foldl Delegate.relay d).Settled (P ++ d.given ss) := by
  induction ss generalizing d P with
  | nil => simpa [given] using h
  | cons s ss ih =>
    have hs := ih (h.relay hd s) (by simp [hd])
    simpa [given, hd] using hs

theorem Ledger.relay (h : d.Ledger H P) (s : Signal) :
    (d.relay s).Ledger (H ++ [s]) (P ++ d.given [s]) := by
  obtain hn | ⟨p, hp⟩ := Option.eq_none_or_eq_some d.process
  · rw [relay_of_not_started hn, given_of_not_started hn, h.waiting hn]
    have hs : d.Settled [] := h.waiting hn ▸ h.toSettled
    have hc : d.pending = H := by simpa [h.waiting hn] using h.complete
    exact ⟨hs.congr id rfl, by simp [hc], fun _ => rfl, by simp [hn]⟩
  · have hd : d.process.isSome = true := by simp [hp]
    have hq : d.given [s] = [(s, d.returnCode)] := by simp [given, hd]
    rw [hq]
    refine ⟨h.toSettled.relay hd s, ?_, ?_, ?_⟩
    · have hc : P.map Prod.fst = H := by simpa [h.delivered hd] using h.complete
      simp [pending_relay hd, h.delivered hd, hc]
    · intro hn
      simp [process_relay, hp] at hn
    · intro _
      rw [pending_relay hd, h.delivered hd]

theorem Ledger.arriveAll (h : d.Ledger H P) (ss : List Signal) :
    (d.arriveAll ss).Ledger (H ++ ss.filter (· ∈ d.handlers))
      (P ++ d.given (ss.filter (· ∈ d.handlers))) := by
  induction ss generalizing d H P with
  | nil => simpa [Delegate.arriveAll, given] using h
  | cons s ss ih =>
    change ((d.arrive s).arriveAll ss).Ledger _ _
    by_cases hs : s ∈ d.handlers
    · have hr : (d.arrive s).Ledger (H ++ [s]) (P ++ d.given [s]) := by
        rw [arrive_of_handled hs]
        exact (h.relay s).congr rfl id rfl (by simp [Delegate.sent, call, Call.sent?])
      have hh : (d.arrive s).handlers = d.handlers := by
        rw [arrive_of_handled hs]
        exact handlers_relay d s
      have hg (ts : List Signal) : (d.arrive s).given ts = (d.relay s).given ts := by
        rw [arrive_of_handled hs]
        exact given_congr (by rfl) ts
      have hc := ih hr
      rw [hh, hg] at hc
      have hl (ts : List Signal) : d.given (s :: ts) = d.given [s] ++ (d.relay s).given ts := by
        simp [given]
      have hf : (s :: ss).filter (· ∈ d.handlers) = s :: ss.filter (· ∈ d.handlers) := by
        simp [hs]
      rw [hf, hl]
      simpa using hc
    · -- A signal without a handler is recorded, but not handed over.
      have hr : (d.arrive s).Ledger H P := by
        rw [arrive_of_unhandled hs]
        exact h.congr rfl id rfl (by simp [Delegate.sent, call, Call.sent?])
      have hh : (d.arrive s).handlers = d.handlers := by
        rw [arrive_of_unhandled hs]
        rfl
      have hg (ts : List Signal) : (d.arrive s).given ts = d.given ts := by
        rw [arrive_of_unhandled hs]
        exact given_congr (by rfl) ts
      have hc := ih hr
      rw [hh, hg] at hc
      simpa [hs] using hc

/-- The first start empties the queue: what has been kept is given to the child. -/
theorem Ledger.start (h : d.Ledger H P) (hn : d.process = none) (p : ChildProcess) :
    (d.spawned (.started p)).1.Ledger H (P ++ (d.adopt p).given d.pending) := by
  let e := (d.adopt p).note .debug
    s!"Spawned {d.path.toString} (pid {p.pid}) with {d.args.length} args"
  have hp : P = [] := h.waiting hn
  have hq : d.pending = H := by simpa [hp] using h.complete
  have he : e.Settled [] := by
    have hs : e.sent = [] := by
      change d.sent = []
      simpa [hp] using h.sent
    exact ⟨by simp [hs], .nil, by simp⟩
  have hf := he.foldl_relay rfl e.pending
  have hg : e.given e.pending = (d.adopt p).given d.pending := given_congr (by rfl) _
  have hm : ((d.adopt p).given d.pending).map Prod.fst = d.pending := map_fst_given rfl _
  have hk : (d.spawned (.started p)).1.process.isSome = true :=
    foldl_relay_invariant (R := fun e => e.process.isSome = true) (fun _ _ h => by simp [h]) rfl _
  rw [hg] at hf
  rw [hp]
  refine ⟨hf.congr id rfl, ?_, ?_, fun _ => rfl⟩
  · rw [List.nil_append, hm, hq]
    exact List.append_nil H
  · intro hc
    simp [hc] at hk

theorem handed_of_heard {s : Step} {F : List Signal}
    (hs : d.handed s = (d.step s).1.heard.drop d.heard.length)
    (h : (d.step s).1.heard = d.heard ++ F) : d.handed s = F := by
  rw [hs, h, List.drop_left]

theorem started_enter_of_error {a : SpawnAttempt} {x : DelegateError}
    (h : (d.enter a).2 = .error x) : d.started (.enter a) = [] := by
  simp [started, h]

theorem Ledger.endChild (h : d.Ledger H P) (code : Int) : (d.endChild code).Ledger H P := by
  apply h.congr
  · simp [Delegate.endChild]
  · intro hr
    cases hd : d.process <;> simp_all [Delegate.endChild, returnCode, ChildProcess.ended]
  · rfl
  · rfl

theorem handed_enter {a : SpawnAttempt}
    (he : d.enter a = (d.asking.arriveAll a.arriving).spawned a.result) :
    d.handed (.enter a) = a.arriving.filter (· ∈ d.asking.handlers) := by
  apply handed_of_heard rfl
  have hc : d.asking.heard = d.heard := by
    simp [heard, calls_asking, List.filterMap_cons, Call.heard?]
  have hs := filterMap_calls_spawned (f := Call.heard?) (fun _ => rfl)
    (d.asking.arriveAll a.arriving) a.result
  rw [step_enter, he, ← hc, ← heard_arriveAll]
  exact hs

theorem Ledger.asking (h : d.Ledger H P) : d.asking.Ledger H P := by
  apply h.congr (by simp) (by simp [returnCode]) (pending_asking d)
  simp [Delegate.sent, calls_asking, List.filterMap_cons, Call.sent?]

theorem Ledger.enter (h : d.Ledger H P) (a : SpawnAttempt)
    (hs : d.process.isSome = true → d.started (.enter a) = []) :
    (d.enter a).1.Ledger (H ++ d.handed (.enter a)) (P ++ d.processed (.enter a)) := by
  obtain ⟨x, -, he⟩ | ⟨-, he⟩ := enter_cases d a
  · obtain ⟨handlers, installed, hi⟩ := installRelays_eq d d.signals
    have hh : d.handed (.enter a) = [] :=
      handed_of_heard rfl (by simp [step_enter, he, hi, heard])
    have hn : d.started (.enter a) = [] := started_enter_of_error (by rw [he])
    have hr : (d.enter a).1.Ledger H P := by
      rw [he, hi]
      exact h.congr rfl id rfl rfl
    simpa [processed, hh, hn, given] using hr
  · have hh := handed_enter he
    have hv := h.asking.arriveAll a.arriving
    rw [given_congr (process_asking d), ← hh] at hv
    cases ha : a.result with
    | refused reason =>
      have hn : d.started (.enter a) = [] := started_enter_of_error (by rw [he, ha]; rfl)
      rw [he, ha, processed, hn, List.flatMap_nil, List.append_nil]
      exact hv.congr rfl id rfl rfl
    | broken text =>
      have hn : d.started (.enter a) = [] := started_enter_of_error (by rw [he, ha]; rfl)
      rw [he, ha, processed, hn, List.flatMap_nil, List.append_nil]
      exact hv
    | started p =>
      -- No child was there before, so the queue holds all that has been handed over.
      have hst : d.started (.enter a) = [p] := by
        simp [started, show (d.enter a).2 = .ok () by rw [he, ha]; rfl, ha]
      have hd : d.process = none := by
        cases hd : d.process <;> simp_all
      have hvn : (d.asking.arriveAll a.arriving).process = none := by
        rw [← Option.isNone_iff_eq_none, ← Option.not_isSome]
        simp [hd]
      have hvq : (d.asking.arriveAll a.arriving).pending = d.pending ++ d.handed (.enter a) := by
        have hv' := hv.complete
        have hd' := h.complete
        simp only [h.waiting hd, given_of_not_started hd, List.map_nil, List.nil_append] at hv' hd'
        rw [hv', hd']
      have hg := hv.start hvn p
      have hk : ((d.asking.arriveAll a.arriving).adopt p).process = (d.adopt p).process := rfl
      rw [hvq, given_congr hk] at hg
      rw [he, ha, processed, hst]
      simpa [hd] using hg

theorem Ledger.wait (h : d.Ledger H P) (ss : List Signal) :
    (d.wait ss).1.Ledger (H ++ d.handed (.wait ss)) (P ++ d.processed (.wait ss)) := by
  have hn : d.started (.wait ss) = [] := rfl
  have hc : (d.call .wait).Ledger H P :=
    h.congr rfl id rfl (by simp [Delegate.sent, call, List.filterMap_cons, Call.sent?])
  have hv := hc.arriveAll ss
  have hk : ((d.call .wait).arriveAll ss).heard =
      d.heard ++ ss.filter (· ∈ (d.call .wait).handlers) := by
    have hw : (d.call .wait).heard = d.heard := by
      simp [heard, call, List.filterMap_cons, Call.heard?]
    rw [heard_arriveAll, hw]
  rw [given_congr (show (d.call .wait).process = d.process from rfl)] at hv
  rw [processed, hn, List.flatMap_nil, List.append_nil]
  obtain he | he | ⟨code, he⟩ := wait_cases d ss
  · have hh : d.handed (.wait ss) = [] := handed_of_heard rfl (by simp [step_wait, he])
    simpa [he, hh, given] using h
  · rw [handed_of_heard rfl (by rw [step_wait, he, hk]), he]
    exact hv
  · rw [handed_of_heard rfl (by rw [step_wait, he]; exact hk), he]
    exact hv.endChild code

theorem Ledger.leave (h : d.Ledger H P) (ho : d.OnRecord) (a : ShutdownArrivals) :
    (d.leave a).1.Ledger (H ++ d.handed (.leave a)) (P ++ d.processed (.leave a)) := by
  suffices hl : (d.leave a).1.Ledger H P ∧ (d.leave a).1.heard = d.heard by
    have hh : d.handed (.leave a) = [] := handed_of_heard rfl (by simp [step_leave, hl.2])
    have hn : d.started (.leave a) = [] := rfl
    simpa [processed, hh, hn, given] using hl.1
  obtain ⟨-, he⟩ | ⟨p, notices, hd, hp, he⟩ := leave_cases ho a
  · rw [he]
    exact ⟨h.congr rfl id rfl rfl, rfl⟩
  · have hc : (p.child.closing a).calls.filterMap Call.sent? = [] :=
      Child.filterMap_calls_closing rfl (fun _ => rfl) rfl rfl p.child a
    have hv : (p.child.closing a).calls.filterMap Call.heard? = [] :=
      Child.filterMap_calls_closing rfl (fun _ => rfl) rfl rfl p.child a
    rw [he]
    refine ⟨?_, by simp [heard, hv]⟩
    apply h.congr
    · simp [hd]
    · intro _
      simpa [returnCode, hd, ChildProcess.isRunning] using hp
    · rfl
    · simp [Delegate.sent, hc]

theorem Ledger.receive (h : d.Ledger H P) (s : Signal) :
    (d.receive s).Ledger (H ++ d.handed (.receive s)) (P ++ d.processed (.receive s)) := by
  have hn : d.started (.receive s) = [] := rfl
  by_cases hs : s ∈ d.handlers
  · have hh : d.handed (.receive s) = [s] := by simp [handed, hs]
    have hr : d.receive s = d.relay s := by simp [Delegate.receive, hs]
    simpa [processed, hh, hn, hr] using h.relay s
  · have hh : d.handed (.receive s) = [] := by simp [handed, hs]
    have hr : d.receive s = d := by simp [Delegate.receive, hs]
    simpa [processed, hh, hn, hr, given] using h

theorem Ledger.turnChild (h : d.Ledger H P) (c : Child) : (d.turnChild c).Ledger H P := by
  apply h.congr
  · simp [Delegate.turnChild]
  · intro hr
    cases hd : d.process <;> simp_all [Delegate.turnChild, returnCode]
  · rfl
  · rfl

theorem Ledger.step (h : d.Ledger H P) (ho : d.OnRecord) (s : Step)
    (hs : d.process.isSome = true → d.started s = []) :
    (d.step s).1.Ledger (H ++ d.handed s) (P ++ d.processed s) := by
  cases s with
  | enter a => simpa using h.enter a hs
  | wait ss => simpa using h.wait ss
  | leave a => simpa using h.leave ho a
  | receive s => simpa using h.receive s
  | relay s => simpa [processed, handed, started] using h.relay s
  | childEnds code =>
    have hh : d.handed (.childEnds code) = [] := by simp [handed, Delegate.endChild, heard]
    simpa [processed, hh, started, given] using h.endChild code
  | childTurns c =>
    have hh : d.handed (.childTurns c) = [] := by simp [handed, Delegate.turnChild, heard]
    simpa [processed, hh, started, given] using h.turnChild c

theorem isSome_process_enter (d : Delegate) (a : SpawnAttempt) :
    (d.enter a).1.process.isSome = true ↔
      d.process.isSome = true ∨ d.started (.enter a) ≠ [] := by
  obtain ⟨x, -, he⟩ | ⟨-, he⟩ := enter_cases d a
  · obtain ⟨handlers, installed, hi⟩ := installRelays_eq d d.signals
    simp [started_enter_of_error (show (d.enter a).2 = .error x by rw [he]), he, hi]
  · have hv : (d.asking.arriveAll a.arriving).process.isSome = d.process.isSome := by simp
    cases ha : a.result with
    | refused reason =>
      obtain ⟨x, hx⟩ : ∃ x, (d.enter a).2 = .error x := ⟨_, by rw [he, ha]; rfl⟩
      rw [started_enter_of_error hx, he, ha, ← hv]
      simp [spawned, removeRelays]
    | broken text =>
      have hx : (d.enter a).2 = .error (.broken text) := by rw [he, ha]; rfl
      rw [started_enter_of_error hx, he, ha, ← hv]
      simp [spawned]
    | started p =>
      have hx : (d.enter a).2 = .ok () := by rw [he, ha]; rfl
      have hk : (d.enter a).1.process.isSome = true := by
        rw [he, ha]
        exact foldl_relay_invariant (R := fun e => e.process.isSome = true)
          (fun _ _ h => by simp [h]) rfl _
      simp [hk, started, hx, ha]

theorem isSome_process_step (ho : d.OnRecord) (s : Step) :
    (d.step s).1.process.isSome = true ↔ d.process.isSome = true ∨ d.started s ≠ [] := by
  cases s with
  | enter a => simpa using isSome_process_enter d a
  | wait ss =>
    obtain he | he | ⟨code, he⟩ := wait_cases d ss <;> simp [he, started, endChild, call]
  | leave a =>
    obtain ⟨-, he⟩ | ⟨p, notices, hd, -, he⟩ := leave_cases ho a <;>
      simp [started, removeRelays, *]
  | receive s =>
    simp only [step_receive, started, receive]
    split <;> simp
  | relay s => simp [started]
  | childEnds code => simp [started, endChild]
  | childTurns c => simp [started, turnChild]

theorem isSome_process_after (ho : d.OnRecord) (steps : List Step) :
    (d.after steps).process.isSome = true ↔
      d.process.isSome = true ∨ along started d steps ≠ [] := by
  induction steps generalizing d with
  | nil => simp [Delegate.after, along]
  | cons s steps ih =>
    change ((d.step s).1.after steps).process.isSome = true ↔ _
    rw [ih (ho.step s), isSome_process_step ho s, along, or_assoc]
    by_cases he : d.started s = [] <;> simp [he]

/-- Along a history with one start at most, the ledger stays balanced. -/
theorem Ledger.after (h : d.Ledger H P) (ho : d.OnRecord) (steps : List Step)
    (hn : (if d.process.isSome then 1 else 0) + (along started d steps).length ≤ 1) :
    (d.after steps).Ledger (H ++ along handed d steps) (P ++ along processed d steps) := by
  induction steps generalizing d H P with
  | nil => simpa [Delegate.after, along] using h
  | cons s steps ih =>
    rw [along, List.length_append] at hn
    have hs : d.process.isSome = true → d.started s = [] := by
      intro hd
      rw [if_pos hd] at hn
      exact List.eq_nil_of_length_eq_zero (by omega)
    -- A start in this step is the only one, and the child is there from then on.
    have hr : (if (d.step s).1.process.isSome then 1 else 0) +
        (along started (d.step s).1 steps).length ≤ 1 := by
      have hi := isSome_process_step ho s
      by_cases hd : d.process.isSome = true
      · rw [if_pos (hi.mpr (.inl hd))]
        rw [if_pos hd] at hn
        omega
      · by_cases he : d.started s = []
        · rw [if_neg (by simp [hi, hd, he])]
          omega
        · have hl := List.length_pos_iff.mpr he
          rw [if_pos (hi.mpr (.inr he))]
          omega
    have hc := ih (h.step ho s hs) (ho.step s) hr
    rw [List.append_assoc, List.append_assoc] at hc
    exact hc

theorem ledger_fresh (path : Path) (args : List String) (signals : List Signal) :
    ({ path, args, signals } : Delegate).Ledger [] [] where
  sent := rfl
  ordered := .nil
  live := by simp
  complete := rfl
  waiting _ := rfl
  delivered := by simp

theorem prefix_of_pairwise (h : P.Pairwise fun x y => y.2 = none → x.2 = none) :
    P.filter (·.2.isNone) <+: P := by
  induction h with
  | nil => exact List.prefix_rfl
  | @cons x P hx _ ih =>
    cases hc : x.2 with
    | none =>
      rw [List.filter_cons_of_pos (by simp [hc])]
      exact (List.prefix_cons_inj x).mpr ih
    | some code =>
      have hn : (x :: P).filter (·.2.isNone) = [] := by
        rw [List.filter_eq_nil_iff]
        intro y hy
        rcases List.mem_cons.mp hy with rfl | hy
        · simp [hc]
        · intro he
          have hx := hx y hy (by simpa using he)
          simp [hc] at hx
      rw [hn]
      exact List.nil_prefix

/-- After any history with one start at most, what has been sent are the signals processed while the
    return code was unknown, and they are a prefix of those handed over. None is lost: before the
    start all of them wait in the queue, and after it each has been processed. -/
theorem relayed_once_in_order (path : Path) (args : List String) (signals : List Signal)
    (steps : List Step)
    (hs : (along started ({ path, args, signals } : Delegate) steps).length ≤ 1) :
    let d₀ : Delegate := { path, args, signals }
    let d := d₀.after steps
    let H := along handed d₀ steps
    let P := along processed d₀ steps
    d.sent = (P.filter (·.2.isNone)).map Prod.fst ∧ d.sent <+: H ∧
    (along started d₀ steps ≠ [] → d.pending = [] ∧ P.map Prod.fst = H) ∧
    (along started d₀ steps = [] → d.pending = H ∧ d.sent = []) := by
  intro d₀ d H P
  have ho : d₀.OnRecord := onRecord_fresh path args signals
  have hl : d.Ledger H P := by
    simpa using (ledger_fresh path args signals).after ho steps (by simpa using hs)
  have hi : d.process.isSome = true ↔ along started d₀ steps ≠ [] := by
    simpa [d₀] using isSome_process_after ho steps
  refine ⟨hl.sent, ?_, ?_, ?_⟩
  · rw [hl.sent, ← hl.complete]
    exact ((prefix_of_pairwise hl.ordered).map Prod.fst).trans (List.prefix_append _ _)
  · intro hn
    have hq := hl.delivered (hi.mpr hn)
    refine ⟨hq, ?_⟩
    rw [← hl.complete, hq, List.append_nil]
  · intro hn
    have hd : d.process = none := by
      cases hd : d.process <;> simp_all
    have hp : P = [] := hl.waiting hd
    have hc := hl.complete
    have ht := hl.sent
    rw [hp] at hc ht
    exact ⟨hc, ht⟩

/-- The child ends at the second of the signals kept for it, and so the third is not sent. -/
theorem sent_until_end :
    let p : ChildProcess := { pid := 1, child := { onSignal := [(.terminate, .ends 3)] } }
    let d := ({ path := ⟨"", ["gw"]⟩, args := [] } : Delegate).after
      [.relay .user1, .enter { arriving := [.terminate, .interrupt], result := .started p }]
    d.sent <+: [.user1, .terminate, .interrupt] ∧ d.sent = [.user1, .terminate] ∧
      d.pending = [] := by
  intro p d
  obtain ⟨hs, hp, hq, -⟩ := relayed_once_in_order ⟨"", ["gw"]⟩ [] Signal.relayed
    [.relay .user1, .enter { arriving := [.terminate, .interrupt], result := .started p }]
    (by decide)
  exact ⟨hp, hs.trans (by decide), (hq (by decide)).1⟩

end Delegate

end GatewayLauncher

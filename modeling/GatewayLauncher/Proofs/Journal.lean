import GatewayLauncher.Journal
import Mathlib.Data.List.Induction

namespace GatewayLauncher.Journal

/-- The word spells the name of a severity, in any letter case. -/
def Spells (word : String) (s : Severity) : Prop := Text.upper word.toList = s.name.toList

instance (word : String) (s : Severity) : Decidable (Spells word s) :=
  inferInstanceAs (Decidable (_ = _))

theorem levelNamed_of_spells {word : String} {s : Severity} (h : Spells word s) :
    levelNamed word = .ok s.level := by
  rw [Spells] at h
  simp only [levelNamed, h]
  cases s <;> rfl

/-- Below the launcher's channel is every channel whose name goes on behind it with one point. -/
theorem isOwnChannel_of_point {channel : String} {rest : List Char} (hr : rest.head? ≠ some '.')
    (h : channel.toList = ownChannel.toList ++ '.' :: rest) : isOwnChannel channel = true := by
  cases rest with
  | nil => simp [isOwnChannel, h]
  | cons c rest =>
    have hc : c ≠ '.' := by simpa using hr
    simp [isOwnChannel, h, hc]

variable {j : Journal}

def foreign (j : Journal) : List Handler := j.handlers.filter fun h => !h.own

def Step.foreign? : Step → Option Handler
  | .attachForeign stream key => some { stream, own := false, key }
  | _ => none

/-- The handlers of others that are attached on the way, each of them once. -/
def attachedAlong (steps : List Step) : List Handler := (steps.filterMap Step.foreign?).eraseDups

theorem foreign_configure (j : Journal) (word stream : String) :
    (j.configure word stream).1.foreign = j.foreign := by
  have ha : (j.attach stream).foreign = j.foreign := foreign_attach j stream
  rw [configure]
  split <;> exact ha

theorem mem_handlers_iff_mem_foreign {h : Handler} (ho : h.own = false) :
    h ∈ j.handlers ↔ h ∈ j.foreign := by
  simp [foreign, ho]

theorem foreign_attachForeign (j : Journal) (stream : String) (key : Nat) :
    let h : Handler := { stream, own := false, key }
    (j.attachForeign stream key).foreign = if h ∈ j.foreign then j.foreign else j.foreign ++ [h] := by
  intro h
  have hm : h ∈ j.handlers ↔ h ∈ j.foreign := mem_handlers_iff_mem_foreign rfl
  rw [attachForeign]
  by_cases hj : h ∈ j.handlers
  · rw [if_pos hj, if_pos (hm.mp hj)]
  · rw [if_neg hj, if_neg (mt hm.mpr hj)]
    simp [foreign, List.filter_append, h]

theorem after_concat (j : Journal) (steps : List Step) (s : Step) :
    j.after (steps ++ [s]) = ((j.after steps).step s).journal := by
  simp [after, List.foldl_append]

theorem attachedAlong_concat_of_none {s : Step} (h : s.foreign? = none) (steps : List Step) :
    attachedAlong (steps ++ [s]) = attachedAlong steps := by
  simp [attachedAlong, List.filterMap_append, h]

theorem attachedAlong_concat_of_some {s : Step} {h : Handler} (hs : s.foreign? = some h)
    (steps : List Step) : attachedAlong (steps ++ [s]) =
      if h ∈ attachedAlong steps then attachedAlong steps else attachedAlong steps ++ [h] := by
  have hm : h ∈ attachedAlong steps ↔ h ∈ steps.filterMap Step.foreign? := List.mem_eraseDups
  have he : attachedAlong (steps ++ [s]) =
      attachedAlong steps ++ ([h].removeAll (steps.filterMap Step.foreign?)).eraseDups := by
    simp only [attachedAlong, List.filterMap_append, List.eraseDups_append, List.filterMap_cons, hs,
      List.filterMap_nil]
  rw [he]
  by_cases hf : h ∈ steps.filterMap Step.foreign?
  · rw [if_pos (hm.mpr hf)]
    have hr : [h].removeAll (steps.filterMap Step.foreign?) = [] := by
      rw [List.cons_removeAll, if_neg (by simpa using hf)]
      rfl
    rw [hr]
    exact List.append_nil _
  · rw [if_neg (mt hm.mp hf)]
    have hr : [h].removeAll (steps.filterMap Step.foreign?) = [h] := by
      rw [List.cons_removeAll, if_pos (by simpa using hf)]
      rfl
    rw [hr]
    rfl

theorem nodup_attachedAlong (steps : List Step) : (attachedAlong steps).Nodup := by
  induction steps using List.reverseRecOn with
  | nil => exact List.nodup_nil
  | append_singleton steps s ih =>
    cases hs : s.foreign? with
    | none => rwa [attachedAlong_concat_of_none hs]
    | some h =>
      rw [attachedAlong_concat_of_some hs]
      split
      · exact ih
      · rename_i hn
        refine List.nodup_append.mpr ⟨ih, List.pairwise_singleton _ h, fun a ha b hb => ?_⟩
        obtain rfl := List.mem_singleton.mp hb
        rintro rfl
        exact hn ha

theorem foreign_step (j : Journal) (s : Step) : (j.step s).journal.foreign =
    match s.foreign? with
    | none => j.foreign
    | some h => if h ∈ j.foreign then j.foreign else j.foreign ++ [h] := by
  cases s with
  | configure word stream =>
    have hs : (j.step (.configure word stream)).journal = (j.configure word stream).1 := by
      rw [step]
      split <;> rename_i he <;> rw [he]
    rw [hs, foreign_configure]
    rfl
  | attachForeign stream key => exact foreign_attachForeign j stream key
  | record channel level text => rfl

theorem foreign_after (h : j.foreign = []) (steps : List Step) :
    (j.after steps).foreign = attachedAlong steps := by
  induction steps using List.reverseRecOn with
  | nil => exact h
  | append_singleton steps s ih =>
    rw [after_concat, foreign_step, ih]
    cases hs : s.foreign? with
    | none => rw [attachedAlong_concat_of_none hs]
    | some k => rw [attachedAlong_concat_of_some hs]

/-- The journal as the last configuring has set it. -/
structure SetTo (j : Journal) (stream : String) (s : Severity) : Prop where
  own : j.handlers.filter (·.own) = [{ stream, own := true }]
  level : j.level = s.level
  propagate : j.propagate = false

variable {stream : String} {s : Severity}

theorem setTo_configure {word : String} (h : Spells word s) (j : Journal) (stream : String) :
    (j.step (.configure word stream)).journal.SetTo stream s := by
  simp only [step, configure, levelNamed_of_spells h]
  exact ⟨own_attach j stream, rfl, rfl⟩

theorem SetTo.attachForeign (h : j.SetTo stream s) (other : String) (key : Nat) :
    (j.attachForeign other key).SetTo stream s := by
  rw [Journal.attachForeign]
  split
  · exact h
  · refine ⟨?_, h.level, h.propagate⟩
    simp [List.filter_append, h.own]

theorem SetTo.step (h : j.SetTo stream s) {x : Step}
    (hx : ∀ word stream, x ≠ .configure word stream) : (j.step x).journal.SetTo stream s := by
  cases x with
  | configure word other => exact absurd rfl (hx word other)
  | attachForeign other key => exact h.attachForeign other key
  | record channel level text => exact h

theorem SetTo.after (h : j.SetTo stream s) {steps : List Step}
    (hs : ∀ x ∈ steps, ∀ word stream, x ≠ .configure word stream) :
    (j.after steps).SetTo stream s := by
  induction steps generalizing j with
  | nil => exact h
  | cons x steps ih =>
    obtain ⟨hx, hs⟩ := List.forall_mem_cons.mp hs
    exact ih (h.step hx) hs

theorem SetTo.nodup_handlers (h : j.SetTo stream s) (hf : j.foreign.Nodup) : j.handlers.Nodup := by
  have hp : (j.handlers.filter (·.own) ++ j.foreign).Perm j.handlers :=
    List.filter_append_perm (·.own) j.handlers
  have hn : ({ stream, own := true } : Handler) ∉ j.foreign := by simp [foreign]
  rw [h.own] at hp
  exact hp.nodup_iff.mp (List.nodup_cons.mpr ⟨hn, hf⟩)

theorem write_of_handlers {channel : String} {level : Int}
    (hl : j.threshold channel ≤ level) (hh : j.handlersOf channel ≠ []) (text : String) :
    j.write channel level text =
      (j.handlersOf channel).map fun h => Handler.write h channel level text := by
  rw [write, if_neg (Int.not_lt.mpr hl)]
  split
  · rename_i hn
    exact absurd hn hh
  · rfl

theorem threshold_of_setTo (h : j.SetTo stream s) {channel : String}
    (hc : isOwnChannel channel = true) : j.threshold channel = s.level := by
  have hs : s.level ≠ 0 := by cases s <;> decide
  simp [threshold, hc, h.level, hs]

theorem handlersOf_of_setTo (h : j.SetTo stream s) {channel : String}
    (hc : isOwnChannel channel = true) : j.handlersOf channel = j.handlers := by
  simp [handlersOf, hc, h.propagate]

theorem write_of_setTo (h : j.SetTo stream s) {channel : String}
    (hc : isOwnChannel channel = true) (level : Int) (text : String) :
    (j.write channel level text).Perm (if s.level ≤ level then
      (stream, noticeLine channel (levelName level) text ++ "\n") ::
        j.foreign.map fun h => (h.stream, text ++ "\n")
      else []) := by
  have ht := threshold_of_setTo h hc
  split
  · rename_i hl
    have hn : j.handlers ≠ [] := by
      intro hn
      have ho := h.own
      rw [hn] at ho
      cases ho
    have hp : (j.handlers.filter (·.own) ++ j.foreign).Perm j.handlers :=
      List.filter_append_perm (·.own) j.handlers
    have hf : j.foreign.map (fun h => Handler.write h channel level text) =
        j.foreign.map fun h => (h.stream, text ++ "\n") := by
      refine List.map_congr_left fun k hk => ?_
      have hk : k.own = false := by simpa using (List.mem_filter.mp hk).2
      simp [Handler.write, hk]
    rw [write_of_handlers (by rw [ht]; exact hl) (by rw [handlersOf_of_setTo h hc]; exact hn),
      handlersOf_of_setTo h hc, ← hf]
    have hw := (hp.map fun h => Handler.write h channel level text).symm
    rw [h.own] at hw
    exact hw
  · rename_i hl
    rw [write, ht, if_pos (Int.not_le.mp hl)]

/-- Since the last configuring the launcher has one handler, those of others are attached once each,
    nothing spreads, and the level is the one that the word spells. A record on one of the
    launcher's channels comes to each handler once if its level is high enough, and else to none. -/
theorem recorded_once (rootHandlers : List Handler) (before later : List Step)
    {word : String} {s : Severity} (hw : Spells word s) (stream : String)
    (hl : ∀ x ∈ later, ∀ word stream, x ≠ .configure word stream) :
    let steps := before ++ .configure word stream :: later
    let j := ({ rootHandlers } : Journal).after steps
    j.handlers.filter (·.own) = [{ stream, own := true }] ∧
    j.handlers.filter (fun h => !h.own) = attachedAlong steps ∧ j.handlers.Nodup ∧
    j.propagate = false ∧ j.level = s.level ∧
    ∀ channel, isOwnChannel channel = true → ∀ (level : Int) (text : String),
      (j.step (.record channel level text)).written.Perm (if s.level ≤ level then
        (stream, noticeLine channel (levelName level) text ++ "\n") ::
          (attachedAlong steps).map fun h => (h.stream, text ++ "\n")
        else []) := by
  intro steps j
  have hj : j.SetTo stream s := by
    have he : j = ((({ rootHandlers } : Journal).after before).step
        (.configure word stream)).journal.after later := by
      simp [j, steps, after, List.foldl_append]
    rw [he]
    exact (setTo_configure hw _ stream).after hl
  have hf : j.foreign = attachedAlong steps := foreign_after rfl steps
  refine ⟨hj.own, hf, hj.nodup_handlers ?_, hj.propagate, hj.level, ?_⟩
  · rw [hf]
    exact nodup_attachedAlong steps
  · intro channel hc level text
    rw [← hf]
    exact write_of_setTo hj hc level text

/-- A handler of others is attached twice, the launcher's is replaced, and one stands at the
    root. -/
theorem recorded_once_reconfigured :
    let steps : List Step := [.attachForeign "a" 1, .configure "debug" "b", .attachForeign "a" 1,
      .configure "Info" "c", .attachForeign "d" 2]
    let j := ({ rootHandlers := [{ stream := "e", own := false }] } : Journal).after steps
    j.level = 20 ∧ (j.step (.record "ai_gateway_launcher.cli" 30 "late")).written.Perm
      [("c", "[ai_gateway_launcher.cli] WARNING: late\n"), ("a", "late\n"), ("d", "late\n")] := by
  intro steps j
  obtain ⟨-, -, -, -, hl, hw⟩ := recorded_once [{ stream := "e", own := false }]
    [.attachForeign "a" 1, .configure "debug" "b", .attachForeign "a" 1] [.attachForeign "d" 2]
    (show Spells "Info" .info by decide) "c" (by simp)
  have hr : "cli".toList.head? ≠ some '.' := by decide
  have hc : isOwnChannel "ai_gateway_launcher.cli" = true := isOwnChannel_of_point hr (by decide)
  exact ⟨hl, hw _ hc 30 "late"⟩

end GatewayLauncher.Journal

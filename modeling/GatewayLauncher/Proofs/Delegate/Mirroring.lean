import GatewayLauncher.Proofs.Delegate.Ending
import GatewayLauncher.Proofs.Delegate.Escalation

namespace GatewayLauncher.Delegate

variable {d : Delegate} {p : ChildProcess}

def deeds (d : Delegate) : List Call := d.calls.filter Call.isDeed

theorem deeds_relay (d : Delegate) (s : Signal) :
    ∃ sent : List Signal, (d.relay s).deeds = d.deeds ++ sent.map .signal := by
  obtain ⟨-, he⟩ | ⟨_, -, -, he⟩ | ⟨_, _, -, -, he⟩ := relay_cases d s
  · exact ⟨[], by rw [he, List.map_nil, List.append_nil]; rfl⟩
  · exact ⟨[], by rw [he, List.map_nil, List.append_nil]⟩
  · exact ⟨[s], by simp [he, deeds, Call.isDeed]⟩

/-- The deeds since `d` are signals that have been sent. -/
def OnlySends (d e : Delegate) : Prop := ∃ sent : List Signal, e.deeds = d.deeds ++ sent.map .signal

theorem OnlySends.relay {e : Delegate} (h : d.OnlySends e) (s : Signal) :
    d.OnlySends (e.relay s) := by
  obtain ⟨sent, hs⟩ := h
  obtain ⟨more, hm⟩ := deeds_relay e s
  exact ⟨sent ++ more, by rw [hm, hs, List.map_append, List.append_assoc]⟩

end GatewayLauncher.Delegate

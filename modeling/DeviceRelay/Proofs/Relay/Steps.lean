/-
# What each step of the relay does to the queues

To publish adds a message and may drop the oldest, other means add bytes, a consumer
that runs takes an entry or nothing, and every other step leaves all queues as they are.
The relay stays sound whatever happens.

Key definitions: `Relay.Step`, `Relay.Effect`.
Key theorems: `Relay.effect_of_step`, `Relay.sound_of_history`, `Relay.of_step_mem`.
-/
import DeviceRelay.Proofs.Relay.Entries
import DeviceRelay.Proofs.Runs
import DeviceRelay.Relay.Runs

namespace DeviceRelay
namespace Relay

/-- A step of the relay. -/
abbrev Step (γ : Type) := Machine.Step (State γ) (Action γ) (Event γ)

variable {γ : Type} [DecidableEq γ]

/-- What an action does to the queues, and what is seen of it. -/
inductive Effect (s t : State γ) : Action γ → List (Event γ) → Prop where
  | publish (recipient : PrincipalId) (m : Message)
      (stores : ∀ other, t.here.entries other =
        if other = recipient then
          (s.here.entries recipient ++ [m.pack]).drop
            (Queues.excess s.here.maxSize s.here.overflowBuffer ((s.here.entries recipient).length + 1))
        else s.here.entries other) :
      Effect s t (.publish recipient m)
        [.stored recipient (t.here.entries recipient).length
          (Queues.excess s.here.maxSize s.here.overflowBuffer ((s.here.entries recipient).length + 1))]
  | pushRaw (recipient : PrincipalId) (bytes : List UInt8)
      (stores : ∀ other, t.here.entries other =
        if other = recipient then s.here.entries recipient ++ [bytes] else s.here.entries other) :
      Effect s t (.pushRaw recipient bytes) [.stored recipient (t.here.entries recipient).length 0]
  | run (call : γ) (c : Consumer γ) (consumed? : Option Consumed)
      (hc : s.here.consumers.find? (·.call = call) = some c) (ran : s.here.Ran t.here c consumed?) :
      Effect s t (.run call) (consumed?.toList.map (.ended call))
  | consume (call : γ) (recipient : PrincipalId) (timeout : Nat) (skips : Bool)
      (same : ∀ other, t.here.entries other = s.here.entries other) :
      Effect s t (.consume call recipient timeout skips) []
  | drop (call : γ) (same : ∀ other, t.here.entries other = s.here.entries other) :
      Effect s t (.drop call) []
  | tick (moment : Nat) (same : ∀ other, t.here.entries other = s.here.entries other) :
      Effect s t (.tick moment) []

/-- **All that a step can do**, in a sound state, which stays sound. -/
theorem effect_of_step {config : RelayConfig} {s t : State γ} {a : Action γ} {events : List (Event γ)}
    (hs : s.here.Sound config) (h : s.step a = some (t, events)) :
    Effect s t a events ∧ t.here.Sound config := by
  cases a with
  | publish recipient m =>
    have hentries := fun other => entries_publish hs.usable recipient other m
    have hstored := publish_stored hs.usable recipient m
    have hsound := hs.publish recipient m
    simp only [State.step] at h
    cases heq : s.here.publish recipient m with
    | mk r' told =>
      rw [heq] at h hentries hstored hsound
      simp only at hstored
      subst hstored
      obtain ⟨rfl, rfl⟩ := Prod.mk.inj (Option.some.inj h)
      exact ⟨.publish recipient m hentries, hsound⟩
  | pushRaw recipient bytes =>
    have hentries := fun other => s.here.entries_pushRaw recipient other bytes
    have hlength := s.here.length_pushRaw recipient bytes
    have hsound := hs.pushRaw recipient bytes
    simp only [State.step] at h
    cases heq : s.here.pushRaw recipient bytes with
    | mk r' length =>
      rw [heq] at h hentries hlength hsound
      simp only at hlength
      subst hlength
      obtain ⟨rfl, rfl⟩ := Prod.mk.inj (Option.some.inj h)
      exact ⟨.pushRaw recipient bytes hentries, hsound⟩
  | run call =>
    obtain ⟨⟨r', consumed?⟩, hrun, h⟩ := Option.map_eq_some_iff.mp h
    obtain ⟨rfl, rfl⟩ := Prod.mk.inj h
    obtain ⟨c, hc, ran, hsound⟩ := ran_of_run? hs hrun
    exact ⟨.run call c consumed? hc ran, hsound⟩
  | consume call recipient timeout skips =>
    obtain ⟨rfl, rfl⟩ := Prod.mk.inj (Option.some.inj h)
    exact ⟨.consume call recipient timeout skips fun _ => rfl, hs.begin ..⟩
  | drop call =>
    obtain ⟨rfl, rfl⟩ := Prod.mk.inj (Option.some.inj h)
    exact ⟨.drop call fun _ => rfl, hs.abandon call⟩
  | tick moment =>
    obtain ⟨-, h⟩ := Option.ite_none_right_eq_some.mp h
    obtain ⟨rfl, rfl⟩ := Prod.mk.inj (Option.some.inj h)
    exact ⟨.tick moment fun _ => rfl, hs⟩

theorem sound_of_history {config : RelayConfig} {start s : State γ} {steps : List (Step γ)}
    (h : (machine γ).History start s steps) (hstart : start.here.Sound config) : s.here.Sound config :=
  h.invariant hstart fun _ _ _ _ hs hstep => (effect_of_step hs hstep).2

/-- Every step of a run has its effect. -/
theorem of_step_mem {config : RelayConfig} {start s : State γ} {steps : List (Step γ)}
    (h : (machine γ).History start s steps) (hstart : start.here.Sound config) {x : Step γ} (hx : x ∈ steps) :
    Effect x.before x.after x.action x.events ∧ x.before.here.Sound config := by
  obtain ⟨earlier, later, -, hbefore, hstep, -⟩ := h.of_mem hx
  have hs := sound_of_history hbefore hstart
  exact ⟨(effect_of_step hs hstep).1, hs⟩

end Relay
end DeviceRelay

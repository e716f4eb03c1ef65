/-
# Runs of the coordinator from a start

A coordinator that starts without requests is sound in every state of a run, and no
request goes back on the way. Whatever request is live, timed or accepted was sent by a
step of the run, and by one only.

Key definitions: `Coordinator.Step`, `Coordinator.Sends`.
Key theorems: `Coordinator.of_step_mem`, `Coordinator.sent_of_history`,
`Coordinator.timed_of_history`, `Coordinator.sends_unique`.
-/
import DeviceRelay.Proofs.Pairing.Steps
import DeviceRelay.Proofs.Runs

namespace DeviceRelay
namespace Coordinator

variable {γ : Type}

/-- A step of the coordinator. -/
abbrev Step (γ : Type) := Machine.Step (State γ) (Action γ) (Event γ)

/-- Whether a step sends a request. -/
def Sends (request : PairingRequest) (x : Step γ) : Prop :=
  x.action = .send request.id request.requester request.target ∧
    x.events = [.sent (.ok ⟨request, .pending⟩)]

/-- A user in the runs that are shown. -/
def alice : Principal := ⟨⟨1⟩, "alice", false⟩

/-- A device in the runs that are shown. -/
def phone : Principal := ⟨⟨2⟩, "phone", true⟩

variable [DecidableEq γ] {s : State γ}

theorem sound_of_history {start : State γ} {steps : List (Step γ)}
    (h : (machine γ).History start s steps) (S : start.Sound) : s.Sound :=
  h.invariant S fun _ _ _ _ S h => (effect_of_step h).state_sound S

theorem later_of_history {start : State γ} {steps : List (Step γ)}
    (h : (machine γ).History start s steps) (S : start.Sound) : start.here.Later s.here := by
  induction h with
  | start => exact .refl _
  | step hs hstep ih => exact ih.trans ((effect_of_step hstep).later (sound_of_history hs S).here)

section
variable {ttl : Nat} {clock : Clock} {store : PairingStore} {steps : List (Step γ)}

/-- What is known of a step of a run. -/
theorem of_step_mem (h : (machine γ).History (.fresh ttl clock store) s steps) {x : Step γ}
    (hx : x ∈ steps) :
    x.before.Sound ∧ Effect x.before x.action x.after x.events ∧ x.after.Sound ∧
      x.before.here.Later x.after.here ∧ x.after.here.Later s.here := by
  obtain ⟨earlier, later, -, h1, hstep, h2⟩ := h.of_mem hx
  have S := sound_of_history h1 (fresh_sound ttl clock store)
  have E := effect_of_step hstep
  have S' := E.state_sound S
  exact ⟨S, E, S', E.later S.here, later_of_history h2 S'⟩

/-- Every request that is live or was accepted was sent. -/
theorem sent_of_history (h : (machine γ).History (.fresh ttl clock store) s steps)
    {request : PairingRequest} (hr : request ∈ s.here.requests) : ∃ x ∈ steps, Sends request x := by
  induction h with
  | start => cases hr
  | step hs hstep ih =>
    have S := (sound_of_history hs (fresh_sound ttl clock store)).here
    rcases (effect_of_step hstep).requests S hr with hr | hsend
    · obtain ⟨x, hx, hsent⟩ := ih hr
      exact ⟨x, List.mem_append_left _ hx, hsent⟩
    · exact ⟨_, List.mem_append_right _ (List.mem_singleton.mpr rfl), hsend⟩

/-- Every timer was set when its request was sent. -/
theorem timed_of_history (h : (machine γ).History (.fresh ttl clock store) s steps) :
    s.here.ttl = ttl ∧ ∀ e ∈ s.here.timers, ∃ x ∈ steps, ∃ request, request.id = e.1 ∧
      Sends request x ∧ e.2 = timerDue x.before.clock.now ttl := by
  induction h with
  | start => exact ⟨rfl, fun e he => by cases he⟩
  | step hs hstep ih =>
    have S := (sound_of_history hs (fresh_sound ttl clock store)).here
    have E := effect_of_step hstep
    refine ⟨(E.ttl S).trans ih.1, fun e he => ?_⟩
    rcases E.timers S he with he | ⟨hdue, request, hid, hsend⟩
    · obtain ⟨x, hx, hsent⟩ := ih.2 e he
      exact ⟨x, List.mem_append_left _ hx, hsent⟩
    · rw [ih.1] at hdue
      exact ⟨_, List.mem_append_right _ (List.mem_singleton.mpr rfl), request, hid, hsend, hdue⟩

theorem stage_of_sends {x : Step γ} (S : x.before.here.Sound)
    (hx : x.before.step x.action = some (x.after, x.events)) {request : PairingRequest}
    (h : Sends request x) :
    x.before.here.stage request.id = .unsent ∧ x.after.here.stage request.id = .live := by
  rw [h.1, h.2] at hx
  simp only [State.step] at hx
  split at hx
  · cases hx
  · rename_i hs
    have hid := (S.unsent_iff _).mp (Option.not_isSome_iff_eq_none.mp hs)
    split at hx
    · simp at hx
    · rename_i hsend
      rw [← (Prod.mk.inj (Option.some.inj hx)).1]
      exact ⟨hid, (send_moves S hid hsend).moved⟩

theorem not_sent_again (h : (machine γ).History (.fresh ttl clock store) s steps)
    {earlier later : List (Step γ)} {x y : Step γ} (hs : steps = earlier ++ x :: later)
    (hy : y ∈ later) {request other : PairingRequest} (hx : Sends request x) (ho : Sends other y) :
    request.id ≠ other.id := by
  subst hs
  obtain ⟨u, h1, h2⟩ := h.split
  obtain ⟨rfl, hstep, h3⟩ := h2.head
  have S := sound_of_history h1 (fresh_sound ttl clock store)
  have S' := (effect_of_step hstep).state_sound S
  obtain ⟨_, _, -, hbetween, hystep, -⟩ := h3.of_mem hy
  have hlive := (stage_of_sends S.here hstep hx).2
  have hunsent := (stage_of_sends (sound_of_history hbetween S').here hystep ho).1
  intro hid
  have hle := later_of_history hbetween S' request.id
  rw [hlive, hid, hunsent] at hle
  exact hle rfl

/-- **An identifier is sent once.** -/
theorem sends_unique (h : (machine γ).History (.fresh ttl clock store) s steps) {x y : Step γ}
    (hx : x ∈ steps) (hy : y ∈ steps) {request other : PairingRequest} (hr : Sends request x)
    (ho : Sends other y) (hid : request.id = other.id) : x = y := by
  obtain ⟨earlier, later, rfl⟩ := List.append_of_mem hx
  rcases List.mem_append.mp hy with hy | hy
  · obtain ⟨first, between, rfl⟩ := List.append_of_mem hy
    have hs : first ++ y :: between ++ x :: later = first ++ y :: (between ++ x :: later) := by simp
    exact absurd hid.symm (not_sent_again h hs (by simp) ho hr)
  · rcases List.mem_cons.mp hy with rfl | hy
    · rfl
    · exact absurd hid (not_sent_again h rfl hy hr ho)

end

end Coordinator
end DeviceRelay

/-
# Settling the queues comes to an end

A pop that is woken runs and then ends or sleeps, and one that is due ends when it runs. So
the pops that wait can run only so often before all of them sleep, and none is due any more.
If time passes only then, and stops where a pop is due, no pop is ever beyond its time.

Key definitions: `Queues.pending`.
Key theorems: `Queues.due_of_timely`, `Queues.pending_of_ready`, `Queues.ready_settle`.
-/
import DeviceRelay.Proofs.Queue.Steps
import Mathlib.Algebra.Ring.Nat

namespace DeviceRelay
namespace Queues

section
variable {κ α γ : Type}

/-- How often the pops can run before all of them sleep, at most. -/
def pending (q : Queues κ α γ) : Nat := (q.pops.map fun p => if p.woken then 2 else 1).sum

theorem pending_le (q : Queues κ α γ) : pending q ≤ 2 * q.pops.length := by
  unfold pending
  induction q.pops with
  | nil => simp
  | cons p pops ih =>
    rw [List.map_cons, List.sum_cons, List.length_cons]
    split <;> omega

theorem sum_filter_ne {β ι : Type} [DecidableEq ι] (f : β → Nat) (key : β → ι) {l : List β}
    (hl : (l.map key).Nodup) {b : β} (hb : b ∈ l) :
    ((l.filter (key · ≠ key b)).map f).sum + f b = (l.map f).sum := by
  induction l with
  | nil => cases hb
  | cons c l ih =>
    rw [List.map_cons, List.nodup_cons] at hl
    rcases List.mem_cons.mp hb with rfl | hb
    · have hrest : l.filter (key · ≠ key b) = l := List.filter_eq_self.mpr fun c hc => by
        have hne : key c ≠ key b := fun h => hl.1 (h ▸ List.mem_map_of_mem hc)
        simpa using hne
      rw [List.filter_cons_of_neg (by simp), hrest, List.map_cons, List.sum_cons, Nat.add_comm]
    · have hne : key c ≠ key b := fun h => hl.1 (h ▸ List.mem_map_of_mem hb)
      have hrest := ih hl.2 hb
      rw [List.filter_cons_of_pos (by simpa using hne), List.map_cons, List.map_cons,
        List.sum_cons, List.sum_cons]
      omega

end

variable {κ α γ : Type} [DecidableEq κ] [DecidableEq γ]

/-! ### Time -/

/-- A pop that waits after a step waited before it, with the same end, or begins with it. -/
theorem dues_of_step {s t : State κ α γ} {a : Action κ α γ} {events : List (Event κ α γ)}
    (h : s.step a = some (t, events)) {p : Pop κ γ} (hp : p ∈ t.here.pops) :
    (∃ p' ∈ s.here.pops, p'.due = p.due) ∨ (t.now = s.now ∧ s.now ≤ p.due) := by
  cases a with
  | push k a | pushCapped k a max drop =>
    obtain ⟨rfl, -⟩ := Prod.mk.inj (Option.some.inj h)
    obtain ⟨p', hp', rfl⟩ := List.mem_map.mp hp
    exact .inl ⟨p', hp', by split <;> rfl⟩
  | pop call k timeout =>
    have hnow : t.now = s.now := by
      obtain ⟨rfl, -⟩ := Prod.mk.inj (Option.some.inj h)
      rfl
    rcases pop_cases h with ⟨-, -, hpops, -⟩ | ⟨b, -, hpops, -⟩ | ⟨due, -, hdue, hpops, -⟩
    · exact .inl ⟨p, hpops ▸ hp, rfl⟩
    · exact .inl ⟨p, hpops ▸ hp, rfl⟩
    · rw [hpops, List.mem_append, List.mem_singleton] at hp
      rcases hp with hp | rfl
      · exact .inl ⟨p, hp, rfl⟩
      · exact .inr ⟨hnow, eq_of_deadline? hdue ▸ Nat.le_add_right _ _⟩
  | resume call =>
    obtain ⟨p', hp', -, hcases⟩ := resume_cases h
    rcases hcases with ⟨b, -, hpops, -⟩ | ⟨-, -, hpops, -⟩ | ⟨-, -, hhere⟩
    · exact .inl ⟨p, (mem_abandon.mp (hpops ▸ hp)).1, rfl⟩
    · rw [hpops, List.mem_append, List.mem_singleton] at hp
      rcases hp with hp | rfl
      · exact .inl ⟨p, (mem_abandon.mp hp).1, rfl⟩
      · exact .inl ⟨p', hp', rfl⟩
    · exact .inl ⟨p, (mem_abandon.mp (hhere ▸ hp)).1, rfl⟩
  | drop call =>
    obtain ⟨rfl, -⟩ := Prod.mk.inj (Option.some.inj h)
    exact .inl ⟨p, (mem_abandon.mp hp).1, rfl⟩
  | trim k first last =>
    obtain ⟨rfl, -⟩ := Prod.mk.inj (Option.some.inj h)
    exact .inl ⟨p, hp, rfl⟩
  | tick moment =>
    simp only [State.step] at h
    split at h
    · obtain ⟨rfl, -⟩ := Prod.mk.inj (Option.some.inj h)
      exact .inl ⟨p, hp, rfl⟩
    · cases h

theorem now_of_step {s t : State κ α γ} {a : Action κ α γ} {events : List (Event κ α γ)}
    (h : s.step a = some (t, events)) : t.now = s.now ∨ a = .tick t.now := by
  cases a with
  | resume call =>
    obtain ⟨_, -, h⟩ := Option.map_eq_some_iff.mp h
    obtain ⟨rfl, -⟩ := Prod.mk.inj h
    exact .inl rfl
  | tick moment =>
    simp only [State.step] at h
    split at h
    · obtain ⟨rfl, -⟩ := Prod.mk.inj (Option.some.inj h)
      exact .inr rfl
    · cases h
  | _ =>
    obtain ⟨rfl, -⟩ := Prod.mk.inj (Option.some.inj h)
    exact .inl rfl

/-- A pop that waits is not beyond its time, if time passes only while nothing is ready. -/
theorem due_of_timely {now : Nat} {s : State κ α γ} {steps : List (Step κ α γ)}
    (h : (machine κ α γ).History ⟨now, {}⟩ s steps) (timely : (machine κ α γ).Timely steps)
    {p : Pop κ γ} (hp : p ∈ s.here.pops) : s.now ≤ p.due := by
  induction h generalizing p with
  | start => cases hp
  | @step s t steps a events _ hstep ih =>
    rcases dues_of_step hstep hp with ⟨p', hp', hdue⟩ | ⟨hnow, hdue⟩
    · rw [← hdue]
      rcases now_of_step hstep with hnow | rfl
      · exact hnow ▸ ih timely.append_left hp'
      · obtain ⟨-, hstop⟩ := timely ⟨s, .tick t.now, t, events⟩ (by simp) t.now rfl
        exact Machine.le_of_min? hstop (List.mem_map_of_mem hp')
    · exact hnow ▸ hdue

/-! ### Settling -/

theorem resume?_of_canRun {q : Queues κ α γ} {now : Nat} {call : γ} {p : Pop κ γ}
    (hfind : q.pops.find? (·.call = call) = some p) (hruns : canRun now p = true) :
    ∃ ran, q.resume? now call = some ran := by
  refine Option.isSome_iff_exists.mp ?_
  unfold resume?
  rw [hfind, Option.bind_eq_bind, Option.bind_some]
  by_cases hw : p.woken = true
  · rw [if_pos hw]
    cases q.take? p.key <;> rfl
  · have hdue : p.due ≤ now := by simpa [canRun, hw] using hruns
    rw [if_neg hw, if_pos hdue]
    rfl

theorem resume_of_canRun {s : State κ α γ} (hn : (s.here.pops.map (·.call)).Nodup) {p : Pop κ γ}
    (hp : p ∈ s.here.pops) (hruns : canRun s.now p = true) :
    ∃ t events, s.step (.resume p.call) = some (t, events) := by
  obtain ⟨ran, hran⟩ := resume?_of_canRun (Keyed.find?_of_mem hn hp) hruns
  exact ⟨_, _, congrArg (Option.map _) hran⟩

/-- What is ready can run, and brings all pops nearer to sleep. -/
theorem pending_of_ready {s : State κ α γ} (hn : (s.here.pops.map (·.call)).Nodup)
    {a : Action κ α γ} (h : (machine κ α γ).ready s = some a) :
    ∃ t events, s.step a = some (t, events) ∧ pending t.here < pending s.here ∧
      (t.here.pops.map (·.call)).Nodup := by
  obtain ⟨call, hcall, rfl⟩ := Option.map_eq_some_iff.mp h
  obtain ⟨p, hfind, rfl⟩ := Option.map_eq_some_iff.mp hcall
  have hp : p ∈ s.here.pops := List.mem_of_find?_eq_some hfind
  obtain ⟨t, events, hstep⟩ := resume_of_canRun hn hp (List.find?_some hfind)
  refine ⟨t, events, hstep, ?_⟩
  have hsum : pending (s.here.abandon p.call) + (if p.woken then 2 else 1) = pending s.here :=
    sum_filter_ne (fun p => if p.woken then 2 else 1) (·.call) hn hp
  have hleft : ((s.here.abandon p.call).pops.map (·.call)).Nodup :=
    hn.sublist (List.filter_sublist.map _)
  have hgone : p.call ∉ (s.here.abandon p.call).pops.map (·.call) := fun hmem => by
    obtain ⟨p', hp', hc⟩ := List.mem_map.mp hmem
    exact (mem_abandon.mp hp').2 hc
  have hweight : 0 < if p.woken then 2 else 1 := by split <;> omega
  obtain ⟨p', hp', hc, hcases⟩ := resume_cases hstep
  obtain rfl : p' = p := List.inj_on_of_nodup_map hn hp' hp hc
  rcases hcases with ⟨b, -, hpops, -⟩ | ⟨-, hw, hpops, -⟩ | ⟨-, -, hhere⟩
  · rw [hpops]
    refine ⟨?_, hleft⟩
    unfold pending at hsum ⊢
    rw [hpops]
    omega
  · rw [hpops, List.map_append]
    refine ⟨?_, by rw [List.map_singleton, ← List.concat_eq_append]; exact hleft.concat hgone⟩
    simp only [pending, hpops, List.map_append, List.sum_append, hw, ↓reduceIte] at hsum ⊢
    simp only [List.map_singleton, List.sum_singleton, Bool.false_eq_true, ↓reduceIte]
    omega
  · rw [hhere]
    exact ⟨by omega, hleft⟩

/-- **Settling comes to an end.** -/
theorem ready_settle (fuel : Nat) {s : State κ α γ} (hn : (s.here.pops.map (·.call)).Nodup)
    (hfuel : pending s.here ≤ fuel) :
    (machine κ α γ).ready ((machine κ α γ).settle fuel s).1 = none := by
  refine Machine.ready_settle (P := fun s => (s.here.pops.map (·.call)).Nodup)
    (fun s => pending s.here) (fun s a hs hready => ?_) fuel hn hfuel
  exact pending_of_ready hs hready

end Queues
end DeviceRelay

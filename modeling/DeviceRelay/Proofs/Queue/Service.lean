/-
# Every pop is served in time or gives up on time

No wake-up is lost: when nothing can run without time passing, no list has both items and a
pop that waits for them. What a step of a pop takes from a list is what the pop returns, and
a pop returns once at most, so a pop that is dropped or that returns nothing has taken
nothing. A pop that finds nothing waits, however often it is woken in vain, until its time
is over, and gives up then and not before.

Key definitions: `Queues.BegunOnce`, `Queues.Distinct`, `Queues.Served`, `Queues.Service`.
Key theorems: `Queues.slots_of_history`, `Queues.frees_of_history`,
`Queues.served_of_history`, `Queues.service_of_history`.
-/
import DeviceRelay.Proofs.Queue.Settling
import Mathlib.Data.List.Induction

namespace DeviceRelay
namespace Queues

variable {κ α γ : Type} [DecidableEq κ] [DecidableEq γ]

/-- No other step begins a call of the same name. -/
def BegunOnce (call : γ) (others : List (Step κ α γ)) : Prop :=
  ∀ y ∈ others, y.action.begins call = false

/-- No two calls have one name. -/
def Distinct (steps : List (Step κ α γ)) : Prop :=
  ∀ earlier x later call, steps = earlier ++ x :: later → x.action.begins call = true →
    BegunOnce call (earlier ++ later)

/-- How a pop is served that a step of a run begins. -/
structure Served (call : γ) (k : κ) (timeout : Nat) (earlier : List (Step κ α γ)) (x : Step κ α γ)
    (later : List (Step κ α γ)) (s : State κ α γ) : Prop where
  /-- It ends once at most. -/
  once : ∃ popped? : Option (Popped α), ends call (earlier ++ x :: later) = popped?.toList
  /-- What its steps take from the list of its key, at the front, is what it returns in them.
  They take nothing from other lists. -/
  removes : ∀ y ∈ x :: later, y.action.isOf call = true → ∀ k', y.before.here.items k' =
    (if k' = k then (ends call [y]).filterMap Popped.item? else []) ++ y.after.here.items k'
  /-- Nobody else returns anything in its steps. -/
  alone : ∀ y ∈ x :: later, y.action.isOf call = true → ∀ other, other ≠ call → ends other [y] = []
  /-- If it returns no item, then it takes nothing. -/
  keeps : (∀ a, .item a ∉ ends call (x :: later)) → ∀ y ∈ x :: later, y.action.isOf call = true →
    ∀ k', y.after.here.items k' = y.before.here.items k'
  /-- When it was dropped, it returns nothing any more. -/
  dropped : ∀ l y l', later = l ++ y :: l' → y.action = .drop call → ends call l' = []
  /-- Until it ends or is dropped it waits, and nothing changes when it gives up. -/
  waits : ends call (x :: later) = [] → (∀ y ∈ later, y.action ≠ .drop call) →
    ∃ p ∈ s.here.pops, p.call = call ∧ p.key = k ∧ p.due = x.before.now + timeout
  /-- It does not give up before its time is over. -/
  patient : ∀ y ∈ x :: later, .nothing ∈ ends call [y] → x.before.now + timeout ≤ y.before.now
  /-- If time passes only while nothing is ready, it gives up exactly when its time is over. -/
  onTime : (machine κ α γ).Timely (earlier ++ x :: later) → ∀ y ∈ x :: later,
    .nothing ∈ ends call [y] → y.before.now = x.before.now + timeout
  /-- Once its time is over and nothing is ready, it has given up, if it got no item and was
  not dropped, and the clock can name the moment. -/
  expires : (x.before.now + timeout) / 1000 ≤ clockRange → (machine κ α γ).ready s = none →
    x.before.now + timeout ≤ s.now → (∀ a, .item a ∉ ends call (x :: later)) →
    (∀ y ∈ later, y.action ≠ .drop call) →
    ends call (x :: later) = [.nothing]

/-- How the pops of a run are served. -/
structure Service (steps : List (Step κ α γ)) (s : State κ α γ) : Prop where
  /-- No wake-up is lost. -/
  noneMissed : (machine κ α γ).ready s = none → ∀ k, s.here.items k ≠ [] →
    ∀ p ∈ s.here.pops, p.key ≠ k
  served : ∀ earlier x later call k timeout, steps = earlier ++ x :: later →
    x.action = .pop call k timeout → BegunOnce call (earlier ++ later) →
    Served call k timeout earlier x later s
  /-- If no two calls have one name, it takes at most two runs of every pop until nothing is
  ready any more. -/
  settles : Distinct steps → ∀ fuel, 2 * s.here.pops.length ≤ fuel →
    (machine κ α γ).ready ((machine κ α γ).settle fuel s).1 = none

theorem awake_of_history {now : Nat} {s : State κ α γ} {steps : List (Step κ α γ)}
    (h : (machine κ α γ).History ⟨now, {}⟩ s steps) : Awake s.here :=
  h.invariant (P := fun s => Awake s.here) (fun p hp => by cases hp)
    fun _ _ _ _ awake hstep => awake_of_step hstep awake

theorem slots_of_unbegun {now : Nat} {s : State κ α γ} {steps : List (Step κ α γ)} {call : γ}
    (h : (machine κ α γ).History ⟨now, {}⟩ s steps) (hnone : BegunOnce call steps) :
    s.here.slots call = [] := by
  induction h with
  | start => rfl
  | step h hstep ih =>
    have hslots := ih fun y hy => hnone y (List.mem_append_left _ hy)
    have hbegins := hnone _ (List.mem_append_right _ List.mem_cons_self)
    rw [slots_of_step hstep hbegins (by simp [hslots]), hslots, ite_self]

section
variable {now : Nat} {earlier later : List (Step κ α γ)} {x : Step κ α γ} {s : State κ α γ}
  {call : γ} {k : κ} {timeout : Nat}

theorem slots_of_begin {t : State κ α γ} {events : List (Event κ α γ)}
    (h : s.step (.pop call k timeout) = some (t, events)) (hnone : s.here.slots call = []) :
    t.here.slots call = if frees call ⟨s, .pop call k timeout, t, events⟩ then []
      else [(k, s.now + timeout)] := by
  rcases pop_cases h with ⟨rfl, -, hpops, -⟩ | ⟨b, rfl, hpops, -⟩ | ⟨due, rfl, hdue, hpops, -⟩
  · rw [slots_of_pops hpops, hnone]
    simp [frees, ends_ended]
  · rw [slots_of_pops hpops, hnone]
    simp [frees, ends_ended]
  · obtain rfl : s.now + timeout = due := eq_of_deadline? hdue
    rw [slots_append hpops, hnone]
    simp [frees, Action.drops, ends_nil]

/-- **A call waits with its key and its end from its begin until it ends or is dropped.** -/
theorem slots_of_history (h : (machine κ α γ).History ⟨now, {}⟩ s (earlier ++ x :: later))
    (ha : x.action = .pop call k timeout) (only : BegunOnce call (earlier ++ later)) :
    s.here.slots call =
      if (x :: later).any (frees call) then [] else [(k, x.before.now + timeout)] := by
  obtain ⟨u, hbefore, hfrom⟩ := h.split
  obtain ⟨rfl, hstep, hafter⟩ := hfrom.head
  have hnone : x.before.here.slots call = [] :=
    slots_of_unbegun hbefore fun y hy => only y (List.mem_append_left _ hy)
  have hbegun : x.after.here.slots call =
      if frees call x then [] else [(k, x.before.now + timeout)] := by
    rw [ha] at hstep
    have hx : x = ⟨x.before, .pop call k timeout, x.after, x.events⟩ := by rw [← ha]
    rw [slots_of_begin hstep hnone, ← hx]
  have hlater : ∀ y ∈ later, y.action.begins call = false :=
    fun y hy => only y (List.mem_append_right _ hy)
  clear h hfrom only
  induction hafter with
  | start => simpa using hbegun
  | @step v w steps a events _ hrun ih =>
    have hslots := ih fun y hy => hlater y (List.mem_append_left _ hy)
    have hone : (v.here.slots call).length ≤ 1 := by rw [hslots]; split <;> simp
    have hbegins : a.begins call = false := hlater _ (List.mem_append_right _ List.mem_cons_self)
    rw [slots_of_step hrun hbegins hone, hslots, ← List.cons_append, List.any_append]
    cases (x :: steps).any (frees call) <;> cases hlast : frees call ⟨v, a, w, events⟩ <;>
      simp [hlast]

theorem slots_before (h : (machine κ α γ).History ⟨now, {}⟩ s (earlier ++ x :: later))
    (ha : x.action = .pop call k timeout) (only : BegunOnce call (earlier ++ later))
    {l l' : List (Step κ α γ)}
    {y : Step κ α γ} (hl : later = l ++ y :: l') :
    (machine κ α γ).History ⟨now, {}⟩ y.before (earlier ++ x :: l) ∧
      y.before.step y.action = some (y.after, y.events) ∧ y.action.begins call = false ∧
      y.before.here.slots call =
        if (x :: l).any (frees call) then [] else [(k, x.before.now + timeout)] := by
  subst hl
  rw [← List.cons_append, ← List.append_assoc] at h
  obtain ⟨u, hbefore, hfrom⟩ := h.split
  obtain ⟨rfl, hstep, -⟩ := hfrom.head
  have only' : BegunOnce call (earlier ++ l) := fun z hz => only z (by
    rcases List.mem_append.mp hz with hz | hz <;> simp [hz])
  exact ⟨hbefore, hstep, only y (by simp), slots_of_history hbefore ha only'⟩

theorem begin_of_history (h : (machine κ α γ).History ⟨now, {}⟩ s (earlier ++ x :: later))
    (ha : x.action = .pop call k timeout) :
    x.before.step (.pop call k timeout) = some (x.after, x.events) := by
  obtain ⟨u, -, hfrom⟩ := h.split
  obtain ⟨rfl, hstep, -⟩ := hfrom.head
  rw [← ha]
  exact hstep

/-- A call that ends in a later step was there until then. -/
theorem frees_of_history (h : (machine κ α γ).History ⟨now, {}⟩ s (earlier ++ x :: later))
    (ha : x.action = .pop call k timeout) (only : BegunOnce call (earlier ++ later))
    {l l' : List (Step κ α γ)}
    {y : Step κ α γ} (hl : later = l ++ y :: l') (hends : ends call [y] ≠ []) :
    (∀ z ∈ x :: l, frees call z = false) ∧ ∃ popped, y.events = [.ended call popped] ∧
      popped ≠ .beyondClock ∧ (popped = .nothing → x.before.now + timeout ≤ y.before.now) := by
  obtain ⟨-, hstep, hbegins, hslots⟩ := slots_before h ha only hl
  obtain ⟨-, e, he, popped, hevents, hbeyond, hdue⟩ := frees_of_step hstep hbegins hends
  rw [hslots] at he
  split at he
  case isTrue => cases he
  case isFalse hnone =>
    obtain rfl := List.mem_singleton.mp he
    refine ⟨fun z hz => ?_, popped, hevents, hbeyond, hdue⟩
    by_contra hfrees
    exact hnone (List.any_eq_true.mpr ⟨z, hz, by simpa using hfrees⟩)

theorem ends_of_unbegun (h : (machine κ α γ).History ⟨now, {}⟩ s earlier)
    (hnone : BegunOnce call earlier) : ends call earlier = [] := by
  refine List.flatMap_eq_nil_iff.mpr fun y hy => ?_
  obtain ⟨l, l', rfl, hbefore, hstep, -⟩ := h.of_mem hy
  by_contra hends
  have hslots := slots_of_unbegun hbefore fun z hz => hnone z (List.mem_append_left _ hz)
  obtain ⟨-, e, he, -⟩ := frees_of_step hstep (hnone y hy) (by simpa [ends] using hends)
  simp [hslots] at he

/-- A call that ends when it begins does not give up, and is refused only if the clock cannot
name the moment when it would. -/
theorem ends_of_begin (h : (machine κ α γ).History ⟨now, {}⟩ s (earlier ++ x :: later))
    (ha : x.action = .pop call k timeout) :
    ends call [x] = [] ∨ ∃ popped, ends call [x] = [popped] ∧ popped ≠ .nothing ∧
      (popped = .beyondClock → clockRange < (x.before.now + timeout) / 1000) := by
  rcases pop_cases (begin_of_history h ha) with
    ⟨hevents, hbeyond, -⟩ | ⟨a, hevents, -⟩ | ⟨due, hevents, -⟩
  · refine .inr ⟨.beyondClock, by simp [ends, hevents, Event.endOf?], by simp, fun _ => ?_⟩
    simpa [deadline?] using hbeyond
  · exact .inr ⟨.item a, by simp [ends, hevents, Event.endOf?], by simp, by simp⟩
  · exact .inl (by simp [ends, hevents])

/-- **A call ends once at most.** -/
theorem ends_of_history (h : (machine κ α γ).History ⟨now, {}⟩ s (earlier ++ x :: later))
    (ha : x.action = .pop call k timeout) (only : BegunOnce call (earlier ++ later)) :
    ends call (x :: later) = [] ∨ ∃ popped, ends call (x :: later) = [popped] ∧
      (popped = .beyondClock → clockRange < (x.before.now + timeout) / 1000) := by
  induction later using List.reverseRecOn generalizing s with
  | nil =>
    rcases ends_of_begin h ha with hends | ⟨popped, hends, -, hbeyond⟩
    · exact .inl hends
    · exact .inr ⟨popped, hends, hbeyond⟩
  | append_singleton later y ih =>
    rw [← List.cons_append, ends_append]
    by_cases hends : ends call [y] = []
    · obtain ⟨u, hbefore, -⟩ := (show (machine κ α γ).History ⟨now, {}⟩ s
        ((earlier ++ x :: later) ++ [y]) by simpa using h).split
      rw [hends, List.append_nil]
      exact ih hbefore fun z hz => only z (by
        rcases List.mem_append.mp hz with hz | hz <;> simp [hz])
    · obtain ⟨hfrees, popped, hevents, hbeyond, -⟩ := frees_of_history h ha only rfl hends
      rw [ends_of_not_frees hfrees]
      exact .inr ⟨popped, by simp [ends, hevents, Event.endOf?], fun h => absurd h hbeyond⟩

/-- **What the steps of a call take is what the call returns.** -/
theorem removes_of_history (h : (machine κ α γ).History ⟨now, {}⟩ s (earlier ++ x :: later))
    (ha : x.action = .pop call k timeout) (only : BegunOnce call (earlier ++ later)) {y : Step κ α γ}
    (hy : y ∈ x :: later) (hof : y.action.isOf call = true) (k' : κ) :
    y.before.here.items k' =
      (if k' = k then (ends call [y]).filterMap Popped.item? else []) ++ y.after.here.items k' := by
  rcases List.mem_cons.mp hy with rfl | hy
  · have hx : y = ⟨y.before, .pop call k timeout, y.after, y.events⟩ := by rw [← ha]
    have hremoves := removes_of_pop (begin_of_history h ha) k'
    rwa [← hx] at hremoves
  · obtain ⟨l, l', hl⟩ := List.append_of_mem hy
    obtain ⟨-, hstep, hbegins, hslots⟩ := slots_before h ha only hl
    refine removes_of_step hstep hof hbegins (fun e he => ?_) k'
    rw [hslots] at he
    split at he
    · cases he
    · rw [List.mem_singleton.mp he]

theorem patient_of_history (h : (machine κ α γ).History ⟨now, {}⟩ s (earlier ++ x :: later))
    (ha : x.action = .pop call k timeout) (only : BegunOnce call (earlier ++ later)) {y : Step κ α γ}
    (hy : y ∈ x :: later) (hends : .nothing ∈ ends call [y]) :
    ∃ l l', later = l ++ y :: l' ∧ (∀ z ∈ x :: l, frees call z = false) ∧
      x.before.now + timeout ≤ y.before.now := by
  rcases List.mem_cons.mp hy with rfl | hy
  · rcases ends_of_begin h ha with hbegin | ⟨popped, hbegin, hgiven, -⟩
    · simp [hbegin] at hends
    · rw [hbegin, List.mem_singleton] at hends
      exact absurd hends.symm hgiven
  · obtain ⟨l, l', hl⟩ := List.append_of_mem hy
    obtain ⟨hfrees, popped, hevents, -, hdue⟩ :=
      frees_of_history h ha only hl (List.ne_nil_of_mem hends)
    have hnothing : popped = .nothing := by
      simpa [ends, hevents, Event.endOf?, eq_comm] using hends
    exact ⟨l, l', hl, hfrees, hdue hnothing⟩

theorem waits_of_history (h : (machine κ α γ).History ⟨now, {}⟩ s (earlier ++ x :: later))
    (ha : x.action = .pop call k timeout) (only : BegunOnce call (earlier ++ later))
    (hfrees : ∀ z ∈ x :: later, frees call z = false) :
    ∃ p ∈ s.here.pops, p.call = call ∧ p.key = k ∧ p.due = x.before.now + timeout := by
  have hnone : (x :: later).any (frees call) = false := List.any_eq_false.mpr fun z hz => by
    simp [hfrees z hz]
  have hslots := slots_of_history h ha only
  rw [hnone, if_neg (by simp)] at hslots
  have hmem : (k, x.before.now + timeout) ∈ s.here.slots call := by simp [hslots]
  obtain ⟨p, hp, he⟩ := List.mem_map.mp hmem
  obtain ⟨hp, hc⟩ := List.mem_filter.mp hp
  obtain ⟨hkey, hdue⟩ := Prod.mk.inj he
  exact ⟨p, hp, of_decide_eq_true hc, hkey, hdue⟩

end

section
variable {now : Nat} {earlier later : List (Step κ α γ)} {x : Step κ α γ} {s : State κ α γ}
  {call : γ} {k : κ} {timeout : Nat}

/-- **A pop is served in time or gives up on time.** -/
theorem served_of_history (h : (machine κ α γ).History ⟨now, {}⟩ s (earlier ++ x :: later))
    (ha : x.action = .pop call k timeout) (only : BegunOnce call (earlier ++ later)) :
    Served call k timeout earlier x later s := by
  constructor
  case once =>
    obtain ⟨u, hbefore, -⟩ := h.split
    rw [ends_append, ends_of_unbegun hbefore fun y hy => only y (List.mem_append_left _ hy)]
    rcases ends_of_history h ha only with hends | ⟨popped, hends, -⟩
    · exact ⟨none, hends⟩
    · exact ⟨some popped, hends⟩
  case removes => exact fun y hy hof k' => removes_of_history h ha only hy hof k'
  case alone =>
    intro y hy hof other hne
    obtain ⟨-, -, -, -, hstep, -⟩ := h.of_mem (List.mem_append_right _ hy)
    exact alone_of_step hstep hof hne
  case keeps =>
    intro hnone y hy hof k'
    have hreturned : (ends call [y]).filterMap Popped.item? = [] := by
      refine List.filterMap_eq_nil_iff.mpr fun popped hpopped => ?_
      have hmem : popped ∈ ends call (x :: later) := by
        obtain ⟨l, l', hl⟩ := List.append_of_mem hy
        rw [hl, ends_append, ← List.singleton_append, ends_append]
        simp [hpopped]
      cases popped with
      | item a => exact absurd hmem (hnone a)
      | _ => rfl
    have hremoves := removes_of_history h ha only hy hof k'
    rw [hreturned, ite_self, List.nil_append] at hremoves
    exact hremoves.symm
  case dropped =>
    intro l y l' hl hdrop
    refine List.flatMap_eq_nil_iff.mpr fun z hz => ?_
    by_contra hends
    obtain ⟨l₁, l₂, rfl⟩ := List.append_of_mem hz
    have hl' : later = (l ++ y :: l₁) ++ z :: l₂ := by simp [hl]
    obtain ⟨hfrees, -⟩ := frees_of_history h ha only hl' (by simpa [ends] using hends)
    have hy := hfrees y (by simp)
    simp [frees, hdrop, Action.drops] at hy
  case waits =>
    exact fun hends hdrops => waits_of_history h ha only (frees_of_ends ha hends hdrops)
  case patient =>
    intro y hy hends
    obtain ⟨-, -, -, -, hdue⟩ := patient_of_history h ha only hy hends
    exact hdue
  case onTime =>
    intro timely y hy hends
    obtain ⟨l, l', hl, hfrees, hover⟩ := patient_of_history h ha only hy hends
    obtain ⟨hbefore, -⟩ := slots_before h ha only hl
    subst hl
    rw [← List.cons_append, ← List.append_assoc] at timely
    have only' : BegunOnce call (earlier ++ l) := fun z hz => only z (by
      rcases List.mem_append.mp hz with hz | hz <;> simp [hz])
    obtain ⟨p, hp, -, -, hdue⟩ := waits_of_history hbefore ha only' hfrees
    exact Nat.le_antisymm (hdue ▸ due_of_timely hbefore timely.append_left hp) hover
  case expires =>
    intro hrange hready hover hnone hdrops
    rcases ends_of_history h ha only with hends | ⟨popped, hends, hbeyond⟩
    · obtain ⟨p, hp, -, -, hdue⟩ :=
        waits_of_history h ha only (frees_of_ends ha hends hdrops)
      obtain ⟨-, hlater⟩ := sleeps_of_ready hready hp
      omega
    · cases popped with
      | item a => exact absurd (by simp [hends]) (hnone a)
      | nothing => exact hends
      | beyondClock => exact absurd (hbeyond rfl) (Nat.not_lt.mpr hrange)

end

theorem slots_le_one {now : Nat} {s : State κ α γ} {steps : List (Step κ α γ)}
    (h : (machine κ α γ).History ⟨now, {}⟩ s steps) (distinct : Distinct steps) (call : γ) :
    (s.here.slots call).length ≤ 1 := by
  induction h with
  | start => simp [slots]
  | @step s t steps a events h hstep ih =>
    have hone : (s.here.slots call).length ≤ 1 := ih fun earlier x later c hl hx y hy =>
      distinct earlier x (later ++ [⟨s, a, t, events⟩]) c (by simp [hl]) hx y (by
        rcases List.mem_append.mp hy with hy | hy <;> simp [hy])
    by_cases hbegins : a.begins call = true
    · have hunbegun : BegunOnce call steps := fun y hy =>
        distinct steps _ [] call rfl hbegins y (by simpa using hy)
      have hnone := slots_of_unbegun h hunbegun
      cases a with
      | pop c k timeout =>
        rcases pop_cases hstep with ⟨-, -, hpops, -⟩ | ⟨b, -, hpops, -⟩ | ⟨due, -, -, hpops, -⟩
        · simp [slots_of_pops hpops, hnone]
        · simp [slots_of_pops hpops, hnone]
        · rw [slots_append hpops, hnone]
          split <;> simp
      | _ => cases hbegins
    · rw [slots_of_step hstep (by simpa using hbegins) hone]
      split
      · simp
      · exact hone

theorem nodup_of_history {now : Nat} {s : State κ α γ} {steps : List (Step κ α γ)}
    (h : (machine κ α γ).History ⟨now, {}⟩ s steps) (distinct : Distinct steps) :
    (s.here.pops.map (·.call)).Nodup := by
  refine List.nodup_iff_count_le_one.mpr fun call => ?_
  have hcount : (s.here.pops.map (·.call)).count call = (s.here.slots call).length := by
    rw [slots, List.length_map, List.count, List.countP_map, List.countP_eq_length_filter]
    rfl
  exact hcount ▸ slots_le_one h distinct call

/-- **Every pop of a run is served in time or gives up on time.** -/
theorem service_of_history {now : Nat} {s : State κ α γ} {steps : List (Step κ α γ)}
    (h : (machine κ α γ).History ⟨now, {}⟩ s steps) : Service steps s := by
  constructor
  case noneMissed =>
    rintro hready k hitems p hp rfl
    obtain ⟨hsleeps, -⟩ := sleeps_of_ready hready hp
    exact hitems (awake_of_history h p hp hsleeps)
  case served =>
    rintro earlier x later call k timeout rfl ha only
    exact served_of_history h ha only
  case settles =>
    intro distinct fuel hfuel
    exact ready_settle fuel (nodup_of_history h distinct) (Nat.le_trans (pending_le s.here) hfuel)

/-- Two pops wait for one key, and the item that is pushed wakes both. The first one takes it,
and the second one is woken in vain and gives up when its time is over. -/
theorem service_of_two : ∃ (s : State Nat Nat Nat) (steps : List (Step Nat Nat Nat)),
    (machine Nat Nat Nat).History ⟨0, {}⟩ s steps ∧
      ends 1 steps = [.item 5] ∧ ends 2 steps = [.nothing] ∧ s.now = 60 ∧ s.here.pops = [] ∧
      Service steps s := by
  have h1 : (machine Nat Nat Nat).History ⟨0, {}⟩ _ [] := .start
  have h2 := h1.step (a := .pop 1 7 90) rfl
  have h3 := h2.step (a := .pop 2 7 60) rfl
  have h4 := h3.step (a := .push 7 5) rfl
  have h5 := h4.step (a := .resume 1) rfl
  have h6 := h5.step (a := .resume 2) rfl
  have h7 := h6.step (a := .tick 60) rfl
  have h8 := h7.step (a := .resume 2) rfl
  exact ⟨_, _, h8, rfl, rfl, rfl, rfl, service_of_history h8⟩

end Queues
end DeviceRelay

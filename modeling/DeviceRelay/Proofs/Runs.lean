/-
# A run is the list of its steps

A step is an action with the states before and after it and the events that it showed.
The history of a run lists its steps, from the first to the latest. What holds at the
start and is kept by every step holds in every state of a run, and what can happen only
while something has not happened yet, and makes it happen, happens at most once.

Key definitions: `Machine.Step`, `Machine.History`, `Machine.Timely`, `Machine.replay`.
Key theorems: `Machine.exists_split_concat_iff`, `Machine.reaches_iff_history`,
`Machine.history_of_run`, `Machine.run_alike`, `Machine.ready_settle`, `Machine.run_append`,
`Machine.history_of_replay`, `Machine.History.split`, `Machine.History.around`,
`Machine.History.of_mem`, `Machine.History.invariant`, `Machine.History.stays`,
`Machine.History.since`, `Machine.History.between`, `Machine.History.origin`,
`Machine.History.countP_le_one`.
-/
import DeviceRelay.Schedule
import Mathlib.Data.List.Basic

namespace DeviceRelay
namespace Machine

/-- One step of a run. -/
structure Step (σ α ε : Type) where
  before : σ
  action : α
  after : σ
  events : List ε

variable {σ α ε : Type}

/-- Time passes only while nothing is ready, and stops where something falls due. -/
def Timely (m : Machine σ α ε) (steps : List (Step σ α ε)) : Prop :=
  ∀ x ∈ steps, ∀ moment, x.action = m.wait moment →
    m.ready x.before = none ∧ ∀ due, m.nextDue x.before = some due → moment ≤ due

theorem Timely.append_left {m : Machine σ α ε} {earlier later : List (Step σ α ε)}
    (h : m.Timely (earlier ++ later)) : m.Timely earlier :=
  fun x hx => h x (List.mem_append_left later hx)

/-- What is not beyond the first of some moments is beyond none of them. -/
theorem le_of_min? {moments : List Nat} {moment due : Nat}
    (h : ∀ first, moments.min? = some first → moment ≤ first) (hdue : due ∈ moments) :
    moment ≤ due := by
  cases hfirst : moments.min? with
  | none => simp [List.min?_eq_none_iff.mp hfirst] at hdue
  | some first => exact Nat.le_trans (h first hfirst) ((List.min?_eq_some_iff.mp hfirst).2 due hdue)

/-- Two places in a run are the same place, or the one lies apart from the other. -/
theorem eq_or_mem_of_split {α : Type} {earlier later earlier' later' : List α} {x x' : α}
    (h : earlier ++ x :: later = earlier' ++ x' :: later') :
    (earlier = earlier' ∧ x = x' ∧ later = later') ∨ x' ∈ earlier ++ later := by
  induction earlier generalizing earlier' with
  | nil =>
    cases earlier' with
    | nil => exact .inl ⟨rfl, (List.cons.inj h).1, (List.cons.inj h).2⟩
    | cons y earlier' =>
      obtain ⟨-, rfl⟩ := List.cons.inj h
      exact .inr (by simp)
  | cons z earlier ih =>
    cases earlier' with
    | nil =>
      obtain ⟨rfl, -⟩ := List.cons.inj h
      exact .inr (by simp)
    | cons y earlier' =>
      obtain ⟨rfl, hrest⟩ := List.cons.inj h
      exact (ih hrest).imp (fun hsame => by simp [hsame]) (List.mem_cons_of_mem z)

/-- A place in a list with one more member is the last one, or a place that was there before. -/
theorem exists_split_concat_iff {α : Type} {l : List α} {x : α} {P : α → List α → Prop} :
    (∃ earlier y later, l ++ [x] = earlier ++ y :: later ∧ P y later) ↔
      P x [] ∨ ∃ earlier y later, l = earlier ++ y :: later ∧ P y (later ++ [x]) := by
  constructor
  · rintro ⟨earlier, y, later, hl, hP⟩
    rcases List.eq_nil_or_concat later with rfl | ⟨later, z, rfl⟩
    · obtain ⟨-, hx⟩ := List.append_inj' hl rfl
      obtain rfl : x = y := by simpa using hx
      exact .inl hP
    · rw [List.concat_eq_append] at hl hP
      rw [← List.cons_append, ← List.append_assoc] at hl
      obtain ⟨rfl, hx⟩ := List.append_inj' hl rfl
      obtain rfl : x = z := by simpa using hx
      exact .inr ⟨earlier, y, later, rfl, hP⟩
  · rintro (hP | ⟨earlier, y, later, rfl, hP⟩)
    · exact ⟨l, x, [], rfl, hP⟩
    · exact ⟨earlier, y, later ++ [x], by simp, hP⟩

/-- **Settling comes to an end** if all that is ready can be done and brings it nearer. -/
theorem ready_settle {m : Machine σ α ε} {P : σ → Prop} (effort : σ → Nat)
    (progress : ∀ s a, P s → m.ready s = some a → ∃ t events, m.step s a = some (t, events) ∧
      effort t < effort s ∧ P t)
    (fuel : Nat) {s : σ} (hs : P s) (hfuel : effort s ≤ fuel) :
    m.ready (m.settle fuel s).1 = none := by
  induction fuel generalizing s with
  | zero =>
    cases hready : m.ready s with
    | none => exact hready
    | some a =>
      obtain ⟨t, events, -, hless, -⟩ := progress s a hs hready
      omega
  | succ fuel ih =>
    cases hready : m.ready s with
    | none =>
      have hsettle : m.settle (fuel + 1) s = (s, []) := by simp [settle, hready]
      rw [hsettle]
      exact hready
    | some a =>
      obtain ⟨t, events, hstep, hless, ht⟩ := progress s a hs hready
      have hsettle : (m.settle (fuel + 1) s).1 = (m.settle fuel t).1 := by
        simp [settle, hready, hstep]
      rw [hsettle]
      exact ih ht (by omega)

/-- What stands in a list stands at the same place when it grows. -/
theorem getElem?_append_of_some {α : Type} {l : List α} {i : Nat} {x : α} (h : l[i]? = some x)
    (later : List α) : (l ++ later)[i]? = some x :=
  (List.getElem?_append_left (List.getElem?_eq_some_iff.mp h).1).trans h

/-- What stands in a list with one more member stood in it before, or is that member. -/
theorem getElem?_concat_eq_some {α : Type} {l : List α} {i : Nat} {x y : α}
    (h : (l ++ [y])[i]? = some x) : l[i]? = some x ∨ i = l.length ∧ x = y := by
  rcases Nat.lt_trichotomy i l.length with hlt | rfl | hgt
  · exact .inl ((List.getElem?_append_left hlt).symm.trans h)
  · exact .inr ⟨rfl, Option.some.inj (h.symm.trans List.getElem?_concat_length)⟩
  · rw [List.getElem?_eq_none (by rw [List.length_append, List.length_singleton]; omega)] at h
    cases h

theorem getElem?_take_eq_some {α : Type} {l : List α} {n i : Nat} {x : α}
    (h : (l.take n)[i]? = some x) : i < n ∧ l[i]? = some x := by
  rw [List.getElem?_take] at h
  split at h
  · next hlt => exact ⟨hlt, h⟩
  · cases h

/-- The steps that lead from one state to another. -/
inductive History (m : Machine σ α ε) (start : σ) : σ → List (Step σ α ε) → Prop where
  | start : History m start start []
  | step {s t : σ} {steps : List (Step σ α ε)} {a : α} {events : List ε} :
    History m start s steps → m.step s a = some (t, events) →
    History m start t (steps ++ [⟨s, a, t, events⟩])

/-- The runs are the histories. -/
theorem reaches_iff_history {m : Machine σ α ε} {start s : σ} {actions : List α} {events : List ε} :
    m.Reaches start s actions events ↔ ∃ steps, m.History start s steps ∧
      actions = steps.map (·.action) ∧ events = steps.flatMap (·.events) := by
  constructor
  · intro h
    induction h with
    | start => exact ⟨[], .start, rfl, rfl⟩
    | step _ h ih =>
      obtain ⟨steps, hs, rfl, rfl⟩ := ih
      exact ⟨_, hs.step h, by simp, by simp⟩
  · rintro ⟨steps, h, rfl, rfl⟩
    induction h with
    | start => exact .start
    | step _ h ih => simpa using ih.step h

/-- To do actions in turn is a run. -/
theorem history_of_run {m : Machine σ α ε} {s t : σ} {actions : List α} {events : List ε}
    (h : m.run s actions = some (t, events)) : ∃ steps, m.History s t steps ∧
      actions = steps.map (·.action) ∧ events = steps.flatMap (·.events) := by
  rw [← reaches_iff_history]
  suffices key : ∀ {u done seen}, m.Reaches u s done seen →
      m.Reaches u t (done ++ actions) (seen ++ events) from key .start
  induction actions generalizing s t events with
  | nil =>
    obtain ⟨rfl, rfl⟩ := Prod.mk.inj (Option.some.inj h)
    intro u done seen hu
    simpa using hu
  | cons a rest ih =>
    obtain ⟨⟨v, first⟩, hv, h⟩ := Option.bind_eq_some_iff.mp h
    obtain ⟨⟨w, later⟩, hw, h⟩ := Option.bind_eq_some_iff.mp h
    obtain ⟨rfl, rfl⟩ := Prod.mk.inj (Option.some.inj h)
    intro u done seen hu
    simpa using ih hw (hu.step hv)

theorem history_of_get {m : Machine σ α ε} {s : σ} {actions : List α}
    (h : (m.run s actions).isSome = true) :
    ∃ steps, m.History s ((m.run s actions).get h).1 steps := by
  obtain ⟨steps, hs, -⟩ := history_of_run (Option.some_get h).symm
  exact ⟨steps, hs⟩

/-- What is alike after alike steps from alike states is alike after alike runs. -/
theorem run_alike {m : Machine σ α ε} {τ η : Type} {f : σ → τ} {g : ε → η} {P : σ → Prop}
    {R : α → α → Prop} (keeps : ∀ s a t events, P s → m.step s a = some (t, events) → P t)
    (alike : ∀ s s' a a', P s → f s' = f s → R a a' →
      (m.step s' a').map (Prod.map f (List.map g)) = (m.step s a).map (Prod.map f (List.map g)))
    {s s' : σ} (hP : P s) (hs : f s' = f s) {actions actions' : List α}
    (h : List.Forall₂ R actions actions') :
    (m.run s' actions').map (Prod.map f (List.map g)) =
      (m.run s actions).map (Prod.map f (List.map g)) := by
  induction h generalizing s s' with
  | nil => exact congrArg some (Prod.ext hs rfl)
  | @cons a a' _ _ ha _ ih =>
    have hfirst := alike s s' a a' hP hs ha
    unfold run
    cases hnext : m.step s a with
    | none =>
      rw [hnext, Option.map_none, Option.map_eq_none_iff] at hfirst
      rw [hfirst]
      rfl
    | some next =>
      obtain ⟨t, events⟩ := next
      rw [hnext] at hfirst
      obtain ⟨⟨t', events'⟩, hnext', hsame⟩ := Option.map_eq_some_iff.mp hfirst
      obtain ⟨ht, hevents⟩ := Prod.mk.inj hsame
      have hrest := ih (keeps s a t events hP hnext) ht
      rw [hnext']
      simp only [Option.bind_eq_bind, Option.bind_some]
      cases hlater : m.run t _ with
      | none =>
        rw [hlater, Option.map_none, Option.map_eq_none_iff] at hrest
        rw [hrest]
        rfl
      | some last =>
        rw [hlater] at hrest
        obtain ⟨last', hlater', hsame⟩ := Option.map_eq_some_iff.mp hrest
        obtain ⟨hu, hmore⟩ := Prod.mk.inj hsame
        rw [hlater']
        refine congrArg some (Prod.ext hu ?_)
        dsimp only [Prod.map_snd]
        rw [List.map_append, List.map_append, hevents, hmore]

theorem run_single (m : Machine σ α ε) (s : σ) (a : α) : m.run s [a] = m.step s a := by
  unfold run run
  cases m.step s a with
  | none => rfl
  | some next => simp

/-- To do more actions is to go on from where the first ones lead. -/
theorem run_append {m : Machine σ α ε} {s t u : σ} {actions more : List α} {events later : List ε}
    (h : m.run s actions = some (t, events)) (h' : m.run t more = some (u, later)) :
    m.run s (actions ++ more) = some (u, events ++ later) := by
  induction actions generalizing s events with
  | nil =>
    obtain ⟨rfl, rfl⟩ := Prod.mk.inj (Option.some.inj h)
    exact h'
  | cons a rest ih =>
    obtain ⟨⟨v, first⟩, hv, h⟩ := Option.bind_eq_some_iff.mp h
    obtain ⟨⟨w, second⟩, hw, h⟩ := Option.bind_eq_some_iff.mp h
    obtain ⟨rfl, rfl⟩ := Prod.mk.inj (Option.some.inj h)
    have hrest := ih hw
    rw [List.cons_append]
    unfold run
    simp only [hv, Option.bind_eq_bind, Option.bind_some, hrest, Option.pure_def, List.append_assoc]

/-- The state and the steps after actions in turn, if all are possible. -/
def replay (m : Machine σ α ε) (s : σ) : List α → Option (σ × List (Step σ α ε))
  | [] => some (s, [])
  | a :: rest => do
    let (t, events) ← m.step s a
    let (u, steps) ← m.replay t rest
    return (u, ⟨s, a, t, events⟩ :: steps)

/-- To replay actions is a run. -/
theorem history_of_replay {m : Machine σ α ε} {s t : σ} {actions : List α} {steps : List (Step σ α ε)}
    (h : m.replay s actions = some (t, steps)) : m.History s t steps := by
  suffices key : ∀ {u done}, m.History u s done → m.History u t (done ++ steps) from key .start
  induction actions generalizing s steps with
  | nil =>
    obtain ⟨rfl, rfl⟩ := Prod.mk.inj (Option.some.inj h)
    intro u done hu
    simpa using hu
  | cons a rest ih =>
    obtain ⟨⟨v, events⟩, hv, h⟩ := Option.bind_eq_some_iff.mp h
    obtain ⟨⟨w, later⟩, hw, h⟩ := Option.bind_eq_some_iff.mp h
    obtain ⟨rfl, rfl⟩ := Prod.mk.inj (Option.some.inj h)
    intro u done hu
    simpa using ih hw (hu.step hv)

theorem history_of_replayed {m : Machine σ α ε} {s : σ} {actions : List α}
    (h : (m.replay s actions).isSome = true) :
    m.History s ((m.replay s actions).get h).1 ((m.replay s actions).get h).2 :=
  history_of_replay (Option.some_get h).symm

/-- The steps of a run that is replayed are those of the actions. -/
theorem actions_of_replay {m : Machine σ α ε} {s t : σ} {actions : List α}
    {steps : List (Step σ α ε)} (h : m.replay s actions = some (t, steps)) : steps.map (·.action) = actions := by
  induction actions generalizing s steps with
  | nil =>
    obtain ⟨-, rfl⟩ := Prod.mk.inj (Option.some.inj h)
    rfl
  | cons a rest ih =>
    obtain ⟨⟨v, events⟩, -, h⟩ := Option.bind_eq_some_iff.mp h
    obtain ⟨⟨u, more⟩, hmore, h⟩ := Option.bind_eq_some_iff.mp h
    obtain ⟨rfl, rfl⟩ := Prod.mk.inj (Option.some.inj h)
    rw [List.map_cons, ih hmore]

/-- An action of a run that is replayed is one of the given actions. -/
theorem action_of_replayed {m : Machine σ α ε} {s : σ} {actions : List α}
    (h : (m.replay s actions).isSome = true) {z : Step σ α ε}
    (hz : z ∈ ((m.replay s actions).get h).2) : z.action ∈ actions := by
  have hactions := actions_of_replay (Option.some_get h).symm
  exact hactions ▸ List.mem_map_of_mem hz

/-- The steps of a run that is replayed make the given actions in their order. -/
theorem action_at_of_replayed {m : Machine σ α ε} {s : σ} {actions : List α}
    (h : (m.replay s actions).isSome = true) {i : Nat} {z : Step σ α ε}
    (hi : ((m.replay s actions).get h).2[i]? = some z) : actions[i]? = some z.action := by
  have hactions : ((m.replay s actions).get h).2.map (·.action) = actions :=
    actions_of_replay (Option.some_get h).symm
  rw [← hactions, List.getElem?_map, hi]
  rfl

namespace History

variable {m : Machine σ α ε} {start s : σ}

/-- What the start satisfies and every step keeps, every state of a run satisfies. -/
theorem invariant {P : σ → Prop} {steps : List (Step σ α ε)} (h : m.History start s steps)
    (hstart : P start)
    (hstep : ∀ s a t events, P s → m.step s a = some (t, events) → P t) : P s := by
  induction h with
  | start => exact hstart
  | step _ h ih => exact hstep _ _ _ _ ih h

theorem trans {t : σ} {earlier later : List (Step σ α ε)} (h : m.History start s earlier)
    (h' : m.History s t later) : m.History start t (earlier ++ later) := by
  induction h' with
  | start => simpa using h
  | step _ h' ih => rw [← List.append_assoc]; exact ih.step h'

/-- A run passes through a state between any two of its steps. -/
theorem split {earlier later : List (Step σ α ε)} (h : m.History start s (earlier ++ later)) :
    ∃ t, m.History start t earlier ∧ m.History t s later := by
  generalize hl : earlier ++ later = steps at h
  induction h generalizing later with
  | start =>
    obtain ⟨rfl, rfl⟩ := List.append_eq_nil_iff.mp hl
    exact ⟨start, .start, .start⟩
  | @step u t steps a events hu hstep ih =>
    rcases List.eq_nil_or_concat later with rfl | ⟨later, x, rfl⟩
    · rw [List.append_nil] at hl
      exact ⟨t, hl ▸ hu.step hstep, .start⟩
    · rw [List.concat_eq_append, ← List.append_assoc] at hl
      rw [List.concat_eq_append]
      obtain ⟨hl, hx⟩ := List.append_inj' hl rfl
      obtain ⟨v, h1, h2⟩ := ih hl
      simp only [List.cons.injEq, and_true] at hx
      exact ⟨v, h1, hx ▸ h2.step hstep⟩

theorem nil (h : m.History start s []) : s = start := by
  generalize hl : ([] : List (Step σ α ε)) = steps at h
  cases h with
  | start => rfl
  | step => simp at hl

theorem head {x : Step σ α ε} {later : List (Step σ α ε)} (h : m.History start s (x :: later)) :
    x.before = start ∧ m.step x.before x.action = some (x.after, x.events) ∧
      m.History x.after s later := by
  obtain ⟨t, h1, h2⟩ := (show m.History start s ([x] ++ later) from h).split
  generalize hl : [x] = steps at h1
  cases h1 with
  | start => cases hl
  | @step u _ steps a events hu hstep =>
    obtain ⟨rfl, hx⟩ := List.append_inj' (show [] ++ [x] = _ from hl) rfl
    simp only [List.cons.injEq, and_true] at hx
    subst hx
    exact ⟨hu.nil, hstep, h2⟩

/-- A run leads up to each of its steps and goes on after it. -/
theorem around {earlier later : List (Step σ α ε)} {x : Step σ α ε}
    (h : m.History start s (earlier ++ x :: later)) :
    m.History start x.before earlier ∧ m.step x.before x.action = some (x.after, x.events) ∧
      m.History x.after s later := by
  obtain ⟨t, hbefore, hrest⟩ := h.split
  obtain ⟨rfl, hstep, hlater⟩ := hrest.head
  exact ⟨hbefore, hstep, hlater⟩

/-- Every step of a run is made in a state that the run reached before. -/
theorem of_mem {steps : List (Step σ α ε)} (h : m.History start s steps) {x : Step σ α ε}
    (hx : x ∈ steps) :
    ∃ earlier later, steps = earlier ++ x :: later ∧ m.History start x.before earlier ∧
      m.step x.before x.action = some (x.after, x.events) ∧ m.History x.after s later := by
  obtain ⟨earlier, later, rfl⟩ := List.append_of_mem hx
  exact ⟨earlier, later, rfl, h.around⟩

/-- The steps before one of a run lead to the state in which it is made. -/
theorem take {steps : List (Step σ α ε)} (h : m.History start s steps) {i : Nat} {x : Step σ α ε}
    (hi : steps[i]? = some x) : m.History start x.before (steps.take i) ∧
      m.step x.before x.action = some (x.after, x.events) := by
  obtain ⟨hlt, rfl⟩ := List.getElem?_eq_some_iff.mp hi
  have hsplit : steps = steps.take i ++ steps[i] :: steps.drop (i + 1) := by
    rw [← List.drop_eq_getElem_cons hlt, List.take_append_drop]
  generalize steps[i] = x at hsplit ⊢
  rw [hsplit] at h
  obtain ⟨hbefore, hstep, -⟩ := h.around
  exact ⟨hbefore, hstep⟩

/-- The steps up to one of a run lead to the state after it. -/
theorem take_succ {steps : List (Step σ α ε)} (h : m.History start s steps) {i : Nat}
    {x : Step σ α ε} (hi : steps[i]? = some x) : m.History start x.after (steps.take (i + 1)) := by
  obtain ⟨hbefore, hstep⟩ := h.take hi
  have hsplit : steps.take (i + 1) = steps.take i ++ [x] := by
    rw [List.take_add_one, hi]
    rfl
  rw [hsplit]
  exact hbefore.step hstep

/-- The steps after one of a run lead from the state after it to the end. -/
theorem drop_succ {steps : List (Step σ α ε)} (h : m.History start s steps) {i : Nat}
    {y : Step σ α ε} (hi : steps[i]? = some y) : m.History y.after s (steps.drop (i + 1)) := by
  obtain ⟨hlt, rfl⟩ := List.getElem?_eq_some_iff.mp hi
  rw [← List.take_append_drop i steps] at h
  obtain ⟨t, -, hrest⟩ := h.split
  have hhead := List.drop_eq_getElem_cons hlt
  obtain ⟨-, -, hlater⟩ := (hhead ▸ hrest).head
  exact hlater

/-- What the start satisfies and the steps of a run keep, its end satisfies. -/
theorem stays {P : σ → Prop} {steps : List (Step σ α ε)} (h : m.History start s steps)
    (hstart : P start) (keeps : ∀ z ∈ steps, P z.before → P z.after) : P s := by
  induction h with
  | start => exact hstart
  | step _ _ ih =>
    have hu := ih fun z hz => keeps z (List.mem_append_left _ hz)
    exact keeps _ (List.mem_append_right _ (List.mem_singleton.mpr rfl)) hu

/-- What holds after a step and is kept from there on holds at the end. -/
theorem since {P : σ → Prop} {steps : List (Step σ α ε)} (h : m.History start s steps) {i : Nat}
    {y : Step σ α ε} (hi : steps[i]? = some y) (hy : P y.after)
    (keeps : ∀ n z, i < n → steps[n]? = some z → P z.before → P z.after) : P s := by
  refine (h.drop_succ hi).stays hy fun z hz => ?_
  obtain ⟨n, hn⟩ := List.mem_iff_getElem?.mp hz
  rw [List.getElem?_drop] at hn
  exact keeps (i + 1 + n) z (by omega) hn

/-- What holds after one step and is kept up to a later one holds before that. -/
theorem between {P : σ → Prop} {steps : List (Step σ α ε)} (h : m.History start s steps)
    {i j : Nat} {y x : Step σ α ε} (hij : i < j) (hi : steps[i]? = some y)
    (hj : steps[j]? = some x) (hy : P y.after)
    (keeps : ∀ n z, i < n → n < j → steps[n]? = some z → P z.before → P z.after) : P x.before := by
  have htake : (steps.take j)[i]? = some y := (List.getElem?_take_of_lt hij).trans hi
  refine (h.take hj).1.since htake hy fun n z hn hz => ?_
  obtain ⟨hnj, hz⟩ := getElem?_take_eq_some hz
  exact keeps n z hn hnj hz

/-- **What holds at the end and did not at the start came to hold in a step**, and has held
since. -/
theorem origin {P : σ → Prop} {steps : List (Step σ α ε)} (h : m.History start s steps)
    (hs : P s) (hstart : ¬ P start) : ∃ (i : Nat) (z : Step σ α ε), steps[i]? = some z ∧
      ¬ P z.before ∧ P z.after ∧
      ∀ (n : Nat) (x : Step σ α ε), i < n → steps[n]? = some x → P x.before ∧ P x.after := by
  induction h with
  | start => exact absurd hs hstart
  | @step u t steps a events _ _ ih =>
    by_cases hu : P u
    · obtain ⟨i, z, hi, hbefore, hafter, hsince⟩ := ih hu
      refine ⟨i, z, getElem?_append_of_some hi _, hbefore, hafter, fun n x hin hn => ?_⟩
      rcases getElem?_concat_eq_some hn with hn | ⟨-, rfl⟩
      · exact hsince n x hin hn
      · exact ⟨hu, hs⟩
    · refine ⟨steps.length, _, List.getElem?_concat_length, hu, hs, fun n x hlt hn => ?_⟩
      rcases getElem?_concat_eq_some hn with hn | ⟨rfl, -⟩
      · exact absurd (List.getElem?_eq_some_iff.mp hn).1 (Nat.lt_asymm hlt)
      · exact absurd hlt (Nat.lt_irrefl _)

/-- The same, seen from a step before which it holds. -/
theorem origin_before {P : σ → Prop} {steps : List (Step σ α ε)} (h : m.History start s steps)
    {k : Nat} {x : Step σ α ε} (hk : steps[k]? = some x) (hx : P x.before) (hstart : ¬ P start) :
    ∃ (i : Nat) (z : Step σ α ε), i < k ∧ steps[i]? = some z ∧ ¬ P z.before ∧ P z.after := by
  obtain ⟨i, z, hi, hbefore, hafter, -⟩ := (h.take hk).1.origin hx hstart
  obtain ⟨hik, hi⟩ := getElem?_take_eq_some hi
  exact ⟨i, z, hik, hi, hbefore, hafter⟩

/-- **What spends its own chance happens at most once.** `spent` stays once it holds, and
each step of the kind `p` is made while it does not hold and makes it hold. -/
theorem countP_le_one {steps : List (Step σ α ε)} (h : m.History start s steps)
    {p : Step σ α ε → Bool} (spent : σ → Prop)
    (spends : ∀ x ∈ steps, p x = true → ¬ spent x.before ∧ spent x.after)
    (stays : ∀ x ∈ steps, spent x.before → spent x.after) : steps.countP p ≤ 1 := by
  suffices key : steps.countP p ≤ 1 ∧ (¬ spent s → steps.countP p = 0) from key.1
  induction h with
  | start => simp
  | @step u t steps a events _ _ ih =>
    obtain ⟨h1, h0⟩ := ih (fun x hx => spends x (by simp [hx])) fun x hx => stays x (by simp [hx])
    have hlast := spends ⟨u, a, t, events⟩ (by simp)
    have hstay := stays ⟨u, a, t, events⟩ (by simp)
    rw [List.countP_append, List.countP_singleton]
    by_cases hp : p ⟨u, a, t, events⟩ = true
    · obtain ⟨hu, ht⟩ := hlast hp
      simp [hp, h0 hu, ht]
    · simp only [hp, Bool.false_eq_true, ↓reduceIte, Nat.add_zero]
      exact ⟨h1, fun ht => h0 fun hu => ht (hstay hu)⟩

end History
end Machine
end DeviceRelay

/-
# A pop that is not woken waits at an empty list

A pop looks at the list of its key when it begins and whenever it runs, and every push to
its key wakes it. So the list of a pop that nobody woke is empty, and when no pop can run,
no list has both items and a pop that waits for them. A pop that runs without finding an
item keeps its key and the moment when it gives up.

Key definitions: `Queues.Awake`, `Queues.slots`, `Queues.ends`, `Queues.frees`.
Key theorems: `Queues.awake_of_step`, `Queues.pop_cases`, `Queues.resume_cases`,
`Queues.slots_of_step`, `Queues.removes_of_step`, `Queues.frees_of_step`.
-/
import DeviceRelay.Proofs.Queue.Items
import DeviceRelay.Proofs.Runs
import DeviceRelay.Queue.Runs

namespace DeviceRelay

/-- The item with which a pop ends, if it has one. -/
def Popped.item? {α : Type} : Popped α → Option α
  | .item a => some a
  | _ => none

theorem eq_of_deadline? {now timeout due : Nat} (h : deadline? now timeout = some due) :
    now + timeout = due := by
  unfold deadline? at h
  split at h
  · exact Option.some.inj h
  · cases h

namespace Queues

/-- A step of the runs of the queues. -/
abbrev Step (κ α γ : Type) := Machine.Step (State κ α γ) (Action κ α γ) (Event κ α γ)

section
variable {κ α γ : Type} [DecidableEq κ]

/-- Every pop that could find an item is woken. -/
def Awake (q : Queues κ α γ) : Prop := ∀ p ∈ q.pops, p.woken = false → q.items p.key = []

theorem Awake.wake {q q' : Queues κ α γ} {k : κ} (h : Awake q)
    (hitems : ∀ k', k' ≠ k → q'.items k' = q.items k') (hpops : q'.pops = (q.wake k).pops) :
    Awake q' := by
  intro p hp hsleeps
  rw [hpops] at hp
  obtain ⟨p', hp', rfl⟩ := List.mem_map.mp hp
  by_cases hk : p'.key = k
  · simp [hk] at hsleeps
  · rw [if_neg hk] at hsleeps ⊢
    rw [hitems p'.key hk]
    exact h p' hp' hsleeps

/-- To wait for nothing but what one waited for before, at lists that are empty if they
were, misses nothing. -/
theorem Awake.mono {q q' : Queues κ α γ} (h : Awake q) (hpops : ∀ p ∈ q'.pops, p ∈ q.pops)
    (hitems : ∀ k, q.items k = [] → q'.items k = []) : Awake q' :=
  fun p hp hsleeps => hitems p.key (h p (hpops p hp) hsleeps)

theorem items_trim (q : Queues κ α γ) (k k' : κ) (first last : Int) :
    (q.trim k first last).items k' =
      if k' = k then between first last (q.items k) else q.items k' :=
  items_setItems q k k' _

theorem between_nil (first last : Int) : between first last ([] : List α) = [] := by
  unfold between
  simp

theorem removes_of_took {q q' : Queues κ α γ} {k : κ} {b : α} (hfront : q.items k = b :: q'.items k)
    (hothers : ∀ k', k' ≠ k → q'.items k' = q.items k') (k' : κ) :
    q.items k' = (if k' = k then [b] else []) ++ q'.items k' := by
  by_cases hk : k' = k
  · simp [hk, hfront]
  · simp [hk, hothers k' hk]

end

section
variable {κ α γ : Type} [DecidableEq γ]

/-- Whether an action is a step of a call. -/
def Action.isOf : Action κ α γ → γ → Bool
  | .pop c _ _, call => c = call
  | .resume c, call => c = call
  | .drop c, call => c = call
  | _, _ => false

/-- Whether an action begins a call. -/
def Action.begins : Action κ α γ → γ → Bool
  | .pop c _ _, call => c = call
  | _, _ => false

/-- Whether an action drops a call. -/
def Action.drops : Action κ α γ → γ → Bool
  | .drop c, call => c = call
  | _, _ => false

/-- How a call ended, if this is its end. -/
def Event.endOf? (call : γ) : Event κ α γ → Option (Popped α)
  | .stored .. => none
  | .ended c popped => if c = call then some popped else none

/-- How a call ended in the steps of a run. -/
def ends (call : γ) (steps : List (Step κ α γ)) : List (Popped α) :=
  steps.flatMap fun x => x.events.filterMap (Event.endOf? call)

theorem ends_append (call : γ) (steps steps' : List (Step κ α γ)) :
    ends call (steps ++ steps') = ends call steps ++ ends call steps' :=
  List.flatMap_append

/-- Whether a step ends or drops a call. -/
def frees (call : γ) (x : Step κ α γ) : Bool := x.action.drops call || !(ends call [x]).isEmpty

/-- The pops of a call that wait, with their keys and with when they give up. -/
def slots (q : Queues κ α γ) (call : γ) : List (κ × Nat) :=
  (q.pops.filter (·.call = call)).map fun p => (p.key, p.due)

theorem slots_wake [DecidableEq κ] (q : Queues κ α γ) (k : κ) (call : γ) :
    (q.wake k).slots call = q.slots call := by
  have hcall : ∀ p : Pop κ γ, (if p.key = k then { p with woken := true } else p).call = p.call :=
    fun p => by split <;> rfl
  unfold slots wake
  rw [List.filter_map, List.map_map]
  simp only [Function.comp_def, hcall]
  refine List.map_congr_left fun p _ => ?_
  split <;> rfl

theorem slots_abandon (q : Queues κ α γ) (c call : γ) :
    (q.abandon c).slots call = if c = call then [] else q.slots call := by
  unfold slots abandon
  rw [List.filter_filter]
  by_cases h : c = call
  · simp [h]
  · rw [if_neg h]
    refine congrArg (List.map _) (List.filter_congr fun p _ => ?_)
    by_cases hp : p.call = call <;> simp [hp, Ne.symm h]

theorem slots_of_pops {q q' : Queues κ α γ} (h : q'.pops = q.pops) (call : γ) :
    q'.slots call = q.slots call := by
  unfold slots; rw [h]

theorem slots_append {q q' : Queues κ α γ} {p : Pop κ γ} (h : q'.pops = q.pops ++ [p])
    (call : γ) :
    q'.slots call = q.slots call ++ if p.call = call then [(p.key, p.due)] else [] := by
  unfold slots
  rw [h, List.filter_append, List.map_append]
  by_cases hp : p.call = call <;> simp [hp]

theorem ends_ended (call c : γ) (popped : Popped α) (s t : State κ α γ) (a : Action κ α γ) :
    ends call [⟨s, a, t, [.ended c popped]⟩] = if c = call then [popped] else [] := by
  by_cases h : c = call <;> simp [ends, Event.endOf?, h]

theorem ends_stored (call : γ) (k : κ) (length dropped : Nat) (s t : State κ α γ)
    (a : Action κ α γ) : ends call [⟨s, a, t, [.stored k length dropped]⟩] = [] := rfl

theorem ends_nil (call : γ) (s t : State κ α γ) (a : Action κ α γ) :
    ends call [⟨s, a, t, []⟩] = [] := rfl

theorem mem_slots {q : Queues κ α γ} {p : Pop κ γ} (hp : p ∈ q.pops) :
    (p.key, p.due) ∈ q.slots p.call :=
  List.mem_map.mpr ⟨p, List.mem_filter.mpr ⟨hp, decide_eq_true rfl⟩, rfl⟩

theorem ends_of_not_frees {call : γ} {l : List (Step κ α γ)} (h : ∀ z ∈ l, frees call z = false) :
    ends call l = [] := by
  refine List.flatMap_eq_nil_iff.mpr fun z hz => ?_
  have hz := h z hz
  simp only [frees, Bool.or_eq_false_iff, Bool.not_eq_false', List.isEmpty_iff] at hz
  simpa [ends] using hz.2

/-- Nothing frees a call that neither ends nor is dropped. -/
theorem frees_of_ends {call : γ} {k : κ} {timeout : Nat} {x : Step κ α γ}
    {later : List (Step κ α γ)} (ha : x.action = .pop call k timeout)
    (hends : ends call (x :: later) = []) (hdrops : ∀ y ∈ later, y.action ≠ .drop call) :
    ∀ z ∈ x :: later, frees call z = false := by
  intro z hz
  have hempty : ends call [z] = [] := by
    simpa [ends] using List.flatMap_eq_nil_iff.mp hends z hz
  have hdrop : z.action.drops call = false := by
    rcases List.mem_cons.mp hz with rfl | hz
    · rw [ha]; rfl
    · have hne := hdrops z hz
      cases haction : z.action with
      | drop c =>
        rw [haction] at hne
        simpa [Action.drops] using hne
      | _ => rfl
  simp [frees, hempty, hdrop]

end

section
variable {κ α γ : Type} [DecidableEq κ] [DecidableEq γ] {s t : State κ α γ} {a : Action κ α γ}
  {events : List (Event κ α γ)}

/-- **No step makes a sleeping pop miss an item.** -/
theorem awake_of_step (h : s.step a = some (t, events)) (awake : Awake s.here) :
    Awake t.here := by
  cases a with
  | push k a =>
    obtain ⟨rfl, -⟩ := Prod.mk.inj (Option.some.inj h)
    exact awake.wake (fun k' hk => (items_push _ k k' a).trans (if_neg hk)) rfl
  | pushCapped k a max drop =>
    obtain ⟨rfl, -⟩ := Prod.mk.inj (Option.some.inj h)
    exact awake.wake (fun k' hk => (items_pushCapped _ k k' a max drop).trans (if_neg hk)) rfl
  | trim k first last =>
    obtain ⟨rfl, -⟩ := Prod.mk.inj (Option.some.inj h)
    refine awake.mono (fun p hp => hp) fun k' hempty => ?_
    rw [items_trim]
    split
    case isTrue hk => rw [← hk, hempty, between_nil]
    case isFalse => exact hempty
  | pop call k timeout =>
    cases hbegin : s.here.beginPop s.now call k timeout with
    | mk q popped? =>
    simp only [State.step, hbegin] at h
    obtain ⟨rfl, -⟩ := Prod.mk.inj (Option.some.inj h)
    show Awake q
    rcases beginPop_cases hbegin with
      ⟨-, hpops, hsame⟩ | ⟨b, -, hpops, hfront, hothers⟩ | ⟨due, -, -, hk, hpops, hsame⟩
    · exact awake.mono (fun p hp => hpops ▸ hp) fun k' hempty => hsame k' ▸ hempty
    · refine awake.mono (fun p hp => hpops ▸ hp) fun k' hempty => ?_
      by_cases hkey : k' = k
      · rw [hkey, hfront] at hempty
        cases hempty
      · exact (hothers k' hkey).trans hempty
    · intro p hp hsleeps
      rw [hpops, List.mem_append, List.mem_singleton] at hp
      rw [hsame]
      rcases hp with hp | rfl
      · exact awake p hp hsleeps
      · exact hk
  | resume call =>
    obtain ⟨⟨q, popped?⟩, hr, h⟩ := Option.map_eq_some_iff.mp h
    obtain ⟨rfl, -⟩ := Prod.mk.inj h
    show Awake q
    obtain ⟨p, -, hcases⟩ := resume?_cases hr
    rcases hcases with
      ⟨b, -, -, hpops, hfront, hothers⟩ | ⟨-, -, hk, hpops, hsame⟩ | ⟨-, -, -, rfl⟩
    · refine awake.mono (fun p' hp' => (mem_abandon.mp (hpops ▸ hp')).1) fun k' hempty => ?_
      by_cases hkey : k' = p.key
      · rw [hkey, hfront] at hempty
        cases hempty
      · exact (hothers k' hkey).trans hempty
    · intro p' hp' hsleeps
      rw [hpops, List.mem_append, List.mem_singleton] at hp'
      rw [hsame]
      rcases hp' with hp' | rfl
      · exact awake p' (mem_abandon.mp hp').1 hsleeps
      · exact hk
    · exact awake.mono (fun p' hp' => (mem_abandon.mp hp').1) fun _ hempty => hempty
  | drop call =>
    obtain ⟨rfl, -⟩ := Prod.mk.inj (Option.some.inj h)
    exact awake.mono (fun p' hp' => (mem_abandon.mp hp').1) fun _ hempty => hempty
  | tick moment =>
    simp only [State.step] at h
    split at h
    · obtain ⟨rfl, -⟩ := Prod.mk.inj (Option.some.inj h)
      exact awake
    · cases h

/-- All that a step can do that begins a pop. -/
theorem pop_cases {call : γ} {k : κ} {timeout : Nat}
    (h : s.step (.pop call k timeout) = some (t, events)) :
    (events = [.ended call .beyondClock] ∧ deadline? s.now timeout = none ∧
      t.here.pops = s.here.pops ∧ ∀ k', t.here.items k' = s.here.items k') ∨
    (∃ a, events = [.ended call (.item a)] ∧ t.here.pops = s.here.pops ∧
      s.here.items k = a :: t.here.items k ∧ ∀ k', k' ≠ k → t.here.items k' = s.here.items k') ∨
    (∃ due, events = [] ∧ deadline? s.now timeout = some due ∧
      t.here.pops = s.here.pops ++ [⟨call, k, due, false⟩] ∧
      ∀ k', t.here.items k' = s.here.items k') := by
  cases hbegin : s.here.beginPop s.now call k timeout with
  | mk q popped? =>
  simp only [State.step, hbegin] at h
  obtain ⟨rfl, rfl⟩ := Prod.mk.inj (Option.some.inj h)
  rcases beginPop_cases hbegin with
    ⟨rfl, hpops, hsame⟩ | ⟨b, rfl, hpops, hfront, hothers⟩ | ⟨due, rfl, hdue, -, hpops, hsame⟩
  · refine .inl ⟨rfl, ?_, hpops, hsame⟩
    cases hd : deadline? s.now timeout with
    | none => rfl
    | some due =>
      simp only [beginPop, hd] at hbegin
      split at hbegin <;> cases hbegin
  · exact .inr (.inl ⟨b, rfl, hpops, hfront, hothers⟩)
  · exact .inr (.inr ⟨due, rfl, hdue, hpops, hsame⟩)

/-- All that a step can do that lets a pop run. -/
theorem resume_cases {call : γ} (h : s.step (.resume call) = some (t, events)) :
    ∃ p ∈ s.here.pops, p.call = call ∧
      ((∃ a, events = [.ended call (.item a)] ∧ t.here.pops = (s.here.abandon call).pops ∧
          s.here.items p.key = a :: t.here.items p.key ∧
          ∀ k, k ≠ p.key → t.here.items k = s.here.items k) ∨
        (events = [] ∧ p.woken = true ∧
          t.here.pops = (s.here.abandon call).pops ++ [{ p with woken := false }] ∧
          ∀ k, t.here.items k = s.here.items k) ∨
        (events = [.ended call .nothing] ∧ p.due ≤ s.now ∧ t.here = s.here.abandon call)) := by
  obtain ⟨⟨q, popped?⟩, hr, h⟩ := Option.map_eq_some_iff.mp h
  obtain ⟨rfl, rfl⟩ := Prod.mk.inj h
  obtain ⟨p, hp, hcases⟩ := resume?_cases hr
  refine ⟨p, List.mem_of_find?_eq_some hp, by simpa using List.find?_some hp, ?_⟩
  rcases hcases with
    ⟨b, rfl, -, hpops, hfront, hothers⟩ | ⟨rfl, hw, -, hpops, hsame⟩ | ⟨rfl, -, hdue, rfl⟩
  · exact .inl ⟨b, rfl, hpops, hfront, hothers⟩
  · exact .inr (.inl ⟨rfl, hw, hpops, hsame⟩)
  · exact .inr (.inr ⟨rfl, hdue, rfl⟩)

/-- **A pop waits with its key and its end until it ends or is dropped.** -/
theorem slots_of_step {call : γ} (h : s.step a = some (t, events))
    (hbegins : a.begins call = false) (hone : (s.here.slots call).length ≤ 1) :
    t.here.slots call = if frees call ⟨s, a, t, events⟩ then [] else s.here.slots call := by
  cases a with
  | push k a =>
    obtain ⟨rfl, rfl⟩ := Prod.mk.inj (Option.some.inj h)
    simp only [frees, Action.drops, ends_stored, List.isEmpty_nil]
    exact slots_wake _ k call
  | pushCapped k a max drop =>
    obtain ⟨rfl, rfl⟩ := Prod.mk.inj (Option.some.inj h)
    simp only [frees, Action.drops, ends_stored, List.isEmpty_nil]
    exact slots_wake _ k call
  | trim k first last =>
    obtain ⟨rfl, rfl⟩ := Prod.mk.inj (Option.some.inj h)
    rfl
  | pop c k timeout =>
    have hc : c ≠ call := of_decide_eq_false hbegins
    rcases pop_cases h with ⟨rfl, -, hpops, -⟩ | ⟨b, rfl, hpops, -⟩ | ⟨due, rfl, -, hpops, -⟩
    · simpa [frees, Action.drops, ends_ended, hc] using slots_of_pops hpops call
    · simpa [frees, Action.drops, ends_ended, hc] using slots_of_pops hpops call
    · simpa [frees, Action.drops, ends_nil, hc] using slots_append hpops call
  | resume c =>
    obtain ⟨p, hp, rfl, hcases⟩ := resume_cases h
    rcases hcases with ⟨b, rfl, hpops, -⟩ | ⟨rfl, -, hpops, -⟩ | ⟨rfl, -, hhere⟩
    · rw [slots_of_pops hpops, slots_abandon]
      by_cases hc : p.call = call <;> simp [frees, Action.drops, ends_ended, hc]
    · rw [slots_append hpops, slots_abandon]
      by_cases hc : p.call = call
      · have hmem : (p.key, p.due) ∈ s.here.slots call := hc ▸ mem_slots hp
        obtain ⟨e, he⟩ : ∃ e, s.here.slots call = [e] :=
          List.length_eq_one_iff.mp (Nat.le_antisymm hone (List.length_pos_of_mem hmem))
        rw [he, List.mem_singleton] at hmem
        simp [frees, Action.drops, ends_nil, hc, he, hmem]
      · simp [frees, Action.drops, ends_nil, hc]
    · rw [hhere, slots_abandon]
      by_cases hc : p.call = call <;> simp [frees, Action.drops, ends_ended, hc]
  | drop c =>
    obtain ⟨rfl, rfl⟩ := Prod.mk.inj (Option.some.inj h)
    simpa [frees, Action.drops, ends_nil] using slots_abandon s.here c call
  | tick moment =>
    simp only [State.step] at h
    split at h
    · obtain ⟨rfl, rfl⟩ := Prod.mk.inj (Option.some.inj h)
      rfl
    · cases h

/-- **What the begin of a pop takes from the lists is what the pop returns.** -/
theorem removes_of_pop {call : γ} {k : κ} {timeout : Nat}
    (h : s.step (.pop call k timeout) = some (t, events)) (k' : κ) :
    s.here.items k' = (if k' = k then (ends call [⟨s, .pop call k timeout, t, events⟩]).filterMap
      Popped.item? else []) ++ t.here.items k' := by
  rcases pop_cases h with ⟨rfl, -, -, hsame⟩ | ⟨b, rfl, -, hfront, hothers⟩ | ⟨due, rfl, -, -, hsame⟩
  · simp [ends_ended, Popped.item?, hsame k']
  · simpa [ends_ended, Popped.item?] using removes_of_took hfront hothers k'
  · simp [ends_nil, hsame k']

/-- **What a later step of a pop takes from the lists is what the pop returns.** -/
theorem removes_of_step {call : γ} {k : κ} (h : s.step a = some (t, events))
    (hcall : a.isOf call = true) (hbegins : a.begins call = false)
    (hkey : ∀ e ∈ s.here.slots call, e.1 = k) (k' : κ) :
    s.here.items k' = (if k' = k then (ends call [⟨s, a, t, events⟩]).filterMap Popped.item?
      else []) ++ t.here.items k' := by
  cases a with
  | pop c k timeout => exact absurd hcall (by simpa [Action.isOf, Action.begins] using hbegins)
  | resume c =>
    obtain rfl : c = call := of_decide_eq_true hcall
    obtain ⟨p, hp, rfl, hcases⟩ := resume_cases h
    obtain rfl : p.key = k := hkey _ (mem_slots hp)
    rcases hcases with ⟨b, rfl, -, hfront, hothers⟩ | ⟨rfl, -, -, hsame⟩ | ⟨rfl, -, hhere⟩
    · simpa [ends_ended, Popped.item?] using removes_of_took hfront hothers k'
    · simp [ends_nil, hsame k']
    · simp [ends_ended, Popped.item?, hhere, abandon, items]
  | drop c =>
    obtain ⟨rfl, rfl⟩ := Prod.mk.inj (Option.some.inj h)
    simp [ends_nil, abandon, items]
  | _ => cases hcall

/-- A call ends only in a step of its own, and only while it waits or when it begins. -/
theorem frees_of_step {call : γ} (h : s.step a = some (t, events)) (hbegins : a.begins call = false)
    (hends : ends call [⟨s, a, t, events⟩] ≠ []) :
    a = .resume call ∧ ∃ e, e ∈ s.here.slots call ∧ ∃ popped, events = [.ended call popped] ∧
      popped ≠ .beyondClock ∧ (popped = .nothing → e.2 ≤ s.now) := by
  cases a with
  | push k a | pushCapped k a max drop =>
    obtain ⟨rfl, rfl⟩ := Prod.mk.inj (Option.some.inj h)
    exact absurd (ends_stored ..) hends
  | pop c k timeout =>
    have hc : c ≠ call := of_decide_eq_false hbegins
    rcases pop_cases h with ⟨rfl, -⟩ | ⟨b, rfl, -⟩ | ⟨due, rfl, -⟩
    · simp [ends_ended, hc] at hends
    · simp [ends_ended, hc] at hends
    · exact absurd (ends_nil ..) hends
  | resume c =>
    obtain ⟨p, hp, rfl, hcases⟩ := resume_cases h
    have hcall : p.call = call := by
      by_contra hc
      rcases hcases with ⟨b, rfl, -⟩ | ⟨rfl, -⟩ | ⟨rfl, -⟩ <;>
        simp [ends_ended, ends_nil, hc] at hends
    obtain rfl := hcall
    refine ⟨rfl, _, mem_slots hp, ?_⟩
    rcases hcases with ⟨b, rfl, -⟩ | ⟨rfl, -⟩ | ⟨rfl, hdue, -⟩
    · exact ⟨_, rfl, by simp, by simp⟩
    · exact absurd (ends_nil ..) hends
    · exact ⟨_, rfl, by simp, fun _ => hdue⟩
  | trim k first last | drop c =>
    obtain ⟨rfl, rfl⟩ := Prod.mk.inj (Option.some.inj h)
    exact absurd (ends_nil ..) hends
  | tick moment =>
    simp only [State.step] at h
    split at h
    · obtain ⟨rfl, rfl⟩ := Prod.mk.inj (Option.some.inj h)
      exact absurd (ends_nil ..) hends
    · cases h

theorem alone_of_step {call other : γ} (h : s.step a = some (t, events)) (hof : a.isOf call = true)
    (hne : other ≠ call) : ends other [⟨s, a, t, events⟩] = [] := by
  cases a with
  | pop c k timeout =>
    obtain rfl : c = call := of_decide_eq_true hof
    rcases pop_cases h with ⟨rfl, -⟩ | ⟨b, rfl, -⟩ | ⟨due, rfl, -⟩ <;>
      simp [ends_ended, ends_nil, Ne.symm hne]
  | resume c =>
    obtain rfl : c = call := of_decide_eq_true hof
    obtain ⟨p, -, rfl, hcases⟩ := resume_cases h
    rcases hcases with ⟨b, rfl, -⟩ | ⟨rfl, -⟩ | ⟨rfl, -⟩ <;>
      simp [ends_ended, ends_nil, Ne.symm hne]
  | drop c =>
    obtain ⟨-, rfl⟩ := Prod.mk.inj (Option.some.inj h)
    rfl
  | _ => cases hof

/-- When nothing is ready, every pop sleeps and is not due yet. -/
theorem sleeps_of_ready {s : State κ α γ} (h : (machine κ α γ).ready s = none) {p : Pop κ γ}
    (hp : p ∈ s.here.pops) : p.woken = false ∧ s.now < p.due := by
  have hfind := List.find?_eq_none.mp (Option.map_eq_none_iff.mp (Option.map_eq_none_iff.mp h)) p hp
  simpa [canRun] using hfind

end
end Queues
end DeviceRelay

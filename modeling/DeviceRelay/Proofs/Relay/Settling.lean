/-
# Nothing is ready any more after finitely many runs

Whoever runs takes an entry or comes nearer to sleep: to take an entry, also one that is
passed over, shortens its queue, to join the line ends the readiness of one who was about to
pop, and one who was woken in vain sleeps again. So if everybody has a name of their own, all
that is ready comes to an end without time passing, and time can go on.

Key definitions: `Relay.Proper`, `Relay.effort`, `Relay.Distinct`.
Key theorems: `Relay.proper_of_history`, `Relay.effort_of_turn`, `Relay.ready_settle`.
-/
import DeviceRelay.Proofs.Queue.Settling
import DeviceRelay.Proofs.Relay.Turns

namespace DeviceRelay
namespace Relay

variable {γ : Type} [DecidableEq γ]

/-- Everybody who consumes has a name of their own, and is about to pop or waits in line. -/
def Proper (r : Relay γ) : Prop :=
  ∀ call, r.Absent call ∨ ∃ c : Consumer γ, c.call = call ∧ (r.Pops c ∨ ∃ due, r.Waits c due)

/-- No other step begins a call of the same name. -/
def BegunOnce (call : γ) (others : List (Step γ)) : Prop :=
  ∀ y ∈ others, y.action.begins call = false

/-- No two calls have one name. -/
def Distinct (steps : List (Step γ)) : Prop :=
  ∀ earlier x later call, steps = earlier ++ x :: later → x.action.begins call = true →
    BegunOnce call (earlier ++ later)

/-! ### Names -/

theorem Absent.not_run {s : State γ} {call : γ} (h : s.here.Absent call)
    (next : State γ × List (Event γ)) : s.step (.run call) ≠ some next := by
  intro hstep
  obtain ⟨_, hran, -⟩ := Option.map_eq_some_iff.mp hstep
  obtain ⟨c, hc, -⟩ := Option.bind_eq_some_iff.mp hran
  rw [← List.head?_filter, show s.here.consumers.filter (·.call = call) = [] from
    congrArg Prod.fst h] at hc
  cases hc

theorem absent_of_drop {s t : State γ} {call : γ} {events : List (Event γ)}
    (h : s.step (.drop call) = some (t, events)) : t.here.Absent call := by
  obtain ⟨rfl, -⟩ := Prod.mk.inj (Option.some.inj h)
  exact absent_abandon s.here call

theorem pops_of_consume {s t : State γ} {call : γ} {recipient : PrincipalId} {timeout : Nat}
    {skips : Bool} {events : List (Event γ)} (habsent : s.here.Absent call)
    (h : s.step (.consume call recipient timeout skips) = some (t, events)) :
    t.here.Pops ⟨call, recipient, timeout, skips, false⟩ := by
  obtain ⟨rfl, -⟩ := Prod.mk.inj (Option.some.inj h)
  refine (place_begin s.here ..).trans ?_
  rw [if_pos rfl, habsent]
  rfl

theorem turn_of_step {config : RelayConfig} {s t : State γ} {events : List (Event γ)}
    (sound : s.here.Sound config) (awake : s.here.queues.Awake) {c : Consumer γ}
    (stands : s.here.Pops c ∨ ∃ due, s.here.Waits c due)
    (h : s.step (.run c.call) = some (t, events)) : ∃ consumed? : Option Consumed,
      events = consumed?.toList.map (.ended c.call) ∧ t.now = s.now ∧
      s.here.Turn t.here s.now c consumed? := by
  obtain ⟨⟨r, consumed?⟩, hran, h⟩ := Option.map_eq_some_iff.mp h
  obtain ⟨rfl, rfl⟩ := Prod.mk.inj h
  exact ⟨consumed?, rfl, rfl, turn_of_run? sound awake stands hran⟩

theorem awake_of_history {start s : State γ} {steps : List (Step γ)}
    (h : (machine γ).History start s steps) (awake : start.here.queues.Awake) :
    s.here.queues.Awake :=
  h.invariant (P := fun s => s.here.queues.Awake) awake
    fun _ _ _ _ hs hstep => awake_of_step hs hstep

/-- A name under which nobody began to consume is of nobody. -/
theorem absent_of_unbegun {config : RelayConfig} {start s : State γ} {steps : List (Step γ)}
    (h : (machine γ).History start s steps) (sound : start.here.Sound config) {call : γ}
    (hstart : start.here.Absent call) (hnone : BegunOnce call steps) : s.here.Absent call := by
  induction h with
  | start => exact hstart
  | @step u t steps a events hu hstep ih =>
    have habsent := ih fun y hy => hnone y (List.mem_append_left _ hy)
    have hbegins := hnone _ (List.mem_append_right _ (List.mem_singleton.mpr rfl))
    have hrun : a ≠ .run call := by
      rintro rfl
      exact habsent.not_run _ hstep
    by_cases hdrop : a = .drop call
    · exact absent_of_drop (hdrop ▸ hstep)
    · have hu := sound_of_history hu sound
      exact (place_of_step hu hstep hbegins hrun hdrop).trans habsent

/-- **Names stay proper** if nobody begins under a name that is taken. -/
theorem proper_of_step {config : RelayConfig} {s t : State γ} {a : Action γ}
    {events : List (Event γ)} (sound : s.here.Sound config) (awake : s.here.queues.Awake)
    (proper : Proper s.here) (h : s.step a = some (t, events))
    (hnew : ∀ call, a.begins call = true → s.here.Absent call) : Proper t.here := by
  intro call
  by_cases hbegins : a.begins call = true
  · have habsent := hnew call hbegins
    cases a with
    | consume d recipient timeout skips =>
      obtain rfl : d = call := of_decide_eq_true hbegins
      exact .inr ⟨_, rfl, .inl (pops_of_consume habsent h)⟩
    | _ => cases hbegins
  by_cases hdrop : a = .drop call
  · exact .inl (absent_of_drop (hdrop ▸ h))
  by_cases hrun : a = .run call
  · subst hrun
    rcases proper call with habsent | ⟨c, rfl, stands⟩
    · exact absurd h (habsent.not_run _)
    · obtain ⟨_, -, -, turn⟩ := turn_of_step sound awake stands h
      cases turn with
      | joins due _ _ _ _ after => exact .inr ⟨c, rfl, .inr ⟨due, after⟩⟩
      | rejoins due _ _ _ _ after _ => exact .inr ⟨c, rfl, .inr ⟨due, after⟩⟩
      | skips _ _ _ _ after => exact .inr ⟨c, rfl, .inl after⟩
      | ends _ _ _ _ _ after => exact .inl after
      | givesUp _ _ _ _ _ after => exact .inl after
      | refused _ _ _ after => exact .inl after
  have hplace := place_of_step sound h (Bool.eq_false_iff.mpr hbegins) hrun hdrop
  refine (proper call).imp hplace.trans ?_
  rintro ⟨c, rfl, stands⟩
  exact ⟨c, rfl, stands.imp hplace.trans fun ⟨due, waits⟩ => ⟨due, hplace.trans waits⟩⟩

theorem proper_of_history {config : RelayConfig} {start s : State γ} {steps : List (Step γ)}
    (h : (machine γ).History start s steps) (sound : start.here.Sound config)
    (awake : start.here.queues.Awake) (hstart : ∀ call, start.here.Absent call)
    (distinct : Distinct steps) : Proper s.here := by
  induction h with
  | start => exact fun call => .inl (hstart call)
  | @step u t steps a events hu hstep ih =>
    have proper := ih fun earlier x later call hl hx y hy =>
      distinct earlier x (later ++ [⟨u, a, t, events⟩]) call (by simp [hl]) hx y (by
        rcases List.mem_append.mp hy with hy | hy <;> simp [hy])
    refine proper_of_step (sound_of_history hu sound) (awake_of_history hu awake) proper hstep
      fun call hbegins => ?_
    exact absent_of_unbegun hu sound (hstart call) fun y hy =>
      distinct steps _ [] call rfl hbegins y (by simpa using hy)

/-! ### Effort -/

/-- How often one who consumes can run yet, at most, but for the pop with which it waits. -/
def weight (r : Relay γ) (c : Consumer γ) : Nat :=
  3 * (r.entries c.recipient).length + if c.waits then 0 else 3

/-- How often those who consume can run before nothing is ready, at most. -/
def effort (r : Relay γ) : Nat := (r.consumers.map r.weight).sum + r.queues.pending

/-- The part of it under one name. -/
def ownEffort (r : Relay γ) (call : γ) : Nat :=
  ((r.consumers.filter (·.call = call)).map r.weight).sum +
    ((r.queues.pops.filter (·.call = call)).map fun p => if p.woken then 2 else 1).sum

/-- The part of it under the other names. -/
def otherEffort (r : Relay γ) (call : γ) : Nat :=
  ((r.consumers.filter (·.call ≠ call)).map r.weight).sum +
    ((r.queues.pops.filter (·.call ≠ call)).map fun p => if p.woken then 2 else 1).sum

theorem sum_split {α : Type} (l : List α) (f : α → Nat) (key : α → γ) (k : γ) :
    ((l.filter (key · = k)).map f).sum + ((l.filter (key · ≠ k)).map f).sum = (l.map f).sum := by
  have hsplit := (List.filter_append_perm (fun a => decide (key a = k)) l).map f
  rw [← hsplit.sum_nat, List.map_append, List.sum_append_nat]
  simp

theorem effort_split (r : Relay γ) (call : γ) :
    effort r = ownEffort r call + otherEffort r call := by
  unfold effort ownEffort otherEffort Queues.pending
  rw [← sum_split r.consumers r.weight (·.call) call,
    ← sum_split r.queues.pops _ (·.call) call]
  omega

theorem otherEffort_le {r r' : Relay γ} {call : γ} (hrest : r'.rest call = r.rest call)
    (hentries : ∀ recipient, (r'.entries recipient).length ≤ (r.entries recipient).length) :
    otherEffort r' call ≤ otherEffort r call := by
  unfold otherEffort
  rw [show r'.consumers.filter (·.call ≠ call) = r.consumers.filter (·.call ≠ call) from
    congrArg Prod.fst hrest, show r'.queues.pops.filter (·.call ≠ call) =
    r.queues.pops.filter (·.call ≠ call) from congrArg Prod.snd hrest]
  refine Nat.add_le_add_right ?_ _
  induction r.consumers.filter (·.call ≠ call) with
  | nil => exact Nat.le_refl _
  | cons c l ih =>
    have hc := hentries c.recipient
    simp only [List.map_cons, List.sum_cons, weight]
    exact Nat.add_le_add (by omega) ih

theorem ownEffort_of_absent {r : Relay γ} {call : γ} (h : r.Absent call) : ownEffort r call = 0 := by
  have hpops : r.queues.pops.filter (·.call = call) = [] :=
    List.map_eq_nil_iff.mp (congrArg Prod.snd h)
  unfold ownEffort
  rw [show r.consumers.filter (·.call = call) = [] from congrArg Prod.fst h, hpops]
  rfl

theorem ownEffort_of_pops {r : Relay γ} {c : Consumer γ} (h : r.Pops c) :
    ownEffort r c.call = 3 * (r.entries c.recipient).length + 3 := by
  have hpops : r.queues.pops.filter (·.call = c.call) = [] :=
    List.map_eq_nil_iff.mp (congrArg Prod.snd h)
  unfold ownEffort
  rw [show r.consumers.filter (·.call = c.call) = [_] from congrArg Prod.fst h, hpops]
  simp [weight]

theorem ownEffort_of_waits {r : Relay γ} {c : Consumer γ} {due : Nat} (h : r.Waits c due) :
    ∃ p ∈ r.queues.pops, p.call = c.call ∧ ownEffort r c.call =
      3 * (r.entries c.recipient).length + if p.woken then 2 else 1 := by
  obtain ⟨p, hp, -⟩ := pop_of_slots (congrArg Prod.snd h)
  have hmem : p ∈ r.queues.pops.filter (·.call = c.call) := hp ▸ List.mem_singleton.mpr rfl
  refine ⟨p, (List.mem_filter.mp hmem).1, of_decide_eq_true (List.mem_filter.mp hmem).2, ?_⟩
  unfold ownEffort
  rw [show r.consumers.filter (·.call = c.call) = [_] from congrArg Prod.fst h, hp]
  simp [weight]

/-- **A turn brings all nearer to sleep.** -/
theorem effort_of_turn {r r' : Relay γ} {now : Nat} {c : Consumer γ} {consumed? : Option Consumed}
    (hrest : r'.rest c.call = r.rest c.call) (stands : r.Pops c ∨ ∃ due, r.Waits c due)
    (turn : r.Turn r' now c consumed?) : effort r' < effort r := by
  have hown : 3 * (r.entries c.recipient).length < ownEffort r c.call := by
    rcases stands with pops | ⟨due, waits⟩
    · rw [ownEffort_of_pops pops]
      omega
    · obtain ⟨p, -, -, heffort⟩ := ownEffort_of_waits waits
      rw [heffort]
      split <;> omega
  have hless : ∀ {bytes}, r.entries c.recipient = bytes :: r'.entries c.recipient →
      (r.entries c.recipient).length = (r'.entries c.recipient).length + 1 :=
    fun front => by rw [front, List.length_cons]
  suffices ownEffort r' c.call < ownEffort r c.call ∧
      ∀ recipient, (r'.entries recipient).length ≤ (r.entries recipient).length by
    have hothers := otherEffort_le hrest this.2
    rw [effort_split r c.call, effort_split r' c.call]
    omega
  have hnone : r'.Absent c.call → ownEffort r' c.call < ownEffort r c.call := fun after => by
    rw [ownEffort_of_absent after]
    omega
  have hsame : (∀ recipient, r'.entries recipient = r.entries recipient) →
      ∀ recipient, (r'.entries recipient).length ≤ (r.entries recipient).length :=
    fun same recipient => by rw [same]
  have htook : ∀ {bytes}, r.entries c.recipient = bytes :: r'.entries c.recipient →
      (∀ recipient, recipient ≠ c.recipient → r'.entries recipient = r.entries recipient) →
      ∀ recipient, (r'.entries recipient).length ≤ (r.entries recipient).length := by
    intro bytes front others recipient
    by_cases hr : recipient = c.recipient
    · rw [hr, hless front]
      omega
    · rw [others recipient hr]
  cases turn with
  | joins due pops _ _ same after =>
    refine ⟨?_, hsame same⟩
    obtain ⟨p, -, -, heffort⟩ := ownEffort_of_waits after
    rw [heffort, ownEffort_of_pops pops, same]
    split <;> omega
  | rejoins due waits woken _ same after sleeps =>
    refine ⟨?_, hsame same⟩
    obtain ⟨p, hp, hcall, heffort⟩ := ownEffort_of_waits waits
    obtain ⟨p', hp', hcall', heffort'⟩ := ownEffort_of_waits after
    rw [heffort, heffort', woken p hp hcall, sleeps p' hp' hcall', same]
    simp
  | skips bytes _ front others after =>
    refine ⟨?_, htook front others⟩
    rw [ownEffort_of_pops after]
    rw [hless front] at hown
    omega
  | ends _ _ _ front others after => exact ⟨hnone after, htook front others⟩
  | givesUp _ _ _ _ same after => exact ⟨hnone after, hsame same⟩
  | refused _ _ same after => exact ⟨hnone after, hsame same⟩

/-! ### Settling -/

theorem run_of_pops {r : Relay γ} {c : Consumer γ} (h : r.Pops c) (now : Nat) :
    ∃ ran, r.run? now c.call = some ran := by
  refine Option.isSome_iff_exists.mp ?_
  unfold run?
  rw [find?_of_place h, Option.bind_eq_bind, Option.bind_some, if_neg Bool.false_ne_true]
  split
  · rfl
  · split <;> rfl

theorem run_of_waits {r : Relay γ} {c : Consumer γ} {due : Nat} (h : r.Waits c due) {now : Nat}
    {p : Pop String γ} (hp : p ∈ r.queues.pops) (hcall : p.call = c.call)
    (hcan : Queues.canRun now p = true) : ∃ ran, r.run? now c.call = some ran := by
  obtain ⟨p', honly, -⟩ := pop_of_slots (congrArg Prod.snd h)
  have hmem : p ∈ r.queues.pops.filter (·.call = c.call) :=
    List.mem_filter.mpr ⟨hp, decide_eq_true hcall⟩
  obtain rfl : p = p' := List.mem_singleton.mp (honly ▸ hmem)
  have hfind : r.queues.pops.find? (·.call = c.call) = some p := by
    rw [← List.head?_filter, honly]
    rfl
  obtain ⟨⟨q, popped?⟩, hran⟩ := Queues.resume?_of_canRun hfind hcan
  refine Option.isSome_iff_exists.mp ?_
  unfold run?
  rw [find?_of_place h, Option.bind_eq_bind, Option.bind_some, if_pos rfl, hran]
  cases popped? <;> rfl

theorem exists_of_ready? {r : Relay γ} (proper : Proper r) {now : Nat} {call : γ}
    (h : r.ready? now = some call) : ∃ c : Consumer γ, c.call = call ∧
      (r.Pops c ∨ ∃ due, r.Waits c due) ∧ ∃ ran, r.run? now call = some ran := by
  unfold ready? at h
  split at h
  case h_1 d hd =>
    obtain rfl := Option.some.inj h
    have hmem : d ∈ (r.place d.call).1 :=
      List.mem_filter.mpr ⟨List.mem_of_find?_eq_some hd, decide_eq_true rfl⟩
    rcases proper d.call with habsent | ⟨c, hc, pops | ⟨due, waits⟩⟩
    · rw [habsent] at hmem
      cases hmem
    · exact ⟨c, hc, .inl pops, hc ▸ run_of_pops pops now⟩
    · rw [← hc, waits] at hmem
      have hwaits : d.waits = false := by simpa using List.find?_some hd
      rw [List.mem_singleton.mp hmem] at hwaits
      cases hwaits
  case h_2 =>
    obtain ⟨p, hp, rfl⟩ := Option.map_eq_some_iff.mp h
    have hslots := Queues.mem_slots (List.mem_of_find?_eq_some hp)
    rcases proper p.call with habsent | ⟨c, hc, pops | ⟨due, waits⟩⟩
    · rw [show r.queues.slots p.call = [] from congrArg Prod.snd habsent] at hslots
      cases hslots
    · rw [← hc, show r.queues.slots c.call = [] from congrArg Prod.snd pops] at hslots
      cases hslots
    · exact ⟨c, hc, .inr ⟨due, waits⟩, hc ▸
        run_of_waits waits (List.mem_of_find?_eq_some hp) hc.symm (List.find?_some hp)⟩

/-- **Settling comes to an end.** -/
theorem ready_settle {config : RelayConfig} (fuel : Nat) {s : State γ} (sound : s.here.Sound config)
    (awake : s.here.queues.Awake) (proper : Proper s.here) (hfuel : effort s.here ≤ fuel) :
    (machine γ).ready ((machine γ).settle fuel s).1 = none := by
  refine Machine.ready_settle (m := machine γ) (s := s)
    (P := fun s => s.here.Sound config ∧ s.here.queues.Awake ∧ Proper s.here)
    (fun s : State γ => effort s.here) ?_ fuel ⟨sound, awake, proper⟩ hfuel
  rintro s a ⟨sound, awake, proper⟩ hready
  obtain ⟨call, hcall, rfl⟩ := Option.map_eq_some_iff.mp hready
  obtain ⟨c, rfl, stands, ⟨r, consumed?⟩, hran⟩ := exists_of_ready? proper hcall
  have hstep : s.step (.run c.call) = some (⟨s.now, r⟩, consumed?.toList.map (.ended c.call)) :=
    congrArg (Option.map _) hran
  refine ⟨⟨s.now, r⟩, _, hstep, ?_, (effect_of_step sound hstep).2, awake_of_step awake hstep, ?_⟩
  · exact effort_of_turn (rest_of_run? hran) stands (turn_of_run? sound awake stands hran)
  · exact proper_of_step sound awake proper hstep fun _ hbegins => nomatch hbegins

end Relay
end DeviceRelay

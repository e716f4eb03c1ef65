/-
# A consumer that skips waits one slice since the last entry that it skipped

The timeout of a consumer that skips bounds the time since the last entry that it passed
over, and not the time since it began. It gives up exactly when that time is over, and as
long as it waits its queue is empty. So it ends within one timeout of its begin unless it
passes over an entry within that time, but after the moment in which it began, and takes no
message in the rest of it: then it is late.

Key definitions: `Relay.EndedBy`, `Relay.Sliced`, `Relay.Paced`, `Relay.Tenure`.
Key theorems: `Relay.Tenure.standing`, `Relay.Tenure.turn`, `Relay.sliced_of_history`,
`Relay.paced_of_history`.
-/
import DeviceRelay.Proofs.Relay.Delivery
import DeviceRelay.Proofs.Relay.Slices
import Mathlib.Data.List.Induction

namespace DeviceRelay
namespace Relay

section
variable {γ : Type} [DecidableEq γ]

/-- Whether a call ended in one of some steps, at a moment that is not later. -/
def EndedBy (call : γ) (moment : Nat) (steps : List (Step γ)) : Prop :=
  ∃ y ∈ steps, ended call [y] ≠ [] ∧ y.before.now ≤ moment

instance (call : γ) (moment : Nat) (steps : List (Step γ)) : Decidable (EndedBy call moment steps) :=
  inferInstanceAs (Decidable (∃ y ∈ steps, ended call [y] ≠ [] ∧ y.before.now ≤ moment))

/-- How a call that skips is served that a step of a run begins. -/
structure Sliced (call : γ) (recipient : PrincipalId) (timeout : Nat) (earlier : List (Step γ))
    (x : Step γ) (later : List (Step γ)) (s : State γ) : Prop where
  /-- It ends once at most. -/
  once : ∃ consumed? : Option Consumed, ended call (earlier ++ x :: later) = consumed?.toList
  /-- Whenever it runs, its timeout is not over since it last began to wait, or is over now. -/
  inTime : ∀ l y l', later = l ++ y :: l' → y.action = .run call →
    y.before.now ≤ restart call recipient x.before.now l + timeout
  /-- What it does then. -/
  turns : ∀ l y l', later = l ++ y :: l' → y.action = .run call →
    Slice call recipient timeout (restart call recipient x.before.now l) y
  /-- It ends in a step of its own. -/
  own : ∀ y ∈ earlier ++ x :: later, ended call [y] ≠ [] → y ∈ later ∧ y.action = .run call
  /-- While it goes on and nothing is ready, no entry is there and its time is not over. -/
  waits : (machine γ).ready s = none → ended call later = [] →
    (∀ y ∈ later, y.action ≠ .drop call) →
    s.here.entries recipient = [] ∧ s.now < restart call recipient x.before.now later + timeout
  /-- **It is late if and only if it passes over an entry within its timeout and after the
  moment in which it began, and takes no message within its timeout.** -/
  late : (machine γ).ready s = none → x.before.now + timeout ≤ s.now →
    (s.now + timeout) / 1000 ≤ clockRange → (∀ y ∈ later, y.action ≠ .drop call) →
    (¬EndedBy call (x.before.now + timeout) later ↔
      (∃ y ∈ later, passes call recipient y = true ∧ x.before.now < y.before.now ∧
        y.before.now ≤ x.before.now + timeout) ∧
      ∀ y ∈ later, ∀ m, .ended call (.message m) ∈ y.events → x.before.now + timeout < y.before.now)

/-- How the calls of a run are served that skip. -/
structure Paced (steps : List (Step γ)) (s : State γ) : Prop where
  sliced : ∀ earlier x later call recipient timeout, steps = earlier ++ x :: later →
    x.action = .consume call recipient timeout true → BegunOnce call (earlier ++ later) →
    Sliced call recipient timeout earlier x later s
  /-- If no two calls have one name, nothing is ready any more after finitely many runs, however
  many entries are there to be passed over. -/
  settles : Distinct steps → ∀ fuel, effort s.here ≤ fuel →
    (machine γ).ready ((machine γ).settle fuel s).1 = none

/-! ### When one began to wait -/

/-- One who waits not since its begin passed over an entry later on; here is the first. -/
theorem exists_first {call : γ} {recipient : PrincipalId} {began : Nat} {steps : List (Step γ)}
    (h : restart call recipient began steps ≠ began) : ∃ l y l', steps = l ++ y :: l' ∧
      passes call recipient y = true ∧ y.before.now ≠ began ∧
      restart call recipient began l = began := by
  induction steps with
  | nil => exact absurd rfl h
  | cons z steps ih =>
    by_cases hz : passes call recipient z = true ∧ z.before.now ≠ began
    · exact ⟨[], z, steps, rfl, hz.1, hz.2, rfl⟩
    · have hfirst : ∀ l, restart call recipient began (z :: l) = restart call recipient began l := by
        intro l
        show restart call recipient (if passes call recipient z then z.before.now else began) l = _
        split
        case isTrue hp => rw [not_not.mp fun hne => hz ⟨hp, hne⟩]
        case isFalse => rfl
      obtain ⟨l, y, l', rfl, hpasses, hne, hsame⟩ := ih (hfirst steps ▸ h)
      exact ⟨z :: l, y, l', rfl, hpasses, hne, (hfirst l).trans hsame⟩

theorem now_le_of_history {start s : State γ} {steps : List (Step γ)}
    (h : (machine γ).History start s steps) : start.now ≤ s.now :=
  h.invariant (P := fun s => start.now ≤ s.now) (Nat.le_refl _)
    fun _ _ _ _ hs hstep => Nat.le_trans hs (now_le_of_step hstep)

/-- One began to wait at a moment that is past, and no earlier than it passed over an entry. -/
theorem restart_of_history {start s : State γ} {steps : List (Step γ)}
    (h : (machine γ).History start s steps) (call : γ) (recipient : PrincipalId) {began : Nat}
    (hbegan : began ≤ start.now) : restart call recipient began steps ≤ s.now ∧
      ∀ y ∈ steps, passes call recipient y = true →
        y.before.now ≤ restart call recipient began steps := by
  induction h with
  | start => exact ⟨hbegan, by simp⟩
  | @step u t steps a events hu hstep ih =>
    obtain ⟨hpast, hlast⟩ := ih
    rw [restart_concat]
    by_cases hp : passes call recipient ⟨u, a, t, events⟩ = true
    · rw [if_pos hp]
      refine ⟨now_le_of_step hstep, fun y hy hpasses => ?_⟩
      rcases List.mem_append.mp hy with hy | hy
      · exact Nat.le_trans (hlast y hy hpasses) hpast
      · exact Nat.le_of_eq (congrArg (·.before.now) (List.mem_singleton.mp hy))
    · rw [if_neg hp]
      refine ⟨Nat.le_trans hpast (now_le_of_step hstep), fun y hy hpasses => ?_⟩
      rcases List.mem_append.mp hy with hy | hy
      · exact hlast y hy hpasses
      · exact absurd hpasses (List.mem_singleton.mp hy ▸ hp)

theorem ended_of_unbegun {config : RelayConfig} {start s : State γ} {steps : List (Step γ)}
    (h : (machine γ).History start s steps) (sound : start.here.Sound config) {call : γ}
    (hstart : start.here.Absent call) (hnone : BegunOnce call steps) : ended call steps = [] := by
  refine ended_eq_nil_iff.mpr fun y hy => ?_
  obtain ⟨earlier, later, rfl, hbefore, hstep, -⟩ := h.of_mem hy
  have habsent := absent_of_unbegun hbefore sound hstart
    fun z hz => hnone z (List.mem_append_left _ hz)
  by_contra hends
  have hrun := ended_of_step hstep hends
  exact habsent.not_run _ (hrun ▸ hstep)

/-- A run from the moment when one began to consume whose name nobody else has, in which time
passes only while nothing is ready. -/
structure Tenure (config : RelayConfig) (c : Consumer γ) (start s : State γ)
    (later : List (Step γ)) : Prop where
  history : (machine γ).History start s later
  sound : start.here.Sound config
  awake : start.here.queues.Awake
  timely : (machine γ).Timely later
  alone : BegunOnce c.call later
  stands : Standing start c start.now

section
variable {config : RelayConfig} {c : Consumer γ} {start s : State γ}

theorem Tenure.take {l l' : List (Step γ)} (T : Tenure config c start s (l ++ l')) :
    ∃ u, Tenure config c start u l ∧ (machine γ).History u s l' := by
  obtain ⟨u, hbefore, hfrom⟩ := T.history.split
  exact ⟨u, ⟨hbefore, T.sound, T.awake, T.timely.append_left,
    fun y hy => T.alone y (List.mem_append_left _ hy), T.stands⟩, hfrom⟩

/-- **Until it ends or is dropped, one has waited since it last passed over an entry.** -/
theorem Tenure.standing {later : List (Step γ)} (T : Tenure config c start s later) :
    if later.any (frees c.call) then s.here.Absent c.call
    else Standing s c (restart c.call c.recipient start.now later) := by
  obtain ⟨h, sound, awake, timely, alone, stands⟩ := T
  induction h with
  | start => exact stands
  | @step u t steps a events hu hstep ih =>
    have hstands := ih timely.append_left fun y hy => alone y (List.mem_append_left _ hy)
    have hbegins := alone _ (List.mem_append_right _ (List.mem_singleton.mpr rfl))
    have hsound := sound_of_history hu sound
    rw [List.any_append, List.any_cons, List.any_nil, Bool.or_false, restart_concat]
    by_cases hfreed : steps.any (frees c.call) = true
    · rw [hfreed, if_pos rfl] at hstands
      rw [hfreed, Bool.true_or, if_pos rfl]
      have hlast : (machine γ).History u t [⟨u, a, t, events⟩] := .step .start hstep
      exact absent_of_unbegun hlast hsound hstands
        fun y hy => List.mem_singleton.mp hy ▸ hbegins
    · rw [Bool.not_eq_true] at hfreed
      rw [hfreed, if_neg nofun] at hstands
      rw [hfreed, Bool.false_or]
      refine standing_of_step hsound (awake_of_history hu awake) hstep ?_ hbegins hstands
      exact fun y hy => timely y (List.mem_append_right _ hy)

/-- **What one does that runs**: until then it neither ended nor was dropped. -/
theorem Tenure.turn {l l' : List (Step γ)} {y : Step γ}
    (T : Tenure config c start s (l ++ y :: l')) (hskips : c.skips = true)
    (hrun : y.action = .run c.call) : (∀ z ∈ l, frees c.call z = false) ∧
      y.before.now ≤ restart c.call c.recipient start.now l + c.timeout ∧
      Slice c.call c.recipient c.timeout (restart c.call c.recipient start.now l) y := by
  obtain ⟨u, Tl, hfrom⟩ := T.take
  obtain ⟨rfl, hstep, -⟩ := hfrom.head
  obtain ⟨s', a, t, events⟩ := y
  subst hrun
  have hstands := Tl.standing
  by_cases hfreed : l.any (frees c.call) = true
  · rw [hfreed, if_pos rfl] at hstands
    exact absurd hstep (hstands.not_run _)
  · rw [if_neg hfreed] at hstands
    obtain ⟨consumed?, rfl, -, turn⟩ := turn_of_step (sound_of_history Tl.history T.sound)
      (awake_of_history Tl.history T.awake) hstands.stands hstep
    refine ⟨fun z hz => ?_, hstands.inTime, slice_of_turn hskips hstands turn⟩
    by_contra hne
    exact hfreed (List.any_eq_true.mpr ⟨z, hz, by simpa using hne⟩)

theorem Tenure.own {later : List (Step γ)} (T : Tenure config c start s later) {y : Step γ}
    (hy : y ∈ later) (hends : ended c.call [y] ≠ []) : y.action = .run c.call := by
  obtain ⟨-, -, -, -, hstep, -⟩ := T.history.of_mem hy
  exact ended_of_step hstep hends

/-- **It ends once at most.** -/
theorem Tenure.once {later : List (Step γ)} (T : Tenure config c start s later)
    (hskips : c.skips = true) :
    Relay.ended c.call later = [] ∨ ∃ consumed, Relay.ended c.call later = [consumed] := by
  induction later using List.reverseRecOn generalizing s with
  | nil => exact .inl rfl
  | append_singleton later y ih =>
    rw [ended_append]
    by_cases hends : Relay.ended c.call [y] = []
    · obtain ⟨u, Tl, -⟩ := T.take
      rw [hends, List.append_nil]
      exact ih Tl
    · obtain ⟨hfrees, -, hslice⟩ := T.turn hskips (T.own (by simp) hends)
      rw [ended_of_not_frees hfrees, List.nil_append]
      exact hslice.ended

/-- While it goes on and nothing is ready, no entry is there and its time is not over. -/
theorem Tenure.waits {later : List (Step γ)} (T : Tenure config c start s later)
    (hready : (machine γ).ready s = none) (hends : Relay.ended c.call later = [])
    (hdrops : ∀ y ∈ later, y.action ≠ .drop c.call) :
    s.here.entries c.recipient = [] ∧
      s.now < restart c.call c.recipient start.now later + c.timeout := by
  have hfrees : later.any (frees c.call) = false := by
    refine List.any_eq_false.mpr fun y hy => ?_
    have hended := ended_eq_nil_iff.mp hends y hy
    have hdrop := hdrops y hy
    unfold frees
    rw [hended]
    cases haction : y.action with
    | drop d =>
      have hne : d ≠ c.call := fun hd => hdrop (haction.trans (congrArg _ hd))
      simpa using hne
    | _ => simp
  have hstands := T.standing
  rw [hfrees, if_neg nofun] at hstands
  have hnone : s.here.ready? s.now = none := Option.map_eq_none_iff.mp hready
  cases hstands with
  | pops pops _ => exact absurd hnone (pops.ready s.now)
  | waits waits _ =>
    obtain ⟨p, hp, hkey, hdue⟩ := waits.exists_pop
    have hline : s.here.queues.ready? s.now = none := by
      unfold ready? at hnone
      split at hnone
      · cases hnone
      · exact hnone
    obtain ⟨hsleeps, hlater⟩ := Queues.sleeps_of_ready (s := ⟨s.now, s.here.queues⟩)
      (Option.map_eq_none_iff.mpr hline) hp
    refine ⟨?_, hdue ▸ hlater⟩
    unfold entries
    rw [← hkey]
    exact awake_of_history T.history T.awake p hp hsleeps

/-- One that is late passed over an entry in time, but after it began. -/
theorem Tenure.passes_of_late {later : List (Step γ)} (T : Tenure config c start s later)
    (hskips : c.skips = true) (hready : (machine γ).ready s = none)
    (hover : start.now + c.timeout ≤ s.now) (hdrops : ∀ y ∈ later, y.action ≠ .drop c.call)
    (hlate : ¬EndedBy c.call (start.now + c.timeout) later) :
    ∃ y ∈ later, passes c.call c.recipient y = true ∧ start.now < y.before.now ∧
      y.before.now ≤ start.now + c.timeout := by
  -- wherever it stands that late, it does not wait since it began
  obtain ⟨l, l', rfl, hrestart⟩ : ∃ l l', later = l ++ l' ∧
      restart c.call c.recipient start.now l ≠ start.now := by
    by_cases hends : Relay.ended c.call later = []
    · obtain ⟨-, hless⟩ := T.waits hready hends hdrops
      refine ⟨later, [], by simp, fun hsame => ?_⟩
      rw [hsame] at hless
      omega
    · obtain ⟨y, hy, hended⟩ : ∃ y ∈ later, Relay.ended c.call [y] ≠ [] := by
        by_contra hnone
        exact hends (ended_eq_nil_iff.mpr fun y hy => by_contra fun hne => hnone ⟨y, hy, hne⟩)
      obtain ⟨l, l', rfl⟩ := List.append_of_mem hy
      obtain ⟨-, hinTime, -⟩ := T.turn hskips (T.own hy hended)
      refine ⟨l, y :: l', rfl, fun hsame => hlate ⟨y, hy, hended, ?_⟩⟩
      rwa [hsame] at hinTime
  obtain ⟨l₁, y, l₂, rfl, hpasses, hne, hsame⟩ := exists_first hrestart
  rw [List.append_assoc, List.cons_append] at T
  obtain ⟨-, hinTime, -⟩ := T.turn hskips (run_of_passes hpasses).1
  obtain ⟨u, Tl, hfrom⟩ := T.take
  obtain ⟨rfl, -, -⟩ := hfrom.head
  have hlater : start.now ≤ y.before.now := now_le_of_history Tl.history
  refine ⟨y, by simp, hpasses, by omega, ?_⟩
  rwa [hsame] at hinTime

/-- One that passed over an entry after it began, and takes no message in time, is late. -/
theorem Tenure.late_of_passes {later : List (Step γ)} (T : Tenure config c start s later)
    (hskips : c.skips = true) (hrange : (s.now + c.timeout) / 1000 ≤ clockRange)
    {z : Step γ} (hz : z ∈ later) (hpasses : passes c.call c.recipient z = true)
    (hafter : start.now < z.before.now)
    (hnone : ∀ y ∈ later, ∀ m, .ended c.call (.message m) ∈ y.events →
      start.now + c.timeout < y.before.now) :
    ¬EndedBy c.call (start.now + c.timeout) later := by
  rintro ⟨y, hy, hends, hearly⟩
  have hrun := T.own hy hends
  obtain ⟨l, l', rfl⟩ := List.append_of_mem hy
  obtain ⟨-, -, hslice⟩ := T.turn hskips hrun
  obtain ⟨u, Tl, hfrom⟩ := T.take
  obtain ⟨rfl, -, hrest⟩ := hfrom.head
  cases hslice with
  | waits silent _ _ => exact hends (ended_of_silent silent)
  | skips _ silent _ _ _ => exact hends (ended_of_silent silent)
  | delivers _ m tells _ _ _ =>
    have hless := hnone y hy m (by simp [tells])
    omega
  | givesUp tells elapsed _ _ =>
    have hzl : z ∈ l := by
      rcases List.mem_append.mp hz with hz | hz
      · exact hz
      rcases List.mem_cons.mp hz with rfl | hz
      · exact absurd (ended_of_silent (run_of_passes hpasses).2) hends
      · -- it does not run any more when it has ended
        obtain ⟨l₁, l₂, rfl⟩ := List.append_of_mem hz
        rw [← List.cons_append, ← List.append_assoc] at T
        obtain ⟨hfrees, -, -⟩ := T.turn hskips (run_of_passes hpasses).1
        exact absurd (frees_of_ended hends) (by simp [hfrees y (by simp)])
    have hpast := (restart_of_history Tl.history c.call c.recipient (Nat.le_refl _)).2 z hzl hpasses
    omega
  | refused _ beyond _ =>
    have hnow : y.before.now ≤ s.now := now_le_of_history hfrom
    omega

end

/-! ### The whole run -/

section
variable {config : RelayConfig} {now : Nat} {earlier later : List (Step γ)} {x : Step γ}
  {s : State γ} {call : γ} {recipient : PrincipalId} {timeout : Nat} {skips : Bool}

/-- One who begins to consume in a run does so until the end of the run. -/
theorem tenure_of_history
    (h : (machine γ).History ⟨now, ofConfig config⟩ s (earlier ++ x :: later))
    (timely : (machine γ).Timely (earlier ++ x :: later))
    (ha : x.action = .consume call recipient timeout skips)
    (only : BegunOnce call (earlier ++ later)) : x.after.now = x.before.now ∧
      ended call (earlier ++ [x]) = [] ∧
      Tenure config ⟨call, recipient, timeout, skips, false⟩ x.after s later := by
  obtain ⟨u, hbefore, hfrom⟩ := h.split
  obtain ⟨rfl, hstep, hafter⟩ := hfrom.head
  obtain ⟨b, a, t, events⟩ := x
  subst ha
  have hstep : b.step (.consume call recipient timeout skips) = some (t, events) := hstep
  have hstart : (ofConfig config : Relay γ).Sound config := ofConfig_sound config
  have hnone : BegunOnce call earlier := fun y hy => only y (List.mem_append_left _ hy)
  have habsent : b.here.Absent call := absent_of_unbegun hbefore hstart rfl hnone
  have hpops := pops_of_consume habsent hstep
  have hawake : b.here.queues.Awake := awake_of_history hbefore nofun
  have hsound := sound_of_history hbefore hstart
  have hnow : t.now = b.now := (now_of_step hstep).resolve_right fun htick => nomatch htick.1
  refine ⟨hnow, ?_, hafter, (effect_of_step hsound hstep).2, awake_of_step hawake hstep,
    fun y hy => timely y (by simp [hy]), fun y hy => only y (List.mem_append_right _ hy),
    .pops hpops rfl⟩
  rw [ended_append, ended_of_unbegun hbefore hstart rfl hnone, List.nil_append]
  by_contra hends
  exact nomatch ended_of_step hstep hends

/-- **A call that skips waits one slice since the last entry that it skipped.** -/
theorem sliced_of_history
    (h : (machine γ).History ⟨now, ofConfig config⟩ s (earlier ++ x :: later))
    (timely : (machine γ).Timely (earlier ++ x :: later))
    (ha : x.action = .consume call recipient timeout true)
    (only : BegunOnce call (earlier ++ later)) :
    Sliced call recipient timeout earlier x later s := by
  obtain ⟨hnow, hended, T⟩ := tenure_of_history h timely ha only
  rw [ended_append, List.append_eq_nil_iff] at hended
  have hends : ended call (earlier ++ x :: later) = ended call later := by
    rw [ended_append, hended.1, List.nil_append, ← List.singleton_append, ended_append, hended.2,
      List.nil_append]
  constructor
  case once =>
    rw [hends]
    rcases T.once rfl with hnone | ⟨consumed, hone⟩
    · exact ⟨none, hnone⟩
    · exact ⟨some consumed, hone⟩
  case inTime =>
    rintro l y l' rfl hrun
    exact hnow ▸ (T.turn rfl hrun).2.1
  case turns =>
    rintro l y l' rfl hrun
    exact hnow ▸ (T.turn rfl hrun).2.2
  case own =>
    intro y hy hne
    have hlater : y ∈ later := by
      rcases List.mem_append.mp hy with hy | hy
      · exact absurd (ended_eq_nil_iff.mp hended.1 y hy) hne
      rcases List.mem_cons.mp hy with rfl | hy
      · exact absurd hended.2 hne
      · exact hy
    exact ⟨hlater, T.own hlater hne⟩
  case waits => exact hnow ▸ T.waits
  case late =>
    intro hready hover hrange hdrops
    rw [← hnow] at hover ⊢
    constructor
    · intro hlate
      refine ⟨T.passes_of_late rfl hready hover hdrops hlate, fun y hy m hm => ?_⟩
      have hends : ended call [y] ≠ [] := List.ne_nil_of_mem
        (List.mem_flatMap.mpr ⟨y, List.mem_singleton.mpr rfl,
          List.mem_filterMap.mpr ⟨_, hm, if_pos rfl⟩⟩)
      by_contra hearly
      exact hlate ⟨y, hy, hends, Nat.le_of_not_lt hearly⟩
    · rintro ⟨⟨z, hz, hpasses, hafter, -⟩, hnone⟩
      exact T.late_of_passes rfl hrange hz hpasses hafter hnone

end

/-- **In every run the calls that skip wait one slice since the last entry that they skipped**,
if time passes only while nothing is ready. -/
theorem paced_of_history {config : RelayConfig} {now : Nat} {s : State γ} {steps : List (Step γ)}
    (h : (machine γ).History ⟨now, ofConfig config⟩ s steps)
    (timely : (machine γ).Timely steps) : Paced steps s := by
  constructor
  case sliced =>
    rintro earlier x later call recipient timeout rfl ha only
    exact sliced_of_history h timely ha only
  case settles =>
    intro distinct fuel hfuel
    have hstart : (ofConfig config : Relay γ).Sound config := ofConfig_sound config
    have hawake : (ofConfig config : Relay γ).queues.Awake := nofun
    exact ready_settle fuel (sound_of_history h hstart) (awake_of_history h hawake)
      (proper_of_history h hstart hawake (fun _ => rfl) distinct) hfuel

/-- Whether time passes in a step only while nothing is ready, and stops where one gives up. -/
def prompt (y : Step γ) : Bool :=
  match y.action with
  | .tick moment => ((machine γ).ready y.before).isNone &&
      ((machine γ).nextDue y.before).all (moment ≤ ·)
  | _ => true

theorem timely_of_prompt {steps : List (Step γ)} (h : ∀ y ∈ steps, prompt y = true) :
    (machine γ).Timely steps := by
  intro y hy moment ha
  have hprompt := h y hy
  simp only [prompt, show y.action = .tick moment from ha, Bool.and_eq_true,
    Option.isNone_iff_eq_none] at hprompt
  refine ⟨hprompt.1, fun due hdue => ?_⟩
  rw [hdue] at hprompt
  exact of_decide_eq_true hprompt.2

end

/-- An entry that is no message comes in the middle of a wait, and a message comes when the
timeout is over since the begin: the call has begun to wait afresh, and takes it. -/
def interrupted : List (Action Nat) :=
  [.consume 1 ⟨7⟩ 1000 true, .run 1, .tick 600, .pushRaw ⟨7⟩ [0xc1], .run 1, .run 1, .tick 1500,
    .publish ⟨7⟩ (note 1), .run 1]

theorem replay_interrupted :
    ((machine Nat).replay ⟨0, ofConfig {}⟩ interrupted).isSome = true := by decide +kernel

theorem paced_of_interrupted : ∃ (s : State Nat) (steps : List (Step Nat)),
    (machine Nat).History ⟨0, ofConfig {}⟩ s steps ∧ (machine Nat).Timely steps ∧
      steps.map (·.action) = interrupted ∧ s.now = 1500 ∧ ended 1 steps = [.message (note 1)] ∧
      Paced steps s := by
  have h := Machine.history_of_replayed replay_interrupted
  have hactions := Machine.actions_of_replay (Option.some_get replay_interrupted).symm
  have timely : (machine Nat).Timely
      (((machine Nat).replay ⟨0, ofConfig {}⟩ interrupted).get replay_interrupted).2 :=
    timely_of_prompt (by decide +kernel)
  exact ⟨_, _, h, timely, hactions, rfl, rfl, paced_of_history h timely⟩

/-- An entry that is no message comes in the middle of a wait, and nothing else does. -/
def disturbed : List (Action Nat) :=
  [.consume 1 ⟨7⟩ 1000 true, .run 1, .tick 600, .pushRaw ⟨7⟩ [0xc1], .run 1, .run 1, .tick 1000,
    .tick 1600, .run 1]

theorem replay_disturbed :
    ((machine Nat).replay ⟨0, ofConfig {}⟩ disturbed).isSome = true := by decide +kernel

/-- **A call that skips ends later than one timeout after its begin.** -/
theorem overrun_of_disturbed : ∃ (s : State Nat) (x : Step Nat) (later : List (Step Nat)),
    (machine Nat).History ⟨0, ofConfig {}⟩ s (x :: later) ∧ (machine Nat).Timely (x :: later) ∧
      (x :: later).map (·.action) = disturbed ∧ x.action = .consume 1 ⟨7⟩ 1000 true ∧
      (machine Nat).ready s = none ∧ x.before.now + 1000 ≤ s.now ∧
      (s.now + 1000) / 1000 ≤ clockRange ∧ ¬EndedBy 1 (x.before.now + 1000) later ∧
      ended 1 later = [.nothing] := by
  have h := Machine.history_of_replayed replay_disturbed
  have hactions := Machine.actions_of_replay (Option.some_get replay_disturbed).symm
  have timely : (machine Nat).Timely
      (((machine Nat).replay ⟨0, ofConfig {}⟩ disturbed).get replay_disturbed).2 :=
    timely_of_prompt (by decide +kernel)
  exact ⟨_, _, _, h, timely, hactions, rfl, rfl, by decide +kernel, by decide +kernel,
    by decide +kernel, rfl⟩

end Relay
end DeviceRelay

/-
# One slice of a consumer that skips

A consumer that passes over entries that are no messages begins to wait afresh after each of
them. So its timeout bounds the time since the last entry that it passed over, or since it
began. Here is what it does in a step in which it runs, and what each step leaves of it: it is
about to pop in the moment in which it began to wait, or it waits in line until its timeout is
over since then, and that moment is not past if time passes only while nothing is ready.

Key definitions: `Relay.ended`, `Relay.passes`, `Relay.restart`, `Relay.Slice`,
`Relay.Standing`.
Key theorems: `Relay.slice_of_turn`, `Relay.standing_of_turn`, `Relay.standing_of_step`.
-/
import DeviceRelay.Proofs.Relay.Order
import DeviceRelay.Proofs.Relay.Settling

namespace DeviceRelay
namespace Relay

section
variable {γ : Type} [DecidableEq γ]

/-- How a call ended, if this is its end. -/
def Event.endOf? (call : γ) : Event γ → Option Consumed
  | .ended c consumed => if c = call then some consumed else none
  | _ => none

/-- How a call ended in the steps of a run. -/
def ended (call : γ) (steps : List (Step γ)) : List Consumed :=
  steps.flatMap fun y => y.events.filterMap (Event.endOf? call)

/-- Whether a step ends or drops a call. -/
def frees (call : γ) (y : Step γ) : Bool :=
  (match y.action with
    | .drop c => c = call
    | _ => false) || !(ended call [y]).isEmpty

/-- Whether a call takes an entry of its recipient in a step and goes on. -/
def passes (call : γ) (recipient : PrincipalId) (y : Step γ) : Bool :=
  match y.action with
  | .run c => c = call && y.events.isEmpty && !(leaving recipient y).isEmpty
  | _ => false

/-- When a call began to wait for the last time: when it last passed over an entry, or when it
began. -/
def restart (call : γ) (recipient : PrincipalId) (began : Nat) (steps : List (Step γ)) : Nat :=
  steps.foldl (fun since y => if passes call recipient y then y.before.now else since) began

/-- What a call that skips does in a step in which it runs, if it has waited since a moment. -/
inductive Slice (call : γ) (recipient : PrincipalId) (timeout since : Nat) (y : Step γ) : Prop where
  /-- It finds no entry and goes on. -/
  | waits (silent : y.events = []) (empty : y.before.here.entries recipient = [])
      (same : ∀ other, y.after.here.entries other = y.before.here.entries other)
  /-- It takes the oldest entry, which is no message, and goes on. -/
  | skips (bytes : List UInt8) (silent : y.events = []) (broken : Message.unpack? bytes = none)
      (front : y.before.here.entries recipient = bytes :: y.after.here.entries recipient)
      (others : ∀ other, other ≠ recipient →
        y.after.here.entries other = y.before.here.entries other)
  /-- It takes the oldest entry and ends with the message that it is. -/
  | delivers (bytes : List UInt8) (m : Message) (tells : y.events = [.ended call (.message m)])
      (whole : Message.unpack? bytes = some m)
      (front : y.before.here.entries recipient = bytes :: y.after.here.entries recipient)
      (others : ∀ other, other ≠ recipient →
        y.after.here.entries other = y.before.here.entries other)
  /-- It finds no entry when its time is over, and ends with nothing. -/
  | givesUp (tells : y.events = [.ended call .nothing]) (elapsed : y.before.now = since + timeout)
      (empty : y.before.here.entries recipient = [])
      (same : ∀ other, y.after.here.entries other = y.before.here.entries other)
  /-- The clock cannot name the moment when it is to give up. -/
  | refused (tells : y.events = [.ended call .beyondClock])
      (beyond : clockRange < (y.before.now + timeout) / 1000)
      (same : ∀ other, y.after.here.entries other = y.before.here.entries other)

/-! ### What ends, and when one began to wait -/

theorem ended_append (call : γ) (steps steps' : List (Step γ)) :
    ended call (steps ++ steps') = ended call steps ++ ended call steps' :=
  List.flatMap_append

theorem ended_of_silent {call : γ} {y : Step γ} (h : y.events = []) :
    ended call [y] = [] := by
  simp [ended, h]

theorem ended_of_told {call : γ} {consumed : Consumed} {y : Step γ}
    (h : y.events = [.ended call consumed]) : ended call [y] = [consumed] := by
  simp [ended, h, Event.endOf?]

theorem ended_eq_nil_iff {call : γ} {steps : List (Step γ)} :
    ended call steps = [] ↔ ∀ y ∈ steps, ended call [y] = [] := by
  simp [ended, List.flatMap_eq_nil_iff]

theorem frees_of_ended {call : γ} {y : Step γ} (h : ended call [y] ≠ []) :
    frees call y = true := by
  simp [frees, h]

theorem ended_of_not_frees {call : γ} {steps : List (Step γ)}
    (h : ∀ y ∈ steps, frees call y = false) : ended call steps = [] := by
  refine ended_eq_nil_iff.mpr fun y hy => ?_
  by_contra hne
  exact absurd (frees_of_ended hne) (by simp [h y hy])

theorem run_of_passes {call : γ} {recipient : PrincipalId} {y : Step γ}
    (h : passes call recipient y = true) : y.action = .run call ∧ y.events = [] := by
  unfold passes at h
  split at h
  · next c ha =>
    simp only [Bool.and_eq_true, decide_eq_true_eq, List.isEmpty_iff] at h
    exact ⟨ha.trans (congrArg _ h.1.1), h.1.2⟩
  · cases h

theorem restart_concat (call : γ) (recipient : PrincipalId) (began : Nat) (steps : List (Step γ))
    (y : Step γ) : restart call recipient began (steps ++ [y]) =
      if passes call recipient y then y.before.now else restart call recipient began steps := by
  simp [restart]

theorem Slice.ended {call : γ} {recipient : PrincipalId} {timeout since : Nat} {y : Step γ}
    (h : Slice call recipient timeout since y) :
    Relay.ended call [y] = [] ∨ ∃ consumed, Relay.ended call [y] = [consumed] := by
  cases h with
  | waits silent _ _ => exact .inl (ended_of_silent silent)
  | skips _ silent _ _ _ => exact .inl (ended_of_silent silent)
  | delivers _ m tells _ _ _ => exact .inr ⟨.message m, ended_of_told tells⟩
  | givesUp tells _ _ _ => exact .inr ⟨.nothing, ended_of_told tells⟩
  | refused tells _ _ => exact .inr ⟨.beyondClock, ended_of_told tells⟩

/-! ### What a step does -/

theorem ended_of_step {s t : State γ} {a : Action γ} {events : List (Event γ)}
    (h : s.step a = some (t, events)) {call : γ} (hends : ended call [⟨s, a, t, events⟩] ≠ []) :
    a = .run call := by
  cases a with
  | publish recipient m =>
    simp only [State.step] at h
    split at h <;>
      (obtain ⟨-, rfl⟩ := Prod.mk.inj (Option.some.inj h)
       exact absurd rfl hends)
  | run c =>
    obtain ⟨⟨r, consumed?⟩, -, h⟩ := Option.map_eq_some_iff.mp h
    obtain ⟨-, rfl⟩ := Prod.mk.inj h
    cases consumed? with
    | none => exact absurd rfl hends
    | some consumed =>
      by_contra hne
      have hc : c ≠ call := fun hc => hne (congrArg _ hc)
      simp [ended, Event.endOf?, hc] at hends
  | tick moment =>
    obtain ⟨-, h⟩ := Option.ite_none_right_eq_some.mp h
    obtain ⟨-, rfl⟩ := Prod.mk.inj (Option.some.inj h)
    exact absurd rfl hends
  | _ =>
    obtain ⟨-, rfl⟩ := Prod.mk.inj (Option.some.inj h)
    exact absurd rfl hends

/-- Only the passing of time changes the time, and it does not go back. -/
theorem now_of_step {s t : State γ} {a : Action γ} {events : List (Event γ)}
    (h : s.step a = some (t, events)) : t.now = s.now ∨ a = .tick t.now ∧ s.now ≤ t.now := by
  cases a with
  | publish recipient m =>
    simp only [State.step] at h
    split at h <;>
      (obtain ⟨rfl, -⟩ := Prod.mk.inj (Option.some.inj h)
       exact .inl rfl)
  | run c =>
    obtain ⟨_, -, h⟩ := Option.map_eq_some_iff.mp h
    obtain ⟨rfl, -⟩ := Prod.mk.inj h
    exact .inl rfl
  | tick moment =>
    obtain ⟨hle, h⟩ := Option.ite_none_right_eq_some.mp h
    obtain ⟨rfl, -⟩ := Prod.mk.inj (Option.some.inj h)
    exact .inr ⟨rfl, hle⟩
  | _ =>
    obtain ⟨rfl, -⟩ := Prod.mk.inj (Option.some.inj h)
    exact .inl rfl

theorem now_le_of_step {s t : State γ} {a : Action γ} {events : List (Event γ)}
    (h : s.step a = some (t, events)) : s.now ≤ t.now :=
  (now_of_step h).elim (fun hsame => hsame ▸ Nat.le_refl _) And.right

/-- How one stands who has waited since a moment. -/
inductive Standing (s : State γ) (c : Consumer γ) (since : Nat) : Prop where
  | pops (pops : s.here.Pops c) (fresh : s.now = since)
  | waits (waits : s.here.Waits c (since + c.timeout)) (inTime : s.now ≤ since + c.timeout)

theorem Standing.inTime {s : State γ} {c : Consumer γ} {since : Nat} (h : Standing s c since) :
    s.now ≤ since + c.timeout := by
  cases h with
  | pops _ fresh => exact fresh ▸ Nat.le_add_right ..
  | waits _ inTime => exact inTime

theorem Standing.stands {s : State γ} {c : Consumer γ} {since : Nat} (h : Standing s c since) :
    s.here.Pops c ∨ ∃ due, s.here.Waits c due := by
  cases h with
  | pops pops _ => exact .inl pops
  | waits waits _ => exact .inr ⟨_, waits⟩

theorem Pops.not_waits {r : Relay γ} {c : Consumer γ} (h : r.Pops c) {due : Nat} :
    ¬r.Waits c due :=
  fun h' => nomatch (congrArg Prod.snd (h.symm.trans h') : [] = [(queueName c.recipient, due)])

theorem Waits.unique {r : Relay γ} {c : Consumer γ} {due due' : Nat} (h : r.Waits c due)
    (h' : r.Waits c due') : due = due' := by
  have hslots : [(queueName c.recipient, due)] = [(queueName c.recipient, due')] :=
    congrArg Prod.snd (h.symm.trans h')
  simpa using hslots

theorem Pops.ready {r : Relay γ} {c : Consumer γ} (h : r.Pops c) (now : Nat) :
    r.ready? now ≠ none := by
  have hfind := List.mem_of_find?_eq_some (find?_of_place h)
  unfold ready?
  cases hnext : r.consumers.find? (!·.waits) with
  | some d => exact nofun
  | none => exact absurd rfl (List.find?_eq_none.mp hnext _ hfind)

theorem Waits.exists_pop {r : Relay γ} {c : Consumer γ} {due : Nat} (h : r.Waits c due) :
    ∃ p ∈ r.queues.pops, p.key = queueName c.recipient ∧ p.due = due := by
  obtain ⟨p, honly, hkey, hdue⟩ := pop_of_slots (congrArg Prod.snd h)
  have hmem : p ∈ r.queues.pops.filter (·.call = c.call) := honly ▸ List.mem_singleton.mpr rfl
  exact ⟨p, (List.mem_filter.mp hmem).1, hkey, hdue⟩

section
variable {s t : State γ} {c : Consumer γ} {since : Nat} {consumed? : Option Consumed}

/-- The turn of one who skips, as a step of the run. -/
theorem slice_of_turn (hskips : c.skips = true) (stands : Standing s c since)
    (turn : s.here.Turn t.here s.now c consumed?) :
    Slice c.call c.recipient c.timeout since
      ⟨s, .run c.call, t, consumed?.toList.map (.ended c.call)⟩ := by
  cases turn with
  | joins due _ _ empty same _ => exact .waits rfl empty same
  | rejoins due _ _ empty same _ _ => exact .waits rfl empty same
  | skips bytes unreported front others _ =>
    refine .skips bytes rfl ?_ front others
    unfold report at unreported
    split at unreported
    · cases unreported
    · assumption
  | ends bytes consumed reported front others _ =>
    unfold report at reported
    split at reported
    case h_1 m whole => exact .delivers bytes m (by simp [← Option.some.inj reported]) whole front others
    case h_2 => rw [if_pos hskips] at reported; cases reported
  | givesUp due waits elapsed empty same _ =>
    refine .givesUp rfl ?_ empty same
    cases stands with
    | pops pops _ => exact absurd waits pops.not_waits
    | waits waits' inTime => exact Nat.le_antisymm inTime (waits'.unique waits ▸ elapsed)
  | refused _ beyond same _ =>
    refine .refused rfl ?_ same
    simpa [deadline?] using beyond

/-- **What the turn of a consumer leaves of it.** -/
theorem standing_of_turn (stands : Standing s c since) (hnow : t.now = s.now)
    (turn : s.here.Turn t.here s.now c consumed?) :
    let y : Step γ := ⟨s, .run c.call, t, consumed?.toList.map (.ended c.call)⟩
    if frees c.call y then t.here.Absent c.call
    else Standing t c (if passes c.call c.recipient y then s.now else since) := by
  intro y
  have htold : ∀ consumed, consumed? = some consumed → frees c.call y = true :=
    fun consumed h => frees_of_ended (by simp [y, h, ended, Event.endOf?])
  have hsilent : consumed? = none → frees c.call y = false :=
    fun h => by simp [frees, y, h, ended]
  have hkept : (∀ recipient, t.here.entries recipient = s.here.entries recipient) →
      passes c.call c.recipient y = false := fun same => by
    have hleaving : leaving c.recipient y = [] := leaving_of_same rfl (same _)
    simp [passes, y, hleaving]
  cases turn with
  | joins due pops named _ same after =>
    rw [hsilent rfl, if_neg nofun, hkept same, if_neg nofun]
    cases stands with
    | pops _ fresh =>
      subst fresh
      rw [← eq_of_deadline? named] at after
      exact .waits after (hnow ▸ Nat.le_add_right ..)
    | waits waits _ => exact absurd waits pops.not_waits
  | rejoins due waits _ _ same after _ =>
    rw [hsilent rfl, if_neg nofun, hkept same, if_neg nofun]
    cases stands with
    | pops pops _ => exact absurd waits pops.not_waits
    | waits waits' inTime => exact .waits (waits'.unique waits ▸ after) (hnow ▸ inTime)
  | skips bytes _ front _ after =>
    have hleaving : leaving c.recipient y = [bytes] := leaving_eq (by simpa [arriving, y] using front)
    have hpasses : passes c.call c.recipient y = true := by
      unfold passes
      rw [hleaving]
      simp [y]
    rw [hsilent rfl, if_neg nofun, if_pos hpasses]
    exact .pops after hnow
  | ends bytes consumed _ _ _ after =>
    rw [if_pos (htold _ rfl)]
    exact after
  | givesUp due _ _ _ _ after =>
    rw [if_pos (htold _ rfl)]
    exact after
  | refused _ _ _ after =>
    rw [if_pos (htold _ rfl)]
    exact after

end

/-- **What a step leaves of a consumer**, if time passes only while nothing is ready. -/
theorem standing_of_step {config : RelayConfig} {s t : State γ} {a : Action γ}
    {events : List (Event γ)} (sound : s.here.Sound config) (awake : s.here.queues.Awake)
    (h : s.step a = some (t, events)) (timely : (machine γ).Timely [⟨s, a, t, events⟩])
    {c : Consumer γ} {since : Nat} (hbegins : a.begins c.call = false)
    (stands : Standing s c since) :
    if frees c.call ⟨s, a, t, events⟩ then t.here.Absent c.call
    else Standing t c (if passes c.call c.recipient ⟨s, a, t, events⟩ then s.now else since) := by
  by_cases hrun : a = .run c.call
  · subst hrun
    obtain ⟨consumed?, rfl, hnow, turn⟩ := turn_of_step sound awake stands.stands h
    exact standing_of_turn stands hnow turn
  by_cases hdrop : a = .drop c.call
  · subst hdrop
    rw [if_pos (by simp [frees])]
    exact absent_of_drop h
  have hfrees : frees c.call ⟨s, a, t, events⟩ = false := by
    have hended : ended c.call [⟨s, a, t, events⟩] = [] := by
      by_contra hne
      exact hrun (ended_of_step h hne)
    have hdrops : ∀ d, a = .drop d → d ≠ c.call := fun d ha hd => hdrop (ha ▸ congrArg _ hd)
    unfold frees
    rw [hended]
    cases a with
    | drop d => simpa using hdrops d rfl
    | _ => rfl
  have hpasses : passes c.call c.recipient ⟨s, a, t, events⟩ = false := by
    have hruns : ∀ d, a = .run d → d ≠ c.call := fun d ha hd => hrun (ha ▸ congrArg _ hd)
    unfold passes
    cases a with
    | run d => simp [hruns d rfl]
    | _ => rfl
  have hplace := place_of_step sound h hbegins hrun hdrop
  rw [hfrees, if_neg nofun, hpasses, if_neg nofun]
  cases stands with
  | pops pops fresh =>
    refine .pops (hplace.trans pops) ?_
    rcases now_of_step h with hnow | ⟨rfl, -⟩
    · exact hnow.trans fresh
    · -- time does not pass while one is about to pop
      obtain ⟨hready, -⟩ := timely _ (List.mem_singleton.mpr rfl) t.now rfl
      exact absurd (Option.map_eq_none_iff.mp hready) (pops.ready s.now)
  | waits waits inTime =>
    refine .waits (hplace.trans waits) ?_
    rcases now_of_step h with hnow | ⟨rfl, -⟩
    · exact hnow ▸ inTime
    · obtain ⟨-, hstop⟩ := timely _ (List.mem_singleton.mpr rfl) t.now rfl
      obtain ⟨p, hp, -, hdue⟩ := waits.exists_pop
      exact hdue ▸ Machine.le_of_min? hstop (List.mem_map_of_mem hp)

end
end Relay
end DeviceRelay

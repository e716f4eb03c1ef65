/-
# How a consumer ends

A consumer that passes over what is no message ends with a message, or with nothing once its
time is over. Otherwise it ends only as the queues cannot be used, or as the clock cannot name
the moment at which it is to give up. How long consumers wait does not change.

Key definitions: `Relay.Ends`, `Consumer.Indifferent`.
Key theorems: `deadline?_eq_none_iff`, `Relay.ends_of_run?`, `Relay.consumers_of_run?`.
-/
import DeviceRelay.Relay

namespace DeviceRelay

/-- **A deadline of whole seconds does not exist beyond the range of the clock.** -/
theorem deadline?_eq_none_iff (now seconds : Nat) :
    deadline? now (seconds * 1000) = none ↔ clockRange < now / 1000 + seconds := by
  unfold deadline?
  rw [Nat.add_mul_div_right _ _ (by decide)]
  split
  · simp; omega
  · simp; omega

/-- A property of consumers that is no matter of whether they wait. -/
def Consumer.Indifferent {γ : Type} (P : Consumer γ → Prop) : Prop :=
  ∀ c waits, P c → P { c with waits }

namespace Relay

variable {γ : Type} [DecidableEq γ]

/-- How a consumer ends. -/
inductive Ends (r : Relay γ) (now : Nat) (c : Consumer γ) : Consumed → Prop where
  | message (m : Message) : Ends r now c (.message m)
  | nothing : Ends r now c .nothing
  | undecodable (strict : c.skips = false) : Ends r now c .undecodable
  | failed (cause : StorageError) (unusable : r.fault = some cause) : Ends r now c (.failed cause)
  | beyondClock (beyond : deadline? now c.timeout = none) : Ends r now c .beyondClock

theorem ends_of_finish {r : Relay γ} {now : Nat} {c : Consumer γ} {popped : Popped (List UInt8)}
    {consumed : Consumed} (beyond : popped = .beyondClock → deadline? now c.timeout = none)
    {q : Queues String (List UInt8) γ}
    (h : ({ r with queues := q }.finish c popped).2 = some consumed) : Ends r now c consumed := by
  unfold finish at h
  cases popped with
  | item bytes =>
    dsimp only at h
    split at h
    · exact Option.some.inj h ▸ .message _
    · split at h
      · cases h
      · next hstrict => exact Option.some.inj h ▸ .undecodable (Bool.eq_false_iff.mpr hstrict)
  | nothing => exact Option.some.inj h ▸ .nothing
  | beyondClock => exact Option.some.inj h ▸ .beyondClock (beyond rfl)

/-- One who waits in a line does not ask for a deadline again. -/
theorem resume?_ne_beyondClock {q q' : Queues String (List UInt8) γ} {now : Nat} {call : γ}
    {popped? : Option (Popped (List UInt8))} (h : q.resume? now call = some (q', popped?)) :
    popped? ≠ some .beyondClock := by
  obtain ⟨p, -, h⟩ := Option.bind_eq_some_iff.mp h
  split at h
  · split at h <;> obtain ⟨-, rfl⟩ := Prod.mk.inj (Option.some.inj h) <;> exact nofun
  · obtain ⟨-, h⟩ := Option.ite_none_right_eq_some.mp h
    obtain ⟨-, rfl⟩ := Prod.mk.inj (Option.some.inj h)
    exact nofun

omit [DecidableEq γ] in
theorem beginPop_beyondClock {q q' : Queues String (List UInt8) γ} {now timeout : Nat} {call : γ}
    {k : String} (h : q.beginPop now call k timeout = (q', some .beyondClock)) :
    deadline? now timeout = none := by
  unfold Queues.beginPop at h
  dsimp only at h
  split at h
  · assumption
  · split at h <;> cases h

/-- **How a consumer ends that runs.** -/
theorem ends_of_run? {r r' : Relay γ} {now : Nat} {call : γ} {consumed : Consumed}
    (h : r.run? now call = some (r', some consumed)) :
    ∃ c ∈ r.consumers, c.call = call ∧ Ends r now c consumed := by
  obtain ⟨c, hc, h⟩ := Option.bind_eq_some_iff.mp h
  refine ⟨c, List.mem_of_find?_eq_some hc, by simpa using List.find?_some hc, ?_⟩
  by_cases hw : c.waits = true
  · rw [if_pos hw] at h
    obtain ⟨⟨q, popped?⟩, hq, h⟩ := Option.bind_eq_some_iff.mp h
    cases popped? with
    | none => cases h
    | some popped =>
      refine ends_of_finish (fun hbeyond => ?_) (congrArg Prod.snd (Option.some.inj h))
      exact absurd (congrArg some hbeyond) (resume?_ne_beyondClock hq)
  · rw [if_neg hw] at h
    split at h
    · next cause hfault =>
      obtain ⟨-, hend⟩ := Prod.mk.inj (Option.some.inj h)
      exact Option.some.inj hend ▸ .failed cause hfault
    · split at h
      · next q popped hq =>
        refine ends_of_finish (fun hbeyond => ?_) (congrArg Prod.snd (Option.some.inj h))
        exact beginPop_beyondClock (hbeyond ▸ hq)
      · cases h

/-! ### Who consumes -/

variable {P : Consumer γ → Prop}

theorem consumers_abandon {r : Relay γ} (all : ∀ c ∈ r.consumers, P c) (call : γ) :
    ∀ c ∈ (r.abandon call).consumers, P c :=
  fun c hc => all c (List.mem_filter.mp hc).1

theorem consumers_setWaits (indifferent : Consumer.Indifferent P) {r : Relay γ}
    (all : ∀ c ∈ r.consumers, P c) (call : γ) (waits : Bool) :
    ∀ c ∈ (r.setWaits call waits).consumers, P c := by
  intro c hc
  obtain ⟨d, hd, rfl⟩ := List.mem_map.mp hc
  split
  · exact indifferent d waits (all d hd)
  · exact all d hd

theorem consumers_finish (indifferent : Consumer.Indifferent P) {r : Relay γ}
    (all : ∀ c ∈ r.consumers, P c) (c : Consumer γ) (popped : Popped (List UInt8)) :
    ∀ d ∈ (r.finish c popped).1.consumers, P d := by
  unfold finish
  split
  · split
    · exact consumers_abandon all c.call
    · split
      · exact consumers_setWaits indifferent all c.call false
      · exact consumers_abandon all c.call
  · exact consumers_abandon all c.call
  · exact consumers_abandon all c.call

/-- **To run changes no consumer but for its waiting.** -/
theorem consumers_of_run? (indifferent : Consumer.Indifferent P) {r r' : Relay γ}
    {now : Nat} {call : γ} {consumed? : Option Consumed} (all : ∀ c ∈ r.consumers, P c)
    (h : r.run? now call = some (r', consumed?)) : ∀ c ∈ r'.consumers, P c := by
  obtain ⟨c, -, h⟩ := Option.bind_eq_some_iff.mp h
  split at h
  · obtain ⟨⟨q, popped?⟩, -, h⟩ := Option.bind_eq_some_iff.mp h
    cases popped? with
    | none =>
      obtain ⟨rfl, -⟩ := Prod.mk.inj (Option.some.inj h)
      exact all
    | some popped =>
      obtain ⟨rfl, -⟩ := Prod.ext_iff.mp (Option.some.inj h)
      exact consumers_finish indifferent (r := { r with queues := q }) all c popped
  · split at h
    · obtain ⟨rfl, -⟩ := Prod.mk.inj (Option.some.inj h)
      exact consumers_abandon all call
    · split at h
      · next q popped _ =>
        obtain ⟨rfl, -⟩ := Prod.ext_iff.mp (Option.some.inj h)
        exact consumers_finish indifferent (r := { r with queues := q }) all c popped
      · next q _ =>
        obtain ⟨rfl, -⟩ := Prod.mk.inj (Option.some.inj h)
        exact consumers_setWaits indifferent (r := { r with queues := q }) all call true

end Relay
end DeviceRelay

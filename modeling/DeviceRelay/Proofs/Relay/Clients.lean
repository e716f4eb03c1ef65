/-
# Who consumes stays known, also while the queues cannot be used

A relay whose queues cannot be used refuses what is published and fails those who are about
to pop; those who wait already go on as ever. Apart from that it does what a relay without
the fault does. Whoever consumes does so for one recipient until it ends or is dropped.

Key definitions: `Relay.healed`, `Relay.Tended`, `Relay.clients`.
Key theorems: `Relay.ran_of_tended`, `Relay.clients_of_run?`, `Relay.report_of_front`.
-/
import DeviceRelay.Proofs.Relay.Entries

namespace DeviceRelay
namespace Relay

section
variable {γ : Type}

/-- The relay without its fault. -/
def healed (r : Relay γ) : Relay γ := { r with fault := none }

/-- The bounds of the queues as a configuration. -/
def bounds (r : Relay γ) : RelayConfig :=
  { maxQueueSize := r.maxSize, overflowBuffer := r.overflowBuffer }

theorem healed_of_usable {r : Relay γ} (h : r.fault = none) : r.healed = r := by
  cases r
  simp only [healed] at h ⊢
  rw [h]

/-- Who consumes, for whom, and whether it passes over what is no message. -/
def clients (r : Relay γ) : List (γ × PrincipalId × Bool) :=
  r.consumers.map fun c => (c.call, c.recipient, c.skips)

end

variable {γ : Type} [DecidableEq γ]

/-- Every pop belongs to one who consumes. -/
def Tended (r : Relay γ) : Prop := ∀ p ∈ r.queues.pops, r.Attended p

theorem Tended.sound {r : Relay γ} (h : r.Tended) : r.healed.Sound r.bounds := ⟨rfl, rfl, rfl, h⟩

theorem Sound.tended {config : RelayConfig} {r : Relay γ} (h : r.healed.Sound config) : r.Tended :=
  h.attended

theorem Tended.abandon {r : Relay γ} (h : r.Tended) (call : γ) : (r.abandon call).Tended :=
  (h.sound.abandon call).attended

theorem Tended.begin {r : Relay γ} (h : r.Tended) (call : γ) (recipient : PrincipalId)
    (timeout : Nat) (skips : Bool) : (r.begin call recipient timeout skips).Tended :=
  (h.sound.begin call recipient timeout skips).attended

theorem Tended.publish {r : Relay γ} (h : r.Tended) (recipient : PrincipalId) (m : Message) :
    (r.publish recipient m).1.Tended := by
  cases hfault : r.fault with
  | some cause => simpa [Relay.publish, hfault] using h
  | none =>
    rw [← healed_of_usable hfault]
    exact (h.sound.publish recipient m).attended

theorem Tended.pushRaw {r : Relay γ} (h : r.Tended) (recipient : PrincipalId)
    (bytes : List UInt8) : (r.pushRaw recipient bytes).1.Tended :=
  (h.sound.pushRaw recipient bytes).attended

/-! ### Clients -/

theorem clients_setWaits (r : Relay γ) (call : γ) (w : Bool) :
    (r.setWaits call w).clients = r.clients := by
  unfold clients setWaits
  rw [List.map_map]
  refine List.map_congr_left fun c _ => ?_
  simp only [Function.comp_apply]
  split <;> rfl

theorem clients_abandon (r : Relay γ) (call : γ) :
    (r.abandon call).clients = r.clients.filter (·.1 ≠ call) := by
  unfold clients abandon
  rw [List.filter_map]
  rfl

omit [DecidableEq γ] in
theorem clients_begin (r : Relay γ) (call : γ) (recipient : PrincipalId) (timeout : Nat)
    (skips : Bool) :
    (r.begin call recipient timeout skips).clients = r.clients ++ [(call, recipient, skips)] := by
  unfold clients begin
  rw [List.map_append]
  rfl

omit [DecidableEq γ] in
theorem clients_publish (r : Relay γ) (recipient : PrincipalId) (m : Message) :
    (r.publish recipient m).1.clients = r.clients := by
  unfold publish
  split <;> rfl

theorem clients_finish (r : Relay γ) (c : Consumer γ) (popped : Popped (List UInt8)) :
    (r.finish c popped).1.clients =
      if (r.finish c popped).2.isNone then r.clients else r.clients.filter (·.1 ≠ c.call) := by
  unfold finish
  cases popped with
  | item bytes =>
    cases hm : Message.unpack? bytes with
    | some m => simpa [hm] using clients_abandon r c.call
    | none =>
      cases hs : c.skips with
      | true => simpa [hm, hs] using clients_setWaits r c.call false
      | false => simpa [hm, hs] using clients_abandon r c.call
  | nothing | beyondClock => simpa using clients_abandon r c.call

/-- **A consumer that runs stays one until it ends.** -/
theorem clients_of_run? {config : RelayConfig} {r r' : Relay γ} (hr : r.Sound config) {now : Nat}
    {call : γ} {consumed? : Option Consumed} (h : r.run? now call = some (r', consumed?)) :
    r'.clients = if consumed?.isNone then r.clients else r.clients.filter (·.1 ≠ call) := by
  obtain ⟨c, q, popped?, -, rfl, -, hend, hgoesOn⟩ := attempt_of_run? hr h
  cases popped? with
  | some popped =>
    obtain ⟨rfl, rfl⟩ := Prod.ext_iff.mp (hend popped rfl)
    exact clients_finish _ c popped
  | none =>
    obtain ⟨rfl, ⟨-, rfl⟩ | rfl⟩ := hgoesOn rfl
    · rfl
    · exact clients_setWaits { r with queues := q } c.call true

/-! ### Faults -/

theorem finish_healed (r : Relay γ) (c : Consumer γ) (popped : Popped (List UInt8)) :
    r.healed.finish c popped = ((r.finish c popped).1.healed, (r.finish c popped).2) := by
  cases popped with
  | item bytes =>
    simp only [finish]
    cases Message.unpack? bytes with
    | some m => rfl
    | none => cases c.skips <;> rfl
  | nothing | beyondClock => rfl

theorem run?_healed {r r' : Relay γ} {now : Nat} {call : γ} {consumed? : Option Consumed}
    {c : Consumer γ} (hc : r.consumers.find? (·.call = call) = some c) (hw : c.waits = true)
    (h : r.run? now call = some (r', consumed?)) :
    r.healed.run? now call = some (r'.healed, consumed?) := by
  unfold run? at h ⊢
  rw [hc, Option.bind_eq_bind, Option.bind_some, if_pos hw] at h
  rw [show r.healed.consumers.find? (·.call = call) = some c from hc, Option.bind_eq_bind,
    Option.bind_some, if_pos hw]
  obtain ⟨⟨q, popped?⟩, hq, h⟩ := Option.bind_eq_some_iff.mp h
  rw [show r.healed.queues.resume? now call = _ from hq, Option.bind_eq_bind, Option.bind_some]
  cases popped? with
  | none =>
    obtain ⟨rfl, rfl⟩ := Prod.mk.inj (Option.some.inj h)
    rfl
  | some popped =>
    obtain ⟨rfl, rfl⟩ := Prod.ext_iff.mp (Option.some.inj h)
    exact congrArg some (finish_healed { r with queues := q } c popped)

/-- **What a consumer does that runs**, whether the queues can be used or not. -/
theorem ran_of_tended {r r' : Relay γ} (hr : r.Tended) {now : Nat} {call : γ}
    {consumed? : Option Consumed} (h : r.run? now call = some (r', consumed?)) :
    r'.Tended ∧
      r'.clients = (if consumed?.isNone then r.clients else r.clients.filter (·.1 ≠ call)) ∧
      ∃ c ∈ r.consumers, c.call = call ∧
        (r.Ran r' c consumed? ∨
          ∃ cause, consumed? = some (.failed cause) ∧ r' = r.abandon call) := by
  obtain ⟨c, hc, -⟩ := Option.bind_eq_some_iff.mp h
  have hmem : c ∈ r.consumers := List.mem_of_find?_eq_some hc
  have hcall : c.call = call := by simpa using List.find?_some hc
  cases hfault : r.fault with
  | none =>
    have hsound : r.Sound r.bounds := healed_of_usable hfault ▸ hr.sound
    obtain ⟨c', hc', ran, hsound'⟩ := ran_of_run? hsound h
    obtain rfl : c = c' := Option.some.inj (hc.symm.trans hc')
    exact ⟨hsound'.attended, clients_of_run? hsound h, c, hmem, hcall, .inl ran⟩
  | some cause =>
    by_cases hw : c.waits = true
    · have hhealed := run?_healed hc hw h
      obtain ⟨c', hc', ran, hsound⟩ := ran_of_run? hr.sound hhealed
      obtain rfl : c = c' := Option.some.inj (hc.symm.trans hc')
      have hclients := clients_of_run? hr.sound hhealed
      refine ⟨hsound.attended, hclients, c, hmem, hcall, .inl ?_⟩
      cases ran with
      | waits same => exact .waits same
      | gaveUp consumed why same => exact .gaveUp consumed why same
      | took bytes front others => exact .took bytes front others
    · unfold run? at h
      simp only [hc, Option.bind_eq_bind, Option.bind_some, hw, Bool.false_eq_true, ↓reduceIte,
        hfault, pure, Option.some.injEq, Prod.mk.injEq] at h
      obtain ⟨rfl, rfl⟩ := h
      exact ⟨hr.abandon call, clients_abandon r call, c, hmem, hcall, .inr ⟨cause, rfl, rfl⟩⟩

/-- **A consumer that takes an entry reports what the entry says.** -/
theorem report_of_front {r r' : Relay γ} (hr : r.Tended) {now : Nat} {call : γ}
    {consumed? : Option Consumed} (h : r.run? now call = some (r', consumed?)) {p : PrincipalId}
    {bytes : List UInt8} (front : r.entries p = bytes :: r'.entries p) :
    ∃ c ∈ r.consumers, c.call = call ∧ c.recipient = p ∧ consumed? = report c bytes := by
  have hkept : r'.entries p ≠ r.entries p := by simp [front]
  obtain ⟨-, -, c, hc, hcall, ran | ⟨cause, -, rfl⟩⟩ := ran_of_tended hr h
  · cases ran with
    | waits same => exact absurd (same p) hkept
    | gaveUp _ _ same => exact absurd (same p) hkept
    | took bytes' front' others =>
      by_cases hp : c.recipient = p
      · rw [hp, front] at front'
        exact ⟨c, hc, hcall, hp, by rw [(List.cons.inj front').1]⟩
      · exact absurd (others p fun h => hp h.symm) hkept
  · exact absurd rfl hkept

end Relay
end DeviceRelay

/-
# A consumer takes the oldest entry of its own recipient

The name of a queue holds the number of its recipient, so no two recipients share one.
A pop waits in the line of the recipient whose consumer began it, as long as that
consumer waits. So a consumer that runs takes the oldest entry of its recipient and
ends with what the entry says, or it changes no queue at all.

Key definitions: `Relay.entries`, `Relay.report`, `Relay.Sound`, `Relay.Ran`.
Key theorems: `queueName_inj`, `Relay.entries_publish`, `Relay.publish_stored`,
`Relay.ran_of_run?`.
-/
import DeviceRelay.Proofs.Queue.Items
import DeviceRelay.Relay

namespace DeviceRelay

theorem PrincipalId.text_inj {a b : PrincipalId} : a.text = b.text ↔ a = b := by
  refine ⟨fun h => ?_, fun h => h ▸ rfl⟩
  have hn : a.toNat = b.toNat := by
    have hd := congrArg (fun t => Nat.ofDigitChars 10 t.toList 0) (show a.toNat.repr = b.toNat.repr from h)
    simpa only [Nat.toList_repr, Nat.ofDigitChars_ten_toDigits] using hd
  cases a
  cases b
  exact congrArg _ (UInt64.toNat_inj.mp hn)

/-- No two recipients share a queue. -/
theorem queueName_inj {a b : PrincipalId} : queueName a = queueName b ↔ a = b := by
  refine ⟨fun h => PrincipalId.text_inj.mp ?_, fun h => h ▸ rfl⟩
  exact (String.append_right_inj _).mp h

theorem queueName_ne {a b : PrincipalId} (h : a ≠ b) : queueName a ≠ queueName b :=
  fun hn => h (queueName_inj.mp hn)

namespace Relay

section
variable {γ : Type}

/-- The entries that wait for a recipient, the oldest first. -/
def entries (r : Relay γ) (recipient : PrincipalId) : List (List UInt8) :=
  r.queues.items (queueName recipient)

/-- What a consumer reports of an entry that it took, if it ends with it. -/
def report (c : Consumer γ) (bytes : List UInt8) : Option Consumed :=
  match Message.unpack? bytes with
  | some m => some (.message m)
  | none => if c.skips then none else some .undecodable

theorem report_ne_nothing (c : Consumer γ) (bytes : List UInt8) : report c bytes ≠ some .nothing := by
  unfold report
  split
  · simp
  · split <;> simp

/-- A consumer that skips nothing ends with the entry that it took. -/
theorem report_ne_none {c : Consumer γ} (hc : c.skips = false) (bytes : List UInt8) :
    report c bytes ≠ none := by
  unfold report
  split
  · simp
  · simp [hc]

end

section
variable {γ : Type} [DecidableEq γ]

/-! ### Those who wait -/

/-- A pop belongs to a consumer that waits, and is in the line of its recipient. -/
def Attended (r : Relay γ) (p : Pop String γ) : Prop :=
  ∃ c, r.consumers.find? (·.call = p.call) = some c ∧ c.waits = true ∧ p.key = queueName c.recipient

theorem find?_abandon (r : Relay γ) {call other : γ} (h : other ≠ call) :
    (r.abandon call).consumers.find? (·.call = other) = r.consumers.find? (·.call = other) := by
  unfold abandon
  rw [List.find?_filter]
  congr 1
  funext c
  by_cases hc : c.call = other <;> simp [hc, h]

theorem find?_setWaits (r : Relay γ) (call other : γ) (w : Bool) :
    (r.setWaits call w).consumers.find? (·.call = other) =
      (r.consumers.find? (·.call = other)).map
        fun c => if other = call then { c with waits := w } else c := by
  unfold setWaits
  rw [Keyed.find?_map r.consumers (·.call) (fun c => by split <;> rfl)]
  cases hf : r.consumers.find? (·.call = other) with
  | none => rfl
  | some c =>
    have hc : c.call = other := by simpa using List.find?_some hf
    simp only [Option.map_some, hc]

theorem Attended.abandon {r : Relay γ} {p : Pop String γ} (h : r.Attended p) {call : γ}
    (hne : p.call ≠ call) : (r.abandon call).Attended p := by
  obtain ⟨c, hc, hw, hk⟩ := h
  exact ⟨c, (find?_abandon r hne).trans hc, hw, hk⟩

theorem Attended.setWaits {r : Relay γ} {p : Pop String γ} (h : r.Attended p) {call : γ}
    (hne : p.call ≠ call) (w : Bool) : (r.setWaits call w).Attended p := by
  obtain ⟨c, hc, hw, hk⟩ := h
  refine ⟨c, ?_, hw, hk⟩
  rw [find?_setWaits, hc, Option.map_some, if_neg hne]

theorem Attended.begin {r : Relay γ} {p : Pop String γ} (h : r.Attended p) (call : γ)
    (recipient : PrincipalId) (timeout : Nat) (skips : Bool) :
    (r.begin call recipient timeout skips).Attended p := by
  obtain ⟨c, hc, hw, hk⟩ := h
  refine ⟨c, ?_, hw, hk⟩
  show (r.consumers ++ _).find? _ = _
  rw [List.find?_append, hc, Option.some_or]

/-- What holds of the relay at every moment: its bounds are those configured, its queues
can be used, and every pop is attended. -/
structure Sound (config : RelayConfig) (r : Relay γ) : Prop where
  maxSize : r.maxSize = config.maxQueueSize
  overflowBuffer : r.overflowBuffer = config.overflowBuffer
  usable : r.fault = none
  attended : ∀ p ∈ r.queues.pops, r.Attended p

theorem ofConfig_sound (config : RelayConfig) : (ofConfig config : Relay γ).Sound config :=
  ⟨rfl, rfl, rfl, by simp [ofConfig]⟩

theorem Sound.abandon {config : RelayConfig} {r : Relay γ} (hr : r.Sound config) (call : γ) :
    (r.abandon call).Sound config := by
  refine ⟨hr.maxSize, hr.overflowBuffer, hr.usable, fun p hp => ?_⟩
  obtain ⟨hp, hne⟩ := Queues.mem_abandon.mp hp
  exact (hr.attended p hp).abandon hne

theorem Sound.begin {config : RelayConfig} {r : Relay γ} (hr : r.Sound config) (call : γ)
    (recipient : PrincipalId) (timeout : Nat) (skips : Bool) :
    (r.begin call recipient timeout skips).Sound config :=
  ⟨hr.maxSize, hr.overflowBuffer, hr.usable, fun p hp => (hr.attended p hp).begin ..⟩

theorem Sound.wake {config : RelayConfig} {r : Relay γ} (hr : r.Sound config)
    {q : Queues String (List UInt8) γ} (k : String) (hq : q.pops = r.queues.pops) :
    { r with queues := q.wake k }.Sound config := by
  refine ⟨hr.maxSize, hr.overflowBuffer, hr.usable, fun p hp => ?_⟩
  obtain ⟨p', hp', hcall, hkey⟩ := Queues.exists_of_mem_wake hp
  obtain ⟨c, hc, hw, hk⟩ := hr.attended p' (hq ▸ hp')
  exact ⟨c, hcall ▸ hc, hw, hkey ▸ hk⟩

/-! ### Publishing -/

section
omit [DecidableEq γ]

theorem publish_of_usable {r : Relay γ} (hr : r.fault = none) (recipient : PrincipalId) (m : Message) :
    r.publish recipient m =
      ({ r with queues :=
          (r.queues.pushCapped (queueName recipient) m.pack r.maxSize r.overflowBuffer).1 },
        .ok (r.queues.pushCapped (queueName recipient) m.pack r.maxSize r.overflowBuffer).2) := by
  unfold publish
  split
  · next hfault => rw [hr] at hfault; cases hfault
  · rfl

theorem entries_publish {r : Relay γ} (hr : r.fault = none) (recipient other : PrincipalId) (m : Message) :
    (r.publish recipient m).1.entries other =
      if other = recipient then
        (r.entries recipient ++ [m.pack]).drop
          (Queues.excess r.maxSize r.overflowBuffer ((r.entries recipient).length + 1))
      else r.entries other := by
  rw [publish_of_usable hr]
  have h := r.queues.items_pushCapped (queueName recipient) (queueName other) m.pack r.maxSize
    r.overflowBuffer
  simp only [queueName_inj] at h
  exact h

/-- A message that is published is stored, and it is told how many are there then and how
many were dropped. -/
theorem publish_stored {r : Relay γ} (hr : r.fault = none) (recipient : PrincipalId) (m : Message) :
    (r.publish recipient m).2 =
      .ok (((r.publish recipient m).1.entries recipient).length,
        Queues.excess r.maxSize r.overflowBuffer ((r.entries recipient).length + 1)) := by
  rw [publish_of_usable hr]
  refine congrArg Except.ok (Prod.ext ?_ ?_)
  · exact r.queues.length_pushCapped ..
  · exact r.queues.dropped_pushCapped ..

theorem entries_pushRaw (r : Relay γ) (recipient other : PrincipalId) (bytes : List UInt8) :
    (r.pushRaw recipient bytes).1.entries other =
      if other = recipient then r.entries recipient ++ [bytes] else r.entries other := by
  have h := r.queues.items_push (queueName recipient) (queueName other) bytes
  simp only [queueName_inj] at h
  exact h

theorem length_pushRaw (r : Relay γ) (recipient : PrincipalId) (bytes : List UInt8) :
    (r.pushRaw recipient bytes).2 = ((r.pushRaw recipient bytes).1.entries recipient).length := by
  rw [entries_pushRaw, if_pos rfl]
  rfl

end

theorem Sound.publish {config : RelayConfig} {r : Relay γ} (hr : r.Sound config) (recipient : PrincipalId)
    (m : Message) : (r.publish recipient m).1.Sound config := by
  rw [publish_of_usable hr.usable]
  refine hr.wake _ ?_
  rfl

theorem Sound.pushRaw {config : RelayConfig} {r : Relay γ} (hr : r.Sound config) (recipient : PrincipalId)
    (bytes : List UInt8) : (r.pushRaw recipient bytes).1.Sound config :=
  hr.wake _ rfl

/-! ### Consuming -/

/-- What a run of a consumer does to the queues, and how it ends if it does. -/
inductive Ran (r r' : Relay γ) (c : Consumer γ) : Option Consumed → Prop where
  /-- It waits on, and every queue is as it was. -/
  | waits (same : ∀ recipient, r'.entries recipient = r.entries recipient) : Ran r r' c none
  /-- It gives up, and every queue is as it was. -/
  | gaveUp (consumed : Consumed) (why : consumed = .nothing ∨ consumed = .beyondClock)
      (same : ∀ recipient, r'.entries recipient = r.entries recipient) : Ran r r' c (some consumed)
  /-- It took the oldest entry of its recipient. -/
  | took (bytes : List UInt8) (front : r.entries c.recipient = bytes :: r'.entries c.recipient)
      (others : ∀ recipient, recipient ≠ c.recipient → r'.entries recipient = r.entries recipient) :
      Ran r r' c (report c bytes)

theorem entries_finish (r : Relay γ) (c : Consumer γ) (popped : Popped (List UInt8))
    (recipient : PrincipalId) : (r.finish c popped).1.entries recipient = r.entries recipient := by
  unfold finish
  split
  · split
    · rfl
    · split <;> rfl
  · rfl
  · rfl

theorem finish_item (r : Relay γ) (c : Consumer γ) (bytes : List UInt8) :
    (r.finish c (.item bytes)).2 = report c bytes := by
  simp only [finish, report]
  cases Message.unpack? bytes with
  | some m => rfl
  | none => cases c.skips <;> rfl

theorem Sound.finish {config : RelayConfig} {r : Relay γ} (hr : r.Sound config)
    {q : Queues String (List UInt8) γ} {c : Consumer γ} (left : ∀ p ∈ q.pops, p ∈ r.queues.pops ∧ p.call ≠ c.call)
    (popped : Popped (List UInt8)) : ({ r with queues := q }.finish c popped).1.Sound config := by
  have hq : { r with queues := q }.Sound config :=
    ⟨hr.maxSize, hr.overflowBuffer, hr.usable, fun p hp => hr.attended p (left p hp).1⟩
  have hwaits : ({ r with queues := q }.setWaits c.call false).Sound config :=
    ⟨hr.maxSize, hr.overflowBuffer, hr.usable,
      fun p hp => (hq.attended p hp).setWaits (left p hp).2 false⟩
  unfold Relay.finish
  split
  · split
    · exact hq.abandon _
    · split
      · exact hwaits
      · exact hq.abandon _
  · exact hq.abandon _
  · exact hq.abandon _

/-- A consumer that runs attempts to pop from the queue of its recipient, and waits if
it got nothing. -/
theorem attempt_of_run? {config : RelayConfig} {r r' : Relay γ} (hr : r.Sound config) {now : Nat}
    {call : γ} {consumed? : Option Consumed} (h : r.run? now call = some (r', consumed?)) :
    ∃ c q popped?, r.consumers.find? (·.call = call) = some c ∧ c.call = call ∧
      r.queues.Attempt q call (queueName c.recipient) popped? ∧
      (∀ popped, popped? = some popped → { r with queues := q }.finish c popped = (r', consumed?)) ∧
      (popped? = none → consumed? = none ∧ (c.waits = true ∧ r' = { r with queues := q } ∨
        r' = { r with queues := q }.setWaits call true)) := by
  obtain ⟨c, hc, h⟩ := Option.bind_eq_some_iff.mp h
  have hcall : c.call = call := by simpa using List.find?_some hc
  by_cases hw : c.waits = true
  · rw [if_pos hw] at h
    obtain ⟨⟨q, popped?⟩, hq, h⟩ := Option.bind_eq_some_iff.mp h
    obtain ⟨p, hp, hpcall, hattempt⟩ := Queues.attempt_of_resume? hq
    obtain ⟨c', hc', -, hkey⟩ := hr.attended p hp
    rw [hpcall, hc] at hc'
    obtain rfl := Option.some.inj hc'
    refine ⟨c, q, popped?, hc, hcall, hkey ▸ hattempt, fun popped hpopped => ?_, fun hpopped => ?_⟩
    · subst hpopped
      exact Option.some.inj h
    · subst hpopped
      obtain ⟨rfl, rfl⟩ := Prod.mk.inj (Option.some.inj h)
      exact ⟨rfl, Or.inl ⟨hw, rfl⟩⟩
  · rw [if_neg hw] at h
    -- as the consumer does not wait, no pop is its own
    have hnone : ∀ p ∈ r.queues.pops, p.call ≠ call := by
      intro p hp hpc
      obtain ⟨c', hc', hw', -⟩ := hr.attended p hp
      rw [hpc, hc] at hc'
      obtain rfl := Option.some.inj hc'
      exact hw hw'
    split at h
    · next hfault => rw [hr.usable] at hfault; cases hfault
    · split at h
      · next q popped hq =>
        refine ⟨c, q, some popped, hc, hcall, Queues.attempt_of_beginPop hq hnone, ?_, by simp⟩
        rintro _ ⟨⟩
        exact Option.some.inj h
      · next q hq =>
        obtain ⟨rfl, rfl⟩ := Prod.mk.inj (Option.some.inj h)
        exact ⟨c, q, none, hc, hcall, Queues.attempt_of_beginPop hq hnone, by simp,
          fun _ => ⟨rfl, Or.inr rfl⟩⟩

/-- **A consumer takes the oldest entry of its recipient or nothing.** -/
theorem ran_of_run? {config : RelayConfig} {r r' : Relay γ} (hr : r.Sound config) {now : Nat} {call : γ}
    {consumed? : Option Consumed} (h : r.run? now call = some (r', consumed?)) :
    ∃ c, r.consumers.find? (·.call = call) = some c ∧ r.Ran r' c consumed? ∧ r'.Sound config := by
  obtain ⟨c, q, popped?, hc, rfl, hattempt, hend, hgoesOn⟩ := attempt_of_run? hr h
  refine ⟨c, hc, ?_⟩
  cases hattempt with
  | took bytes front others left =>
    obtain ⟨rfl, rfl⟩ := Prod.ext_iff.mp (hend _ rfl)
    rw [finish_item]
    refine ⟨.took bytes ?_ fun recipient hne => ?_, hr.finish left _⟩
    · rw [entries_finish]
      exact front
    · rw [entries_finish]
      exact others _ (queueName_ne hne)
  | gaveUp popped why same left =>
    obtain ⟨rfl, rfl⟩ := Prod.ext_iff.mp (hend _ rfl)
    refine ⟨?_, hr.finish left _⟩
    rcases why with rfl | rfl
    · exact .gaveUp .nothing (Or.inl rfl) fun recipient => same _
    · exact .gaveUp .beyondClock (Or.inr rfl) fun recipient => same _
  | joined p hcall hkey empty same left =>
    obtain ⟨rfl, hwaits⟩ := hgoesOn rfl
    rcases hwaits with ⟨hw, rfl⟩ | rfl
    · refine ⟨.waits fun recipient => same _, hr.maxSize, hr.overflowBuffer, hr.usable, fun p' hp' => ?_⟩
      rcases left p' hp' with rfl | ⟨hp', -⟩
      · exact ⟨c, hcall ▸ hc, hw, hkey⟩
      · exact hr.attended p' hp'
    · refine ⟨.waits fun recipient => same _, hr.maxSize, hr.overflowBuffer, hr.usable, fun p' hp' => ?_⟩
      rcases left p' hp' with rfl | ⟨hp', hne⟩
      · refine ⟨{ c with waits := true }, ?_, rfl, hkey⟩
        rw [find?_setWaits, hcall]
        show (r.consumers.find? (·.call = c.call)).map _ = _
        rw [hc, Option.map_some, if_pos rfl]
      · exact Attended.setWaits (hr.attended p' hp') hne true

end
end Relay
end DeviceRelay

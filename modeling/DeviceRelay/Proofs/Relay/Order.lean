/-
# Entries leave a queue at the front and arrive at its end

A publish adds its message at the end, and if the queue is full, drops the oldest entries
first, exactly as many as are to be dropped at once. A consumer takes the oldest entry of
its recipient and reports it, or takes nothing: one that goes on without skipping, one that
gives up and one that is dropped take nothing. No other step changes a queue. So no queue
is ever beyond its bound.

Key definitions: `RelayConfig.Valid`, `Relay.arriving`, `Relay.leaving`, `Relay.Orderly`.
Key theorems: `Relay.orderly_of_effect`, `Relay.bounded_of_history`,
`Relay.orderly_of_history`.
-/
import DeviceRelay.Proofs.Relay.Steps

namespace DeviceRelay

/-- The bounds of the queues of a configuration that is not refused. -/
structure RelayConfig.Valid (config : RelayConfig) : Prop where
  pos : 0 < config.overflowBuffer
  le : config.overflowBuffer ≤ config.maxQueueSize

theorem Config.valid_of_check {config : Config} (h : config.check = .ok ()) : config.relay.Valid := by
  have hnone : config.refusal? = none := by
    unfold check at h
    split at h
    · cases h
    · assumption
  unfold refusal? at hnone
  split at hnone
  · cases hnone
  · split at hnone
    · cases hnone
    · exact ⟨by omega, by omega⟩

namespace Relay

section
variable {γ : Type}

/-- The messages that a step publishes to a recipient. -/
def arriving (recipient : PrincipalId) (x : Step γ) : List Message :=
  match x.action with
  | .publish r m => if r = recipient then [m] else []
  | _ => []

/-- The entries that a step takes away at the front of the queue of a recipient, of those
that were there before it or arrive with it. -/
def leaving (recipient : PrincipalId) (x : Step γ) : List (List UInt8) :=
  let offered := x.before.here.entries recipient ++ (arriving recipient x).map Message.pack
  offered.take (offered.length - (x.after.here.entries recipient).length)

theorem leaving_eq {recipient : PrincipalId} {x : Step γ} {gone : List (List UInt8)}
    (h : x.before.here.entries recipient ++ (arriving recipient x).map Message.pack =
      gone ++ x.after.here.entries recipient) : leaving recipient x = gone := by
  unfold leaving
  simp only [h, List.length_append, Nat.add_sub_cancel, List.take_left']

/-- Nothing leaves a queue that is kept and to which nothing is published. -/
theorem leaving_of_same {recipient : PrincipalId} {x : Step γ} (ha : arriving recipient x = [])
    (h : x.after.here.entries recipient = x.before.here.entries recipient) : leaving recipient x = [] :=
  leaving_eq (by simp [ha, h])

end

section
variable {γ : Type} [DecidableEq γ]

/-- What a step does to the queue of one recipient, with the bounds of a configuration. -/
structure Orderly (config : RelayConfig) (recipient : PrincipalId) (x : Step γ) : Prop where
  /-- Entries leave at the front and arrive at the end. -/
  front : x.before.here.entries recipient ++ (arriving recipient x).map Message.pack =
    leaving recipient x ++ x.after.here.entries recipient
  bounded : (x.after.here.entries recipient).length ≤ config.maxQueueSize
  /-- To publish drops nothing, or finds the queue full and drops the oldest entries. -/
  publish : ∀ m, x.action = .publish recipient m →
    ((x.before.here.entries recipient).length < config.maxQueueSize ∧
      x.after.here.entries recipient = x.before.here.entries recipient ++ [m.pack] ∧
      x.events = [.stored recipient (x.after.here.entries recipient).length 0]) ∨
    ((x.before.here.entries recipient).length = config.maxQueueSize ∧
      x.after.here.entries recipient =
        (x.before.here.entries recipient).drop config.overflowBuffer ++ [m.pack] ∧
      x.events = [.stored recipient (x.after.here.entries recipient).length config.overflowBuffer])
  /-- A consumer takes the oldest entry and reports it, or takes nothing. -/
  consume : ∀ call c, x.action = .run call → x.before.here.consumers.find? (·.call = call) = some c →
    c.recipient = recipient →
    x.after.here.entries recipient = x.before.here.entries recipient ∨
    ∃ bytes, x.before.here.entries recipient = bytes :: x.after.here.entries recipient ∧
      x.events = (report c bytes).toList.map (.ended call)
  /-- A consumer that skips nothing takes nothing as long as it goes on. -/
  unfinished : ∀ call c, x.action = .run call →
    x.before.here.consumers.find? (·.call = call) = some c → c.skips = false → x.events = [] →
    x.after.here.entries recipient = x.before.here.entries recipient
  /-- A consumer that gives up takes nothing. -/
  timeout : ∀ call, .ended call .nothing ∈ x.events →
    x.after.here.entries recipient = x.before.here.entries recipient
  /-- To drop a consumer takes nothing. -/
  aborted : ∀ call, x.action = .drop call →
    x.after.here.entries recipient = x.before.here.entries recipient
  /-- Nothing but to publish to the recipient and to consume for it changes the queue. -/
  kept : (∀ m, x.action ≠ .publish recipient m) →
    (∀ call c, x.action = .run call → x.before.here.consumers.find? (·.call = call) = some c →
      c.recipient ≠ recipient) →
    x.after.here.entries recipient = x.before.here.entries recipient

theorem excess_of_lt {max drop length : Nat} (h : length < max) :
    Queues.excess max drop (length + 1) = 0 := by
  unfold Queues.excess
  rw [if_neg (by omega)]

theorem excess_of_eq {max drop : Nat} (h : drop ≤ max) : Queues.excess max drop (max + 1) = drop := by
  unfold Queues.excess
  rw [if_pos (by omega)]
  omega

section
variable {config : RelayConfig} {recipient : PrincipalId} {s t : State γ} {a : Action γ}
  {events : List (Event γ)}

theorem stores_of_bounded (hconfig : config.Valid)
    {entries : List (List UInt8)} (hbound : entries.length ≤ config.maxQueueSize) (bytes : List UInt8) :
    (entries.length < config.maxQueueSize ∧
      Queues.excess config.maxQueueSize config.overflowBuffer (entries.length + 1) = 0) ∨
    (entries.length = config.maxQueueSize ∧
      Queues.excess config.maxQueueSize config.overflowBuffer (entries.length + 1) = config.overflowBuffer ∧
      (entries ++ [bytes]).drop config.overflowBuffer = entries.drop config.overflowBuffer ++ [bytes]) := by
  rcases Nat.lt_or_eq_of_le hbound with hlt | heq
  · exact Or.inl ⟨hlt, excess_of_lt hlt⟩
  · refine Or.inr ⟨heq, ?_, ?_⟩
    · rw [heq, excess_of_eq hconfig.le]
    · exact List.drop_append_of_le_length (heq ▸ hconfig.le)

/-- A step that neither publishes to a recipient nor changes its queue. -/
theorem orderly_of_same (hpublish : ∀ m, a ≠ .publish recipient m)
    (same : t.here.entries recipient = s.here.entries recipient)
    (hbound : (s.here.entries recipient).length ≤ config.maxQueueSize) :
    Orderly config recipient ⟨s, a, t, events⟩ := by
  have harriving : arriving recipient (⟨s, a, t, events⟩ : Step γ) = [] := by
    unfold arriving
    split
    · next r m ha =>
      rw [if_neg]
      rintro rfl
      exact hpublish m ha
    · rfl
  constructor
  case front => rw [leaving_of_same harriving same, harriving, same]; simp
  case bounded => simpa only [same] using hbound
  case publish => exact fun m ha => absurd ha (hpublish m)
  case consume => exact fun _ _ _ _ _ => Or.inl same
  case unfinished => exact fun _ _ _ _ _ _ => same
  case timeout => exact fun _ _ => same
  case aborted => exact fun _ _ => same
  case kept => exact fun _ _ => same

theorem orderly_of_publish (hconfig : config.Valid)
    (hs : s.here.Sound config) {m : Message} (E : Effect s t (.publish recipient m) events)
    (hbound : (s.here.entries recipient).length ≤ config.maxQueueSize) :
    Orderly config recipient ⟨s, .publish recipient m, t, events⟩ := by
  cases E with
  | publish _ _ stores =>
  have hstores := stores recipient
  rw [if_pos rfl, hs.maxSize, hs.overflowBuffer] at hstores
  rw [hs.maxSize, hs.overflowBuffer]
  constructor
  case front =>
    have hgone : s.here.entries recipient ++ [m.pack] = (s.here.entries recipient ++ [m.pack]).take _ ++
        t.here.entries recipient := hstores ▸ (List.take_append_drop _ _).symm
    rw [leaving_eq (by simpa [arriving] using hgone)]
    simpa [arriving] using hgone
  case publish =>
    rintro m' ⟨⟩
    rcases stores_of_bounded hconfig hbound m.pack with ⟨hlt, hexcess⟩ | ⟨heq, hexcess, hdrop⟩
    · rw [hexcess] at hstores ⊢
      exact Or.inl ⟨hlt, hstores, rfl⟩
    · rw [hexcess] at hstores ⊢
      exact Or.inr ⟨heq, hstores.trans hdrop, rfl⟩
  case bounded =>
    rcases stores_of_bounded hconfig hbound m.pack with ⟨hlt, hexcess⟩ | ⟨heq, hexcess, hdrop⟩
    · simp only [hstores, hexcess, List.drop_zero, List.length_append, List.length_singleton]
      omega
    · simp only [hstores, hexcess, hdrop, List.length_append, List.length_drop, List.length_singleton]
      have hpos := hconfig.pos
      have hle := hconfig.le
      omega
  case consume => rintro _ _ ⟨⟩
  case unfinished => rintro _ _ ⟨⟩
  case timeout => exact fun call hend => by simp at hend
  case aborted => rintro _ ⟨⟩
  case kept => exact fun hne => absurd rfl (hne m)

/-- A step in which a consumer takes an entry of its recipient. -/
theorem orderly_of_took {call : γ} {c : Consumer γ} {bytes : List UInt8}
    (hc : s.here.consumers.find? (·.call = call) = some c)
    (front : s.here.entries c.recipient = bytes :: t.here.entries c.recipient)
    (hbound : (s.here.entries c.recipient).length ≤ config.maxQueueSize) :
    Orderly config c.recipient ⟨s, .run call, t, (report c bytes).toList.map (.ended call)⟩ := by
  constructor
  case front =>
    have hgone : leaving c.recipient
        ⟨s, .run call, t, (report c bytes).toList.map (.ended call)⟩ = [bytes] :=
      leaving_eq (by simpa [arriving] using front)
    rw [hgone]
    simpa [arriving] using front
  case bounded =>
    rw [front, List.length_cons] at hbound
    exact Nat.le_of_succ_le hbound
  case publish => rintro _ ⟨⟩
  case consume =>
    rintro _ c' ⟨⟩ hc' -
    obtain rfl := Option.some.inj (hc.symm.trans hc')
    exact Or.inr ⟨bytes, front, rfl⟩
  case unfinished =>
    rintro _ c' ⟨⟩ hc' hskips hnone
    obtain rfl := Option.some.inj (hc.symm.trans hc')
    simp only [List.map_eq_nil_iff, Option.toList_eq_nil_iff] at hnone
    exact absurd hnone (report_ne_none hskips bytes)
  case timeout =>
    intro call' hend
    simp only [List.mem_map, Option.mem_toList, Event.ended.injEq] at hend
    obtain ⟨_, hreport, -, rfl⟩ := hend
    exact absurd hreport (report_ne_nothing c bytes)
  case aborted => rintro _ ⟨⟩
  case kept => exact fun _ hne => absurd rfl (hne call c rfl hc)

/-- **Every step is orderly** where no queue is beyond the bound. -/
theorem orderly_of_effect (hconfig : config.Valid)
    (hs : s.here.Sound config) (E : Effect s t a events) (hraw : ∀ r bytes, a ≠ .pushRaw r bytes)
    (hbound : (s.here.entries recipient).length ≤ config.maxQueueSize) :
    Orderly config recipient ⟨s, a, t, events⟩ := by
  cases E with
  | publish other m stores =>
    by_cases hr : recipient = other
    · subst hr
      exact orderly_of_publish hconfig hs (.publish recipient m stores) hbound
    · refine orderly_of_same (fun m' ha => ?_) ?_ hbound
      · cases ha
        exact hr rfl
      · rw [stores, if_neg hr]
  | pushRaw r bytes => exact absurd rfl (hraw r bytes)
  | run call c consumed? hc ran =>
    cases ran with
    | waits same => exact orderly_of_same (by simp) (same recipient) hbound
    | gaveUp consumed why same => exact orderly_of_same (by simp) (same recipient) hbound
    | took bytes front others =>
      by_cases hr : recipient = c.recipient
      · subst hr
        exact orderly_of_took hc front hbound
      · exact orderly_of_same (by simp) (others recipient hr) hbound
  | consume call r timeout skips same => exact orderly_of_same (by simp) (same recipient) hbound
  | drop call same => exact orderly_of_same (by simp) (same recipient) hbound
  | tick moment same => exact orderly_of_same (by simp) (same recipient) hbound

end

/-! ### Runs -/

section
variable {config : RelayConfig} {start s : State γ} {steps : List (Step γ)}

/-- No queue is ever beyond the bound. -/
theorem bounded_of_history (hconfig : config.Valid)
    (h : (machine γ).History start s steps) (hstart : start.here.Sound config)
    (hraw : ∀ x ∈ steps, ∀ r bytes, x.action ≠ .pushRaw r bytes)
    (hbound : ∀ recipient, (start.here.entries recipient).length ≤ config.maxQueueSize)
    (recipient : PrincipalId) : (s.here.entries recipient).length ≤ config.maxQueueSize := by
  induction h with
  | start => exact hbound recipient
  | @step u t steps a events hu hstep ih =>
    have hu := sound_of_history hu hstart
    have hraw_a := hraw ⟨u, a, t, events⟩ (by simp)
    have hlast := ih fun x hx => hraw x (by simp [hx])
    exact (orderly_of_effect hconfig hu (effect_of_step hu hstep).1 hraw_a hlast).bounded

/-- Every step of a run is orderly. -/
theorem orderly_of_history (hconfig : config.Valid)
    (h : (machine γ).History start s steps) (hstart : start.here.Sound config)
    (hraw : ∀ x ∈ steps, ∀ r bytes, x.action ≠ .pushRaw r bytes)
    (hbound : ∀ recipient, (start.here.entries recipient).length ≤ config.maxQueueSize)
    (recipient : PrincipalId) {x : Step γ} (hx : x ∈ steps) : Orderly config recipient x := by
  obtain ⟨earlier, later, rfl, hbefore, -, -⟩ := h.of_mem hx
  obtain ⟨E, hsound⟩ := of_step_mem h hstart hx
  refine orderly_of_effect hconfig hsound E (hraw x hx) ?_
  exact bounded_of_history hconfig hbefore hstart (fun y hy => hraw y (by simp [hy])) hbound recipient

end

end
end Relay
end DeviceRelay

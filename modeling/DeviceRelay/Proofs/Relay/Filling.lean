/-
# A queue that nobody empties fills like a sawtooth

Messages are published to a recipient for whom nobody consumes. Up to the bound its queue holds
all of them. Each publish that finds the queue full drops the oldest entries, as many as are to be
dropped at once, and adds its message, so that the queue is full again after as many publishes as
entries were dropped. How many entries there are is told by the number of publishes alone, and
what is queued is always the end of what was published.

Key definitions: `Relay.lengthAfter`, `Relay.Unconsumed`, `Relay.Filled`.
Key theorems: `Relay.lengthAfter_succ`, `Relay.lengthAfter_bounds`, `Relay.queued_of_history`,
`Relay.filled_of_history`.
-/
import DeviceRelay.Proofs.Relay.Clients
import DeviceRelay.Proofs.Relay.Delivery

namespace DeviceRelay
namespace Relay

/-! ### The length after a number of publishes -/

/-- How many entries a queue has after `n` publishes: all up to its bound, and from then on one
more with each publish, from the least length after a drop up to the bound. -/
def lengthAfter (config : RelayConfig) (n : Nat) : Nat :=
  if n ≤ config.maxQueueSize then n
  else config.maxQueueSize - config.overflowBuffer + 1 +
    (n - config.maxQueueSize - 1) % config.overflowBuffer

theorem mod_succ {b : Nat} (hb : 0 < b) (n : Nat) :
    (n + 1) % b = if n % b + 1 = b then 0 else n % b + 1 := by
  have hlt : n % b < b := Nat.mod_lt n hb
  rw [← Nat.mod_add_mod]
  split
  case isTrue hfull => rw [hfull, Nat.mod_self]
  case isFalse hfull => exact Nat.mod_eq_of_lt (by omega)

section
variable {config : RelayConfig}

/-- Once messages were dropped, there is always one entry more than a drop leaves at least, and
never more than the bound. -/
theorem lengthAfter_bounds (hconfig : config.Valid) {n : Nat} (hn : config.maxQueueSize < n) :
    config.maxQueueSize - config.overflowBuffer + 1 ≤ lengthAfter config n ∧
      lengthAfter config n ≤ config.maxQueueSize := by
  have hle := hconfig.le
  have hlt : (n - config.maxQueueSize - 1) % config.overflowBuffer < config.overflowBuffer :=
    Nat.mod_lt _ hconfig.pos
  unfold lengthAfter
  rw [if_neg (by omega)]
  omega

/-- **A publish adds one entry, and drops the excess.** -/
theorem lengthAfter_succ (hconfig : config.Valid) (n : Nat) :
    lengthAfter config (n + 1) +
        Queues.excess config.maxQueueSize config.overflowBuffer (lengthAfter config n + 1) =
      lengthAfter config n + 1 := by
  have hpos := hconfig.pos
  have hle := hconfig.le
  rcases Nat.lt_trichotomy n config.maxQueueSize with hn | hn | hn
  · -- the queue is not full, and holds all messages
    have hbefore : lengthAfter config n = n := if_pos (by omega)
    have hafter : lengthAfter config (n + 1) = n + 1 := if_pos (by omega)
    rw [hbefore, hafter, excess_of_lt hn]
  · -- the first publish that drops
    have hbefore : lengthAfter config n = config.maxQueueSize := by
      rw [hn]
      exact if_pos (by omega)
    have hafter : lengthAfter config (n + 1) = config.maxQueueSize - config.overflowBuffer + 1 := by
      have hzero : n + 1 - config.maxQueueSize - 1 = 0 := by omega
      unfold lengthAfter
      rw [if_neg (by omega), hzero, Nat.zero_mod]
    rw [hbefore, hafter, excess_of_eq hle]
    omega
  · -- the remainder counts the publishes since the latest drop
    have hbefore : lengthAfter config n = config.maxQueueSize - config.overflowBuffer + 1 +
        (n - config.maxQueueSize - 1) % config.overflowBuffer := if_neg (by omega)
    have hafter : lengthAfter config (n + 1) = config.maxQueueSize - config.overflowBuffer + 1 +
        (n - config.maxQueueSize - 1 + 1) % config.overflowBuffer := by
      have hnext : n + 1 - config.maxQueueSize - 1 = n - config.maxQueueSize - 1 + 1 := by omega
      unfold lengthAfter
      rw [if_neg (by omega), hnext]
    have hlt : (n - config.maxQueueSize - 1) % config.overflowBuffer < config.overflowBuffer :=
      Nat.mod_lt _ hpos
    rw [mod_succ hpos] at hafter
    by_cases hfull : (n - config.maxQueueSize - 1) % config.overflowBuffer + 1 = config.overflowBuffer
    · have hmax : lengthAfter config n = config.maxQueueSize := by omega
      rw [if_pos hfull] at hafter
      rw [hmax, hafter, excess_of_eq hle]
      omega
    · have hmore : lengthAfter config n < config.maxQueueSize := by omega
      rw [if_neg hfull] at hafter
      rw [excess_of_lt hmore]
      omega

theorem lengthAfter_le (hconfig : config.Valid) (n : Nat) : lengthAfter config n ≤ n := by
  induction n with
  | zero => exact Nat.le_of_eq (if_pos (Nat.zero_le _))
  | succ n ih =>
    have hsucc := lengthAfter_succ hconfig n
    omega

end

/-! ### Queues for which nobody consumes -/

section
variable {γ : Type}

/-- Nobody begins to consume for a recipient, and nothing gets into its queue but what is
published. -/
structure Unconsumed (recipient : PrincipalId) (steps : List (Step γ)) : Prop where
  consume : ∀ x ∈ steps, ∀ call timeout skips, x.action ≠ .consume call recipient timeout skips
  pushRaw : ∀ x ∈ steps, ∀ bytes, x.action ≠ .pushRaw recipient bytes

theorem Unconsumed.of_sublist {recipient : PrincipalId} {steps steps' : List (Step γ)}
    (h : Unconsumed recipient steps) (hsub : ∀ x ∈ steps', x ∈ steps) : Unconsumed recipient steps' :=
  ⟨fun x hx => h.consume x (hsub x hx), fun x hx => h.pushRaw x (hsub x hx)⟩

theorem published_concat (recipient : PrincipalId) (steps : List (Step γ)) (x : Step γ) :
    published recipient (steps ++ [x]) = published recipient steps ++ arriving recipient x := by
  unfold published
  rw [List.flatMap_append, List.flatMap_singleton]

end

section
variable {γ : Type} [DecidableEq γ] {config : RelayConfig} {recipient : PrincipalId}

/-- Nobody consumes for a recipient for whom nobody begins to. -/
theorem clientless_of_step {s t : State γ} {a : Action γ} {events : List (Event γ)}
    (hs : s.here.Sound config) (h : s.step a = some (t, events))
    (hconsume : ∀ call timeout skips, a ≠ .consume call recipient timeout skips)
    (none : ∀ client ∈ s.here.clients, client.2.1 ≠ recipient) :
    ∀ client ∈ t.here.clients, client.2.1 ≠ recipient := by
  cases a with
  | publish r m =>
    have hclients := clients_publish s.here r m
    simp only [State.step] at h
    cases hpublish : s.here.publish r m with
    | mk r' told =>
      rw [hpublish] at h hclients
      cases told <;> obtain ⟨rfl, -⟩ := Prod.mk.inj (Option.some.inj h) <;> exact hclients ▸ none
  | pushRaw r bytes =>
    obtain ⟨rfl, -⟩ := Prod.mk.inj (Option.some.inj h)
    exact none
  | consume call r timeout skips =>
    obtain ⟨rfl, -⟩ := Prod.mk.inj (Option.some.inj h)
    intro client hclient
    rw [show _ = s.here.clients ++ _ from clients_begin s.here call r timeout skips] at hclient
    rcases List.mem_append.mp hclient with hclient | hclient
    · exact none client hclient
    · rw [List.mem_singleton.mp hclient]
      rintro rfl
      exact hconsume call timeout skips rfl
  | run call =>
    obtain ⟨⟨r', consumed?⟩, hrun, h⟩ := Option.map_eq_some_iff.mp h
    obtain ⟨rfl, -⟩ := Prod.mk.inj h
    have hclients : r'.clients = _ := clients_of_run? hs hrun
    intro client hclient
    apply none
    dsimp only at hclient
    rw [hclients] at hclient
    split at hclient
    · exact hclient
    · exact (List.mem_filter.mp hclient).1
  | drop call =>
    obtain ⟨rfl, -⟩ := Prod.mk.inj (Option.some.inj h)
    intro client hclient
    rw [show _ = s.here.clients.filter _ from clients_abandon s.here call] at hclient
    exact none client (List.mem_filter.mp hclient).1
  | tick moment =>
    obtain ⟨-, h⟩ := Option.ite_none_right_eq_some.mp h
    obtain ⟨rfl, -⟩ := Prod.mk.inj (Option.some.inj h)
    exact none

theorem clientless_of_history {start s : State γ} {steps : List (Step γ)}
    (h : (machine γ).History start s steps) (hstart : start.here.Sound config)
    (hnone : ∀ client ∈ start.here.clients, client.2.1 ≠ recipient)
    (hsteps : Unconsumed recipient steps) : ∀ client ∈ s.here.clients, client.2.1 ≠ recipient := by
  induction h with
  | start => exact hnone
  | @step u t steps a events hu hstep ih =>
    have hbefore := ih (hsteps.of_sublist fun x hx => List.mem_append_left _ hx)
    have hconsume := hsteps.consume ⟨u, a, t, events⟩ (by simp)
    exact clientless_of_step (sound_of_history hu hstart) hstep hconsume hbefore

/-- Only to publish to a recipient changes its queue, if nobody consumes for it. -/
theorem entries_of_effect {s t : State γ} {a : Action γ} {events : List (Event γ)}
    (E : Effect s t a events) (hs : s.here.Sound config) (hraw : ∀ bytes, a ≠ .pushRaw recipient bytes)
    (hnone : ∀ client ∈ s.here.clients, client.2.1 ≠ recipient) :
    t.here.entries recipient = s.here.entries recipient ∧
        arriving recipient (⟨s, a, t, events⟩ : Step γ) = [] ∨
      ∃ m, a = .publish recipient m ∧ arriving recipient (⟨s, a, t, events⟩ : Step γ) = [m] ∧
        t.here.entries recipient = (s.here.entries recipient ++ [m.pack]).drop (Queues.excess
          config.maxQueueSize config.overflowBuffer ((s.here.entries recipient).length + 1)) := by
  cases E with
  | publish r m stores =>
    have hstores := stores recipient
    by_cases hr : r = recipient
    · subst hr
      rw [if_pos rfl, hs.maxSize, hs.overflowBuffer] at hstores
      exact .inr ⟨m, rfl, by simp [arriving], hstores⟩
    · rw [if_neg fun h => hr h.symm] at hstores
      exact .inl ⟨hstores, by simp [arriving, hr]⟩
  | pushRaw r bytes stores =>
    have hr : recipient ≠ r := by
      rintro rfl
      exact hraw bytes rfl
    exact .inl ⟨by rw [stores, if_neg hr], rfl⟩
  | run call c consumed? hc ran =>
    have hr : recipient ≠ c.recipient := fun h =>
      hnone _ (List.mem_map_of_mem (List.mem_of_find?_eq_some hc)) h.symm
    cases ran with
    | waits same => exact .inl ⟨same recipient, rfl⟩
    | gaveUp consumed why same => exact .inl ⟨same recipient, rfl⟩
    | took bytes front others => exact .inl ⟨others recipient hr, rfl⟩
  | consume call r timeout skips same | drop call same | tick moment same =>
    exact .inl ⟨same recipient, rfl⟩

/-- To drop what is beyond the length after a publish is to keep the end of what was published. -/
theorem drop_pack_concat (hconfig : config.Valid) (messages : List Message) (m : Message)
    {entries : List (List UInt8)}
    (hentries : entries =
      (messages.drop (messages.length - lengthAfter config messages.length)).map Message.pack)
    (hlength : entries.length = lengthAfter config messages.length) :
    (entries ++ [m.pack]).drop
        (Queues.excess config.maxQueueSize config.overflowBuffer (entries.length + 1)) =
      ((messages ++ [m]).drop (messages.length + 1 - lengthAfter config (messages.length + 1))).map
        Message.pack := by
  have hsucc := lengthAfter_succ hconfig messages.length
  have hle := lengthAfter_le hconfig messages.length
  have hdropped : messages.length + 1 - lengthAfter config (messages.length + 1) =
      messages.length - lengthAfter config messages.length + Queues.excess config.maxQueueSize
        config.overflowBuffer (lengthAfter config messages.length + 1) := by
    omega
  have happend : entries ++ [m.pack] = ((messages ++ [m]).drop
      (messages.length - lengthAfter config messages.length)).map Message.pack := by
    rw [List.drop_append_of_le_length (Nat.sub_le ..), List.map_append, hentries]
    rfl
  rw [hlength, hdropped, happend, ← List.map_drop, List.drop_drop]

/-- **What is queued is the end of what was published**, of the length that the number of publishes
tells. -/
theorem queued_of_history {now : Nat} {s : State γ} {steps : List (Step γ)} (hconfig : config.Valid)
    (h : (machine γ).History ⟨now, ofConfig config⟩ s steps) (hsteps : Unconsumed recipient steps) :
    s.here.entries recipient =
      ((published recipient steps).drop ((published recipient steps).length -
        lengthAfter config (published recipient steps).length)).map Message.pack := by
  induction h with
  | start => rfl
  | @step u t steps a events hu hstep ih =>
    have hearlier := hsteps.of_sublist fun x hx => List.mem_append_left [⟨u, a, t, events⟩] hx
    have hsound := sound_of_history hu (ofConfig_sound config)
    have hnone := clientless_of_history hu (ofConfig_sound config) (by simp [ofConfig, clients])
      hearlier
    have hraw := hsteps.pushRaw ⟨u, a, t, events⟩ (by simp)
    have hentries := ih hearlier
    rw [published_concat]
    rcases entries_of_effect (effect_of_step hsound hstep).1 hsound hraw hnone with
      ⟨hsame, harriving⟩ | ⟨m, -, harriving, hstored⟩
    · rw [harriving, List.append_nil, hsame, hentries]
    · have hlength : (u.here.entries recipient).length =
          lengthAfter config (published recipient steps).length := by
        have hle := lengthAfter_le hconfig (published recipient steps).length
        rw [hentries, List.length_map, List.length_drop]
        omega
      rw [harriving, List.length_append, List.length_singleton, hstored]
      exact drop_pack_concat hconfig _ m hentries hlength

theorem length_of_history {now : Nat} {s : State γ} {steps : List (Step γ)} (hconfig : config.Valid)
    (h : (machine γ).History ⟨now, ofConfig config⟩ s steps) (hsteps : Unconsumed recipient steps) :
    (s.here.entries recipient).length = lengthAfter config (published recipient steps).length := by
  have hle := lengthAfter_le hconfig (published recipient steps).length
  rw [queued_of_history hconfig h hsteps, List.length_map, List.length_drop]
  omega

/-- A publish tells the length after it, and what it dropped. -/
theorem stored_of_history {now : Nat} {s : State γ} {steps : List (Step γ)} (hconfig : config.Valid)
    (h : (machine γ).History ⟨now, ofConfig config⟩ s steps) (hsteps : Unconsumed recipient steps)
    (m : Message) : ∃ t, s.step (.publish recipient m) = some (t,
      [.stored recipient (lengthAfter config ((published recipient steps).length + 1))
        (Queues.excess config.maxQueueSize config.overflowBuffer
          (lengthAfter config (published recipient steps).length + 1))]) := by
  have hsound := sound_of_history h (ofConfig_sound config)
  have hlength := length_of_history hconfig h hsteps
  have hsucc := lengthAfter_succ hconfig (published recipient steps).length
  have hafter : ((s.here.publish recipient m).1.entries recipient).length =
      lengthAfter config ((published recipient steps).length + 1) := by
    rw [entries_publish hsound.usable, if_pos rfl, List.length_drop, List.length_append,
      List.length_singleton, hsound.maxSize, hsound.overflowBuffer, hlength]
    omega
  have htold := publish_stored hsound.usable recipient m
  rw [hafter, hsound.maxSize, hsound.overflowBuffer, hlength] at htold
  refine ⟨{ s with here := (s.here.publish recipient m).1 }, ?_⟩
  simp only [State.step]
  cases hpublish : s.here.publish recipient m with
  | mk r' told =>
    rw [hpublish] at htold
    dsimp only at htold
    rw [htold]

/-- How the queue of a recipient filled in a run, whose bounds are those of a configuration. -/
structure Filled (config : RelayConfig) (recipient : PrincipalId) (steps : List (Step γ))
    (s : State γ) : Prop where
  /-- What is queued is the end of what was published. -/
  queued : s.here.entries recipient =
    ((published recipient steps).drop ((published recipient steps).length -
      lengthAfter config (published recipient steps).length)).map Message.pack
  length : (s.here.entries recipient).length = lengthAfter config (published recipient steps).length
  /-- Every publish told the length after it. -/
  told : ∀ earlier x later m, steps = earlier ++ x :: later → x.action = .publish recipient m →
    ∃ dropped, x.events = [.stored recipient
      (lengthAfter config (published recipient (earlier ++ [x])).length) dropped]
  /-- A message can always be published, and that tells the next length. -/
  next : ∀ m, ∃ t dropped, s.step (.publish recipient m) = some (t, [.stored recipient
    (lengthAfter config ((published recipient steps).length + 1)) dropped])
  /-- Once messages were dropped, the length stays near the bound. -/
  bounds : config.maxQueueSize < (published recipient steps).length →
    config.maxQueueSize - config.overflowBuffer + 1 ≤ (s.here.entries recipient).length ∧
      (s.here.entries recipient).length ≤ config.maxQueueSize

/-- **A queue for which nobody consumes holds the last messages published**, as many as their
number tells, in every run that starts with empty queues. -/
theorem filled_of_history {now : Nat} {s : State γ} {steps : List (Step γ)} (hconfig : config.Valid)
    (h : (machine γ).History ⟨now, ofConfig config⟩ s steps) (hsteps : Unconsumed recipient steps) :
    Filled config recipient steps s := by
  constructor
  case queued => exact queued_of_history hconfig h hsteps
  case length => exact length_of_history hconfig h hsteps
  case told =>
    rintro earlier x later m rfl haction
    obtain ⟨u, hu, hrest⟩ := h.split
    obtain ⟨rfl, hstep, -⟩ := hrest.head
    have hearlier : Unconsumed recipient earlier :=
      hsteps.of_sublist fun y hy => List.mem_append_left _ hy
    obtain ⟨t, hstored⟩ := stored_of_history hconfig hu hearlier m
    rw [haction] at hstep
    obtain ⟨-, hevents⟩ := Prod.mk.inj (Option.some.inj (hstep.symm.trans hstored))
    have harriving : arriving recipient x = [m] := by
      unfold arriving
      rw [haction]
      exact if_pos rfl
    rw [published_concat, harriving, List.length_append, List.length_singleton]
    exact ⟨_, hevents⟩
  case next =>
    intro m
    obtain ⟨t, hstored⟩ := stored_of_history hconfig h hsteps m
    exact ⟨t, _, hstored⟩
  case bounds =>
    intro hn
    rw [length_of_history hconfig h hsteps]
    exact lengthAfter_bounds hconfig hn

end

/-- Of three messages the last two are queued where two are the bound, also if somebody consumes
for someone else. -/
theorem filled_of_three : ∃ (s : State Nat) (steps : List (Step Nat)),
    (machine Nat).History ⟨0, ofConfig narrow.relay⟩ s steps ∧ Unconsumed ⟨7⟩ steps ∧
      published ⟨7⟩ steps = [note 1, note 2, note 3] ∧
      s.here.entries ⟨7⟩ = [(note 2).pack, (note 3).pack] ∧ Filled narrow.relay ⟨7⟩ steps s := by
  have h1 : (machine Nat).History ⟨0, ofConfig narrow.relay⟩ _ [] := .start
  have h2 := h1.step (a := .publish ⟨7⟩ (note 1)) rfl
  have h3 := h2.step (a := .consume 0 ⟨8⟩ 1000 false) rfl
  have h4 := h3.step (a := .publish ⟨7⟩ (note 2)) rfl
  have h5 := h4.step (a := .publish ⟨7⟩ (note 3)) rfl
  refine ⟨_, _, h5, ?_, rfl, rfl, filled_of_history ⟨by decide, by decide⟩ h5 ?_⟩ <;>
    constructor <;> simp

/-- The lengths up to the eighth publish, where five are the bound and three go at once. -/
example : (List.range 9).map (lengthAfter { maxQueueSize := 5, overflowBuffer := 3 }) =
    [0, 1, 2, 3, 4, 5, 3, 4, 5] := by decide

end Relay
end DeviceRelay

/-
# Every message is consumed in order, dropped by an overflow, or still queued

The messages to a recipient are popped and dropped at the front of its queue and added
at its end. So what is queued is the end of what was published, and what was popped
before comes in the order published, each message once. A message is missing there only
because a publish found the queue full and dropped the oldest ones. The account of a run
says of every message published which of the three became of it. What was popped is what
consumers return, for a packed message is read back.

Key definitions: `Relay.published`, `Relay.popped`, `Relay.returned`, `Relay.trimmed`,
`Relay.Fate`, `Relay.Account`, `Relay.Delivery`.
Key theorems: `Relay.exists_account`, `Relay.returned_of_history`, `Relay.delivery_of_history`.
-/
import DeviceRelay.Proofs.Packing
import DeviceRelay.Proofs.Relay.Order

namespace DeviceRelay
namespace Relay

section
variable {γ : Type}

/-- The messages published to a recipient, the first first. -/
def published (recipient : PrincipalId) (steps : List (Step γ)) : List Message :=
  steps.flatMap (arriving recipient)

/-- The entries that consumers took from the queue of a recipient, the first first. -/
def popped (recipient : PrincipalId) (steps : List (Step γ)) : List (List UInt8) :=
  steps.flatMap fun x =>
    match x.action with
    | .run _ => leaving recipient x
    | _ => []

/-- The message with which a consumer ends, if it ends with one. -/
def Event.message? : Event γ → Option Message
  | .ended _ (.message m) => some m
  | _ => none

/-- The messages that consumers of a recipient return, the first first. -/
def returned [DecidableEq γ] (recipient : PrincipalId) (steps : List (Step γ)) : List Message :=
  steps.flatMap fun x =>
    match x.action with
    | .run call =>
      if (x.before.here.consumers.find? (·.call = call)).map (·.recipient) = some recipient then
        x.events.filterMap Event.message?
      else []
    | _ => []

/-- The entries that overflows dropped from the queue of a recipient, the first first. -/
def trimmed (recipient : PrincipalId) (steps : List (Step γ)) : List (List UInt8) :=
  steps.flatMap fun x =>
    match x.action with
    | .publish _ _ => leaving recipient x
    | _ => []

/-- What became of a message. -/
inductive Fate where
  | popped
  | trimmed
  | queued
  deriving DecidableEq, Repr

/-- The messages of an account with a fate. -/
def met (fate : Fate) (account : List (Message × Fate)) : List Message :=
  (account.filter (·.2 = fate)).map (·.1)

theorem met_append (fate : Fate) (account later : List (Message × Fate)) :
    met fate (account ++ later) = met fate account ++ met fate later := by
  simp [met]

theorem met_same (fate : Fate) (messages : List Message) :
    met fate (messages.map (·, fate)) = messages := by
  induction messages with
  | nil => rfl
  | cons m messages ih => simpa [met] using ih

theorem met_other {fate other : Fate} (h : other ≠ fate) (messages : List Message) :
    met fate (messages.map (·, other)) = [] := by
  simp [met, h]

/-- The account of a run for one recipient: every message published to it, in order, each
with one fate, and each fate as the run shows it. -/
structure Account [DecidableEq γ] (recipient : PrincipalId) (steps : List (Step γ)) (s : State γ)
    (account : List (Message × Fate)) : Prop where
  published : account.map (·.1) = Relay.published recipient steps
  popped : Relay.popped recipient steps = (met .popped account).map Message.pack
  /-- Consumers return what is read of the entries that they take, -/
  returned : Relay.returned recipient steps =
    (met .popped account).filterMap fun m => Message.unpack? m.pack
  /-- and that is the messages themselves, if the packed form keeps what is published. -/
  intact : (∀ m ∈ Relay.published recipient steps, m.Sendable) →
    Relay.returned recipient steps = met .popped account
  trimmed : Relay.trimmed recipient steps = (met .trimmed account).map Message.pack
  queued : s.here.entries recipient = (met .queued account).map Message.pack
  /-- What is queued is the end of what was published. -/
  suffix : met .queued account <:+ Relay.published recipient steps
  /-- What was popped and what is queued comes in the order published. -/
  order : (met .popped account ++ met .queued account).Sublist (Relay.published recipient steps)

end

section
variable {γ : Type} [DecidableEq γ]

section
variable {config : RelayConfig} {start s : State γ} {steps : List (Step γ)}

/-- What leaves a queue is popped by a consumer or trimmed by a publish. -/
theorem Orderly.leaving_eq_nil {recipient : PrincipalId} {x : Step γ} (hx : Orderly config recipient x)
    (hpublish : ∀ r m, x.action ≠ .publish r m) (hrun : ∀ call, x.action ≠ .run call) :
    leaving recipient x = [] := by
  refine leaving_of_same ?_ (hx.kept (hpublish recipient) fun call _ ha => absurd ha (hrun call))
  unfold arriving
  split
  · next r m ha => exact absurd ha (hpublish r m)
  · rfl

/-- The fate of what leaves a queue in a step. -/
def fateOf (x : Step γ) : Fate :=
  match x.action with
  | .run _ => .popped
  | _ => .trimmed

omit [DecidableEq γ] in
theorem popped_concat {recipient : PrincipalId} (steps : List (Step γ)) {x : Step γ} :
    popped recipient (steps ++ [x]) =
      popped recipient steps ++ if fateOf x = .popped then leaving recipient x else [] := by
  unfold popped fateOf
  rw [List.flatMap_append, List.flatMap_singleton]
  congr 1
  cases x.action <;> rfl

theorem trimmed_concat {recipient : PrincipalId} (steps : List (Step γ)) {x : Step γ}
    (hx : Orderly config recipient x) :
    trimmed recipient (steps ++ [x]) =
      trimmed recipient steps ++ if fateOf x = .trimmed then leaving recipient x else [] := by
  unfold trimmed fateOf
  rw [List.flatMap_append, List.flatMap_singleton]
  congr 1
  cases ha : x.action with
  | publish r m => rfl
  | run call => rfl
  | _ => exact (hx.leaving_eq_nil (by simp [ha]) (by simp [ha])).symm

/-- The messages published so far are those whose fate is settled and then those queued. -/
theorem account_of_orderly (h : (machine γ).History start s steps) (recipient : PrincipalId)
    (hstart : start.here.entries recipient = []) (horderly : ∀ x ∈ steps, Orderly config recipient x) :
    ∃ (settled : List (Message × Fate)) (waiting : List Message),
      settled.map (·.1) ++ waiting = published recipient steps ∧
      (∀ e ∈ settled, e.2 ≠ .queued) ∧ s.here.entries recipient = waiting.map Message.pack ∧
      popped recipient steps = (met .popped settled).map Message.pack ∧
      trimmed recipient steps = (met .trimmed settled).map Message.pack := by
  induction h with
  | start => exact ⟨[], [], rfl, by simp, hstart, rfl, rfl⟩
  | @step u t steps a events hu hstep ih =>
    obtain ⟨settled, waiting, hpublished, hsettled, hentries, hpopped, htrimmed⟩ :=
      ih fun x hx => horderly x (by simp [hx])
    have hx := horderly ⟨u, a, t, events⟩ (by simp)
    generalize hlast : (⟨u, a, t, events⟩ : Step γ) = x at hx ⊢
    have hfront := hx.front
    have hbefore : x.before = u := hlast ▸ rfl
    have hafter : x.after = t := hlast ▸ rfl
    rw [hbefore, hafter, hentries, ← List.map_append] at hfront
    -- the messages that leave are the first of those that waited or arrive
    obtain ⟨gone, left, hsplit, hgone, hleft⟩ := List.map_eq_append_iff.mp hfront
    refine ⟨settled ++ gone.map (·, fateOf x), left, ?_, ?_, hleft.symm, ?_, ?_⟩
    · rw [List.map_append, List.append_assoc, published, List.flatMap_append, List.flatMap_singleton]
      simp only [List.map_map, Function.comp_def, List.map_id']
      rw [← hsplit, ← List.append_assoc, hpublished]
      rfl
    · intro e he
      rcases List.mem_append.mp he with he | he
      · exact hsettled e he
      · obtain ⟨m, -, rfl⟩ := List.mem_map.mp he
        unfold fateOf
        split <;> simp
    · rw [popped_concat, met_append, List.map_append, hpopped, ← hgone]
      by_cases hf : fateOf x = .popped
      · rw [if_pos hf, hf, met_same]
      · rw [if_neg hf, met_other hf, List.map_nil]
    · rw [trimmed_concat steps hx, met_append, List.map_append, htrimmed, ← hgone]
      by_cases hf : fateOf x = .trimmed
      · rw [if_pos hf, hf, met_same]
      · rw [if_neg hf, met_other hf, List.map_nil]

/-- A consumer returns the message that is read of the entry that it takes. -/
theorem returned_of_effect {t : State γ} {a : Action γ} {events : List (Event γ)}
    (E : Effect s t a events) (recipient : PrincipalId) :
    returned recipient [⟨s, a, t, events⟩] =
      (popped recipient [⟨s, a, t, events⟩]).filterMap Message.unpack? := by
  cases E with
  | publish | pushRaw | consume | drop | tick => rfl
  | run call c consumed? hc ran =>
    simp only [returned, popped, List.flatMap_singleton, hc, Option.map_some, Option.some.injEq]
    by_cases hr : c.recipient = recipient
    · subst hr
      rw [if_pos rfl]
      cases ran with
      | waits same => rw [leaving_of_same rfl (same _)]; rfl
      | gaveUp consumed why same =>
        rw [leaving_of_same rfl (same _)]
        rcases why with rfl | rfl <;> rfl
      | took bytes front others =>
        have hgone (events : List (Event γ)) :
            leaving c.recipient ⟨s, .run call, t, events⟩ = [bytes] :=
          leaving_eq (by simpa [arriving] using front)
        rw [hgone]
        unfold report
        cases hread : Message.unpack? bytes with
        | some m => simp [hread, Event.message?]
        | none => cases c.skips <;> simp [hread, Event.message?]
    · rw [if_neg hr]
      cases ran with
      | waits same | gaveUp _ _ same => rw [leaving_of_same rfl (same _)]; rfl
      | took bytes front others => rw [leaving_of_same rfl (others _ (Ne.symm hr))]; rfl

/-- **Along a run consumers return what is read of the entries that they take.** -/
theorem returned_of_history (h : (machine γ).History start s steps)
    (hstart : start.here.Sound config) (recipient : PrincipalId) :
    returned recipient steps = (popped recipient steps).filterMap Message.unpack? := by
  induction h with
  | start => rfl
  | @step u t steps a events hu hstep ih =>
    have hlast := returned_of_effect (effect_of_step (sound_of_history hu hstart) hstep).1 recipient
    unfold returned popped at ih hlast ⊢
    rw [List.flatMap_append, List.flatMap_append, List.filterMap_append, ih, hlast]

/-- A run that starts with an empty queue and whose steps are orderly has an account. -/
theorem exists_account (h : (machine γ).History start s steps) (recipient : PrincipalId)
    (hstart : start.here.entries recipient = []) (hsound : start.here.Sound config)
    (horderly : ∀ x ∈ steps, Orderly config recipient x) :
    ∃ account, Account recipient steps s account := by
  obtain ⟨settled, waiting, hpublished, hsettled, hentries, hpopped, htrimmed⟩ :=
    account_of_orderly h recipient hstart horderly
  have hqueued : met .queued (settled ++ waiting.map (·, Fate.queued)) = waiting := by
    have hnone : met .queued settled = [] := by
      unfold met
      rw [List.filter_eq_nil_iff.mpr fun e he => by simpa using hsettled e he, List.map_nil]
    rw [met_append, hnone, met_same, List.nil_append]
  have hmet : ∀ fate, Fate.queued ≠ fate →
      met fate (settled ++ waiting.map (·, Fate.queued)) = met fate settled := by
    intro fate hne
    rw [met_append, met_other hne, List.append_nil]
  have hreturned : returned recipient steps =
      (met .popped settled).filterMap fun m => Message.unpack? m.pack := by
    rw [returned_of_history h hsound, hpopped, List.filterMap_map, Function.comp_def]
  refine ⟨settled ++ waiting.map (·, Fate.queued), ?_⟩
  constructor
  case published => simpa [Function.comp_def] using hpublished
  case popped => rw [hpopped, hmet _ (by decide)]
  case returned => rw [hreturned, hmet _ (by decide)]
  case intact =>
    intro sendable
    rw [hreturned, hmet _ (by decide)]
    refine (List.filterMap_congr fun m hm => ?_).trans List.filterMap_some
    obtain ⟨e, he, rfl⟩ := List.mem_map.mp hm
    refine (sendable e.1 ?_).unpack?_pack
    rw [← hpublished]
    exact List.mem_append_left _ (List.mem_map_of_mem (List.mem_filter.mp he).1)
  case trimmed => rw [htrimmed, hmet _ (by decide)]
  case queued => rw [hentries, hqueued]
  case suffix =>
    rw [hqueued, ← hpublished]
    exact List.suffix_append ..
  case order =>
    rw [hqueued, hmet _ (by decide), ← hpublished]
    exact (List.filter_sublist.map _).append (List.Sublist.refl _)

end

/-- What a run says of the queue of a recipient: an account of all messages published to
it, and that every step was orderly. -/
structure Delivery (config : RelayConfig) (recipient : PrincipalId) (steps : List (Step γ))
    (s : State γ) : Prop where
  account : ∃ account, Account recipient steps s account
  orderly : ∀ x ∈ steps, Orderly config recipient x

/-- **Every message published is consumed once and in order, dropped by an overflow, or
queued**, in every run that starts empty with a configuration that is not refused. -/
theorem delivery_of_history {config : Config} (hconfig : config.check = .ok ()) {now : Nat} {s : State γ}
    {steps : List (Step γ)} (h : (machine γ).History ⟨now, ofConfig config.relay⟩ s steps)
    (hraw : ∀ x ∈ steps, ∀ r bytes, x.action ≠ .pushRaw r bytes) (recipient : PrincipalId) :
    Delivery config.relay recipient steps s := by
  have horderly := fun x hx => orderly_of_history (Config.valid_of_check hconfig) h
    (ofConfig_sound config.relay) hraw (fun _ => Nat.zero_le _) recipient (x := x) hx
  exact ⟨exists_account h recipient rfl (ofConfig_sound config.relay) horderly, horderly⟩

end

/-- A configuration with queues of two messages. -/
def narrow : Config := { relay := { maxQueueSize := 2, overflowBuffer := 1 } }

/-- A message to the principal `7`. -/
def note (stamp : Int) : Message := ⟨.request, "a", ⟨1⟩, ⟨7⟩, stamp, .null⟩

/-- Of three messages one is dropped, one is consumed and one is queued. -/
theorem delivery_of_three : ∃ (s : State Nat) (steps : List (Step Nat)),
    (machine Nat).History ⟨0, ofConfig narrow.relay⟩ s steps ∧
      published ⟨7⟩ steps = [note 1, note 2, note 3] ∧ trimmed ⟨7⟩ steps = [(note 1).pack] ∧
      popped ⟨7⟩ steps = [(note 2).pack] ∧ returned ⟨7⟩ steps = [note 2] ∧
      s.here.entries ⟨7⟩ = [(note 3).pack] ∧
      Delivery narrow.relay ⟨7⟩ steps s := by
  have h1 : (machine Nat).History ⟨0, ofConfig narrow.relay⟩ _ [] := .start
  have h2 := h1.step (a := .publish ⟨7⟩ (note 1)) rfl
  have h3 := h2.step (a := .publish ⟨7⟩ (note 2)) rfl
  have h4 := h3.step (a := .publish ⟨7⟩ (note 3)) rfl
  have h5 := h4.step (a := .consume 0 ⟨7⟩ 1000 false) rfl
  have h6 := h5.step (a := .run 0) rfl
  refine ⟨_, _, h6, rfl, rfl, rfl, by decide +kernel, rfl, delivery_of_history rfl h6 ?_ _⟩
  simp

end Relay
end DeviceRelay

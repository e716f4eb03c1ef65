/-
# A letter is carried unchanged until it is queued

A call that publishes carries its letter from step to step: it fails, or goes on with the
same letter, or queues exactly this letter and ends. A call that consumes uses the relay as
a consumer of its own. No other step of a call touches the relay or carries a letter.

Key definitions: `Phase.letter?`, `Service.Mailed`.
Key theorems: `Service.mailed_of_step?`, `Service.clients_of_step?`,
`Service.relay_of_publishes`.
-/
import DeviceRelay.Proofs.Relay.Clients
import DeviceRelay.Proofs.Service.Requests

namespace DeviceRelay

/-- The letter that a phase carries. -/
def Phase.letter? : Phase → Option Letter
  | .begins (.publish sender recipient kind correlationId data) =>
    some ⟨sender.id, recipient, kind, correlationId, data⟩
  | .compares letter _ => some letter
  | .queues letter => some letter
  | _ => none

namespace Service

/-- A step that leaves the relay alone, and carries no letter on. -/
structure Idle (s : Service) (m : Move) : Prop where
  relay : m.service.relay = s.relay
  next : ∀ next, m.progress = .goesOn next → next.letter? = none

/-- What a step of a call does with letters and with the relay. -/
inductive Mailed (s : Service) (party : Party) (phase : Phase) (m : Move) : Prop where
  | idle (idle : Idle s m) (refused : ∀ letter, phase = .queues letter → s.relay.fault ≠ none)
  /-- The call goes on with its letter. -/
  | carries (letter : Letter) (next : Phase) (before : phase.letter? = some letter)
    (early : ∀ letter, phase ≠ .queues letter) (goesOn : m.progress = .goesOn next)
    (after : next.letter? = some letter) (relay : m.service.relay = s.relay)
  /-- The letter of the call is queued, and the call ends. -/
  | queued (letter : Letter) (before : phase = .queues letter) (usable : s.relay.fault = none)
    (ends : m.progress = .ends (.answered .done))
    (relay : m.service.relay =
      (s.relay.publish letter.recipient (letter.message s.clock.wall)).1)
  | begins (recipient : PrincipalId) (timeout : Nat)
    (before : phase = .begins (.consume recipient timeout))
    (goesOn : m.progress = .goesOn .consumes)
    (relay : m.service.relay = s.relay.begin party recipient timeout false)
  | consumes (before : phase = .consumes) (consumed? : Option Consumed)
    (run : s.relay.run? s.clock.now party = some (m.service.relay, consumed?))
    (next : ∀ next, m.progress = .goesOn next → next = .consumes)

variable {s : Service}

theorem idle_fail {s' : Service} (h : s'.relay = s.relay) (e : Error) : Idle s (s'.fail e) :=
  ⟨h, nofun⟩

theorem idle_tell {s' : Service} (h : s'.relay = s.relay) (a : Answer) : Idle s (s'.tell a) :=
  ⟨h, nofun⟩

theorem idle_ends {s' : Service} (h : s'.relay = s.relay) (ending : Ending) (b : Option Background) :
    Idle s ⟨s', .ends ending, b⟩ := ⟨h, nofun⟩

theorem idle_goesOn {s' : Service} (h : s'.relay = s.relay) {next : Phase}
    (hnext : next.letter? = none) (b : Option Background) : Idle s ⟨s', .goesOn next, b⟩ :=
  ⟨h, fun _ hn => Progress.goesOn.inj hn ▸ hnext⟩

/-! ### Calls about pairings -/

theorem beginPair_idle (id : RequestId) (requester : Principal) (device : DeviceRef) :
    Idle s (s.beginPair id requester device) := by
  unfold beginPair
  split
  · exact idle_fail (by rfl) _
  · split
    · exact idle_fail (by rfl) _
    · exact idle_fail (by rfl) _
    · exact idle_goesOn (by rfl) (by rfl) _

theorem sendRequest_idle (id : RequestId) (requester target : Principal) :
    Idle s (s.sendRequest id requester target) := by
  unfold sendRequest
  split
  · exact idle_fail (by rfl) _
  · exact idle_goesOn (by rfl) (by rfl) _

theorem conclude_idle {s' : Service} (h : s'.relay = s.relay) (id : RequestId)
    (device : PrincipalId) (state : PairingState) : Idle s (s'.conclude id device state) := by
  unfold conclude
  split
  · exact idle_fail h _
  · refine idle_tell ?_ _
    split <;> exact h

theorem endWait_idle {id : RequestId} {device : PrincipalId} {due : Nat} {m : Move}
    (h : s.endWait? id device due = some m) : Idle s m := by
  unfold endWait? at h
  split at h
  · split at h
    · split at h <;> obtain rfl := Option.some.inj h <;> exact conclude_idle (by rfl) ..
    · cases h
  · obtain rfl := Option.some.inj h
    exact conclude_idle rfl ..

theorem beginPoll_idle (party : Party) (device : Principal) (timeout : Option Nat) :
    Idle s (s.beginPoll party device timeout) := by
  unfold beginPoll
  split
  · exact idle_fail (by rfl) _
  · dsimp only
    split
    · exact idle_ends (by rfl) _ _
    · exact idle_goesOn (by rfl) (by rfl) _

theorem endPoll_idle {party : Party} {m : Move} (h : s.endPoll? party = some m) : Idle s m := by
  obtain ⟨_, -, rfl⟩ := Option.map_eq_some_iff.mp h
  exact idle_ends (by rfl) _ _

theorem respond_idle (device : Principal) (id : RequestId) (accept : Bool) :
    Idle s (s.respond device id accept) := by
  unfold respond
  split
  · exact idle_fail (by rfl) _
  · split
    · split
      · exact idle_fail (by rfl) _
      · exact idle_goesOn (by rfl) (by rfl) _
    · split
      · exact idle_fail (by rfl) _
      · exact idle_tell (by rfl) _

theorem endAccept_idle {id : RequestId} {m : Move} (h : s.endAccept? id = some m) : Idle s m := by
  obtain ⟨_, -, rfl⟩ := Option.map_eq_some_iff.mp h
  exact idle_ends (by rfl) _ _

theorem ownerOf_idle (device : Principal) : Idle s (s.ownerOf device) := by
  unfold ownerOf
  split
  · exact idle_fail (by rfl) _
  · split
    · exact idle_fail (by rfl) _
    · exact idle_tell (by rfl) _

theorem devicesOf_idle (user : Principal) : Idle s (s.devicesOf user) := by
  unfold devicesOf
  split
  · exact idle_fail (by rfl) _
  · split
    · exact idle_fail (by rfl) _
    · exact idle_tell (by rfl) _

theorem beginUnpair_idle (caller : Principal) (device : PrincipalId) :
    Idle s (s.beginUnpair caller device) := by
  unfold beginUnpair
  split
  · exact idle_fail (by rfl) _
  · exact idle_fail (by rfl) _
  · split
    · exact idle_goesOn (by rfl) (by rfl) _
    · exact idle_fail (by rfl) _

theorem removePairing_idle (device : PrincipalId) : Idle s (s.removePairing device) := by
  unfold removePairing
  split
  · exact idle_tell (by rfl) _
  · exact idle_fail (by rfl) _

/-! ### Calls about messages -/

theorem checkRates_relay (sender : PrincipalId) : (s.checkRates sender).1.relay = s.relay := by
  unfold checkRates
  split <;> rfl

theorem beginPublish_mailed (party : Party) {phase : Phase} {letter : Letter}
    (hphase : phase.letter? = some letter) (early : ∀ letter, phase ≠ .queues letter) :
    Mailed s party phase (s.beginPublish letter) := by
  have hrelay := checkRates_relay (s := s) letter.sender
  unfold beginPublish
  split
  · rename_i h
    exact .idle (idle_fail (by rw [h] at hrelay; exact hrelay) _) fun l hl => absurd hl (early l)
  · rename_i s' h
    replace hrelay : s'.relay = s.relay := by rw [h] at hrelay; exact hrelay
    split
    · exact .idle (idle_fail hrelay _) fun l hl => absurd hl (early l)
    · split
      · exact .carries letter _ hphase early rfl rfl hrelay
      · split
        · exact .idle (idle_fail hrelay _) fun l hl => absurd hl (early l)
        · exact .carries letter _ hphase early rfl rfl hrelay

theorem compareOwners_mailed (party : Party) {phase : Phase} {letter : Letter}
    (hphase : phase.letter? = some letter) (early : ∀ letter, phase ≠ .queues letter)
    (senderOwner : Option PrincipalId) :
    Mailed s party phase (s.compareOwners letter senderOwner) := by
  unfold compareOwners
  split
  · exact .idle (idle_fail rfl _) fun l hl => absurd hl (early l)
  · split
    · exact .carries letter _ hphase early rfl rfl rfl
    · exact .idle (idle_fail rfl _) fun l hl => absurd hl (early l)

theorem enqueue_mailed (party : Party) (letter : Letter) :
    Mailed s party (.queues letter) (s.enqueue letter) := by
  unfold enqueue
  cases hfault : s.relay.fault with
  | some cause =>
    have hpublish : s.relay.publish letter.recipient (letter.message s.clock.wall) =
        (s.relay, .error cause) := by simp [Relay.publish, hfault]
    simp only [hpublish]
    exact .idle (idle_fail rfl _) fun _ _ => by simp [hfault]
  | none =>
    cases hpublish : s.relay.publish letter.recipient (letter.message s.clock.wall) with
    | mk relay told =>
    cases told with
    | error cause => simp [Relay.publish, hfault] at hpublish
    | ok stored =>
      simp only
      exact .queued letter rfl hfault rfl (by rw [hpublish]; rfl)

theorem runConsumer_mailed {party : Party} {m : Move} (h : s.runConsumer? party = some m) :
    Mailed s party .consumes m := by
  obtain ⟨⟨relay, consumed?⟩, hrun, rfl⟩ := Option.map_eq_some_iff.mp h
  cases consumed? with
  | none => exact .consumes rfl none hrun fun _ hn => (Progress.goesOn.inj hn).symm
  | some c => exact .consumes rfl (some c) hrun nofun

/-- **All that a step of a call does with letters and with the relay.** -/
theorem mailed_of_step? {party : Party} {phase : Phase} {m : Move}
    (h : s.step? party phase = some m) : Mailed s party phase m := by
  cases phase with
  | begins call =>
    obtain rfl := Option.some.inj h
    cases call with
    | pair id requester device => exact .idle (beginPair_idle id requester device) nofun
    | poll device timeout => exact .idle (beginPoll_idle party device timeout) nofun
    | respond device id accept => exact .idle (respond_idle device id accept) nofun
    | owner device => exact .idle (ownerOf_idle device) nofun
    | devices user => exact .idle (devicesOf_idle user) nofun
    | unpair caller device => exact .idle (beginUnpair_idle caller device) nofun
    | publish sender recipient kind correlationId data => exact beginPublish_mailed party rfl nofun
    | consume recipient timeout => exact .begins recipient timeout rfl rfl rfl
  | sends id requester target =>
    obtain rfl := Option.some.inj h
    exact .idle (sendRequest_idle id requester target) nofun
  | awaits id device due => exact .idle (endWait_idle h) nofun
  | lists => exact .idle (endPoll_idle h) nofun
  | records id => exact .idle (endAccept_idle h) nofun
  | removes device =>
    obtain rfl := Option.some.inj h
    exact .idle (removePairing_idle device) nofun
  | compares letter senderOwner =>
    obtain rfl := Option.some.inj h
    exact compareOwners_mailed party rfl (fun _ h => Phase.noConfusion h) senderOwner
  | queues letter =>
    obtain rfl := Option.some.inj h
    exact enqueue_mailed party letter
  | consumes => exact runConsumer_mailed h

/-- Whatever a call does, nobody else begins to consume. -/
theorem clients_of_step? (tended : s.relay.Tended) {party : Party} {phase : Phase} {m : Move}
    (h : s.step? party phase = some m) : m.service.relay.Tended ∧
      ∀ client ∈ m.service.relay.clients, client.1 ≠ party → client ∈ s.relay.clients := by
  cases mailed_of_step? h with
  | idle idle =>
    rw [idle.relay]
    exact ⟨tended, fun _ hclient _ => hclient⟩
  | carries _ _ _ _ _ _ relay =>
    rw [relay]
    exact ⟨tended, fun _ hclient _ => hclient⟩
  | queued _ _ _ _ relay =>
    rw [relay, Relay.clients_publish]
    exact ⟨tended.publish _ _, fun _ hclient _ => hclient⟩
  | begins recipient timeout _ _ relay =>
    rw [relay, Relay.clients_begin]
    refine ⟨tended.begin _ _ _ _, fun client hclient hother => ?_⟩
    rcases List.mem_append.mp hclient with hclient | hclient
    · exact hclient
    · exact absurd (by rw [List.mem_singleton.mp hclient]) hother
  | consumes _ consumed? run =>
    obtain ⟨htended, hclients, -⟩ := Relay.ran_of_tended tended run
    refine ⟨htended, fun client hclient _ => ?_⟩
    rw [hclients] at hclient
    split at hclient
    · exact hclient
    · exact List.mem_of_mem_filter hclient

/-- A call that publishes neither begins nor ends to consume. -/
theorem relay_of_publishes (tended : s.relay.Tended) {party : Party} {phase : Phase} {m : Move}
    (publishes : phase.publishes) (h : s.step? party phase = some m) :
    m.service.relay.Tended ∧ m.service.relay.clients = s.relay.clients := by
  cases mailed_of_step? h with
  | idle idle =>
    rw [idle.relay]
    exact ⟨tended, rfl⟩
  | carries _ _ _ _ _ _ relay =>
    rw [relay]
    exact ⟨tended, rfl⟩
  | queued _ _ _ _ relay =>
    rw [relay]
    exact ⟨tended.publish _ _, Relay.clients_publish ..⟩
  | begins _ _ before => exact (before ▸ publishes).elim
  | consumes before => exact (before ▸ publishes).elim

end Service
end DeviceRelay

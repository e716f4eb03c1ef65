/-
# A device has one owner at a time, whoever accepts and records

Several requests for one device may be live, accepted and recorded at once. A request is
accepted as the store records its pairing, which it does only while the device has no owner.
So between two pairings of a device that are recorded a call removes the first. Any other
request that was accepted is rejected when its recording ends, and who waits for it learns
that the device is paired, unless the store fails. The owner of a device is the requester of
the pairing that was recorded last, as long as no call removes it.

Key definitions: `Server.Refused`, `Server.Settled`, `Server.Exclusive`.
Key theorems: `Server.settled_of_accepts`, `Server.accepted_iff_recorded`,
`Server.exclusive_of_history`.
-/
import DeviceRelay.Proofs.Server.Ownership

namespace DeviceRelay
namespace Server

/-- Why a store does not record a pairing, and the error that says so. -/
inductive Refused (store : PairingStore) (device : PrincipalId) : Error → Prop where
  | taken (usable : store.fault = none) (owner : PrincipalId)
    (owned : store.owner? device = some owner) : Refused store device (.alreadyPaired device)
  | failed (cause : StorageError) (fault : store.fault = some (.error cause)) :
    Refused store device (.storage cause)
  | broken (fault : store.fault = some .breakdown) : Refused store device .cancelled

/-- What became of a request that a call claimed in the step `j` of a run. -/
inductive Settled (steps : List Step) (s : Server) (j : Nat) (request : PairingRequest) : Prop where
  /-- The store did not answer yet, and it can as soon as it is due. -/
  | open (w : EdgeWrite) (mem : w ∈ s.service.pairing.writes) (own : w.request = request)
    (goes : w.recording = none)
    (answers : w.due ≤ s.service.clock.now →
      (s.step (.run (.background (.write request.id)))).isSome = true)
  | accepted (k : Nat) (z : Step) (later : j < k) (here : steps[k]? = some z)
    (ends : Ends request .recorded z) (state : s.service.pairing.stateOf request.id = .accepted)
  /-- The store refused, and whoever waits for it learns why. -/
  | rejected (k : Nat) (z : Step) (later : j < k) (here : steps[k]? = some z) (r : Recording)
    (ends : Ends request r z) (error : Error)
    (why : Refused z.before.service.store request.target.id error)
    (state : s.service.pairing.stateOf request.id = .rejected)
    (returns : ∀ label c, s.call? label = some c → c.phase = .records request.id →
      ∃ t, s.step (.run (.call label)) = some (t, [endEvent label (.failed error) c.origin]) ∧
        t.service = s.service)

/-- What a run says of the pairings of a device. -/
structure Exclusive (steps : List Step) (s : Server) (device : PrincipalId) : Prop where
  /-- Accepted is what was recorded. -/
  accepted : ∀ id, s.service.pairing.stateOf id = .accepted ↔
    ∃ (k : Nat) (z : Step) (request : PairingRequest), steps[k]? = some z ∧ request.id = id ∧
      Ends request .recorded z
  /-- Between two pairings a call removes the first. -/
  apart : ∀ (i k : Nat) (y z : Step) (earlier later : PairingRequest), i < k →
    steps[i]? = some y → steps[k]? = some z → Ends earlier .recorded y → Ends later .recorded z →
    earlier.target.id = device → later.target.id = device →
    ∃ (j : Nat) (x : Step) (label : String), i < j ∧ j < k ∧ steps[j]? = some x ∧
      Unpairs label earlier.requester.id device x
  settled : ∀ (j : Nat) (z : Step) (label : String) (caller : Principal) (request : PairingRequest),
    steps[j]? = some z → Accepts label caller request z → request.target.id = device →
    Settled steps s j request
  /-- The owner is the requester of the latest pairing, if no call removed it. -/
  kept : ∀ (k : Nat) (z : Step) (request : PairingRequest), steps[k]? = some z →
    Ends request .recorded z → request.target.id = device →
    (∀ (m : Nat) (x : Step) label owner, k < m → steps[m]? = some x →
      ¬ Unpairs label owner device x) →
    s.owner? device = some request.requester.id
  /-- If a call removed the latest pairing, the device has no owner. -/
  left : ∀ (k : Nat) (z : Step) label owner, steps[k]? = some z → Unpairs label owner device z →
    (∀ (m : Nat) (x : Step) (other : PairingRequest), k < m → steps[m]? = some x →
      Ends other .recorded x → other.target.id ≠ device) →
    s.owner? device = none
  /-- Without a pairing the device has no owner. -/
  free : (∀ (k : Nat) (z : Step) (request : PairingRequest), steps[k]? = some z →
    Ends request .recorded z → request.target.id ≠ device) → s.owner? device = none

variable {start s : Server} {steps : List Step}

/-! ### Requests that were claimed -/

/-- **A request is accepted once its pairing was recorded**, and only then. -/
theorem accepted_iff_recorded (h : machine.History start s steps) (S : start.Sound)
    (hnone : start.service.pairing.requests = []) (id : RequestId) :
    s.service.pairing.stateOf id = .accepted ↔
      ∃ (k : Nat) (z : Step) (request : PairingRequest), steps[k]? = some z ∧ request.id = id ∧
        Ends request .recorded z := by
  have Ss := sound_of_history h S
  rw [Ss.requests.accepted_iff, Ss.requests.ended_iff]
  constructor
  · intro hrecorded
    have hwrites : start.service.pairing.writes = [] :=
      List.map_eq_nil_iff.mp (List.append_eq_nil_iff.mp hnone).2
    obtain ⟨k, z, hk, hbefore, ⟨w, hw, hid, hr⟩, -⟩ := h.origin (P := fun t =>
      ∃ w ∈ t.service.pairing.writes, w.request.id = id ∧ w.recording = some .recorded)
      hrecorded (by simp [hwrites])
    have T := pairingTurn_of_history h S hk
    rcases T.write (sound_before h S hk) hw with hold | ⟨_, _, -, hgoes⟩ | ⟨r, hr', ends⟩
    · exact absurd ⟨w, hold, hid, hr⟩ hbefore
    · rw [hgoes] at hr
      cases hr
    · obtain rfl : r = .recorded := Option.some.inj (hr'.symm.trans hr)
      exact ⟨k, z, w.request, hk, hid, ends⟩
  · rintro ⟨k, z, request, hk, rfl, ends⟩
    obtain ⟨w, hw, rfl, hr⟩ := noted_since h S hk ends
    exact ⟨w, hw, rfl, hr⟩

theorem write_of_due {w : EdgeWrite} (hw : w ∈ s.service.pairing.writes) (hgoes : w.recording = none)
    (hdue : w.due ≤ s.service.clock.now) :
    (s.step (.run (.background (.write w.request.id)))).isSome = true := by
  have hfind : (s.service.pairing.writes.find? fun v =>
      v.request.id = w.request.id && Coordinator.canEnd s.service.clock.now v).isSome = true := by
    rw [List.find?_isSome]
    exact ⟨w, hw, by simp [Coordinator.canEnd, hgoes, hdue]⟩
  obtain ⟨v, hv⟩ := Option.isSome_iff_exists.mp hfind
  simp [step, runTask?, Service.runBackground?, Coordinator.endWrite?, hv]

/-- What an accept learns of a recording that ended without a pairing. -/
theorem endAccept_of_refused (S : s.Sound) {w : EdgeWrite} (hw : w ∈ s.service.pairing.writes)
    {error : Error} (hr : w.recording = some (.refused error) ∨
      w.recording = some .brokenOff ∧ error = .cancelled) :
    s.service.endAccept? w.request.id = some (s.service.fail error) := by
  have hfind : s.service.pairing.writes.find? (·.request.id = w.request.id) = some w :=
    Keyed.find?_of_mem S.requests.writesNodup hw
  have haccepted : s.service.pairing.accepted? w.request.id = some (.error error) := by
    unfold Coordinator.accepted?
    rw [hfind]
    rcases hr with hr | ⟨hr, rfl⟩ <;> simp [hr]
  unfold Service.endAccept?
  rw [haccepted]
  rfl

/-- **What is claimed is accepted or rejected when the store answers**, and not before. -/
theorem settled_of_accepts (h : machine.History start s steps) (S : start.Sound) {j : Nat} {z : Step}
    (hj : steps[j]? = some z) {label : String} {caller : Principal} {request : PairingRequest}
    (accepts : Accepts label caller request z) : Settled steps s j request := by
  have Ss := sound_of_history h S
  obtain ⟨w, hw, rfl, hgoes | ⟨k, x, r, hjk, hk, hr, ends⟩⟩ := stands_since h S hj accepts
  · exact .open w hw rfl hgoes fun hdue => write_of_due hw hgoes hdue
  · have hstate : s.service.pairing.stateOf w.request.id = Coordinator.stateAfter r := by
      rw [Ss.requests.stateOf_eq, (Ss.requests.ended_iff _ r).mpr ⟨w, hw, rfl, hr⟩]
      rfl
    have refused (error : Error) (why : Refused x.before.service.store w.request.target.id error)
        (hstate : s.service.pairing.stateOf w.request.id = .rejected)
        (hr : w.recording = some (.refused error) ∨
          w.recording = some .brokenOff ∧ error = .cancelled) : Settled steps s j w.request := by
      refine .rejected k x hjk hk r ends error why hstate fun label c hc hphase => ?_
      exact step_of_fail hc (hphase ▸ endAccept_of_refused Ss hw hr)
    have answers := ends.answers
    generalize x.after.service.store = store at answers
    cases answers with
    | recorded => exact .accepted k x hjk hk ends hstate
    | taken owner usable owned => exact refused _ (.taken usable owner owned) hstate (.inl hr)
    | failed cause fault => exact refused _ (.failed cause fault) hstate (.inl hr)
    | broken fault => exact refused _ (.broken fault) hstate (.inr ⟨hr, rfl⟩)

/-! ### The owner -/

/-- A device that nobody is paired with in a step keeps having no owner. -/
theorem OwnerTurn.keeps_free {device : PrincipalId} {z : Step} (T : OwnerTurn device z)
    (hlink : z.action.isLink = false) (hfree : z.before.owner? device = none)
    (hunrecorded : ∀ request, Ends request .recorded z → request.target.id ≠ device) :
    z.after.owner? device = none := by
  cases T with
  | rests same => exact same.trans hfree
  | gains user pairs =>
    obtain ⟨request, ends, -, htarget⟩ := pairs.request hlink
    exact absurd htarget (hunrecorded request ends)
  | loses _ _ unpairs => exact unpairs.freed

/-- **A device has one owner at a time**, in every run in which pairings are made by requests. -/
theorem exclusive_of_history {config : Config} {epoch : Int}
    (hstart : ofConfig config epoch = .ok start) (h : machine.History start s steps)
    (hlinks : ∀ z ∈ steps, z.action.isLink = false) (device : PrincipalId) :
    Exclusive steps s device := by
  have S := ofConfig_sound hstart
  obtain ⟨hfree, hnone⟩ := ofConfig_empty hstart
  have turn {n : Nat} {z : Step} (hn : steps[n]? = some z) : OwnerTurn device z :=
    ownerTurn_of_history h S hn device
  have unlinked {n : Nat} {z : Step} (hn : steps[n]? = some z) : z.action.isLink = false :=
    hlinks z (List.mem_of_getElem? hn)
  constructor
  case accepted => exact accepted_iff_recorded h S hnone
  case apart =>
    intro i k y z earlier later hik hi hk hy hz hearlier hlater
    have hfrom : y.after.owner? device = some earlier.requester.id :=
      (Pairs.recorded earlier hy rfl hearlier).owner?.2
    have hto : z.before.owner? device = none := (Pairs.recorded later hz rfl hlater).owner?.1
    obtain ⟨j, x, label, hij, hjk, hj, unpairs⟩ :=
      unpaired_between h S hik hi hk hfrom (by rw [hto]; simp)
    exact ⟨j, x, label, hij, hjk, hj, unpairs⟩
  case settled =>
    intro j z label caller request hj accepts _
    exact settled_of_accepts h S hj accepts
  case kept =>
    intro k z request hk ends htarget hkept
    have howned : z.after.owner? device = some request.requester.id :=
      (Pairs.recorded request ends rfl htarget).owner?.2
    refine h.since hk (P := fun t => t.owner? device = some request.requester.id) howned ?_
    intro n x hkn hn howned
    exact (turn hn).keeps howned fun label => hkept n x label _ hkn hn
  case left =>
    intro k z label owner hk unpairs hlast
    refine h.since hk (P := fun t => t.owner? device = none) unpairs.freed ?_
    intro n x hkn hn hx
    exact (turn hn).keeps_free (unlinked hn) hx fun other ends => hlast n x other hkn hn ends
  case free =>
    intro hnever
    refine h.stays (P := fun t => t.owner? device = none) (hfree device) fun z hz hbefore => ?_
    obtain ⟨n, hn⟩ := List.mem_iff_getElem?.mp hz
    exact (turn hn).keeps_free (unlinked hn) hbefore fun request ends => hnever n z request hn ends

/-! ### A run -/

/-- Two users ask for a device, which accepts both at once. The store answers the second first. -/
def acceptsBoth : List Action :=
  asksFor "alice" ⟨1⟩ Coordinator.alice ⟨2⟩ ++ asksFor "bob" ⟨2⟩ bob ⟨2⟩ ++
    agrees "yes" ⟨1⟩ Coordinator.phone ++ agrees "also" ⟨2⟩ Coordinator.phone ++
    [.run (.background (.write ⟨2⟩)), .run (.background (.write ⟨1⟩))]

theorem replay_acceptsBoth : (machine.replay estateStart acceptsBoth).isSome = true := by
  decide +kernel

/-- The second user owns the device, and the request of the first is rejected. -/
theorem exclusive_of_two : ∃ (start s : Server) (steps : List Step), ofConfig estate 0 = .ok start ∧
    machine.History start s steps ∧ (∀ z ∈ steps, z.action.isLink = false) ∧
      s.owner? ⟨2⟩ = some ⟨4⟩ ∧ s.service.pairing.stateOf ⟨2⟩ = .accepted ∧
      s.service.pairing.stateOf ⟨1⟩ = .rejected ∧ Exclusive steps s ⟨2⟩ := by
  have hstart : ofConfig estate 0 = .ok estateStart := rfl
  have h := Machine.history_of_replayed replay_acceptsBoth
  have hlinks : ∀ z ∈ ((machine.replay estateStart acceptsBoth).get replay_acceptsBoth).2,
      z.action.isLink = false := by decide +kernel
  exact ⟨_, _, _, hstart, h, hlinks, by decide +kernel, by decide +kernel, by decide +kernel,
    exclusive_of_history hstart h hlinks ⟨2⟩⟩

end Server
end DeviceRelay

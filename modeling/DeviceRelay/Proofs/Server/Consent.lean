/-
# Whoever owns a device asked for it, and the device agreed

A device is owned by a user who is no device, asked for this device in a call, and whose
request was sent. While the request was live the device itself accepted it in a call. Its
pairing was recorded after that, and no call removed it since. Another principal that answers
the request is told that it may not, or that the request is not live, and nothing changes.

Key definitions: `Server.Requested`, `Server.Agreed`, `Server.Consent`, `Server.Guarded`.
Key theorems: `Server.requested_of_sends`, `Server.agreed_of_accepts`,
`Server.consent_of_owner`, `Server.guarded_of_history`.
-/
import DeviceRelay.Proofs.Server.Ownership

namespace DeviceRelay
namespace Server

/-- A user asked for a device with a call, which found the device and sent the request in the
step `i` of a run. -/
structure Requested (steps : List Step) (request : PairingRequest) (i : Nat) : Prop where
  user : request.requester.isDevice = false
  device : request.target.isDevice = true
  asked : ∃ (a b : Nat) (label : String) (device : DeviceRef) (w y z : Step),
    steps[a]? = some w ∧ Asks w.before w.action label (.pair request.id request.requester device) ∧
    Entered steps (.call label) (.begins (.pair request.id request.requester device)) a b ∧
    steps[b]? = some y ∧ y.action = .run (.call label) ∧
    device.find? y.before.service.directory = some request.target ∧
    Entered steps (.call label) (.sends request.id request.requester request.target) b i ∧
    steps[i]? = some z ∧ Sends label request z

/-- The device that a request names accepted it with a call of its own in the step `j` of a
run, while the request was live. -/
structure Agreed (steps : List Step) (request : PairingRequest) (j : Nat) : Prop where
  asked : ∃ (a : Nat) (label : String) (device : Principal) (y z : Step),
    steps[a]? = some y ∧ Asks y.before y.action label (.respond device request.id true) ∧
    Entered steps (.call label) (.begins (.respond device request.id true)) a j ∧
    steps[j]? = some z ∧ Accepts label device request z

/-- What stands behind the pairing of a request: it was sent in the step `i` of a run, accepted
in the step `j` and recorded in the step `k`. -/
structure Consent (steps : List Step) (request : PairingRequest) (i j k : Nat) : Prop where
  sentFirst : i < j
  acceptedFirst : j < k
  requested : Requested steps request i
  agreed : Agreed steps request j
  recorded : ∃ z, steps[k]? = some z ∧ Ends request .recorded z
  /-- No call removed the pairing since. -/
  lasts : ∀ (m : Nat) (x : Step) (label : String) (owner : PrincipalId), k ≤ m →
    steps[m]? = some x → ¬ Unpairs label owner request.target.id x
  /-- What a call removed before is the pairing of another request, also if that was after the
  device accepted this one. -/
  apart : ∀ (m : Nat) (x : Step) (label : String) (owner : PrincipalId), m < k →
    steps[m]? = some x → Unpairs label owner request.target.id x →
    ∃ (n : Nat) (y : Step) (other : PairingRequest), n < m ∧ steps[n]? = some y ∧
      Ends other .recorded y ∧ other.id ≠ request.id ∧ other.requester.id = owner

/-- What a run says of those who own devices, and of those who answer for them. -/
structure Guarded (steps : List Step) (s : Server) : Prop where
  owned : ∀ user device, s.owner? device = some user → ∃ (request : PairingRequest) (i j k : Nat),
    request.requester.id = user ∧ request.target.id = device ∧ Consent steps request i j k
  /-- Who answers a request that does not name it fails, and nothing changes. -/
  barred : ∀ label c device id accept, s.call? label = some c →
    c.phase = .begins (.respond device id accept) →
    (∀ request, s.service.pairing.get id = .ok request → request.target.id ≠ device.id) →
    ∃ t e, s.step (.run (.call label)) = some (t, [endEvent label (.failed e) c.origin]) ∧
      t.service = s.service ∧
      (id ∈ s.service.pairing.liveIds →
        e = .forbidden "only the target device may respond to a pairing request") ∧
      (id ∉ s.service.pairing.liveIds → e = Coordinator.notLive id)

variable {start s : Server} {steps : List Step}

/-! ### Asking and agreeing -/

/-- A request that is sent was asked for. -/
theorem requested_of_sends (h : machine.History start s steps) (hcalls : start.calls = [])
    (hsessions : start.sessions = []) {i : Nat} {z : Step} (hi : steps[i]? = some z)
    {label : String} {request : PairingRequest} (sends : Sends label request z) :
    Requested steps request i := by
  obtain ⟨b, hsends⟩ := entered_before h hcalls hsessions hi sends.phase
  obtain ⟨y, hb, henters⟩ := hsends.enters
  cases henters with
  | goesOn _ asked previous _ before follows =>
    cases follows with
    | waits _ _ waits => exact waits.elim
    | asks _ _ _ device allowed _ =>
      obtain ⟨huser, hfound, hdevice⟩ := Service.pairingTarget_ok allowed
      obtain ⟨a, hbegins⟩ := entered_before h hcalls hsessions hb before
      obtain ⟨w, ha, hasks⟩ := hbegins.enters
      exact ⟨huser, hdevice, a, b, label, device, w, y, z, ha, hasks.of_begins, hbegins, hb, asked,
        hfound, hsends, hi, sends⟩

/-- A request that is accepted was answered by the device that it names. -/
theorem agreed_of_accepts (h : machine.History start s steps) (hcalls : start.calls = [])
    (hsessions : start.sessions = []) {j : Nat} {z : Step} (hj : steps[j]? = some z)
    {label : String} {device : Principal} {request : PairingRequest}
    (accepts : Accepts label device request z) : Agreed steps request j := by
  obtain ⟨a, hbegins⟩ := entered_before h hcalls hsessions hj accepts.phase
  obtain ⟨y, ha, hasks⟩ := hbegins.enters
  exact ⟨a, label, device, y, z, ha, hasks.of_begins, hbegins, hj, accepts⟩

theorem Accepts.mem_requests {label : String} {device : Principal} {request : PairingRequest}
    {z : Step} (accepts : Accepts label device request z) (S : z.before.Sound) :
    request ∈ z.before.service.pairing.requests :=
  Coordinator.mem_requests.mpr (.inl ⟨request.id, (get_ok S.requests accepts.live).2⟩)

/-! ### Owning -/

/-- What a call removes before a pairing is recorded is the pairing of another request. -/
theorem other_of_unpairs (h : machine.History start s steps) (S : start.Sound)
    (hlinks : ∀ z ∈ steps, z.action.isLink = false) {m k : Nat} {x z : Step} (hmk : m < k)
    (hm : steps[m]? = some x) (hk : steps[k]? = some z) {request : PairingRequest}
    (ends : Ends request .recorded z) (hfree : start.owner? request.target.id = none)
    {label : String} {owner : PrincipalId} (unpairs : Unpairs label owner request.target.id x) :
    ∃ (n : Nat) (y : Step) (other : PairingRequest), n < m ∧ steps[n]? = some y ∧
      Ends other .recorded y ∧ other.id ≠ request.id ∧ other.requester.id = owner := by
  obtain ⟨n, y, hn, hpairs, -⟩ := paired_of_history (h.take hm).1 S hfree unpairs.owned
  obtain ⟨hnm, hn⟩ := Machine.getElem?_take_eq_some hn
  obtain ⟨other, hends, howner, -⟩ := hpairs.request (hlinks y (List.mem_of_getElem? hn))
  have hne : other.id ≠ request.id := Ends.ne_of_lt h S (Nat.lt_trans hnm hmk) hn hk hends ends
  exact ⟨n, y, other, hnm, hn, hends, hne, howner⟩

/-- **Behind whoever owns a device stand a request, its acceptance and its recording.** -/
theorem consent_of_owner {config : Config} {epoch : Int} (hstart : ofConfig config epoch = .ok start)
    (h : machine.History start s steps) (hlinks : ∀ z ∈ steps, z.action.isLink = false)
    {user device : PrincipalId} (howned : s.owner? device = some user) :
    ∃ (request : PairingRequest) (i j k : Nat), request.requester.id = user ∧
      request.target.id = device ∧ Consent steps request i j k := by
  have S := ofConfig_sound hstart
  obtain ⟨-, hcalls, hsessions⟩ := ofConfig_ok hstart
  obtain ⟨hfree, hnone⟩ := ofConfig_empty hstart
  obtain ⟨k, z, hk, hpairs, hkept⟩ := paired_of_history h S (hfree device) howned
  obtain ⟨request, ends, hrequester, rfl⟩ :=
    hpairs.request (hlinks z (List.mem_of_getElem? hk))
  obtain ⟨w, hw, hrequest, -⟩ := ends.begun
  obtain ⟨j, y, label, answerer, hjk, hj, accepts⟩ := accepted_before h S hnone hk hw
  rw [hrequest] at accepts
  obtain ⟨i, x, asker, hij, hi, sends⟩ :=
    sent_before h S hnone hj (accepts.mem_requests (sound_before h S hj))
  refine ⟨request, i, j, k, hrequester, rfl, ?_⟩
  constructor
  case sentFirst => exact hij
  case acceptedFirst => exact hjk
  case requested => exact requested_of_sends h hcalls hsessions hi sends
  case agreed => exact agreed_of_accepts h hcalls hsessions hj accepts
  case recorded => exact ⟨z, hk, ends⟩
  case lasts =>
    intro m v remover owner hkm hm
    rcases Nat.lt_or_eq_of_le hkm with hlt | rfl
    · exact hkept m v remover owner hlt hm
    · obtain rfl := Option.some.inj (hm.symm.trans hk)
      exact hpairs.not_unpairs remover
  case apart =>
    intro m v remover owner hmk hm unpairs
    exact other_of_unpairs h S hlinks hmk hm hk ends (hfree _) unpairs

/-! ### Answering for another -/

/-- Who answers a request that does not name it fails, and nothing changes. -/
theorem respond_fails (v : Service) (device : Principal) (id : RequestId) (accept : Bool)
    (hother : ∀ request, v.pairing.get id = .ok request → request.target.id ≠ device.id) :
    ∃ e, v.respond device id accept = v.fail e ∧
      (id ∈ v.pairing.liveIds →
        e = .forbidden "only the target device may respond to a pairing request") ∧
      (id ∉ v.pairing.liveIds → e = Coordinator.notLive id) := by
  have hlive : id ∈ v.pairing.liveIds ↔ (v.pairing.live.registry.get? id).isSome = true :=
    Keyed.mem_keys_iff _ _
  unfold Service.respond Service.answerable
  cases hget : v.pairing.live.registry.get? id with
  | none =>
    have hnone : v.pairing.get id = .error (Coordinator.notLive id) := by
      unfold Coordinator.get
      rw [hget]
    rw [hnone]
    exact ⟨_, rfl, fun hid => by simp [hlive, hget] at hid, fun _ => rfl⟩
  | some request =>
    have hsome : v.pairing.get id = .ok request := by
      unfold Coordinator.get
      rw [hget]
    rw [hsome]
    simp only [if_neg (hother request hsome)]
    exact ⟨_, rfl, fun _ => rfl, fun hid => absurd (hlive.mpr (by rw [hget]; rfl)) hid⟩

/-- **Nobody comes by a device that did not agree, and nobody but the device agrees.** -/
theorem guarded_of_history {config : Config} {epoch : Int} (hstart : ofConfig config epoch = .ok start)
    (h : machine.History start s steps) (hlinks : ∀ z ∈ steps, z.action.isLink = false) :
    Guarded steps s where
  owned user device howned := consent_of_owner hstart h hlinks howned
  barred label c device id accept hc hphase hother := by
    obtain ⟨e, hfails, hlive, hnotLive⟩ := respond_fails s.service device id accept hother
    have hstep : s.service.step? (.call label) c.phase = some (s.service.fail e) := by
      rw [hphase, ← hfails]
      rfl
    obtain ⟨t, ht, hservice⟩ := step_of_fail hc hstep
    exact ⟨t, e, ht, hservice, hlive, hnotLive⟩

/-! ### A run -/

/-- Two users ask for a device. It accepts both while the store is slow, and leaves the first
before the pairing with the second is recorded. -/
def changesHands : List Action :=
  asksFor "bob" ⟨1⟩ bob ⟨2⟩ ++ asksFor "alice" ⟨2⟩ Coordinator.alice ⟨2⟩ ++
    agrees "yes" ⟨1⟩ Coordinator.phone ++ [.run (.background (.write ⟨1⟩))] ++
    agrees "also" ⟨2⟩ Coordinator.phone ++ checksOut "leave" Coordinator.phone ⟨2⟩ ++
    [.run (.call "leave"), .run (.background (.write ⟨2⟩)),
      .call "intrude" (.respond laptop ⟨2⟩ true)]

theorem replay_changesHands : (machine.replay estateStart changesHands).isSome = true := by
  decide +kernel

/-- The second user owns the device, and a call that answers for it is about to fail. -/
theorem guarded_of_two : ∃ (start s : Server) (steps : List Step), ofConfig estate 0 = .ok start ∧
    machine.History start s steps ∧ (∀ z ∈ steps, z.action.isLink = false) ∧
      s.owner? ⟨2⟩ = some ⟨1⟩ ∧ (s.call? "intrude").isSome = true ∧ Guarded steps s := by
  have hstart : ofConfig estate 0 = .ok estateStart := rfl
  have h := Machine.history_of_replayed replay_changesHands
  have hlinks : ∀ z ∈ ((machine.replay estateStart changesHands).get replay_changesHands).2,
      z.action.isLink = false := by decide +kernel
  exact ⟨_, _, _, hstart, h, hlinks, by decide +kernel, by decide +kernel,
    guarded_of_history hstart h hlinks⟩

end Server
end DeviceRelay

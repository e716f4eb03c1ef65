/-
# Networks are households

While nobody calls but principals of the directory, and pairings are made by accepted requests
only, owners are users and what they own are devices. So who owns somebody is owned by nobody,
and everyone has one head: the owner, or itself. Two principals are in one network if they have
one head. Networks are then the users with their devices, the devices without an owner, and
those whom the directory does not know, each for itself. A letter goes just as far as its
sender's network.

Key definitions: `Action.caller?`, `Server.Knows`, `Server.Roles`, `Server.head`,
`Server.Network`, `Server.Partitioned`.
Key theorems: `Server.roles_of_history`, `Server.together_iff_head`,
`Server.partitioned_of_history`.
-/
import DeviceRelay.Proofs.Directory
import DeviceRelay.Proofs.Server.Consent
import DeviceRelay.Proofs.Server.Networks
import DeviceRelay.Proofs.Server.Settings
import DeviceRelay.Proofs.Service.Posting
import Mathlib.Data.Set.Insert

namespace DeviceRelay

/-- The principal who makes a call. -/
def Call.caller? : Call → Option Principal
  | .pair _ p _ | .poll p _ | .respond p _ _ | .owner p | .devices p | .unpair p _
  | .publish p _ _ _ _ => some p
  | .consume _ _ => none

/-- The principal who makes a call without a token. -/
def Action.caller? : Action → Option Principal
  | .call _ asked => asked.caller?
  | _ => none

namespace Server

/-- The directory knows a principal. -/
def Knows (s : Server) (p : Principal) : Prop := s.service.directory.lookup? p.id = some p

instance (s : Server) (p : Principal) : Decidable (s.Knows p) := inferInstanceAs (Decidable (_ = _))

/-- An owner is a user and what it owns is a device, both known. -/
def Roles (s : Server) : Prop :=
  ∀ user device, s.owner? device = some user → ∃ p q, s.Knows p ∧ s.Knows q ∧ p.id = user ∧
    q.id = device ∧ p.isDevice = false ∧ q.isDevice = true

/-- The one whose household a principal is in: its owner, or itself. -/
def head (s : Server) (id : PrincipalId) : PrincipalId := (s.owner? id).getD id

/-- What the networks are. -/
inductive Network (s : Server) : Set PrincipalId → Prop where
  /-- A user with the devices that it owns. -/
  | household (user : Principal) (known : s.Knows user) (isUser : user.isDevice = false) :
    Network s { id | id = user.id ∨ s.owner? id = some user.id }
  /-- A device that nobody owns. -/
  | unowned (device : Principal) (known : s.Knows device) (isDevice : device.isDevice = true)
    (free : s.owner? device.id = none) : Network s {device.id}
  /-- One whom the directory does not know. -/
  | stranger (id : PrincipalId) (unknown : s.service.directory.lookup? id = none) : Network s {id}

/-- Two principals are in one of the networks. -/
def Share (s : Server) (a b : PrincipalId) : Prop :=
  ∃ members, s.Network members ∧ a ∈ members ∧ b ∈ members

/-- Every principal is in one network, and letters do not leave it. -/
structure Partitioned (s : Server) : Prop where
  equivalence : Equivalence s.Together
  classes : ∀ members, (∃ a, members = { b | s.Together a b }) ↔ s.Network members
  shared : ∀ a b, s.Share a b ↔ s.Together a b
  /-- A call that publishes a letter to a known recipient, if nothing else hinders it. -/
  messaging : ∀ (party : Party) (call : Call) (letter : Letter),
    (Phase.begins call).letter? = some letter →
    (s.service.directory.lookup? letter.recipient).isSome = true →
    s.service.Clear letter.sender →
    ∃ t ending, Service.RunsAlone party s.service (.begins call) t ending ∧
      (s.Share letter.sender letter.recipient ∧ ending = .answered .done ∨
        ¬ s.Share letter.sender letter.recipient ∧ ending = .failed .crossNetwork)

variable {start s : Server} {steps : List Step}

/-! ### Who calls -/

/-- The call to which a request leads is made by its caller. -/
theorem caller?_of_planFor {endpoint : Endpoint} {r : HttpRequest} {draw : Draw}
    {caller : Principal} {call : Call} {rendering : Rendering}
    (h : endpoint.planFor caller r draw = .ok (.call call rendering)) :
    call.caller? = some caller := by
  cases endpoint with
  | pair =>
    obtain ⟨payload, -, h⟩ := Except.ok_of_bind h
    obtain ⟨device, -, h⟩ := Except.ok_of_bind h
    obtain ⟨rfl, -⟩ := Plan.call.inj (Except.ok.inj h)
    rfl
  | poll | respond | unpair | writeRequest | writeResponse =>
    obtain ⟨payload, -, h⟩ := Except.ok_of_bind h
    obtain ⟨rfl, -⟩ := Plan.call.inj (Except.ok.inj h)
    rfl
  | devices | owner =>
    obtain ⟨rfl, -⟩ := Plan.call.inj (Except.ok.inj h)
    rfl
  | socket | health | metrics => cases h

theorem knows_of_caller (own : s.service.directory.Own) {r : HttpRequest} {p : Principal}
    (h : s.service.caller r = .ok p) : s.Knows p := by
  unfold Service.caller at h
  split at h
  · exact Directory.lookup?_of_authenticate own h
  · cases h

/-- Who asks for a call is known, if this holds of those who call directly. -/
theorem knows_of_asks (own : s.service.directory.Own) {a : Action} {label : String} {call : Call}
    (asks : Asks s a label call) {p : Principal} (calls : call.caller? = some p)
    (direct : ∀ p ∈ a.caller?, s.Knows p) : s.Knows p := by
  cases asks with
  | direct => exact direct p calls
  | http _ r draw _ rendering plan =>
    obtain ⟨endpoint, caller, hcaller, hplan⟩ := planFor_of_plan plan
    obtain rfl := Option.some.inj (calls.symm.trans (caller?_of_planFor hplan))
    exact knows_of_caller own hcaller

/-! ### Owners and what they own -/

theorem ofConfig_own {config : Config} {epoch : Int} (h : ofConfig config epoch = .ok s) :
    s.service.directory.Own := by
  unfold ofConfig at h
  split at h
  · cases h
  · rename_i directory hdirectory
    have hown := Directory.own_of_ofEntries hdirectory
    unfold Service.ofConfig at h
    split at h
    · cases h
    · obtain rfl := Except.ok.inj h
      exact hown

theorem directory_of_history (h : machine.History start s steps) :
    s.service.directory = start.service.directory :=
  congrArg Prod.snd (settings_of_history h)

/-- **Along a run owners are users and what they own are devices.** -/
theorem roles_of_history {config : Config} {epoch : Int}
    (hstart : ofConfig config epoch = .ok start) (h : machine.History start s steps)
    (hlinks : ∀ z ∈ steps, z.action.isLink = false)
    (hcallers : ∀ z ∈ steps, ∀ p ∈ z.action.caller?, z.before.Knows p) : s.Roles := by
  intro user device howned
  have hown := ofConfig_own hstart
  obtain ⟨request, i, j, k, rfl, rfl, consent⟩ := consent_of_owner hstart h hlinks howned
  obtain ⟨a, b, label, ref, w, y, z, ha, asks, -, hb, -, found, -⟩ := consent.requested.asked
  have hw : w.before.service.directory = s.service.directory :=
    (directory_of_history (h.take ha).1).trans (directory_of_history h).symm
  have hy : y.before.service.directory = s.service.directory :=
    (directory_of_history (h.take hb).1).trans (directory_of_history h).symm
  rw [← directory_of_history h] at hown
  have hrequester : w.before.Knows request.requester :=
    knows_of_asks (hw ▸ hown) asks rfl (hcallers w (List.mem_of_getElem? ha))
  have htarget : s.Knows request.target := Directory.lookup?_of_find? hown (hy ▸ found)
  unfold Knows at hrequester
  rw [hw] at hrequester
  exact ⟨request.requester, request.target, hrequester, htarget, rfl, rfl,
    consent.requested.user, consent.requested.device⟩

theorem Knows.eq {p q : Principal} (hp : s.Knows p) (hq : s.Knows q) (h : p.id = q.id) : p = q := by
  unfold Knows at hp hq
  rw [h, hq] at hp
  exact (Option.some.inj hp).symm

theorem Roles.free_of_user (R : s.Roles) {p : Principal} (hp : s.Knows p)
    (isUser : p.isDevice = false) : s.owner? p.id = none := by
  cases howned : s.owner? p.id with
  | none => rfl
  | some user =>
    obtain ⟨_, q, -, hq, -, hid, -, isDevice⟩ := R _ _ howned
    obtain rfl := hq.eq hp hid
    rw [isUser] at isDevice
    cases isDevice

/-- **Nobody owns an owner.** -/
theorem Roles.free_of_owner (R : s.Roles) {user device : PrincipalId}
    (h : s.owner? device = some user) : s.owner? user = none := by
  obtain ⟨p, -, hp, -, rfl, -, isUser, -⟩ := R _ _ h
  exact R.free_of_user hp isUser

/-! ### Heads -/

theorem head_of_owner {a user : PrincipalId} (h : s.owner? a = some user) : s.head a = user := by
  rw [head, h, Option.getD_some]

theorem head_of_free {a : PrincipalId} (h : s.owner? a = none) : s.head a = a := by
  rw [head, h, Option.getD_none]

theorem Roles.free_head (R : s.Roles) (a : PrincipalId) : s.owner? (s.head a) = none := by
  cases ha : s.owner? a with
  | none => rw [head_of_free ha, ha]
  | some user => rw [head_of_owner ha, R.free_of_owner ha]

/-- **Two principals are in one network if they have one head.** -/
theorem together_iff_head (R : s.Roles) (a b : PrincipalId) :
    s.Together a b ↔ s.head a = s.head b := by
  rw [together_iff]
  constructor
  · rintro (rfl | ha | hb | ⟨user, ha, hb⟩)
    · rfl
    · rw [head_of_owner ha, head_of_free (R.free_of_owner ha)]
    · rw [head_of_owner hb, head_of_free (R.free_of_owner hb)]
    · rw [head_of_owner ha, head_of_owner hb]
  · intro hsame
    cases ha : s.owner? a with
    | none =>
      rw [head_of_free ha] at hsame
      cases hb : s.owner? b with
      | none => exact .inl (hsame.trans (head_of_free hb))
      | some user => exact .inr (.inr (.inl (by rw [hsame, head_of_owner hb])))
    | some user =>
      rw [head_of_owner ha] at hsame
      cases hb : s.owner? b with
      | none => exact .inr (.inl (by rw [hsame, head_of_free hb]))
      | some other =>
        rw [head_of_owner hb] at hsame
        exact .inr (.inr (.inr ⟨user, rfl, by rw [hsame]⟩))

/-- To be in one network is to have one head, so it is an equivalence. -/
theorem equivalence_together (R : s.Roles) : Equivalence s.Together where
  refl a := (together_iff_head R a a).mpr rfl
  symm hab := (together_iff_head R _ _).mpr ((together_iff_head R _ _).mp hab).symm
  trans hab hbc := (together_iff_head R _ _).mpr
    (((together_iff_head R _ _).mp hab).trans ((together_iff_head R _ _).mp hbc))

/-! ### Classes -/

/-- Together with one whom nobody owns are those whom it owns. -/
theorem together_of_free (R : s.Roles) {a : PrincipalId} (free : s.owner? a = none) :
    { b | s.Together a b } = { b | b = a ∨ s.owner? b = some a } := by
  ext b
  rw [Set.mem_ofPred_eq, Set.mem_ofPred_eq, together_iff_head R, head_of_free free]
  cases hb : s.owner? b with
  | none =>
    rw [head_of_free hb]
    simp [eq_comm]
  | some user =>
    rw [head_of_owner hb]
    constructor
    · rintro rfl
      exact .inr rfl
    · rintro (rfl | hsame)
      · rw [free] at hb
        cases hb
      · exact (Option.some.inj hsame).symm

/-- Together with one who is no user, and whom nobody owns, is nobody else. -/
theorem together_of_alone (R : s.Roles) {a : PrincipalId} (free : s.owner? a = none)
    (noUser : ∀ p, s.Knows p → p.id = a → p.isDevice = true) : { b | s.Together a b } = {a} := by
  have hnothing (b : PrincipalId) : s.owner? b ≠ some a := by
    intro hb
    obtain ⟨p, -, hp, -, hid, -, isUser, -⟩ := R _ _ hb
    rw [noUser p hp hid] at isUser
    cases isUser
  rw [together_of_free R free]
  ext b
  rw [Set.mem_ofPred_eq, Set.mem_singleton_iff]
  exact or_iff_left (hnothing b)

/-- **The classes are the networks.** -/
theorem class_iff_network (R : s.Roles) (own : s.service.directory.Own)
    (members : Set PrincipalId) : (∃ a, members = { b | s.Together a b }) ↔ s.Network members := by
  constructor
  · rintro ⟨a, rfl⟩
    have hhead : { b | s.Together a b } = { b | s.Together (s.head a) b } := by
      ext b
      rw [Set.mem_ofPred_eq, Set.mem_ofPred_eq, together_iff_head R, together_iff_head R,
        head_of_free (R.free_head a)]
    rw [hhead]
    have hfree := R.free_head a
    generalize s.head a = h at hfree
    cases hlookup : s.service.directory.lookup? h with
    | none =>
      rw [together_of_alone R hfree fun p hp hid => by
        rw [Knows, hid, hlookup] at hp
        cases hp]
      exact .stranger h hlookup
    | some p =>
      obtain rfl := own h p hlookup
      cases hdevice : p.isDevice with
      | false =>
        rw [together_of_free R hfree]
        exact .household p hlookup hdevice
      | true =>
        rw [together_of_alone R hfree fun q hq hid => hq.eq hlookup hid ▸ hdevice]
        exact .unowned p hlookup hdevice hfree
  · intro network
    cases network with
    | household user known isUser =>
      exact ⟨user.id, (together_of_free R (R.free_of_user known isUser)).symm⟩
    | unowned device known isDevice free =>
      exact ⟨device.id, (together_of_alone R free fun p hp hid => hp.eq known hid ▸ isDevice).symm⟩
    | stranger id unknown =>
      have hfree : s.owner? id = none := by
        cases howned : s.owner? id with
        | none => rfl
        | some user =>
          obtain ⟨_, q, -, hq, -, rfl, -⟩ := R _ _ howned
          rw [Knows, unknown] at hq
          cases hq
      refine ⟨id, (together_of_alone R hfree fun p hp hid => ?_).symm⟩
      rw [Knows, hid, unknown] at hp
      cases hp

theorem share_iff (R : s.Roles) (own : s.service.directory.Own) (a b : PrincipalId) :
    s.Share a b ↔ s.Together a b := by
  have E := equivalence_together R
  constructor
  · rintro ⟨members, network, ha, hb⟩
    obtain ⟨c, rfl⟩ := (class_iff_network R own members).mpr network
    exact E.trans (E.symm ha) hb
  · intro hab
    exact ⟨_, (class_iff_network R own _).mp ⟨a, rfl⟩, E.refl a, hab⟩

/-- **The principals are partitioned into households, and letters stay in one.** -/
theorem partitioned_of_history {config : Config} {epoch : Int}
    (hstart : ofConfig config epoch = .ok start) (h : machine.History start s steps)
    (hlinks : ∀ z ∈ steps, z.action.isLink = false)
    (hcallers : ∀ z ∈ steps, ∀ p ∈ z.action.caller?, z.before.Knows p) : s.Partitioned := by
  have R := roles_of_history hstart h hlinks hcallers
  have own : s.service.directory.Own := directory_of_history h ▸ ofConfig_own hstart
  constructor
  case equivalence => exact equivalence_together R
  case classes => exact class_iff_network R own
  case shared => exact share_iff R own
  case messaging =>
    intro party call letter carries known clear
    refine ⟨_, _, Service.runsAlone_post party s.service carries, ?_⟩
    rw [Service.post_of_clear clear known, share_iff R own]
    by_cases htogether : s.Together letter.sender letter.recipient
    · exact .inl ⟨htogether, congrArg Ending.ofPosting (if_pos htogether)⟩
    · exact .inr ⟨htogether, congrArg Ending.ofPosting (if_neg htogether)⟩

/-! ### A run -/

/-- Two devices are paired with two users, and one of them leaves again. -/
def movesIn : List Action :=
  asksFor "phone" ⟨1⟩ Coordinator.alice ⟨2⟩ ++ asksFor "laptop" ⟨2⟩ bob ⟨3⟩ ++
    agrees "yes" ⟨1⟩ Coordinator.phone ++ agrees "also" ⟨2⟩ laptop ++
    [.run (.background (.write ⟨1⟩)), .run (.background (.write ⟨2⟩))] ++
    checksOut "leave" laptop ⟨3⟩ ++ [.run (.call "leave")]

theorem replay_movesIn : (machine.replay estateStart movesIn).isSome = true := by
  decide +kernel

/-- A user with a device, a device of nobody and a user alone. -/
theorem partitioned_of_estate : ∃ (start s : Server) (steps : List Step),
    ofConfig estate 0 = .ok start ∧ machine.History start s steps ∧
      (∀ z ∈ steps, z.action.isLink = false) ∧
      (∀ z ∈ steps, ∀ p ∈ z.action.caller?, z.before.Knows p) ∧
      s.owner? ⟨2⟩ = some ⟨1⟩ ∧ s.owner? ⟨3⟩ = none ∧ s.Partitioned := by
  have hstart : ofConfig estate 0 = .ok estateStart := rfl
  have h := Machine.history_of_replayed replay_movesIn
  have hlinks : ∀ z ∈ ((machine.replay estateStart movesIn).get replay_movesIn).2,
      z.action.isLink = false := by decide +kernel
  have hcallers : ∀ z ∈ ((machine.replay estateStart movesIn).get replay_movesIn).2,
      ∀ p ∈ z.action.caller?, z.before.Knows p := by decide +kernel
  exact ⟨_, _, _, hstart, h, hlinks, hcallers, by decide +kernel, by decide +kernel,
    partitioned_of_history hstart h hlinks hcallers⟩

end Server
end DeviceRelay

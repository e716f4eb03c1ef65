/-
# Who unpairs a device owned it when that was checked

A call that unpairs a device asks the store for its owner in one step, checks that it is made
by this owner or by the device, and removes the pairing of the device in a later step. In
between another call may unpair the device, and the device may be paired anew. So the caller
is the device, or the owner at the check, who need not be the owner any longer: a former owner
can remove the pairing of another user. This takes an unpairing by another call and a new
pairing between the two steps, and nothing less.

Key definitions: `Server.Checked`, `Server.Repaired`, `Server.Removal`.
Key theorems: `Server.checked_of_unpairs`, `Server.repaired_of_checked`,
`Server.removal_of_history`, `Server.unpaired_by_former_owner`.
-/
import DeviceRelay.Proofs.Server.Ownership

namespace DeviceRelay
namespace Server

/-- A call to unpair a device was found lawful in the step `i` of a run, when the store told the
owner of the device, and is about to remove the pairing in the step `k`. -/
structure Checked (steps : List Step) (label : String) (caller : Principal)
    (device owner : PrincipalId) (i k : Nat) : Prop where
  asked : ∃ (a : Nat) (w : Step), steps[a]? = some w ∧
    Asks w.before w.action label (.unpair caller device) ∧
    Entered steps (.call label) (.begins (.unpair caller device)) a i
  checked : ∃ y, steps[i]? = some y ∧ y.action = .run (.call label) ∧
    y.before.owner? device = some owner ∧ y.after.owner? device = some owner
  may : caller.id = owner ∨ caller.id = device
  /-- The call waits to remove the pairing in between. -/
  waits : Entered steps (.call label) (.removes device) i k

/-- Another call unpaired a device from an owner after the step `i` of a run, and then the device
was paired with a user before the step `k`. -/
def Repaired (steps : List Step) (label : String) (device owner user : PrincipalId) (i k : Nat) :
    Prop :=
  ∃ (m n : Nat) (x y : Step) (other : String), i < m ∧ m < n ∧ n < k ∧ steps[m]? = some x ∧
    Unpairs other owner device x ∧ other ≠ label ∧ steps[n]? = some y ∧ Pairs user device y

/-- Who removes the pairing of a device with a user in the step `k` of a run. -/
inductive Removal (steps : List Step) (label : String) (user device : PrincipalId) (k : Nat) :
    Prop where
  /-- The user or the device does. -/
  | lawful (caller : Principal) (owner : PrincipalId) (i : Nat)
    (check : Checked steps label caller device owner i k)
    (may : caller.id = user ∨ caller.id = device) : Removal steps label user device k
  /-- A former owner does, who lost the device after the check. -/
  | late (caller : Principal) (owner : PrincipalId) (i : Nat)
    (check : Checked steps label caller device owner i k) (former : caller.id = owner)
    (lost : owner ≠ user) (repaired : Repaired steps label device owner user i k) :
    Removal steps label user device k

variable {start s : Server} {steps : List Step}

/-- **A call that removes a pairing was checked before**, and waited since to remove it. -/
theorem checked_of_unpairs (h : machine.History start s steps) (S : start.Sound)
    (hcalls : start.calls = []) (hsessions : start.sessions = []) {k : Nat} {z : Step}
    (hk : steps[k]? = some z) {label : String} {user device : PrincipalId}
    (unpairs : Unpairs label user device z) : ∃ (caller : Principal) (owner : PrincipalId) (i : Nat),
      Checked steps label caller device owner i k := by
  obtain ⟨i, hwaits⟩ := entered_before h hcalls hsessions hk unpairs.phase
  obtain ⟨y, hi, henters⟩ := hwaits.enters
  cases henters with
  | goesOn _ asked _ _ before follows =>
    cases follows with
    | waits _ _ waits => exact waits.elim
    | mayRemove caller _ owner told may =>
      obtain ⟨a, hbegins⟩ := entered_before h hcalls hsessions hi before
      obtain ⟨w, ha, hasks⟩ := hbegins.enters
      have hkept : y.after.owner? device = some owner :=
        ((ownerTurn_of_history h S hi device).same_of_phase asked before (by simp)).trans told
      exact ⟨caller, owner, i, ⟨a, w, ha, hasks.of_begins, hbegins⟩, ⟨y, hi, asked, told, hkept⟩,
        may, hwaits⟩

/-- **Who lost a device since the check lost it to another call, and the device was paired
anew.** -/
theorem repaired_of_checked (h : machine.History start s steps) (S : start.Sound) {i k : Nat}
    {label : String} {caller : Principal} {device owner : PrincipalId}
    (C : Checked steps label caller device owner i k) {z : Step} (hk : steps[k]? = some z)
    {user : PrincipalId} (howned : z.before.owner? device = some user) (hne : owner ≠ user) :
    Repaired steps label device owner user i k := by
  obtain ⟨y, hi, -, -, htold⟩ := C.checked
  have hlost : z.before.owner? device ≠ some owner := by
    rw [howned]
    exact fun hsame => hne (Option.some.inj hsame).symm
  obtain ⟨m, x, other, him, hmk, hm, unpairs⟩ :=
    unpaired_between h S C.waits.earlier hi hk htold hlost
  have hfreed : x.after.owner? device ≠ some user := by
    rw [unpairs.freed]
    simp
  obtain ⟨n, u, hmn, hnk, hn, pairs⟩ := paired_between h S hmk hm hk hfreed howned
  refine ⟨m, n, x, u, other, him, hmn, hnk, hm, unpairs, ?_, hn, pairs⟩
  rintro rfl
  exact (C.waits.stays m x him hmk hm).2 unpairs.asked

/-- **Who removes the pairing of a device with a user is this user, or the device, or the owner
at the check**, who lost the device since to another call. -/
theorem removal_of_history {config : Config} {epoch : Int} (hstart : ofConfig config epoch = .ok start)
    (h : machine.History start s steps) {k : Nat} {z : Step} (hk : steps[k]? = some z)
    {label : String} {user device : PrincipalId} (unpairs : Unpairs label user device z) :
    Removal steps label user device k := by
  have S := ofConfig_sound hstart
  obtain ⟨-, hcalls, hsessions⟩ := ofConfig_ok hstart
  obtain ⟨caller, owner, i, C⟩ := checked_of_unpairs h S hcalls hsessions hk unpairs
  by_cases hsame : owner = user
  · subst hsame
    exact .lawful caller owner i C C.may
  · rcases C.may with hformer | hdevice
    · have hrepaired := repaired_of_checked h S C hk unpairs.owned hsame
      exact .late caller owner i C hformer hsame hrepaired
    · exact .lawful caller owner i C (.inr hdevice)

/-! ### Two runs -/

/-- A user comes by a device and leaves it. -/
def comesAndGoes : List Action :=
  asksFor "alice" ⟨1⟩ Coordinator.alice ⟨2⟩ ++ agrees "yes" ⟨1⟩ Coordinator.phone ++
    [.run (.background (.write ⟨1⟩))] ++ checksOut "quit" Coordinator.alice ⟨2⟩ ++
    [.run (.call "quit")]

theorem replay_comesAndGoes : (machine.replay estateStart comesAndGoes).isSome = true := by
  decide +kernel

/-- An owner unpairs its device. -/
theorem removal_by_owner : ∃ (start s : Server) (steps : List Step) (k : Nat) (z : Step),
    ofConfig estate 0 = .ok start ∧ machine.History start s steps ∧ steps[k]? = some z ∧
      Unpairs "quit" ⟨1⟩ ⟨2⟩ z ∧ Removal steps "quit" ⟨1⟩ ⟨2⟩ k := by
  have hstart : ofConfig estate 0 = .ok estateStart := rfl
  have h := Machine.history_of_replayed replay_comesAndGoes
  have hlast : (((machine.replay estateStart comesAndGoes).get replay_comesAndGoes).2[8]?).map
      (fun z => (z.before.owner? ⟨2⟩, z.after.owner? ⟨2⟩)) = some (some ⟨1⟩, none) := by
    decide +kernel
  obtain ⟨z, hk, howners⟩ := Option.map_eq_some_iff.mp hlast
  obtain ⟨howned, hfreed⟩ := Prod.mk.inj howners
  have asked := Machine.action_at_of_replayed replay_comesAndGoes hk
  have T := ownerTurn_of_history h (ofConfig_sound hstart) hk ⟨2⟩
  have unpairs : Unpairs "quit" ⟨1⟩ ⟨2⟩ z :=
    T.unpairs (Option.some.inj asked).symm howned hfreed
  exact ⟨_, _, _, 8, z, hstart, h, hk, unpairs, removal_of_history hstart h hk unpairs⟩

/-- The owner of a device is found to be allowed to unpair it. Before it does, the device leaves
and accepts another user. -/
def leavesFirst : List Action :=
  asksFor "alice" ⟨1⟩ Coordinator.alice ⟨2⟩ ++ asksFor "bob" ⟨2⟩ bob ⟨2⟩ ++
    agrees "yes" ⟨1⟩ Coordinator.phone ++ [.run (.background (.write ⟨1⟩))] ++
    checksOut "quit" Coordinator.alice ⟨2⟩ ++ checksOut "leave" Coordinator.phone ⟨2⟩ ++
    [.run (.call "leave")] ++ agrees "also" ⟨2⟩ Coordinator.phone ++
    [.run (.background (.write ⟨2⟩)), .run (.call "quit")]

theorem replay_leavesFirst : (machine.replay estateStart leavesFirst).isSome = true := by
  decide +kernel

/-- **A former owner removes the pairing of the user to whom it lost the device.** -/
theorem unpaired_by_former_owner : ∃ (start s : Server) (steps : List Step) (k : Nat) (z : Step)
    (user device : PrincipalId) (owner : PrincipalId) (i : Nat),
    ofConfig estate 0 = .ok start ∧ machine.History start s steps ∧
      (∀ z ∈ steps, z.action.isLink = false) ∧ steps[k]? = some z ∧
      Unpairs "quit" user device z ∧ Checked steps "quit" Coordinator.alice device owner i k ∧
      ¬ (Coordinator.alice.id = user ∨ Coordinator.alice.id = device) := by
  have hstart : ofConfig estate 0 = .ok estateStart := rfl
  have h := Machine.history_of_replayed replay_leavesFirst
  have S := ofConfig_sound hstart
  have hlinks : ∀ z ∈ ((machine.replay estateStart leavesFirst).get replay_leavesFirst).2,
      z.action.isLink = false := by decide +kernel
  have hlast : (((machine.replay estateStart leavesFirst).get replay_leavesFirst).2[17]?).map
      (fun z => (z.before.owner? ⟨2⟩, z.after.owner? ⟨2⟩)) = some (some ⟨4⟩, none) := by
    decide +kernel
  obtain ⟨z, hk, howners⟩ := Option.map_eq_some_iff.mp hlast
  obtain ⟨howned, hfreed⟩ := Prod.mk.inj howners
  have asked := Machine.action_at_of_replayed replay_leavesFirst hk
  have T := ownerTurn_of_history h S hk ⟨2⟩
  have unpairs : Unpairs "quit" ⟨4⟩ ⟨2⟩ z :=
    T.unpairs (Option.some.inj asked).symm howned hfreed
  obtain ⟨caller, owner, i, C⟩ := checked_of_unpairs h S rfl rfl hk unpairs
  obtain rfl : caller = Coordinator.alice := by
    obtain ⟨a, w, ha, hasks, -⟩ := C.asked
    have haction := Machine.action_of_replayed replay_leavesFirst (List.mem_of_getElem? ha)
    generalize w.action = action at haction hasks
    cases hasks with
    | direct =>
      simp [leavesFirst, asksFor, agrees, checksOut, Coordinator.phone] at haction
      exact haction
    | http => simp [leavesFirst, asksFor, agrees, checksOut] at haction
  exact ⟨_, _, _, 17, z, ⟨4⟩, ⟨2⟩, owner, i, hstart, h, hlinks, hk, unpairs, C, by decide⟩

end Server
end DeviceRelay

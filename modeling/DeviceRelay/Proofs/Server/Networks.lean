/-
# A letter is queued once its owners connect its ends, though not at one instant

A call or a session that publishes asks the store for the owner of the sender in one step, for
the owner of the recipient in a later one, and queues its letter if the two answers connect
sender and recipient. Each answer is that of its own instant. So either the two are in one
network at some instant while the letter is published, or the sender left a user and the
recipient was paired with this user after that. Then a letter may be queued between two
principals that are never in one network.

Key definitions: `Server.Together`, `Server.Publishes`, `Server.Meet`, `Server.Crossed`.
Key theorems: `Server.together_iff`, `Server.publishes_of_accepted`, `Server.meet_or_crossed`,
`Server.network_of_history`, `Server.queued_across_networks`.
-/
import DeviceRelay.Proofs.Server.Ownership

namespace DeviceRelay
namespace Server

/-- Two principals are in one network, as the store has it. -/
def Together (s : Server) (a b : PrincipalId) : Prop :=
  s.service.store.edges.sameNetwork a b = true

instance (s : Server) (a b : PrincipalId) : Decidable (s.Together a b) :=
  inferInstanceAs (Decidable (_ = true))

/-- How a party publishes a letter, which it begins to in the step `w` of a run and queues in
the step `k`. -/
inductive Publishes (steps : List Step) (task : Task) (letter : Letter) (w k : Nat) : Prop where
  | toItself (call : Call) (carries : (Phase.begins call).letter? = some letter) (i : Nat)
    (begins : Entered steps task (.begins call) w i) (queues : Entered steps task (.queues letter) i k)
    (same : letter.sender = letter.recipient)
  /-- The store tells the owner of the sender in the step `i` and that of the recipient in the
  step `j`. -/
  | told (call : Call) (carries : (Phase.begins call).letter? = some letter)
    (owner : Option PrincipalId) (i j : Nat) (y x : Step)
    (begins : Entered steps task (.begins call) w i)
    (compares : Entered steps task (.compares letter owner) i j)
    (queues : Entered steps task (.queues letter) j k)
    (first : steps[i]? = some y) (asked : y.action = .run task)
    (before : y.before.phaseOf? task = some (.begins call))
    (senderOwner : y.before.owner? letter.sender = owner) (second : steps[j]? = some x)
    (connected : Edges.connected letter.sender letter.recipient owner
      (x.before.owner? letter.recipient) = true)

/-- Two principals are in one network before some step from the step `w` of a run to the
step `k`. -/
def Meet (steps : List Step) (a b : PrincipalId) (w k : Nat) : Prop :=
  ∃ (n : Nat) (x : Step), w ≤ n ∧ n ≤ k ∧ steps[n]? = some x ∧ x.before.Together a b

/-- A call unpairs a principal from a user after the step `w` of a run, and then another is
paired with this user before the step `k`. -/
def Crossed (steps : List Step) (a b : PrincipalId) (w k : Nat) : Prop :=
  ∃ (user : PrincipalId) (label : String) (m n : Nat) (x y : Step), w < m ∧ m < n ∧ n < k ∧
    steps[m]? = some x ∧ Unpairs label user a x ∧ steps[n]? = some y ∧ Pairs user b y

variable {start s : Server} {steps : List Step}

/-! ### Networks -/

/-- Two principals are in one network if they are the same, one owns the other, or one user owns
both. -/
theorem together_iff (s : Server) (a b : PrincipalId) : s.Together a b ↔ a = b ∨
    s.owner? a = some b ∨ s.owner? b = some a ∨
      ∃ user, s.owner? a = some user ∧ s.owner? b = some user := by
  unfold Together
  rw [Edges.sameNetwork_iff, Edges.connected_iff]
  rfl

theorem Meet.mono {a b : PrincipalId} {i j w k : Nat} (h : Meet steps a b i j) (hwi : w ≤ i)
    (hjk : j ≤ k) : Meet steps a b w k := by
  obtain ⟨n, x, hin, hnj, hn, together⟩ := h
  exact ⟨n, x, Nat.le_trans hwi hin, Nat.le_trans hnj hjk, hn, together⟩

theorem Crossed.mono {a b : PrincipalId} {i j w k : Nat} (h : Crossed steps a b i j) (hwi : w ≤ i)
    (hjk : j ≤ k) : Crossed steps a b w k := by
  obtain ⟨user, label, m, n, x, y, him, hmn, hnj, hm, unpairs, hn, pairs⟩ := h
  have hwm : w < m := Nat.lt_of_le_of_lt hwi him
  have hnk : n < k := Nat.lt_of_lt_of_le hnj hjk
  exact ⟨user, label, m, n, x, y, hwm, hmn, hnk, hm, unpairs, hn, pairs⟩

/-- **Who has a user at one instant and shares it with another only later** meets the other in
between, or lost the user before the other came by it. -/
theorem meet_or_crossed (h : machine.History start s steps) (S : start.Sound) {i j : Nat}
    {y x : Step} (hij : i < j) (hi : steps[i]? = some y) (hj : steps[j]? = some x)
    {a b user : PrincipalId} (hfrom : y.after.owner? a = some user)
    (hapart : y.after.owner? b ≠ some user) (hto : x.before.owner? b = some user) :
    Meet steps a b i j ∨ Crossed steps a b i j := by
  obtain ⟨n, z, hin, hnj, hn, pairs⟩ := paired_between h S hij hi hj hapart hto
  by_cases howned : z.before.owner? a = some user
  · have hlater : n + 1 < steps.length :=
      Nat.lt_of_le_of_lt hnj (List.getElem?_eq_some_iff.mp hj).1
    have hnext := List.getElem?_eq_getElem hlater
    have hsame : steps[n + 1].before = z.after :=
      h.between (P := fun t => t = z.after) (Nat.lt_succ_self n) hn hnext rfl (by omega)
    have hkept : z.after.owner? a = some user :=
      (ownerTurn_of_history h S hn a).keeps howned fun label => pairs.not_unpairs label
    have htogether : z.after.Together a b :=
      (together_iff _ _ _).mpr (.inr (.inr (.inr ⟨user, hkept, pairs.owner?.2⟩)))
    exact .inl ⟨n + 1, _, by omega, hnj, hnext, hsame ▸ htogether⟩
  · obtain ⟨m, u, label, him, hmn, hm, unpairs⟩ := unpaired_between h S hin hi hn hfrom howned
    exact .inr ⟨user, label, m, n, u, z, him, hmn, hnj, hm, unpairs, hn, pairs⟩

/-! ### Publishing -/

/-- **A letter that is queued was found to stay in a network**, by the owners that the store told
in two steps. -/
theorem publishes_of_accepted (h : machine.History start s steps) (hcalls : start.calls = [])
    (hsessions : start.sessions = []) {k : Nat} {z : Step} (hk : steps[k]? = some z)
    {letter : Letter} (accepted : accepted? z = some letter) :
    ∃ task w, z.action = .run task ∧ Publishes steps task letter w k := by
  obtain ⟨task, asked, hphase⟩ := phaseOf?_of_accepted accepted
  refine ⟨task, ?_⟩
  obtain ⟨j, queues⟩ := entered_before h hcalls hsessions hk hphase
  obtain ⟨x, hj, henters⟩ := queues.enters
  cases henters with
  | goesOn _ _ _ _ before follows =>
    cases follows with
    | waits _ _ waits => exact waits.elim
    | toItself call _ carries same =>
      obtain ⟨w, begins⟩ := entered_before h hcalls hsessions hj before
      exact ⟨w, asked, .toItself call carries j begins queues same⟩
    | connects _ owner connected =>
      obtain ⟨i, compares⟩ := entered_before h hcalls hsessions hj before
      obtain ⟨y, hi, henters⟩ := compares.enters
      generalize hcompares : Phase.compares letter owner = phase at henters
      cases henters with
      | begins | hears => cases hcompares
      | goesOn _ compared _ _ earlier follows =>
        cases follows with
        | waits _ _ waits => subst hcompares; exact waits.elim
        | learns call _ carries =>
          obtain ⟨rfl, rfl⟩ := Phase.compares.inj hcompares
          obtain ⟨w, begins⟩ := entered_before h hcalls hsessions hi earlier
          exact ⟨w, asked, .told call carries _ i j y x begins compares queues hi compared earlier
            rfl hj connected⟩
        | _ => cases hcompares

/-- **While a letter is published its ends meet**, or its sender loses a user whom its recipient
comes by after that. -/
theorem Publishes.related (h : machine.History start s steps) (S : start.Sound)
    {task : Task} {letter : Letter} {w k : Nat} (P : Publishes steps task letter w k) {z : Step}
    (hk : steps[k]? = some z) : Meet steps letter.sender letter.recipient w k ∨
      Crossed steps letter.sender letter.recipient w k := by
  cases P with
  | toItself _ _ i begins queues same =>
    have hwk : w ≤ k := Nat.le_of_lt (Nat.lt_trans begins.earlier queues.earlier)
    exact .inl ⟨k, z, hwk, Nat.le_refl k, hk, (together_iff _ _ _).mpr (.inl same)⟩
  | told call _ owner i j y x begins compares queues hi asked before senderOwner hj connected =>
    have hwi : w ≤ i := Nat.le_of_lt begins.earlier
    have hij : i < j := compares.earlier
    have hjk : j ≤ k := Nat.le_of_lt queues.earlier
    have meet_first (together : y.before.Together letter.sender letter.recipient) :
        Meet steps letter.sender letter.recipient w k :=
      ⟨i, y, hwi, Nat.le_trans (Nat.le_of_lt hij) hjk, hi, together⟩
    have meet_second (together : x.before.Together letter.sender letter.recipient) :
        Meet steps letter.sender letter.recipient w k :=
      ⟨j, x, Nat.le_trans hwi (Nat.le_of_lt hij), hjk, hj, together⟩
    rw [together_iff] at meet_first meet_second
    rcases (Edges.connected_iff _ _ _ _).mp connected with howner | hother | ⟨user, howner, hother⟩
    · exact .inl (meet_first (.inr (.inl (senderOwner.trans howner))))
    · exact .inl (meet_second (.inr (.inr (.inl hother))))
    · have rests (device : PrincipalId) : y.after.owner? device = y.before.owner? device :=
        (ownerTurn_of_history h S hi device).same_of_phase asked before (by simp)
      have hsender : y.before.owner? letter.sender = some user := senderOwner.trans howner
      by_cases hshared : y.before.owner? letter.recipient = some user
      · exact .inl (meet_first (.inr (.inr (.inr ⟨user, hsender, hshared⟩))))
      · have hends := meet_or_crossed h S hij hi hj ((rests _).trans hsender)
          (by rwa [rests]) hother
        exact hends.imp (fun meet => meet.mono hwi hjk) fun crossed => crossed.mono hwi hjk

/-- **A letter is queued in a network**: its ends are in one network while it is published, or its
sender loses a user then whom its recipient comes by after that. -/
theorem network_of_history {config : Config} {epoch : Int} (hstart : ofConfig config epoch = .ok start)
    (h : machine.History start s steps) {k : Nat} {z : Step} (hk : steps[k]? = some z)
    {letter : Letter} (accepted : accepted? z = some letter) :
    ∃ task w, z.action = .run task ∧ Publishes steps task letter w k ∧
      (Meet steps letter.sender letter.recipient w k ∨
        Crossed steps letter.sender letter.recipient w k) := by
  obtain ⟨-, hcalls, hsessions⟩ := ofConfig_ok hstart
  obtain ⟨task, w, asked, publishes⟩ := publishes_of_accepted h hcalls hsessions hk accepted
  exact ⟨task, w, asked, publishes, publishes.related h (ofConfig_sound hstart) hk⟩

/-! ### Two runs -/

/-- A user writes to a device that it owns. -/
def writesHome : List Action :=
  asksFor "alice" ⟨1⟩ Coordinator.alice ⟨2⟩ ++ agrees "yes" ⟨1⟩ Coordinator.phone ++
    [.run (.background (.write ⟨1⟩)), .call "note" (.publish Coordinator.alice ⟨2⟩ .request "m" .null),
      .run (.call "note"), .run (.call "note"), .run (.call "note")]

theorem replay_writesHome : (machine.replay estateStart writesHome).isSome = true := by
  decide +kernel

/-- A letter of a user to its device is queued. -/
theorem network_of_owner : ∃ (start s : Server) (steps : List Step) (k : Nat) (z : Step)
    (letter : Letter), ofConfig estate 0 = .ok start ∧ machine.History start s steps ∧
      steps[k]? = some z ∧ accepted? z = some letter ∧ ∃ task w, z.action = .run task ∧
        Publishes steps task letter w k ∧ (Meet steps letter.sender letter.recipient w k ∨
          Crossed steps letter.sender letter.recipient w k) := by
  have hstart : ofConfig estate 0 = .ok estateStart := rfl
  have h := Machine.history_of_replayed replay_writesHome
  have hqueued : ((((machine.replay estateStart writesHome).get replay_writesHome).2[9]?).bind
      accepted?).isSome = true := by decide +kernel
  obtain ⟨letter, hletter⟩ := Option.isSome_iff_exists.mp hqueued
  obtain ⟨z, hk, accepted⟩ := Option.bind_eq_some_iff.mp hletter
  exact ⟨_, _, _, 9, z, letter, hstart, h, hk, accepted, network_of_history hstart h hk accepted⟩

/-- A device writes to another one. Between the two answers of the store it leaves its user, who
is then paired with the other device. -/
def writesAcross : List Action :=
  asksFor "phone" ⟨1⟩ Coordinator.alice ⟨2⟩ ++ asksFor "laptop" ⟨2⟩ Coordinator.alice ⟨3⟩ ++
    agrees "yes" ⟨1⟩ Coordinator.phone ++ [.run (.background (.write ⟨1⟩)),
      .call "note" (.publish Coordinator.phone ⟨3⟩ .request "m" .null), .run (.call "note")] ++
    checksOut "leave" Coordinator.phone ⟨2⟩ ++ [.run (.call "leave")] ++
    agrees "also" ⟨2⟩ laptop ++
    [.run (.background (.write ⟨2⟩)), .run (.call "note"), .run (.call "note")]

theorem replay_writesAcross : (machine.replay estateStart writesAcross).isSome = true := by
  decide +kernel

/-- **A letter is queued between two principals that are in one network at no instant of the
run.** -/
theorem queued_across_networks : ∃ (start s : Server) (steps : List Step) (k : Nat) (z : Step)
    (letter : Letter), ofConfig estate 0 = .ok start ∧ machine.History start s steps ∧
      (∀ x ∈ steps, x.action.isLink = false) ∧ steps[k]? = some z ∧ accepted? z = some letter ∧
      ∀ x ∈ steps, ¬ x.before.Together letter.sender letter.recipient ∧
        ¬ x.after.Together letter.sender letter.recipient := by
  have hstart : ofConfig estate 0 = .ok estateStart := rfl
  have h := Machine.history_of_replayed replay_writesAcross
  have hlinks : ∀ x ∈ ((machine.replay estateStart writesAcross).get replay_writesAcross).2,
      x.action.isLink = false := by decide +kernel
  have hapart : ∀ x ∈ ((machine.replay estateStart writesAcross).get replay_writesAcross).2,
      ¬ x.before.Together ⟨2⟩ ⟨3⟩ ∧ ¬ x.after.Together ⟨2⟩ ⟨3⟩ := by decide +kernel
  have hqueued : ((((machine.replay estateStart writesAcross).get replay_writesAcross).2[18]?).bind
      accepted?).map (fun letter => (letter.sender, letter.recipient)) = some (⟨2⟩, ⟨3⟩) := by
    decide +kernel
  obtain ⟨letter, hletter, hends⟩ := Option.map_eq_some_iff.mp hqueued
  obtain ⟨hsender, hrecipient⟩ := Prod.mk.inj hends
  obtain ⟨z, hk, accepted⟩ := Option.bind_eq_some_iff.mp hletter
  refine ⟨_, _, _, 18, z, letter, hstart, h, hlinks, hk, accepted, ?_⟩
  rw [hsender, hrecipient]
  exact hapart

end Server
end DeviceRelay

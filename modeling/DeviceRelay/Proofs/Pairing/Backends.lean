/-
# A list of edges and a table with numbered rows answer as a ledger does

A ledger tells the owner of each device that has one, and keeps the order in which the devices
came by their owners. It is what both ways to keep pairings stand for. Related to the ledger by
what they tell, the list and the table stay related under every use, so they give the same
answers to every sequence of uses. The table needs its row numbers to grow along the rows, and
that no two principals have the same signed word.

Key definitions: `StoreUse`, `StoreAnswer`, `Backend`, `Backend.Simulates`, `Backend.Lawful`,
`Ledger`.
Key theorems: `Backend.Simulates.run`, `Ledger.lawful`, `Edges.simulates`,
`EdgeTable.simulates`, `Backend.answers_of_uses`.
-/
import DeviceRelay.Pairing.EdgeTable
import DeviceRelay.Proofs.Keyed
import DeviceRelay.Proofs.Pairing.Ownership

namespace DeviceRelay

/-- A use of the pairings. -/
inductive StoreUse where
  | create (user device : PrincipalId)
  | remove (device : PrincipalId)
  | owner (device : PrincipalId)
  | devices (user : PrincipalId)
  | same (a b : PrincipalId)
  deriving DecidableEq, Repr

/-- The answer to a use of the pairings. -/
inductive StoreAnswer where
  | recorded
  | alreadyPaired (device : PrincipalId)
  | removed (found : Bool)
  | owner (user : Option PrincipalId)
  | devices (devices : List PrincipalId)
  | same (together : Bool)
  deriving DecidableEq, Repr

/-- A way to keep pairings, of which there are none at first. -/
structure Backend (σ : Type) where
  empty : σ
  create? : σ → PrincipalId → PrincipalId → Option σ
  remove : σ → PrincipalId → σ × Bool
  owner? : σ → PrincipalId → Option PrincipalId
  devices : σ → PrincipalId → List PrincipalId
  sameNetwork : σ → PrincipalId → PrincipalId → Bool

namespace Backend

variable {σ τ : Type}

/-- What a use makes of the pairings, and its answer. What is refused changes nothing. -/
def step (b : Backend σ) (s : σ) : StoreUse → σ × StoreAnswer
  | .create user device =>
    match b.create? s user device with
    | some t => (t, .recorded)
    | none => (s, .alreadyPaired device)
  | .remove device => ((b.remove s device).1, .removed (b.remove s device).2)
  | .owner device => (s, .owner (b.owner? s device))
  | .devices user => (s, .devices (b.devices s user))
  | .same a a' => (s, .same (b.sameNetwork s a a'))

/-- What uses in turn make of the pairings, and the answers to them. -/
def run (b : Backend σ) : σ → List StoreUse → σ × List StoreAnswer
  | s, [] => (s, [])
  | s, use :: later =>
    let (t, answer) := b.step s use
    let (u, answers) := b.run t later
    (u, answer :: answers)

/-- The pairings after uses in turn, from none. -/
def after (b : Backend σ) (uses : List StoreUse) : σ := (b.run b.empty uses).1

/-- The answers to uses in turn, from no pairings. -/
def answers (b : Backend σ) (uses : List StoreUse) : List StoreAnswer := (b.run b.empty uses).2

/-- What the pairings tell and become, in every state that uses lead to. -/
structure Lawful (b : Backend σ) (s : σ) : Prop where
  /-- A device has one owner at most, and is listed just once, among the devices of its owner. -/
  listed : ∀ user device,
    (b.devices s user).count device = if b.owner? s device = some user then 1 else 0
  /-- A device is refused just when it has an owner, and then nothing changes. -/
  refuses : ∀ user device, b.step s (.create user device) = (s, .alreadyPaired device) ↔
    (b.owner? s device).isSome = true
  /-- A device that is paired comes last among the devices of its owner. -/
  pairs : ∀ user device t, b.create? s user device = some t →
    (∀ d, b.owner? t d = if d = device then some user else b.owner? s d) ∧
      ∀ u, b.devices t u = b.devices s u ++ if u = user then [device] else []
  /-- A device that is unpaired is listed nowhere, and the others keep their order. -/
  unpairs : ∀ device, (b.remove s device).2 = (b.owner? s device).isSome ∧
    (∀ d, b.owner? (b.remove s device).1 d = if d = device then none else b.owner? s d) ∧
      ∀ u, b.devices (b.remove s device).1 u = (b.devices s u).filter (· ≠ device)
  connects : ∀ a a', b.sameNetwork s a a' = true ↔ a = a' ∨ b.owner? s a = some a' ∨
    b.owner? s a' = some a ∨ ∃ user, b.owner? s a = some user ∧ b.owner? s a' = some user

theorem step_create_eq_refused (b : Backend σ) (s : σ) (user device : PrincipalId) :
    b.step s (.create user device) = (s, .alreadyPaired device) ↔
      b.create? s user device = none := by
  simp only [step]
  cases b.create? s user device <;> simp

/-! ### Simulation -/

/-- One way to keep pairings does what another does, and tells the same. -/
structure Simulates (b : Backend σ) (b' : Backend τ) (R : σ → τ → Prop) : Prop where
  empty : R b.empty b'.empty
  create : ∀ s t user device, R s t →
    Option.Rel R (b.create? s user device) (b'.create? t user device)
  remove : ∀ s t device, R s t → R (b.remove s device).1 (b'.remove t device).1
  found : ∀ s t device, R s t → (b.remove s device).2 = (b'.remove t device).2
  owner : ∀ s t device, R s t → b.owner? s device = b'.owner? t device
  devices : ∀ s t user, R s t → b.devices s user = b'.devices t user
  same : ∀ s t a a', R s t → b.sameNetwork s a a' = b'.sameNetwork t a a'

namespace Simulates

variable {b : Backend σ} {b' : Backend τ} {R : σ → τ → Prop}

/-- A use keeps the states related, and is answered alike. -/
theorem step (h : b.Simulates b' R) {s : σ} {t : τ} (related : R s t) (use : StoreUse) :
    R (b.step s use).1 (b'.step t use).1 ∧ (b.step s use).2 = (b'.step t use).2 := by
  cases use with
  | create user device =>
    have hcreate := h.create s t user device related
    simp only [Backend.step]
    generalize b.create? s user device = made at hcreate
    generalize b'.create? t user device = made' at hcreate
    cases hcreate with
    | some related' => exact ⟨related', rfl⟩
    | none => exact ⟨related, rfl⟩
  | remove device => exact ⟨h.remove s t device related, congrArg _ (h.found s t device related)⟩
  | owner device => exact ⟨related, congrArg _ (h.owner s t device related)⟩
  | devices user => exact ⟨related, congrArg _ (h.devices s t user related)⟩
  | same a a' => exact ⟨related, congrArg _ (h.same s t a a' related)⟩

/-- **Uses in turn keep the states related, and are answered alike.** -/
theorem run (h : b.Simulates b' R) {s : σ} {t : τ} (related : R s t) (uses : List StoreUse) :
    R (b.run s uses).1 (b'.run t uses).1 ∧ (b.run s uses).2 = (b'.run t uses).2 := by
  induction uses generalizing s t with
  | nil => exact ⟨related, rfl⟩
  | cons use later ih =>
    obtain ⟨hstep, hanswer⟩ := h.step related use
    obtain ⟨hrun, hanswers⟩ := ih hstep
    exact ⟨hrun, congrArg₂ _ hanswer hanswers⟩

/-- What tells the same obeys the same laws. -/
theorem lawful (h : b.Simulates b' R) {s : σ} {t : τ} (related : R s t) (laws : b'.Lawful t) :
    b.Lawful s := by
  have owner {s : σ} {t : τ} (related : R s t) : b.owner? s = b'.owner? t :=
    funext fun d => h.owner s t d related
  have devices {s : σ} {t : τ} (related : R s t) : b.devices s = b'.devices t :=
    funext fun u => h.devices s t u related
  constructor
  case listed =>
    intro user device
    rw [owner related, devices related]
    exact laws.listed user device
  case refuses =>
    intro user device
    have hcreate := h.create s t user device related
    rw [owner related, ← laws.refuses user device, step_create_eq_refused, step_create_eq_refused]
    generalize b.create? s user device = made at hcreate
    generalize b'.create? t user device = made' at hcreate
    cases hcreate <;> simp
  case pairs =>
    intro user device s' hs'
    have hcreate := h.create s t user device related
    rw [hs'] at hcreate
    generalize ht' : b'.create? t user device = made at hcreate
    cases hcreate with
    | some related' =>
      rw [owner related, owner related', devices related, devices related']
      exact laws.pairs user device _ ht'
  case unpairs =>
    intro device
    have related' := h.remove s t device related
    rw [h.found s t device related, owner related, owner related', devices related,
      devices related']
    exact laws.unpairs device
  case connects =>
    intro a a'
    rw [h.same s t a a' related, owner related]
    exact laws.connects a a'

end Simulates
end Backend

/-! ### The ledger -/

/-- The owners of the devices that have one, and these devices in the order of pairing. -/
structure Ledger where
  owner? : PrincipalId → Option PrincipalId
  order : List PrincipalId
  nodup : order.Nodup
  paired : ∀ device, device ∈ order ↔ (owner? device).isSome = true

namespace Ledger

def empty : Ledger where
  owner? _ := none
  order := []
  nodup := List.nodup_nil
  paired := by simp

/-- Pairs a device that has no owner. -/
def create? (l : Ledger) (user device : PrincipalId) : Option Ledger :=
  if free : l.owner? device = none then
    some {
      owner? := fun d => if d = device then some user else l.owner? d
      order := l.order ++ [device]
      nodup := by
        have hnew : device ∉ l.order := by simp [l.paired, free]
        rw [← List.concat_eq_append]
        exact l.nodup.concat hnew
      paired := fun d => by
        by_cases hd : d = device <;> simp [hd, l.paired] }
  else none

/-- Unpairs a device. Tells whether it had an owner. -/
def remove (l : Ledger) (device : PrincipalId) : Ledger × Bool :=
  ({  owner? := fun d => if d = device then none else l.owner? d
      order := l.order.filter (· ≠ device)
      nodup := l.nodup.filter _
      paired := fun d => by
        by_cases hd : d = device <;> simp [hd, l.paired] },
    (l.owner? device).isSome)

/-- The devices of a user in the order of pairing. -/
def devices (l : Ledger) (user : PrincipalId) : List PrincipalId :=
  l.order.filter (l.owner? · = some user)

/-- Whether two principals are the same, one owns the other, or one user owns both. -/
def sameNetwork (l : Ledger) (a b : PrincipalId) : Bool :=
  a = b ∨ l.owner? a = some b ∨ l.owner? b = some a ∨
    (l.owner? a).isSome ∧ l.owner? a = l.owner? b

/-- The ledger as a way to keep pairings. -/
def backend : Backend Ledger := ⟨empty, create?, remove, owner?, devices, sameNetwork⟩

variable {l : Ledger} {user device : PrincipalId}

theorem devices_create {l' : Ledger} (h : l.create? user device = some l') (u : PrincipalId) :
    l'.devices u = l.devices u ++ if u = user then [device] else [] := by
  unfold create? at h
  split at h
  · rename_i free
    obtain rfl := Option.some.inj h
    have hold : ∀ d ∈ l.order, d ≠ device := by
      intro d hd he
      simp [he, l.paired, free] at hd
    unfold devices
    rw [List.filter_append]
    congr 1
    · exact List.filter_congr fun d hd => by simp [hold d hd]
    · by_cases hu : u = user
      · simp [hu]
      · simp [hu, Ne.symm hu]
  · cases h

theorem devices_remove (l : Ledger) (device u : PrincipalId) :
    (l.remove device).1.devices u = (l.devices u).filter (· ≠ device) := by
  unfold devices remove
  rw [List.filter_filter, List.filter_filter]
  refine List.filter_congr fun d _ => ?_
  by_cases hd : d = device <;> simp [hd]

/-- A ledger obeys the laws. -/
theorem lawful (l : Ledger) : backend.Lawful l := by
  constructor
  case listed =>
    intro user device
    change (l.devices user).count device = if l.owner? device = some user then 1 else 0
    have hmem : device ∈ l.devices user ↔ l.owner? device = some user := by
      unfold devices
      rw [List.mem_filter, l.paired, decide_eq_true_iff]
      exact and_iff_right_of_imp fun h => by rw [h]; rfl
    have hnodup : (l.devices user).Nodup := l.nodup.filter _
    rw [hnodup.count]
    simp only [hmem]
  case refuses =>
    intro user device
    rw [Backend.step_create_eq_refused]
    change l.create? user device = none ↔ (l.owner? device).isSome = true
    unfold create?
    split
    · rename_i free
      simp [free]
    · rename_i owned
      simpa using Option.ne_none_iff_isSome.mp owned
  case pairs =>
    intro user device l' h
    refine ⟨fun d => ?_, devices_create h⟩
    change l.create? user device = some l' at h
    unfold create? at h
    split at h
    · obtain rfl := Option.some.inj h
      rfl
    · cases h
  case unpairs => exact fun device => ⟨rfl, fun d => rfl, devices_remove l device⟩
  case connects =>
    intro a b
    change l.sameNetwork a b = true ↔ _
    have hshared : ((l.owner? a).isSome = true ∧ l.owner? a = l.owner? b) ↔
        ∃ user, l.owner? a = some user ∧ l.owner? b = some user := by
      cases l.owner? a <;> simp [eq_comm]
    unfold sameNetwork
    rw [decide_eq_true_iff, hshared]
    rfl

end Ledger

/-! ### The list of edges -/

namespace Edges

/-- The list of edges as a way to keep pairings. -/
def backend : Backend Edges := ⟨{}, create?, remove, owner?, devices, sameNetwork⟩

/-- The list of edges stands for a ledger. -/
structure Represents (edges : Edges) (l : Ledger) : Prop where
  owner : ∀ device, edges.owner? device = l.owner? device
  order : edges.toList.map (·.device) = l.order

variable {edges : Edges} {l : Ledger}

/-- The user of an edge owns its device, as no device has two edges. -/
theorem owner?_of_mem (hnodup : (edges.toList.map (·.device)).Nodup) {e : Edge}
    (he : e ∈ edges.toList) : edges.owner? e.device = some e.user := by
  unfold owner?
  rw [Keyed.find?_of_mem hnodup he]
  rfl

theorem Represents.devices (h : edges.Represents l) (user : PrincipalId) :
    edges.devices user = l.devices user := by
  unfold Edges.devices Ledger.devices
  rw [← h.order, List.filter_map]
  congr 1
  refine List.filter_congr fun e he => ?_
  have howner := owner?_of_mem (h.order ▸ l.nodup) he
  simp only [Function.comp_apply, ← h.owner, howner, Option.some_inj]

theorem Represents.create (h : edges.Represents l) (user device : PrincipalId) :
    Option.Rel Represents (edges.create? user device) (l.create? user device) := by
  cases howner : l.owner? device with
  | some owner =>
    have hrefused : edges.create? user device = none := by
      unfold Edges.create?
      rw [h.owner, howner]
      rfl
    have hrefused' : l.create? user device = none := by simp [Ledger.create?, howner]
    rw [hrefused, hrefused']
    exact .none
  | none =>
    have hcreated : edges.create? user device = some ⟨edges.toList ++ [⟨user, device⟩]⟩ := by
      unfold Edges.create?
      rw [h.owner, howner]
      rfl
    rw [hcreated, Ledger.create?, dif_pos howner]
    refine .some ⟨fun d => ?_, ?_⟩
    · rw [(owner?_create hcreated).2, h.owner]
    · rw [List.map_append, h.order]
      rfl

theorem Represents.remove (h : edges.Represents l) (device : PrincipalId) :
    (edges.remove device).1.Represents (l.remove device).1 := by
  refine ⟨fun d => ?_, ?_⟩
  · rw [owner?_remove, h.owner]
    rfl
  · change (edges.toList.filter (·.device ≠ device)).map (·.device) = l.order.filter (· ≠ device)
    rw [← h.order, List.filter_map]
    rfl

/-- The list of edges does what the ledger does. -/
theorem simulates : backend.Simulates Ledger.backend Represents where
  empty := ⟨fun _ => rfl, rfl⟩
  create _ _ user device h := h.create user device
  remove _ _ device h := h.remove device
  found _ _ device h := congrArg Option.isSome (h.owner device)
  owner _ _ device h := h.owner device
  devices _ _ user h := h.devices user
  same edges l a b h := by
    rw [Bool.eq_iff_iff]
    refine Iff.trans ?_ (l.lawful.connects a b).symm
    change edges.sameNetwork a b = true ↔ a = b ∨ l.owner? a = some b ∨ l.owner? b = some a ∨
      ∃ user, l.owner? a = some user ∧ l.owner? b = some user
    rw [sameNetwork_iff, connected_iff, h.owner, h.owner]

end Edges

/-! ### The table with numbered rows -/

namespace EdgeTable

/-- The table as a way to keep pairings. -/
def backend : Backend EdgeTable := ⟨{}, create?, remove, owner?, devices, sameNetwork⟩

def edge (row : EdgeRow) : Edge := ⟨decode row.user, decode row.device⟩

/-- The table stands for a list of edges. -/
structure Represents (t : EdgeTable) (edges : Edges) : Prop where
  rows : t.rows.map edge = edges.toList
  /-- The row numbers grow along the rows. -/
  ordered : t.rows.Pairwise (·.number < ·.number)
  numbered : ∀ row ∈ t.rows, row.number ≤ t.lastNumber

variable {t : EdgeTable} {edges : Edges}

theorem decode_encode (id : PrincipalId) : decode (encode id) = id := by
  unfold decode encode
  rw [UInt64.toUInt64_toInt64]

theorem encode_decode (word : Int64) : encode (decode word) = word := Int64.toInt64_toUInt64 word

/-- A word stands for a principal just when it is the word of the principal. -/
theorem eq_encode_iff (word : Int64) (id : PrincipalId) : word = encode id ↔ decode word = id :=
  ⟨fun h => h ▸ decode_encode id, fun h => h ▸ (encode_decode word).symm⟩

theorem Represents.find? (h : t.Represents edges) (device : PrincipalId) :
    edges.toList.find? (·.device = device) =
      (t.rows.find? (·.device = encode device)).map edge := by
  rw [← h.rows, List.find?_map]
  congr 2
  funext row
  exact decide_eq_decide.mpr (eq_encode_iff row.device device).symm

theorem Represents.owner (h : t.Represents edges) (device : PrincipalId) :
    t.owner? device = edges.owner? device := by
  unfold EdgeTable.owner? Edges.owner?
  rw [h.find?, Option.map_map]
  rfl

/-- There is a row of a device just when the device has an owner. -/
theorem Represents.found (h : t.Represents edges) (device : PrincipalId) :
    t.rows.any (·.device = encode device) = (edges.owner? device).isSome := by
  unfold Edges.owner?
  rw [h.find?, Option.isSome_map, Option.isSome_map, List.isSome_find?]

theorem Represents.create (h : t.Represents edges) (user device : PrincipalId) :
    Option.Rel Represents (t.create? user device) (edges.create? user device) := by
  unfold EdgeTable.create? Edges.create?
  rw [h.found]
  split
  · exact .none
  · refine .some ⟨?_, ?_, ?_⟩
    · rw [List.map_append, h.rows, List.map_singleton, edge, decode_encode, decode_encode]
    · refine List.pairwise_append.mpr ⟨h.ordered, List.pairwise_singleton _ _, ?_⟩
      intro row hrow new hnew
      rw [List.mem_singleton.mp hnew]
      exact Nat.lt_succ_of_le (h.numbered row hrow)
    · intro row hrow
      rcases List.mem_append.mp hrow with hold | hnew
      · exact Nat.le_succ_of_le (h.numbered row hold)
      · exact Nat.le_of_eq (by rw [List.mem_singleton.mp hnew])

theorem Represents.remove (h : t.Represents edges) (device : PrincipalId) :
    (t.remove device).1.Represents (edges.remove device).1 := by
  refine ⟨?_, h.ordered.filter _, fun row hrow => h.numbered row (List.mem_of_mem_filter hrow)⟩
  change (t.rows.filter (·.device ≠ encode device)).map edge =
    edges.toList.filter (·.device ≠ device)
  rw [← h.rows, List.filter_map]
  congr 1
  refine List.filter_congr fun row _ => ?_
  exact decide_eq_decide.mpr (not_congr (eq_encode_iff row.device device))

/-- The rows of a user are in the order of their numbers, as all rows are. -/
theorem Represents.devices (h : t.Represents edges) (user : PrincipalId) :
    t.devices user = edges.devices user := by
  simp only [EdgeTable.devices, Edges.devices]
  have hordered : (t.rows.filter (·.user = encode user)).Pairwise
      fun a b => decide (a.number ≤ b.number) = true :=
    (h.ordered.filter _).imp fun hlt => decide_eq_true (Nat.le_of_lt hlt)
  rw [List.mergeSort_of_pairwise hordered, ← h.rows, List.filter_map, List.map_map]
  congr 1
  refine List.filter_congr fun row _ => ?_
  exact decide_eq_decide.mpr (eq_encode_iff row.user user)

/-- The table does what the list of edges does. -/
theorem simulates : backend.Simulates Edges.backend Represents where
  empty := ⟨rfl, List.Pairwise.nil, nofun⟩
  create _ _ user device h := h.create user device
  remove _ _ device h := h.remove device
  found _ _ device h := h.found device
  owner _ _ device h := h.owner device
  devices _ _ user h := h.devices user
  same t edges a b h := by
    change t.sameNetwork a b = edges.sameNetwork a b
    unfold EdgeTable.sameNetwork Edges.sameNetwork
    rw [h.owner, h.owner]

end EdgeTable

/-! ### All sequences of uses -/

/-- **The list and the table answer every sequence of uses as the ledger does**, and obey its
laws in every state on the way. -/
theorem Backend.answers_of_uses (uses : List StoreUse) :
    Edges.backend.answers uses = Ledger.backend.answers uses ∧
      EdgeTable.backend.answers uses = Ledger.backend.answers uses ∧
      Ledger.backend.Lawful (Ledger.backend.after uses) ∧
      Edges.backend.Lawful (Edges.backend.after uses) ∧
      EdgeTable.backend.Lawful (EdgeTable.backend.after uses) := by
  obtain ⟨hedges, hanswers⟩ := Edges.simulates.run Edges.simulates.empty uses
  obtain ⟨htable, hanswers'⟩ := EdgeTable.simulates.run EdgeTable.simulates.empty uses
  have laws := Ledger.lawful (Ledger.backend.after uses)
  have laws' := Edges.simulates.lawful hedges laws
  exact ⟨hanswers, hanswers'.trans hanswers, laws, laws', EdgeTable.simulates.lawful htable laws'⟩

/-- A device that is unpaired and paired again comes last, also under the greatest number. -/
example : EdgeTable.backend.answers [.create ⟨1⟩ ⟨2⟩, .create ⟨1⟩ ⟨0xFFFFFFFFFFFFFFFF⟩,
    .create ⟨4⟩ ⟨2⟩, .remove ⟨2⟩, .create ⟨1⟩ ⟨2⟩, .devices ⟨1⟩] =
    [.recorded, .recorded, .alreadyPaired ⟨2⟩, .removed true, .recorded,
      .devices [⟨0xFFFFFFFFFFFFFFFF⟩, ⟨2⟩]] := by cbv

end DeviceRelay

/-
# What a call asked for, and what became of it

A call that begins to wait asks for values: it takes those that are there and that it
accepts, and if it has to wait, the next one that is set under a key of its target. What
settles it is the first action after it that sets such a value or closes the registry. All
this can be told from the steps of a run alone, without a look at the registry.

Key definitions: `Rendezvous.Query`, `Rendezvous.asked?`, `Rendezvous.enlisted?`,
`Rendezvous.Query.settledBy?`, `Rendezvous.Query.verdict?`, `Rendezvous.standing`, `Rendezvous.waiting`,
`Rendezvous.Holds`, `Rendezvous.Closed`.
Key theorems: `Rendezvous.standing_append`, `Rendezvous.mem_standing_iff`,
`Rendezvous.waiting_append`, `Rendezvous.holds_append_iff`.
-/
import DeviceRelay.Proofs.Runs
import DeviceRelay.Rendezvous.Runs

namespace DeviceRelay

/-- Whether a value that is set under a key is for a target. -/
def Target.covers {κ : Type} [DecidableEq κ] : Target κ → κ → Bool
  | .key k, k' => k' = k
  | .any, _ => true

/-- Whether a call for a target takes the value that a key has already. -/
def Target.names {κ : Type} [DecidableEq κ] : Target κ → κ → Bool
  | .key k, k' => k' = k
  | .any, _ => false

namespace Rendezvous

/-- A step of the runs of a registry. -/
abbrev Step (κ ν γ : Type) := Machine.Step (State κ ν γ) (Action κ ν γ) (Event ν γ)

/-- What a call asks for. -/
structure Query (κ ν γ : Type) where
  call : γ
  target : Target κ
  /-- The keys whose values it takes if they are there. -/
  looksAt : κ → Bool
  accepts : ν → Bool
  /-- When it gives up. -/
  due : Option Nat

/-- Whether an action is the return or the drop of a call. -/
def Action.leaves {κ ν γ : Type} [DecidableEq γ] : Action κ ν γ → γ → Bool
  | .resume c, call => c = call
  | .drop c, call => c = call
  | _, _ => false

section
variable {κ ν γ : Type} [DecidableEq κ]

/-- What the call that a step begins asks for. -/
def asked? (x : Step κ ν γ) : Option (Query κ ν γ) :=
  match x.action with
  | .wait call target accepts timeout =>
    some ⟨call, target, target.names, accepts, timeout.map (timerDue x.before.now)⟩
  | .list call accepts timeout =>
    some ⟨call, .any, fun _ => true, accepts, timeout.map (timerDue x.before.now)⟩
  | _ => none

/-- What the call asks for that a step begins and that has to wait. -/
def suspended? (x : Step κ ν γ) : Option (Query κ ν γ) :=
  if x.events.isEmpty then asked? x else none

theorem suspended?_eq_some_iff {x : Step κ ν γ} {q : Query κ ν γ} :
    suspended? x = some q ↔ asked? x = some q ∧ x.events = [] := by
  unfold suspended?
  split
  case isTrue h => simp [List.isEmpty_iff.mp h]
  case isFalse h => simp [mt List.isEmpty_iff.mpr h]

/-- The ticket that a call gets if a step makes it wait. -/
def ticketOf (x : Step κ ν γ) : Nat := x.before.here.registry.nextTicket

/-- The call that a step begins and that has to wait, with its ticket. -/
def enlisted? (x : Step κ ν γ) : Option (Nat × Query κ ν γ) :=
  (suspended? x).map fun q => (ticketOf x, q)

theorem enlisted?_eq_some_iff {x : Step κ ν γ} {n : Nat} {q : Query κ ν γ} :
    enlisted? x = some (n, q) ↔ suspended? x = some q ∧ ticketOf x = n := by
  simp [enlisted?, and_comm]

theorem map_enlisted? (x : Step κ ν γ) :
    (enlisted? x).toList.map (·.2) = (suspended? x).toList := by
  unfold enlisted?
  cases suspended? x <;> rfl

namespace Query

/-- Whether a value that is set under a key is what a call waits for. -/
def wants (q : Query κ ν γ) (k : κ) (v : ν) : Bool := q.target.covers k && q.accepts v

/-- The outcome of a call that waits while an action is done, if the action settles it. -/
def settledBy? (q : Query κ ν γ) : Action κ ν γ → Option (Outcome ν)
  | .set k v => if q.wants k v then some (.value v) else none
  | .close => some .cancelled
  | _ => none

/-- The outcome of a call, once one of the steps after its begin has settled it. -/
def verdict? (q : Query κ ν γ) (later : List (Step κ ν γ)) : Option (Outcome ν) :=
  later.findSome? fun x => q.settledBy? x.action

theorem verdict?_append (q : Query κ ν γ) (later : List (Step κ ν γ)) (x : Step κ ν γ) :
    q.verdict? (later ++ [x]) = (q.verdict? later).or (q.settledBy? x.action) := by
  unfold verdict?
  rw [List.findSome?_append]
  cases later.findSome? fun x => q.settledBy? x.action <;> simp

end Query

end

section
variable {κ ν γ : Type}

/-- Whether a key has a value after the steps of a run: it was set, and neither set again nor
removed since. -/
def Holds (steps : List (Step κ ν γ)) (k : κ) (v : ν) : Prop :=
  ∃ earlier x later, steps = earlier ++ x :: later ∧ x.action = .set k v ∧
    ∀ y ∈ later, (∀ w, y.action ≠ .set k w) ∧ y.action ≠ .remove k

/-- Whether the registry was closed in the steps of a run. -/
def Closed (steps : List (Step κ ν γ)) : Prop := ∃ x ∈ steps, x.action = .close

/-- The last step of a run changed a value, or it did not. -/
theorem holds_append_iff {steps : List (Step κ ν γ)} {x : Step κ ν γ} {k : κ} {v : ν} :
    Holds (steps ++ [x]) k v ↔ x.action = .set k v ∨
      (Holds steps k v ∧ (∀ w, x.action ≠ .set k w) ∧ x.action ≠ .remove k) := by
  unfold Holds
  rw [Machine.exists_split_concat_iff]
  constructor
  · rintro (⟨hx, -⟩ | ⟨earlier, y, later, hl, hy, hlater⟩)
    · exact .inl hx
    · refine .inr ⟨⟨earlier, y, later, hl, hy, fun w hw => ?_⟩, hlater x (by simp)⟩
      exact hlater w (List.mem_append_left _ hw)
  · rintro (hx | ⟨⟨earlier, y, later, hl, hy, hlater⟩, hx⟩)
    · exact .inl ⟨hx, by simp⟩
    · refine .inr ⟨earlier, y, later, hl, hy, fun z hz => ?_⟩
      rcases List.mem_append.mp hz with hz | hz
      · exact hlater z hz
      · exact List.mem_singleton.mp hz ▸ hx

theorem closed_append_iff {steps : List (Step κ ν γ)} {x : Step κ ν γ} :
    Closed (steps ++ [x]) ↔ Closed steps ∨ x.action = .close := by
  simp [Closed, or_and_right, exists_or]

end

section
variable {κ ν γ : Type} [DecidableEq κ] [DecidableEq γ]

/-- The calls that had to wait and neither returned nor were dropped, in the order in which
they began, each with its outcome if it is settled. -/
def standing : List (Step κ ν γ) → List (Query κ ν γ × Option (Outcome ν))
  | [] => []
  | x :: later =>
    ((suspended? x).toList.filter fun q => later.all fun y => !y.action.leaves q.call).map
      (fun q => (q, q.verdict? later)) ++ standing later

/-- The calls that wait and are not settled, in the order in which they began. -/
def waiting (steps : List (Step κ ν γ)) : List (Query κ ν γ) :=
  ((standing steps).filter (·.2.isNone)).map (·.1)

/-- A step settles calls, takes one away or adds one. -/
theorem standing_append (steps : List (Step κ ν γ)) (x : Step κ ν γ) :
    standing (steps ++ [x]) =
      ((standing steps).filter fun e => !x.action.leaves e.1.call).map
        (fun e => (e.1, e.2.or (e.1.settledBy? x.action))) ++
      (suspended? x).toList.map fun q => (q, none) := by
  induction steps with
  | nil => simp [standing, Query.verdict?]
  | cons y steps ih =>
    rw [List.cons_append, standing, ih, standing, List.filter_append, List.map_append,
      ← List.append_assoc]
    congr 2
    rw [List.filter_map, List.map_map, List.filter_filter]
    cases suspended? y with
    | none => rfl
    | some q => simp [List.filter_cons, Query.verdict?_append, Bool.and_comm, apply_ite (List.map _)]

/-- Who stands settled after a step was settled before it, or is settled by it. -/
theorem mem_standing_append {steps : List (Step κ ν γ)} {x : Step κ ν γ} {q : Query κ ν γ}
    {o : Outcome ν} : (q, some o) ∈ standing (steps ++ [x]) ↔
      ((q, some o) ∈ standing steps ∧ x.action.leaves q.call = false) ∨
      (q ∈ waiting steps ∧ q.settledBy? x.action = some o ∧ x.action.leaves q.call = false) := by
  rw [standing_append]
  simp only [waiting, List.mem_append, List.mem_map, List.mem_filter, Prod.mk.injEq,
    Option.or_eq_some_iff, reduceCtorEq, and_false, exists_false, or_false]
  constructor
  · rintro ⟨⟨q', given⟩, ⟨he, hstays⟩, rfl, hgiven | ⟨hgiven, ho⟩⟩
    · exact .inl ⟨hgiven ▸ he, by simpa using hstays⟩
    · exact .inr ⟨⟨(q', given), ⟨he, by simp [show given = none from hgiven]⟩, rfl⟩, ho,
        by simpa using hstays⟩
  · rintro (⟨he, hstays⟩ | ⟨⟨⟨q', given⟩, ⟨he, hgiven⟩, rfl⟩, ho, hstays⟩)
    · exact ⟨_, ⟨he, by simpa using hstays⟩, rfl, .inl rfl⟩
    · exact ⟨_, ⟨he, by simpa using hstays⟩, rfl, .inr ⟨by simpa using hgiven, ho⟩⟩

/-- Whether an action leaves a call waiting. -/
def Query.passes (q : Query κ ν γ) (a : Action κ ν γ) : Bool :=
  (q.settledBy? a).isNone && !a.leaves q.call

theorem waiting_append (steps : List (Step κ ν γ)) (x : Step κ ν γ) :
    waiting (steps ++ [x]) = (waiting steps).filter (·.passes x.action) ++ (suspended? x).toList := by
  unfold waiting
  rw [standing_append, List.filter_append, List.map_append]
  congr 1
  · rw [List.filter_map, List.map_map, List.filter_map, List.filter_filter, List.filter_filter]
    refine congrArg _ (List.filter_congr fun e _ => ?_)
    simp only [Function.comp_apply, Option.isNone_or, Query.passes]
    cases e.2.isNone <;> simp
  · cases suspended? x <;> rfl

/-- Those that wait after a step are those that it leaves waiting and the one that it adds. -/
theorem map_entries_append {entries : List (Nat × Query κ ν γ)} {steps : List (Step κ ν γ)}
    (h : entries.map (·.2) = waiting steps) (x : Step κ ν γ) :
    (entries.filter (fun e => e.2.passes x.action) ++ (enlisted? x).toList).map (·.2) =
      waiting (steps ++ [x]) := by
  rw [List.map_append, map_enlisted?, waiting_append, ← h, List.filter_map]
  rfl

/-- Which calls stand, told by the step that began them. -/
theorem mem_standing_iff {steps : List (Step κ ν γ)} {q : Query κ ν γ} {o : Option (Outcome ν)} :
    (q, o) ∈ standing steps ↔ ∃ earlier x later, steps = earlier ++ x :: later ∧
      suspended? x = some q ∧ (∀ y ∈ later, y.action.leaves q.call = false) ∧
      q.verdict? later = o := by
  induction steps with
  | nil => simp [standing]
  | cons x steps ih =>
    rw [standing, List.mem_append, ih]
    constructor
    · rintro (h | ⟨earlier, y, later, rfl, hy⟩)
      · obtain ⟨q', hq', he⟩ := List.mem_map.mp h
        obtain ⟨rfl, rfl⟩ := Prod.mk.inj he
        obtain ⟨hx, hleaves⟩ := List.mem_filter.mp hq'
        exact ⟨[], x, steps, rfl, by simpa using hx, by simpa using hleaves, rfl⟩
      · exact ⟨x :: earlier, y, later, rfl, hy⟩
    · rintro ⟨earlier, y, later, hl, hy, hleaves, rfl⟩
      cases earlier with
      | nil =>
        obtain ⟨rfl, rfl⟩ := List.cons.inj hl
        refine Or.inl (List.mem_map.mpr ⟨q, List.mem_filter.mpr ⟨by simp [hy], ?_⟩, rfl⟩)
        simpa using hleaves
      | cons z earlier =>
        obtain ⟨rfl, rfl⟩ := List.cons.inj hl
        exact Or.inr ⟨earlier, y, later, rfl, hy, hleaves, rfl⟩

theorem mem_waiting_iff {steps : List (Step κ ν γ)} {q : Query κ ν γ} :
    q ∈ waiting steps ↔ (q, none) ∈ standing steps := by
  simp [waiting]

end
end Rendezvous
end DeviceRelay

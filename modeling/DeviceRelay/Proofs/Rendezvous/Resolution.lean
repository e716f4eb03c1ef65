/-
# Every wait resolves as its query and the later steps say

What a call asks for and the steps of the run decide how it ends. At a closed registry it
is cancelled at once. If values are there that it takes, it returns with exactly these at
once. If not, it waits, and the first later step decides that sets a value that it wants
or closes the registry; without such a step it returns empty once it is due. It can return
as soon as that is decided and not before, it returns at most once, and when nothing can
run without time passing, no call is left that could have returned. A value replies to all
who want it, those for its key first and those for any key then, each in the order in
which they began, and whoever does not want it goes on waiting. To remove a value replies
to nobody.

Key definitions: `Rendezvous.Query.outcomeAt?`, `Rendezvous.AskedOnce`,
`Rendezvous.Resolved`, `Rendezvous.Resolution`.
Key theorems: `Rendezvous.resolution_of_history`.
-/
import DeviceRelay.Proofs.Rendezvous.Tracking

namespace DeviceRelay
namespace Rendezvous

section
variable {κ ν γ : Type} [DecidableEq κ]

/-- What a call returns that had to wait, if it runs at a moment after some more steps. -/
def Query.outcomeAt? (q : Query κ ν γ) (later : List (Step κ ν γ)) (now : Nat) :
    Option (Outcome ν) :=
  (q.verdict? later).or (if q.due.any (· ≤ now) then some .empty else none)

/-- No other step begins a call of the same name. -/
def AskedOnce (q : Query κ ν γ) (others : List (Step κ ν γ)) : Prop :=
  ∀ y ∈ others, ∀ q', asked? y = some q' → q'.call ≠ q.call

end

variable {κ ν γ : Type} [DecidableEq κ] [DecidableEq γ]

/-- How a call resolves that a step of a run begins. -/
structure Resolved (earlier : List (Step κ ν γ)) (x : Step κ ν γ) (later : List (Step κ ν γ))
    (s : State κ ν γ) (q : Query κ ν γ) : Prop where
  /-- At a closed registry it is cancelled at once. -/
  cancelled : Closed earlier → x.events = [⟨q.call, .cancelled⟩]
  /-- At an open one it takes exactly the values that are there, that it looks at and that it
  accepts, and has to wait only if there are none. -/
  current : ¬ Closed earlier → ∃ found : List (κ × ν), (found.map (·.1)).Nodup ∧
    (∀ k v, (k, v) ∈ found ↔ Holds earlier k v ∧ q.looksAt k = true ∧ q.accepts v = true) ∧
    x.events = if found.isEmpty then [] else [⟨q.call, .value (found.map (·.2))⟩]
  /-- It returns later only if it had to wait and is still there, with what its query and the
  steps since say, and then never again. -/
  returns : ∀ l y l', later = l ++ y :: l' → ∀ e ∈ y.events, e.call = q.call →
    x.events = [] ∧ y.action = .resume q.call ∧ (∀ z ∈ l, z.action.leaves q.call = false) ∧
    (∃ o, q.outcomeAt? l y.before.now = some o ∧ y.events = [⟨q.call, o.map fun v => [v]⟩]) ∧
    ∀ z ∈ l', ∀ e ∈ z.events, e.call ≠ q.call
  /-- While it had to wait and is still there, it can return if its query and the steps since
  say so, and then only. -/
  stands : x.events = [] → (∀ y ∈ later, y.action.leaves q.call = false) →
    (s.step (.resume q.call)).map (·.2) =
      (q.outcomeAt? later s.now).map fun o => [⟨q.call, o.map fun v => [v]⟩]
  /-- When nothing is ready, it waits for something that is still to come. -/
  prompt : x.events = [] → (∀ y ∈ later, y.action.leaves q.call = false) →
    (machine κ ν γ).ready s = none → q.outcomeAt? later s.now = none
  /-- If time passes only while nothing is ready, then it gives up exactly when it is due. -/
  onTime : (machine κ ν γ).Timely (earlier ++ x :: later) → ∀ l y l', later = l ++ y :: l' →
    (∃ e ∈ y.events, e.call = q.call) → q.verdict? l = none → q.due = some y.before.now

/-- How the calls of a run resolve. -/
structure Resolution (steps : List (Step κ ν γ)) (s : State κ ν γ) : Prop where
  resolved : ∀ earlier x later q, steps = earlier ++ x :: later → asked? x = some q →
    AskedOnce q (earlier ++ later) → Resolved earlier x later s q
  /-- A value replies to all who want it, in order, and leaves the others waiting. -/
  woken : ∀ earlier x later k v, steps = earlier ++ x :: later → x.action = .set k v →
    x.events = [] ∧
    x.after.here.replies = x.before.here.replies ++
      (((waiting earlier).filter fun q => q.target = .key k && q.accepts v) ++
        (waiting earlier).filter fun q => q.target = .any && q.accepts v).map
          (fun q => (q.call, .value v)) ∧
    x.after.here.waits.map (·.call) =
      ((waiting earlier).filter fun q => !q.wants k v).map (·.call)
  /-- To remove a value replies to nobody and leaves everybody waiting. -/
  removed : ∀ x ∈ steps, ∀ k, x.action = .remove k →
    x.events = [] ∧ x.after.here.replies = x.before.here.replies ∧
      x.after.here.waits = x.before.here.waits
  /-- Those who wait are those who had to and are neither settled nor gone, in order. -/
  waits : s.here.waits.map (·.call) = (waiting steps).map (·.call)

/-- A call that is asked for once stands only for the step that began it. -/
theorem standing_iff_of_askedOnce {earlier later : List (Step κ ν γ)} {x : Step κ ν γ}
    {q q' : Query κ ν γ} {given : Option (Outcome ν)} (hq : asked? x = some q)
    (only : AskedOnce q (earlier ++ later)) :
    ((q', given) ∈ standing (earlier ++ x :: later) ∧ q'.call = q.call) ↔
      x.events = [] ∧ (∀ y ∈ later, y.action.leaves q.call = false) ∧ q' = q ∧
        given = q.verdict? later := by
  rw [mem_standing_iff]
  constructor
  · rintro ⟨⟨earlier', x', later', hl, hx', hleaves, rfl⟩, hc⟩
    obtain ⟨hasked, hevents⟩ := suspended?_eq_some_iff.mp hx'
    rcases Machine.eq_or_mem_of_split hl with ⟨rfl, rfl, rfl⟩ | hmem
    · obtain rfl := Option.some.inj (hasked.symm.trans hq)
      exact ⟨hevents, hleaves, rfl, rfl⟩
    · exact absurd hc (only x' hmem q' hasked)
  · rintro ⟨hevents, hleaves, rfl, rfl⟩
    exact ⟨⟨earlier, x, later, rfl, suspended?_eq_some_iff.mpr ⟨hq, hevents⟩, hleaves, rfl⟩, rfl⟩

section
variable {now : Nat} {earlier later : List (Step κ ν γ)} {x : Step κ ν γ} {s : State κ ν γ}
  {q : Query κ ν γ}

theorem outcome?_of_askedOnce (h : (machine κ ν γ).History ⟨now, {}⟩ s (earlier ++ x :: later))
    (hq : asked? x = some q) (only : AskedOnce q (earlier ++ later)) (hevents : x.events = [])
    (hstays : ∀ y ∈ later, y.action.leaves q.call = false) :
    s.here.outcome? s.now q.call = q.outcomeAt? later s.now := by
  have T := tracked_of_history h
  obtain ⟨hmem, -⟩ := (standing_iff_of_askedOnce hq only).mpr ⟨hevents, hstays, rfl, rfl⟩
  refine T.outcome?_eq hmem fun q' given' hmem' hc => ?_
  obtain ⟨-, -, hsame⟩ := (standing_iff_of_askedOnce hq only).mp ⟨hmem', hc⟩
  exact hsame

theorem stays_of_outcome (h : (machine κ ν γ).History ⟨now, {}⟩ s (earlier ++ x :: later))
    (hq : asked? x = some q) (only : AskedOnce q (earlier ++ later)) {o : Outcome ν}
    (ho : s.here.outcome? s.now q.call = some o) :
    x.events = [] ∧ ∀ y ∈ later, y.action.leaves q.call = false := by
  obtain ⟨q', given, hmem, hc⟩ := (tracked_of_history h).stands_of_outcome ho
  obtain ⟨hevents, hstays, -⟩ := (standing_iff_of_askedOnce hq only).mp ⟨hmem, hc⟩
  exact ⟨hevents, hstays⟩

theorem returns_of_history (h : (machine κ ν γ).History ⟨now, {}⟩ s (earlier ++ x :: later))
    (hq : asked? x = some q) (only : AskedOnce q (earlier ++ later)) {l l' : List (Step κ ν γ)}
    {y : Step κ ν γ} (hl : later = l ++ y :: l') {e : Event ν γ} (he : e ∈ y.events)
    (hc : e.call = q.call) :
    x.events = [] ∧ y.action = .resume q.call ∧ (∀ z ∈ l, z.action.leaves q.call = false) ∧
      ∃ o, q.outcomeAt? l y.before.now = some o ∧
        y.events = [⟨q.call, o.map fun v => [v]⟩] := by
  subst hl
  rw [← List.cons_append, ← List.append_assoc] at h
  obtain ⟨u, hbefore, hafter⟩ := h.split
  obtain ⟨rfl, hstep, -⟩ := hafter.head
  have only' : AskedOnce q (earlier ++ l) := fun z hz => only z (by
    rcases List.mem_append.mp hz with hz | hz <;> simp [hz])
  rcases events_of_step hstep he with ⟨q', hq', hcall⟩ | ⟨o, haction, ho, hevents⟩
  · exact absurd (hcall.symm.trans hc) (only y (by simp) q' hq')
  · rw [hc] at haction ho hevents
    obtain ⟨hsuspended, hstays⟩ := stays_of_outcome hbefore hq only' ho
    rw [outcome?_of_askedOnce hbefore hq only' hsuspended hstays] at ho
    exact ⟨hsuspended, haction, hstays, o, ho, hevents⟩

theorem begun_of_history (h : (machine κ ν γ).History ⟨now, {}⟩ s (earlier ++ x :: later))
    (hq : asked? x = some q) :
    Tracked earlier x.before ∧ Begun x.before q x.after x.events := by
  obtain ⟨u, hbefore, hafter⟩ := h.split
  obtain ⟨rfl, hstep, -⟩ := hafter.head
  have T := tracked_of_history hbefore
  exact ⟨T, begun_of_step T.keys hstep hq⟩

/-- **A call resolves as its query and the steps after it say.** -/
theorem resolved_of_history (h : (machine κ ν γ).History ⟨now, {}⟩ s (earlier ++ x :: later))
    (hq : asked? x = some q) (only : AskedOnce q (earlier ++ later)) :
    Resolved earlier x later s q := by
  obtain ⟨T, hbegun⟩ := begun_of_history h hq
  constructor
  case cancelled =>
    intro hclosed
    rw [← T.closed] at hclosed
    cases hbegun with
    | cancelled _ _ returns => exact returns
    | current isOpen | suspended isOpen => simp [hclosed] at isOpen
  case current =>
    intro hopen
    rw [← T.closed] at hopen
    refine ⟨q.found x.before.here.registry.values, ?_, fun k v => ?_, ?_⟩
    · exact T.keys.sublist (List.filter_sublist.map _)
    · rw [Query.found, List.mem_filter, Bool.and_eq_true, ← T.values]
      refine and_congr_left fun _ => ⟨Keyed.lookup_of_mem T.keys, Keyed.mem_of_lookup⟩
    · cases hbegun with
      | cancelled closed => exact absurd closed hopen
      | current _ found _ returns => simpa [found] using returns
      | suspended _ found _ _ _ returns => simpa [found] using returns
  case returns =>
    intro l y l' hl e he hc
    obtain ⟨hsuspended, haction, hstays, ho⟩ := returns_of_history h hq only hl he hc
    refine ⟨hsuspended, haction, hstays, ho, fun z hz e' he' hc' => ?_⟩
    -- A second return would find the call gone with the first one.
    obtain ⟨l₁, l₂, rfl⟩ := List.append_of_mem hz
    have hl' : later = (l ++ y :: l₁) ++ z :: l₂ := by simp [hl]
    obtain ⟨-, -, hstays', -⟩ := returns_of_history h hq only hl' he' hc'
    simpa [haction, Action.leaves] using hstays' y (by simp)
  case stands =>
    intro hsuspended hstays
    have ho := outcome?_of_askedOnce h hq only hsuspended hstays
    simp [State.step, resume?, ho, Function.comp_def]
  case prompt =>
    intro hsuspended hstays hready
    obtain ⟨hmem, -⟩ := (standing_iff_of_askedOnce hq only).mpr ⟨hsuspended, hstays, rfl, rfl⟩
    exact (tracked_of_history h).quiet_of_ready hready hmem
  case onTime =>
    rintro timely l y l' hl ⟨e, he, hc⟩ hverdict
    obtain ⟨hsuspended, -, hstays, o, ho, -⟩ := returns_of_history h hq only hl he hc
    subst hl
    rw [← List.cons_append, ← List.append_assoc] at h timely
    obtain ⟨u, hbefore, hafter⟩ := h.split
    obtain ⟨rfl, -, -⟩ := hafter.head
    have hwaits : q ∈ waiting (earlier ++ x :: l) :=
      mem_waiting_iff.mpr (mem_standing_iff.mpr ⟨earlier, x, l, rfl,
        suspended?_eq_some_iff.mpr ⟨hq, hsuspended⟩, hstays, hverdict⟩)
    rw [Query.outcomeAt?, hverdict, Option.none_or] at ho
    cases hdue : q.due with
    | none => simp [hdue] at ho
    | some due =>
      have hover : due ≤ y.before.now := by
        by_contra hlate
        simp [hdue, hlate] at ho
      have hintime := due_of_timely hbefore timely.append_left hwaits hdue
      exact congrArg some (Nat.le_antisymm hover hintime)

end

/-- **Every wait of a run resolves as the reference says.** -/
theorem resolution_of_history {now : Nat} {s : State κ ν γ} {steps : List (Step κ ν γ)}
    (h : (machine κ ν γ).History ⟨now, {}⟩ s steps) : Resolution steps s := by
  constructor
  case resolved =>
    rintro earlier x later q rfl hq only
    exact resolved_of_history h hq only
  case woken =>
    rintro earlier x later k v rfl ha
    obtain ⟨u, hbefore, hfrom⟩ := h.split
    obtain ⟨rfl, hstep, -⟩ := hfrom.head
    rw [ha] at hstep
    obtain ⟨hafter, hevents⟩ := Prod.mk.inj (Option.some.inj hstep)
    obtain ⟨entries, armed, hwaiting⟩ := (tracked_of_history hbefore).armed
    obtain ⟨armed', hreplies⟩ := armed.set k v
    rw [← hafter, ← hevents]
    refine ⟨rfl, hwaiting ▸ hreplies, ?_⟩
    rw [armed'.waits, ← hwaiting, List.filter_map, List.map_map, List.map_map]
    rfl
  case removed =>
    intro x hx k ha
    obtain ⟨-, -, -, -, hstep, -⟩ := h.of_mem hx
    rw [ha] at hstep
    obtain ⟨hafter, hevents⟩ := Prod.mk.inj (Option.some.inj hstep)
    rw [← hafter, ← hevents]
    exact ⟨rfl, rfl, rfl⟩
  case waits =>
    obtain ⟨entries, armed, hwaiting⟩ := (tracked_of_history h).armed
    rw [armed.waits, ← hwaiting, List.map_map, List.map_map]
    rfl

/-- Of four calls that wait, a value settles two, the one for its key before the one for any
key that began earlier. -/
theorem resolution_of_four : ∃ (s : State Nat Nat Nat) (steps : List (Step Nat Nat Nat)),
    (machine Nat Nat Nat).History ⟨0, {}⟩ s steps ∧
      s.here.replies = [(3, .value 5), (2, .value 5)] ∧
      s.here.waits.map (·.call) = [1, 4] ∧ Resolution steps s := by
  have h1 : (machine Nat Nat Nat).History ⟨0, {}⟩ _ [] := .start
  have h2 := h1.step (a := .wait 1 .any (9 < ·) (some 60)) rfl
  have h3 := h2.step (a := .wait 2 .any (fun _ => true) none) rfl
  have h4 := h3.step (a := .wait 3 (.key 7) (· < 9) none) rfl
  have h5 := h4.step (a := .wait 4 (.key 7) (9 < ·) (some 30)) rfl
  have h6 := h5.step (a := .set 7 5) rfl
  exact ⟨_, _, h6, rfl, rfl, resolution_of_history h6⟩

end Rendezvous
end DeviceRelay

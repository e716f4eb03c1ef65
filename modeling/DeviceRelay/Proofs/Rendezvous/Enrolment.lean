/-
# A registry holds exactly those who wait

A call that has to wait gets a ticket and one waiter, in the line of its target. The waiter
is there until a later step settles the call, lets it return, or drops it, and is gone from
then on, whichever of the lines it stood in and whatever else was done. So in every state of
a run the lines hold one waiter for each call that waits and no other: the tickets of a line
are in order, no ticket is there twice, a key has a line exactly if somebody waits for it,
and the length of a line is the number of those who do. At a closed registry there is no
line, and no step after the close adds one.

Key definitions: `Rendezvous.Query.WaitsOn`, `Rendezvous.WaitsUnder`, `Rendezvous.Held`,
`Rendezvous.Enrolment`.
Key theorems: `Rendezvous.entries_of_history`, `Rendezvous.place_of_ticket`,
`Rendezvous.enrolment_of_history`.
-/
import DeviceRelay.Proofs.Rendezvous.Tidiness
import DeviceRelay.Proofs.Rendezvous.Tracking

namespace DeviceRelay
namespace Rendezvous

section
variable {κ ν γ : Type} [DecidableEq κ]

namespace Armed

variable {r : Rendezvous κ ν γ} {entries : List (Nat × Query κ ν γ)}

/-- The waiters that stand somewhere are those of the calls. -/
theorem mem_places_iff (armed : Armed r entries) (tidy : r.registry.Tidy)
    {p : Target κ × Waiter ν} :
    p ∈ r.registry.places ↔ ∃ e ∈ entries, p = (e.2.target, e.2.waiter e.1) := by
  obtain ⟨t, w⟩ := p
  rw [tidy.mem_places_iff, armed.lines, List.mem_map]
  constructor
  · rintro ⟨e, he, rfl⟩
    obtain ⟨he, ht⟩ := List.mem_filter.mp he
    exact ⟨e, he, Prod.ext (of_decide_eq_true ht).symm rfl⟩
  · rintro ⟨e, he, hp⟩
    obtain ⟨rfl, rfl⟩ := Prod.mk.inj hp
    exact ⟨e, List.mem_filter.mpr ⟨he, decide_eq_true rfl⟩, rfl⟩

theorem ordered_line (armed : Armed r entries) (t : Target κ) :
    ((r.registry.waiters t).map (·.ticket)).Pairwise (· < ·) := by
  rw [armed.lines, List.map_map]
  exact armed.ordered.sublist (List.filter_sublist.map _)

theorem nodup_places (armed : Armed r entries) (tidy : r.registry.Tidy) :
    (r.registry.places.map (·.2.ticket)).Nodup := by
  refine tidy.nodup_places armed.ordered_line fun t t' w w' hw hw' hsame => ?_
  rw [← tidy.mem_places_iff, armed.mem_places_iff tidy] at hw hw'
  obtain ⟨e, he, hp⟩ := hw
  obtain ⟨e', he', hp'⟩ := hw'
  obtain ⟨rfl, rfl⟩ := Prod.mk.inj hp
  obtain ⟨rfl, rfl⟩ := Prod.mk.inj hp'
  rw [armed.eq_of_ticket he he' hsame]

theorem waiterCount_eq (armed : Armed r entries) (t : Target κ) :
    r.registry.waiterCount t = (entries.map (·.2)).countP (·.target = t) := by
  rw [Registry.waiterCount, armed.lines, List.length_map, List.countP_map,
    List.countP_eq_length_filter]
  rfl

theorem mem_keys_iff (armed : Armed r entries) (tidy : r.registry.Tidy) (k : κ) :
    k ∈ r.registry.keyed.map (·.1) ↔ ∃ q ∈ entries.map (·.2), q.target = .key k := by
  rw [tidy.mem_keys_iff, armed.lines]
  constructor
  · rintro ⟨w, hw⟩
    obtain ⟨e, he, -⟩ := List.mem_map.mp hw
    obtain ⟨he, ht⟩ := List.mem_filter.mp he
    exact ⟨e.2, List.mem_map_of_mem he, of_decide_eq_true ht⟩
  · rintro ⟨q, hq, ht⟩
    obtain ⟨e, he, rfl⟩ := List.mem_map.mp hq
    exact ⟨_, List.mem_map_of_mem (List.mem_filter.mpr ⟨he, decide_eq_true ht⟩)⟩

end Armed
end

section
variable {κ ν γ : Type} [DecidableEq κ] [DecidableEq γ]

/-- Whether a call that had to wait still does so after some more steps: none of them let it
return or dropped it, and none settled it. -/
def Query.WaitsOn (q : Query κ ν γ) (later : List (Step κ ν γ)) : Prop :=
  (∀ y ∈ later, y.action.leaves q.call = false) ∧ q.verdict? later = none

theorem Query.waitsOn_append_iff {q : Query κ ν γ} {later : List (Step κ ν γ)} {x : Step κ ν γ} :
    q.WaitsOn (later ++ [x]) ↔ q.WaitsOn later ∧ q.passes x.action = true := by
  simp only [WaitsOn, verdict?_append, Option.or_eq_none_iff, passes, Bool.and_eq_true,
    Option.isNone_iff_eq_none, Bool.not_eq_true', List.mem_append, List.mem_singleton, or_imp,
    forall_and, forall_eq]
  tauto

/-- Whether a call waits under a ticket after the steps of a run. -/
def WaitsUnder (steps : List (Step κ ν γ)) (n : Nat) (q : Query κ ν γ) : Prop :=
  ∃ earlier x later, steps = earlier ++ x :: later ∧ enlisted? x = some (n, q) ∧ q.WaitsOn later

theorem waitsUnder_append_iff {steps : List (Step κ ν γ)} {x : Step κ ν γ} {n : Nat}
    {q : Query κ ν γ} : WaitsUnder (steps ++ [x]) n q ↔
      (WaitsUnder steps n q ∧ q.passes x.action = true) ∨ enlisted? x = some (n, q) := by
  unfold WaitsUnder
  rw [Machine.exists_split_concat_iff]
  constructor
  · rintro (⟨hx, -⟩ | ⟨earlier, y, later, hl, hy, hlater⟩)
    · exact .inr hx
    · obtain ⟨hlater, hpasses⟩ := Query.waitsOn_append_iff.mp hlater
      exact .inl ⟨⟨earlier, y, later, hl, hy, hlater⟩, hpasses⟩
  · rintro (⟨⟨earlier, y, later, hl, hy, hlater⟩, hpasses⟩ | hx)
    · exact .inr ⟨earlier, y, later, hl, hy, Query.waitsOn_append_iff.mpr ⟨hlater, hpasses⟩⟩
    · exact .inl ⟨hx, by simp [Query.WaitsOn, Query.verdict?]⟩

/-- Where a call is held that a step of a run began and that had to wait. -/
structure Held (x : Step κ ν γ) (later : List (Step κ ν γ)) (s : State κ ν γ)
    (q : Query κ ν γ) : Prop where
  /-- While it waits it has one waiter, in the line of its target and nowhere else. -/
  waits : q.WaitsOn later → q.wait (ticketOf x) ∈ s.here.waits ∧
    s.here.registry.places.filter (·.2.ticket = ticketOf x) = [(q.target, q.waiter (ticketOf x))]
  /-- Once it is settled, has returned (also because its time is over) or was dropped, it has
  none. -/
  gone : ¬ q.WaitsOn later → ∀ p ∈ s.here.registry.places, p.2.ticket ≠ ticketOf x
  /-- If it is settled and did neither return nor was dropped, it has its reply. -/
  settled : (∀ y ∈ later, y.action.leaves q.call = false) → ∀ o, q.verdict? later = some o →
    (q.call, o) ∈ s.here.replies

/-- Whom a registry holds after the steps of a run. -/
structure Enrolment (steps : List (Step κ ν γ)) (s : State κ ν γ) : Prop where
  held : ∀ earlier x later q, steps = earlier ++ x :: later → suspended? x = some q →
    Held x later s q
  /-- There is no waiter but those of the calls that wait. -/
  owned : ∀ p ∈ s.here.registry.places, ∃ earlier x later q, steps = earlier ++ x :: later ∧
    suspended? x = some q ∧ q.WaitsOn later ∧ p = (q.target, q.waiter (ticketOf x))
  /-- The tickets of each line are in order. -/
  ordered : (∀ e ∈ s.here.registry.keyed, (e.2.map (·.ticket)).Pairwise (· < ·)) ∧
    (s.here.registry.global.map (·.ticket)).Pairwise (· < ·)
  /-- No ticket is there twice. -/
  distinct : (s.here.registry.places.map (·.2.ticket)).Nodup
  /-- A key has one line at most, and no line is empty. -/
  tidy : s.here.registry.Tidy
  /-- A closed registry has no line. -/
  closed : Closed steps → s.here.registry.keyed = [] ∧ s.here.registry.global = []
  /-- No step after the close adds a waiter. -/
  sealed : ∀ earlier x later, steps = earlier ++ x :: later → Closed earlier →
    suspended? x = none ∧ x.after.here.registry.keyed = [] ∧ x.after.here.registry.global = []
  /-- A line is as long as there are calls that wait for its target. -/
  count : ∀ t, s.here.registry.waiterCount t = (waiting steps).countP (·.target = t)
  /-- A key has a line exactly if a call waits for it. -/
  keys : ∀ k, k ∈ s.here.registry.keyed.map (·.1) ↔ ∃ q ∈ waiting steps, q.target = .key k

variable {now : Nat} {s : State κ ν γ} {steps : List (Step κ ν γ)}

theorem tidy_of_history (h : (machine κ ν γ).History ⟨now, {}⟩ s steps) : s.here.registry.Tidy :=
  h.invariant (P := fun s => s.here.registry.Tidy) ⟨List.nodup_nil, by simp⟩
    fun _ _ _ _ tidy hstep => (edited_of_step hstep).tidy tidy

/-- **Who waits at a registry, and under which ticket, is told by the steps of the run.** -/
theorem entries_of_history (h : (machine κ ν γ).History ⟨now, {}⟩ s steps) :
    ∃ entries, Armed s.here entries ∧ entries.map (·.2) = waiting steps ∧
      ∀ n q, (n, q) ∈ entries ↔ WaitsUnder steps n q := by
  induction h with
  | start =>
    refine ⟨[], .start, rfl, ?_⟩
    simp [WaitsUnder]
  | @step s t steps a events h hstep ih =>
    obtain ⟨entries, armed, hwaiting, hmem⟩ := ih
    obtain ⟨armed', -⟩ := armed_of_step (tracked_of_history h).keys armed hstep
    refine ⟨_, armed', map_entries_append hwaiting ⟨s, a, t, events⟩, fun n q => ?_⟩
    rw [List.mem_append, List.mem_filter, Option.mem_toList, hmem, waitsUnder_append_iff]

theorem ticketOf_lt {earlier later : List (Step κ ν γ)} {x : Step κ ν γ} {q : Query κ ν γ}
    (h : (machine κ ν γ).History ⟨now, {}⟩ s (earlier ++ x :: later))
    (hq : suspended? x = some q) : ticketOf x < s.here.registry.nextTicket := by
  obtain ⟨hbefore, hstep, hlater⟩ := h.around
  obtain ⟨entries, armed, -⟩ := (tracked_of_history hbefore).armed
  obtain ⟨armed', -⟩ := armed_of_step (tracked_of_history hbefore).keys armed hstep
  have hgiven : ticketOf x < x.after.here.registry.nextTicket := by
    refine armed'.fresh (ticketOf x, q) (List.mem_append_right _ ?_)
    exact Option.mem_toList.mpr (enlisted?_eq_some_iff.mpr ⟨hq, rfl⟩)
  exact hlater.invariant (P := fun u => ticketOf x < u.here.registry.nextTicket) hgiven
    fun _ _ _ _ hu hstep => Nat.lt_of_lt_of_le hu (edited_of_step hstep).nextTicket_le

/-- **A ticket is given once.** -/
theorem place_of_ticket {earlier later earlier' later' : List (Step κ ν γ)} {x x' : Step κ ν γ}
    {q q' : Query κ ν γ} (h : (machine κ ν γ).History ⟨now, {}⟩ s (earlier ++ x :: later))
    (hl : earlier ++ x :: later = earlier' ++ x' :: later') (hq : suspended? x = some q)
    (hq' : suspended? x' = some q') (hticket : ticketOf x = ticketOf x') :
    earlier = earlier' ∧ x = x' ∧ later = later' := by
  refine (Machine.eq_or_mem_of_split hl).resolve_right fun hmem => ?_
  rcases List.mem_append.mp hmem with hmem | hmem
  · -- a ticket that is given before is less than the one that `x` gives
    obtain ⟨l, l', rfl⟩ := List.append_of_mem hmem
    exact Nat.ne_of_gt (ticketOf_lt h.around.1 hq') hticket
  · obtain ⟨l, l', rfl⟩ := List.append_of_mem hmem
    rw [← List.cons_append, ← List.append_assoc] at h
    exact Nat.ne_of_lt (ticketOf_lt h.around.1 hq) hticket

/-- The waiters that stand somewhere are those of the calls that wait. -/
theorem mem_places_of_history (h : (machine κ ν γ).History ⟨now, {}⟩ s steps)
    {p : Target κ × Waiter ν} : p ∈ s.here.registry.places ↔
      ∃ n q, WaitsUnder steps n q ∧ p = (q.target, q.waiter n) := by
  obtain ⟨entries, armed, -, hmem⟩ := entries_of_history h
  rw [armed.mem_places_iff (tidy_of_history h)]
  constructor
  · rintro ⟨⟨n, q⟩, he, rfl⟩
    exact ⟨n, q, (hmem n q).mp he, rfl⟩
  · rintro ⟨n, q, hwaits, rfl⟩
    exact ⟨(n, q), (hmem n q).mpr hwaits, rfl⟩

theorem held_of_history {earlier later : List (Step κ ν γ)} {x : Step κ ν γ} {q : Query κ ν γ}
    (h : (machine κ ν γ).History ⟨now, {}⟩ s (earlier ++ x :: later))
    (hq : suspended? x = some q) : Held x later s q := by
  obtain ⟨entries, armed, -, hmem⟩ := entries_of_history h
  constructor
  case waits =>
    intro hwaits
    have henlisted := enlisted?_eq_some_iff.mpr ⟨hq, rfl⟩
    have hunder : WaitsUnder (earlier ++ x :: later) (ticketOf x) q :=
      ⟨earlier, x, later, rfl, henlisted, hwaits⟩
    constructor
    · rw [armed.waits]
      exact List.mem_map_of_mem ((hmem _ _).mpr hunder)
    · have hplace : (q.target, q.waiter (ticketOf x)) ∈ s.here.registry.places :=
        (mem_places_of_history h).mpr ⟨_, _, hunder, rfl⟩
      have hdistinct := armed.nodup_places (tidy_of_history h)
      exact Keyed.filter_key hdistinct (Keyed.find?_of_mem hdistinct hplace)
  case gone =>
    intro hgone p hp hticket
    obtain ⟨n, q', ⟨earlier', x', later', hl, hx', hwaits⟩, rfl⟩ := (mem_places_of_history h).mp hp
    obtain ⟨hq', rfl⟩ := enlisted?_eq_some_iff.mp hx'
    obtain ⟨-, rfl, rfl⟩ := place_of_ticket h hl hq hq' hticket.symm
    obtain rfl := Option.some.inj (hq.symm.trans hq')
    exact hgone hwaits
  case settled =>
    intro hstays o ho
    refine ((tracked_of_history h).replies q.call o).mpr ⟨q, ?_, rfl⟩
    exact mem_standing_iff.mpr ⟨earlier, x, later, rfl, hq, hstays, ho⟩

theorem lines_of_closed (h : (machine κ ν γ).History ⟨now, {}⟩ s steps) (hclosed : Closed steps) :
    s.here.registry.keyed = [] ∧ s.here.registry.global = [] := by
  obtain ⟨entries, armed, hwaiting, -⟩ := entries_of_history h
  rw [(tracked_of_history h).empty hclosed, List.map_eq_nil_iff] at hwaiting
  rw [← Registry.places_eq_nil_iff (tidy_of_history h), List.eq_nil_iff_forall_not_mem]
  intro p hp
  obtain ⟨e, he, -⟩ := (armed.mem_places_iff (tidy_of_history h)).mp hp
  simp [hwaiting] at he

theorem suspended?_of_closed {earlier later : List (Step κ ν γ)} {x : Step κ ν γ}
    (h : (machine κ ν γ).History ⟨now, {}⟩ s (earlier ++ x :: later))
    (hclosed : Closed earlier) : suspended? x = none := by
  obtain ⟨hbefore, hstep, -⟩ := h.around
  have hempty := (tracked_of_history (hbefore.step hstep)).empty
    (closed_append_iff.mpr (.inl hclosed))
  rw [waiting_append, List.append_eq_nil_iff] at hempty
  exact Option.toList_eq_nil_iff.mp hempty.2

/-- **In every state of a run a registry holds exactly those who wait.** -/
theorem enrolment_of_history (h : (machine κ ν γ).History ⟨now, {}⟩ s steps) :
    Enrolment steps s := by
  have tidy := tidy_of_history h
  obtain ⟨entries, armed, hwaiting, -⟩ := entries_of_history h
  constructor
  case held =>
    rintro earlier x later q rfl hq
    exact held_of_history h hq
  case owned =>
    intro p hp
    obtain ⟨n, q, ⟨earlier, x, later, hl, hx, hwaits⟩, hp⟩ := (mem_places_of_history h).mp hp
    obtain ⟨hq, rfl⟩ := enlisted?_eq_some_iff.mp hx
    exact ⟨earlier, x, later, q, hl, hq, hwaits, hp⟩
  case ordered =>
    refine ⟨fun e he => ?_, armed.ordered_line .any⟩
    exact tidy.waiters_of_mem he ▸ armed.ordered_line (.key e.1)
  case distinct => exact armed.nodup_places tidy
  case tidy => exact tidy
  case closed => exact lines_of_closed h
  case sealed =>
    rintro earlier x later rfl hclosed
    obtain ⟨hbefore, hstep, -⟩ := h.around
    refine ⟨suspended?_of_closed h hclosed, ?_⟩
    exact lines_of_closed (hbefore.step hstep) (closed_append_iff.mpr (.inl hclosed))
  case count => exact fun t => hwaiting ▸ armed.waiterCount_eq t
  case keys => exact fun k => hwaiting ▸ armed.mem_keys_iff tidy k

/-- Of six calls that wait, a value settles two, one is dropped and one gives up. The line of the
key that nobody waits for any more is forgotten, and two waiters are left. -/
theorem enrolment_of_six : ∃ (s : State Nat Nat Nat) (steps : List (Step Nat Nat Nat)),
    (machine Nat Nat Nat).History ⟨0, {}⟩ s steps ∧
      s.here.registry.keyed.map (fun e => (e.1, e.2.map (·.ticket))) = [(8, [5])] ∧
      s.here.registry.global.map (·.ticket) = [1] ∧
      s.here.replies = [(1, .value 5), (5, .value 5)] ∧ Enrolment steps s := by
  have h0 : (machine Nat Nat Nat).History ⟨0, {}⟩ _ [] := .start
  have h1 := h0.step (a := .wait 1 (.key 7) (fun _ => true) none) rfl
  have h2 := h1.step (a := .wait 2 .any (9 < ·) none) rfl
  have h3 := h2.step (a := .wait 3 (.key 7) (9 < ·) none) rfl
  have h4 := h3.step (a := .wait 4 (.key 8) (fun _ => true) (some 30)) rfl
  have h5 := h4.step (a := .list 5 (fun _ => true) none) rfl
  have h6 := h5.step (a := .wait 6 (.key 8) (9 < ·) (some 60)) rfl
  have h7 := h6.step (a := .set 7 5) rfl
  have h8 := h7.step (a := .drop 3) rfl
  have h9 := h8.step (a := .tick 30) rfl
  have h10 := h9.step (a := .resume 4) rfl
  exact ⟨_, _, h10, rfl, rfl, rfl, enrolment_of_history h10⟩

end
end Rendezvous
end DeviceRelay

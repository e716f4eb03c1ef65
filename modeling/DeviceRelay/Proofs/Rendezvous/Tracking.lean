/-
# The steps of a run tell who waits and what the replies are

In every state of a run of a registry the values are those that were set last and not
removed since, the calls that wait are those that were suspended and that no later step
settled or took away, in the order in which they began, and the replies are the outcomes of
those that were settled and did not return yet.

Key definitions: `Rendezvous.Tracked`.
Key theorems: `Rendezvous.tracked_of_history`, `Rendezvous.events_of_step`,
`Rendezvous.quiet_of_ready`, `Rendezvous.due_of_timely`.
-/
import DeviceRelay.Proofs.Rendezvous.Steps

namespace DeviceRelay
theorem le_timerDue (now timeout : Nat) : now ≤ timerDue now timeout := by
  unfold timerDue deadline?
  split
  · exact Nat.le_add_right now timeout
  · exact Nat.le_add_right now farFuture

namespace Rendezvous

section
variable {κ ν γ : Type} [DecidableEq κ]

theorem mem_replied_iff {a : Action κ ν γ} {queries : List (Query κ ν γ)} {call : γ}
    {o : Outcome ν} : (call, o) ∈ replied a queries ↔
      ∃ q ∈ queries, q.settledBy? a = some o ∧ q.call = call := by
  cases a with
  | set k v =>
    simp only [replied, Query.settledBy?, Query.wants, Bool.and_eq_true, Target.covers_iff,
      List.mem_map, List.mem_append, List.mem_filter, Prod.mk.injEq, decide_eq_true_eq]
    constructor
    · rintro ⟨q, ⟨hq, ht, ha⟩ | ⟨hq, ht, ha⟩, hc, rfl⟩
      · exact ⟨q, hq, by simp [ht, ha], hc⟩
      · exact ⟨q, hq, by simp [ht, ha], hc⟩
    · rintro ⟨q, hq, ho, hc⟩
      split at ho
      case isTrue hw =>
        obtain ⟨ht, ha⟩ := hw
        refine ⟨q, ?_, hc, Option.some.inj ho⟩
        exact ht.imp (fun ht => ⟨hq, ht, ha⟩) fun ht => ⟨hq, ht, ha⟩
      case isFalse => cases ho
  | close => simp [replied, Query.settledBy?, and_comm, eq_comm]
  | _ => simp [replied, Query.settledBy?]

end

section
variable {κ ν γ : Type} [DecidableEq κ] [DecidableEq γ]

/-- A state of a run, told from the steps that led to it. -/
structure Tracked (steps : List (Step κ ν γ)) (s : State κ ν γ) : Prop where
  keys : (s.here.registry.values.map (·.1)).Nodup
  values : ∀ k v, s.here.registry.values.lookup k = some v ↔ Holds steps k v
  closed : s.here.registry.closed = true ↔ Closed steps
  armed : ∃ entries, Armed s.here entries ∧ entries.map (·.2) = waiting steps
  replies : ∀ call o, (call, o) ∈ s.here.replies ↔
    ∃ q, (q, some o) ∈ standing steps ∧ q.call = call
  /-- Nobody waits at a closed registry. -/
  empty : Closed steps → waiting steps = []

theorem tracked_start (now : Nat) : Tracked [] (⟨now, {}⟩ : State κ ν γ) where
  keys := List.nodup_nil
  values k v := by simp [Holds]
  closed := by simp [Closed]
  armed := ⟨[], .start, rfl⟩
  replies call o := by simp [standing]
  empty _ := rfl

theorem Tracked.step {steps : List (Step κ ν γ)} {s t : State κ ν γ} {a : Action κ ν γ}
    {events : List (Event ν γ)} (T : Tracked steps s) (h : s.step a = some (t, events)) :
    Tracked (steps ++ [⟨s, a, t, events⟩]) t := by
  obtain ⟨hvalues, hclosed⟩ := values_of_step T.keys h
  obtain ⟨entries, armed, hwaiting⟩ := T.armed
  obtain ⟨armed', hreplies⟩ := armed_of_step T.keys armed h
  constructor
  case keys => exact hvalues ▸ nodup_stores a T.keys
  case values => intro k v; rw [hvalues, lookup_stores, holds_append_iff, T.values]
  case closed => rw [hclosed, closed_append_iff, T.closed]
  case armed => exact ⟨_, armed', map_entries_append hwaiting ⟨s, a, t, events⟩⟩
  case replies =>
    intro call o
    rw [hreplies, hwaiting, List.mem_filter, List.mem_append, T.replies, mem_replied_iff]
    constructor
    · rintro ⟨⟨q, hq, rfl⟩ | ⟨q, hq, ho, rfl⟩, hstays⟩
      · exact ⟨q, mem_standing_append.mpr (.inl ⟨hq, by simpa using hstays⟩), rfl⟩
      · exact ⟨q, mem_standing_append.mpr (.inr ⟨hq, ho, by simpa using hstays⟩), rfl⟩
    · rintro ⟨q, hq, rfl⟩
      rcases mem_standing_append.mp hq with ⟨hq, hstays⟩ | ⟨hq, ho, hstays⟩
      · exact ⟨.inl ⟨q, hq, rfl⟩, by simpa using hstays⟩
      · exact ⟨.inr ⟨q, hq, ho, rfl⟩, by simpa using hstays⟩
  case empty =>
    intro hc
    rw [closed_append_iff] at hc
    rw [waiting_append, List.append_eq_nil_iff]
    rcases hc with hc | hc
    · refine ⟨by simp [T.empty hc], ?_⟩
      cases hq : suspended? ⟨s, a, t, events⟩ with
      | none => rfl
      | some q =>
        obtain ⟨hasked, hevents⟩ := suspended?_eq_some_iff.mp hq
        cases begun_of_step T.keys h hasked with
        | cancelled _ _ returns => cases returns.symm.trans hevents
        | current isOpen | suspended isOpen =>
          exact absurd (T.closed.mpr hc) (by simp [isOpen])
    · cases hc
      exact ⟨by simp [Query.passes, Query.settledBy?], by simp [suspended?, asked?]⟩

/-- **Every state of a run is told by its steps.** -/
theorem tracked_of_history {now : Nat} {s : State κ ν γ} {steps : List (Step κ ν γ)}
    (h : (machine κ ν γ).History ⟨now, {}⟩ s steps) : Tracked steps s := by
  induction h with
  | start => exact tracked_start now
  | step _ h ih => exact ih.step h

/-- A call ends when it begins or when it runs. -/
theorem events_of_step {s t : State κ ν γ} {a : Action κ ν γ} {events : List (Event ν γ)}
    {e : Event ν γ} (h : s.step a = some (t, events)) (he : e ∈ events) :
    (∃ q, asked? ⟨s, a, t, events⟩ = some q ∧ e.call = q.call) ∨
      ∃ o, a = .resume e.call ∧ s.here.outcome? s.now e.call = some o ∧
        events = [⟨e.call, o.map fun v => [v]⟩] := by
  cases a with
  | wait call target accepts timeout =>
    refine .inl ⟨_, rfl, ?_⟩
    obtain ⟨-, rfl⟩ := Prod.mk.inj (Option.some.inj h)
    obtain ⟨o, -, rfl⟩ := List.mem_map.mp he
    rfl
  | list call accepts timeout =>
    refine .inl ⟨_, rfl, ?_⟩
    obtain ⟨-, rfl⟩ := Prod.mk.inj (Option.some.inj h)
    obtain ⟨o, -, rfl⟩ := List.mem_map.mp he
    rfl
  | resume call =>
    obtain ⟨⟨here, o⟩, hr, h⟩ := Option.map_eq_some_iff.mp h
    obtain ⟨o', ho, hr⟩ := Option.map_eq_some_iff.mp hr
    obtain ⟨-, rfl⟩ := Prod.mk.inj hr
    obtain ⟨-, rfl⟩ := Prod.mk.inj h
    obtain rfl := List.mem_singleton.mp he
    exact .inr ⟨o', rfl, ho, rfl⟩
  | tick moment =>
    simp only [State.step] at h
    split at h
    · obtain ⟨-, rfl⟩ := Prod.mk.inj (Option.some.inj h)
      cases he
    · cases h
  | set k v | remove k | close | drop call =>
    obtain ⟨-, rfl⟩ := Prod.mk.inj (Option.some.inj h)
    cases he

namespace Tracked

variable {steps : List (Step κ ν γ)} {s : State κ ν γ}

theorem stands_of_outcome (T : Tracked steps s) {call : γ} {o : Outcome ν}
    (h : s.here.outcome? s.now call = some o) :
    ∃ q given, (q, given) ∈ standing steps ∧ q.call = call := by
  unfold outcome? at h
  split at h
  case h_1 reply hreply =>
    obtain ⟨q, hq, hc⟩ := (T.replies call reply).mp (Keyed.mem_of_lookup hreply)
    exact ⟨q, _, hq, hc⟩
  case h_2 =>
    split at h
    case isTrue hany =>
      obtain ⟨entries, armed, hwaiting⟩ := T.armed
      obtain ⟨w, hw, hover⟩ := List.any_eq_true.mp hany
      rw [armed.waits] at hw
      obtain ⟨e, he, rfl⟩ := List.mem_map.mp hw
      have hq : e.2 ∈ waiting steps := hwaiting ▸ List.mem_map_of_mem he
      exact ⟨e.2, none, mem_waiting_iff.mp hq, of_decide_eq_true (Bool.and_eq_true_iff.mp hover).1⟩
    case isFalse => cases h

/-- What a call returns that is the only one of its name to stand: the outcome that settled
it, or nothing once it is due. -/
theorem outcome?_eq (T : Tracked steps s) {q : Query κ ν γ} {given : Option (Outcome ν)}
    (hq : (q, given) ∈ standing steps)
    (only : ∀ q' given', (q', given') ∈ standing steps → q'.call = q.call → q' = q ∧ given' = given) :
    s.here.outcome? s.now q.call =
      given.or (if q.due.any (· ≤ s.now) then some .empty else none) := by
  have hreply : ∀ o, (q.call, o) ∈ s.here.replies ↔ given = some o := by
    intro o
    rw [T.replies]
    constructor
    · rintro ⟨q', hq', hc⟩
      exact (only q' _ hq' hc).2.symm
    · rintro rfl
      exact ⟨q, hq, rfl⟩
  cases given with
  | some o =>
    have hlookup : s.here.replies.lookup q.call = some o := by
      cases hl : s.here.replies.lookup q.call with
      | none =>
        have hmem : q.call ∈ s.here.replies.map (·.1) :=
          List.mem_map_of_mem ((hreply o).mpr rfl)
        exact absurd hmem ((Keyed.lookup_eq_none_iff _ _).mp hl)
      | some o' => exact ((hreply o').mp (Keyed.mem_of_lookup hl)).symm
    simp [outcome?, hlookup]
  | none =>
    have hlookup : s.here.replies.lookup q.call = none := by
      cases hl : s.here.replies.lookup q.call with
      | none => rfl
      | some o => cases (hreply o).mp (Keyed.mem_of_lookup hl)
    have hany : (s.here.waits.any fun w => w.call = q.call && isOver s.now w) =
        q.due.any (· ≤ s.now) := by
      obtain ⟨entries, armed, hwaiting⟩ := T.armed
      rw [armed.waits, List.any_map, Bool.eq_iff_iff, List.any_eq_true]
      constructor
      · rintro ⟨e, he, hboth⟩
        obtain ⟨hc, hover⟩ := Bool.and_eq_true_iff.mp hboth
        clear hboth
        have hmem : e.2 ∈ waiting steps := hwaiting ▸ List.mem_map_of_mem he
        obtain ⟨rfl, -⟩ := only _ _ (mem_waiting_iff.mp hmem) (of_decide_eq_true hc)
        exact hover
      · intro hover
        have hmem : q ∈ entries.map (·.2) := hwaiting ▸ mem_waiting_iff.mpr hq
        obtain ⟨e, he, rfl⟩ := List.mem_map.mp hmem
        exact ⟨e, he, Bool.and_eq_true_iff.mpr ⟨decide_eq_true rfl, hover⟩⟩
    simp [outcome?, hlookup, hany]

/-- When nothing is ready, nobody who stands is settled or due. -/
theorem quiet_of_ready (T : Tracked steps s) (h : (machine κ ν γ).ready s = none)
    {q : Query κ ν γ} {given : Option (Outcome ν)} (hq : (q, given) ∈ standing steps) :
    given.or (if q.due.any (· ≤ s.now) then some .empty else none) = none := by
  have hnone : s.here.ready? s.now = none := Option.map_eq_none_iff.mp h
  unfold ready? at hnone
  split at hnone
  case h_1 => cases hnone
  case h_2 hreplies =>
    cases given with
    | some o =>
      have hreply := (T.replies q.call o).mpr ⟨q, hq, rfl⟩
      simp [hreplies] at hreply
    | none =>
      obtain ⟨entries, armed, hwaiting⟩ := T.armed
      have hmem : q ∈ entries.map (·.2) := hwaiting ▸ mem_waiting_iff.mpr hq
      obtain ⟨e, he, rfl⟩ := List.mem_map.mp hmem
      have hw : e.2.wait e.1 ∈ s.here.waits := armed.waits ▸ List.mem_map_of_mem he
      have hover := List.find?_eq_none.mp (Option.map_eq_none_iff.mp hnone) _ hw
      simpa [isOver, Query.wait] using hover

end Tracked

theorem now_of_step {s t : State κ ν γ} {a : Action κ ν γ} {events : List (Event ν γ)}
    (h : s.step a = some (t, events)) : t.now = s.now ∨ a = .tick t.now := by
  cases a with
  | resume call =>
    obtain ⟨_, -, h⟩ := Option.map_eq_some_iff.mp h
    obtain ⟨rfl, -⟩ := Prod.mk.inj h
    exact .inl rfl
  | tick moment =>
    simp only [State.step] at h
    split at h
    · obtain ⟨rfl, -⟩ := Prod.mk.inj (Option.some.inj h)
      exact .inr rfl
    · cases h
  | _ =>
    obtain ⟨rfl, -⟩ := Prod.mk.inj (Option.some.inj h)
    exact .inl rfl

/-- A call that waits is not beyond its time, if time passes only while nothing is ready. -/
theorem due_of_timely {now : Nat} {s : State κ ν γ} {steps : List (Step κ ν γ)}
    (h : (machine κ ν γ).History ⟨now, {}⟩ s steps) (timely : (machine κ ν γ).Timely steps)
    {q : Query κ ν γ} (hq : q ∈ waiting steps) {due : Nat} (hdue : q.due = some due) :
    s.now ≤ due := by
  induction h with
  | start => cases hq
  | @step s t steps a events h hstep ih =>
    have T := tracked_of_history h
    rw [waiting_append, List.mem_append, Option.mem_toList] at hq
    rcases hq with hq | hq
    · have hold : q ∈ waiting steps := List.mem_of_mem_filter hq
      rcases now_of_step hstep with hnow | rfl
      · exact hnow ▸ ih timely.append_left hold
      · obtain ⟨-, hstop⟩ := timely ⟨s, .tick t.now, t, events⟩ (by simp) t.now rfl
        refine Machine.le_of_min? hstop ?_
        obtain ⟨entries, armed, hwaiting⟩ := T.armed
        obtain ⟨e, he, rfl⟩ := List.mem_map.mp (hwaiting ▸ hold)
        exact List.mem_filterMap.mpr ⟨e.2.wait e.1, armed.waits ▸ List.mem_map_of_mem he, hdue⟩
    · obtain ⟨hasked, hevents⟩ := suspended?_eq_some_iff.mp hq
      cases begun_of_step T.keys hstep hasked with
      | cancelled _ _ returns | current _ _ _ returns => cases returns.symm.trans hevents
      | suspended _ _ timeout hset after =>
        obtain ⟨limit, -, rfl⟩ := Option.map_eq_some_iff.mp (hset.symm.trans hdue)
        subst after
        exact le_timerDue _ _

end
end Rendezvous
end DeviceRelay

/-
# A call waits only if nothing that is there will do

A call that begins at a closed registry is cancelled at once. At an open one it returns
with the values that it looks at and accepts, and has to wait only if there are none. Of
all steps only this one adds to the lines. Of all steps only a set and a remove change the
values, and only a close closes the registry.

Key definitions: `Rendezvous.Query.found`, `Rendezvous.Begun`.
Key theorems: `Rendezvous.begun_of_step`, `Rendezvous.values_of_step`,
`Rendezvous.armed_of_step`.
-/
import DeviceRelay.Proofs.Rendezvous.Lines

namespace DeviceRelay
namespace Rendezvous

section
variable {κ ν γ : Type} [DecidableEq κ]

/-- What a call takes of the values that are there. -/
def Query.found (q : Query κ ν γ) (values : List (κ × ν)) : List (κ × ν) :=
  values.filter fun e => q.looksAt e.1 && q.accepts e.2

/-- What happens when a call begins. -/
inductive Begun (s : State κ ν γ) (q : Query κ ν γ) (t : State κ ν γ) (events : List (Event ν γ)) :
    Prop where
  | cancelled (closed : s.here.registry.closed = true) (after : t = s)
    (returns : events = [⟨q.call, .cancelled⟩])
  | current (isOpen : s.here.registry.closed = false)
    (found : q.found s.here.registry.values ≠ []) (after : t = s)
    (returns : events = [⟨q.call, .value ((q.found s.here.registry.values).map (·.2))⟩])
  | suspended (isOpen : s.here.registry.closed = false)
    (found : q.found s.here.registry.values = []) (timeout : Option Nat)
    (due : q.due = timeout.map (timerDue s.now))
    (after : t = { s with here := s.here.enlist s.now q.call q.target q.accepts timeout })
    (returns : events = [])

/-- The value of a key is the only one that a call for this key looks at. -/
theorem found_key {values : List (κ × ν)} (hl : (values.map (·.1)).Nodup) (k : κ)
    (accepts : ν → Bool) :
    (values.filter fun e => (Target.key k).names e.1 && accepts e.2).map (·.2) =
      ((values.lookup k).filter accepts).toList := by
  induction values with
  | nil => rfl
  | cons e values ih =>
    rw [List.map_cons, List.nodup_cons] at hl
    rw [Keyed.lookup_cons_eq]
    by_cases hk : k = e.1
    · have hrest : values.filter (fun e => (Target.key k).names e.1 && accepts e.2) = [] := by
        refine List.filter_eq_nil_iff.mpr fun e' he' => ?_
        have hne : e'.1 ≠ k := fun h => hl.1 (hk ▸ h ▸ List.mem_map_of_mem he')
        simp [Target.names, hne]
      rw [List.filter_cons, hrest, if_pos hk]
      by_cases ha : accepts e.2 = true <;> simp [Target.names, hk, ha, Option.filter]
    · rw [if_neg hk, ← ih hl.2, List.filter_cons_of_neg]
      simp [Target.names, Ne.symm hk]

/-- What an action makes of the values. -/
def Action.stores : Action κ ν γ → List (κ × ν) → List (κ × ν)
  | .set k v, values => Registry.put k v values
  | .remove k, values => values.filter (·.1 ≠ k)
  | _, values => values

theorem nodup_stores (a : Action κ ν γ) {values : List (κ × ν)} (hl : (values.map (·.1)).Nodup) :
    ((a.stores values).map (·.1)).Nodup := by
  cases a with
  | set k v => exact Keyed.nodup_put v hl
  | remove k => exact hl.sublist (List.filter_sublist.map _)
  | _ => exact hl

theorem lookup_stores (a : Action κ ν γ) (values : List (κ × ν)) (k : κ) (v : ν) :
    (a.stores values).lookup k = some v ↔ a = .set k v ∨
      (values.lookup k = some v ∧ (∀ w, a ≠ .set k w) ∧ a ≠ .remove k) := by
  cases a with
  | set k' v' =>
    rw [Action.stores, Keyed.lookup_put]
    by_cases hk : k = k'
    · simp [hk]
    · simp [hk, Ne.symm hk]
  | remove k' =>
    rw [Action.stores, Keyed.lookup_remove]
    by_cases hk : k = k'
    · simp [hk]
    · simp [hk, Ne.symm hk]
  | _ => simp [Action.stores]

/-- A call that begins changes no value and closes nothing. -/
theorem Begun.kept {s t : State κ ν γ} {q : Query κ ν γ} {events : List (Event ν γ)}
    (h : Begun s q t events) : t.here.registry.values = s.here.registry.values ∧
      t.here.registry.closed = s.here.registry.closed := by
  cases h with
  | cancelled _ after | current _ _ after => rw [after]; exact ⟨rfl, rfl⟩
  | suspended _ _ _ _ after => rw [after]; constructor <;> simp [enlist, Registry.register]

theorem Begun.armed {s t : State κ ν γ} {a : Action κ ν γ} {q : Query κ ν γ}
    {events : List (Event ν γ)} (h : Begun s q t events) (hq : asked? ⟨s, a, t, events⟩ = some q)
    {entries : List (Nat × Query κ ν γ)} (armed : Armed s.here entries) :
    Armed t.here (entries ++ (enlisted? ⟨s, a, t, events⟩).toList) ∧
      t.here.replies = s.here.replies := by
  cases h with
  | cancelled _ after returns | current _ _ after returns =>
    subst after returns
    exact ⟨by simpa [enlisted?, suspended?] using armed, rfl⟩
  | suspended _ _ timeout due after returns =>
    subst after returns
    have hnew : enlisted? ⟨s, a, _, []⟩ = some (s.here.registry.nextTicket, q) :=
      enlisted?_eq_some_iff.mpr ⟨suspended?_eq_some_iff.mpr ⟨hq, rfl⟩, rfl⟩
    rw [hnew]
    exact ⟨armed.enlist due, rfl⟩

variable [DecidableEq γ]

theorem begun_of_wait {s t : State κ ν γ} {events : List (Event ν γ)} {call : γ}
    {target : Target κ} {accepts : ν → Bool} {timeout : Option Nat}
    (hl : (s.here.registry.values.map (·.1)).Nodup)
    (h : s.step (.wait call target accepts timeout) = some (t, events)) :
    Begun s ⟨call, target, target.names, accepts, timeout.map (timerDue s.now)⟩ t events := by
  have hfound : ((s.here.registry.values.filter fun e => target.names e.1 && accepts e.2).map
      (·.2)) = (s.here.current? target accepts).toList := by
    cases target with
    | key k => exact found_key hl k accepts
    | any => simp [Target.names, current?]
  cases hclosed : s.here.registry.closed with
  | true =>
    have hbegin : s.here.begin s.now call target accepts timeout = (s.here, some .cancelled) := by
      simp [begin, hclosed]
    simp only [State.step, hbegin] at h
    obtain ⟨rfl, rfl⟩ := Prod.mk.inj (Option.some.inj h)
    exact .cancelled hclosed rfl rfl
  | false =>
    cases hcurrent : s.here.current? target accepts with
    | none =>
      have hbegin : s.here.begin s.now call target accepts timeout =
          (s.here.enlist s.now call target accepts timeout, none) := by
        simp [begin, hclosed, hcurrent]
      simp only [State.step, hbegin] at h
      obtain ⟨rfl, rfl⟩ := Prod.mk.inj (Option.some.inj h)
      rw [hcurrent, Option.toList_none, List.map_eq_nil_iff] at hfound
      exact .suspended hclosed hfound timeout rfl rfl rfl
    | some v =>
      have hbegin : s.here.begin s.now call target accepts timeout = (s.here, some (.value v)) := by
        simp [begin, hclosed, hcurrent]
      simp only [State.step, hbegin] at h
      obtain ⟨rfl, rfl⟩ := Prod.mk.inj (Option.some.inj h)
      rw [hcurrent, Option.toList_some] at hfound
      refine .current hclosed (fun hnil => ?_) rfl ?_
      · rw [show List.filter _ _ = [] from hnil] at hfound
        cases hfound
      · rw [Query.found, hfound]
        rfl

theorem begun_of_list {s t : State κ ν γ} {events : List (Event ν γ)} {call : γ}
    {accepts : ν → Bool} {timeout : Option Nat}
    (h : s.step (.list call accepts timeout) = some (t, events)) :
    Begun s ⟨call, .any, fun _ => true, accepts, timeout.map (timerDue s.now)⟩ t events := by
  have hfound : ((s.here.registry.values.filter fun e => true && accepts e.2).map (·.2)) =
      s.here.registry.valuesMatching accepts := by
    rw [Registry.valuesMatching, List.filter_map]
    simp [Function.comp_def]
  cases hclosed : s.here.registry.closed with
  | true =>
    have hbegin : s.here.beginListing s.now call accepts timeout = (s.here, some .cancelled) := by
      simp [beginListing, hclosed]
    simp only [State.step, hbegin] at h
    obtain ⟨rfl, rfl⟩ := Prod.mk.inj (Option.some.inj h)
    exact .cancelled hclosed rfl rfl
  | false =>
    cases hvalues : s.here.registry.valuesMatching accepts with
    | nil =>
      have hbegin : s.here.beginListing s.now call accepts timeout =
          (s.here.enlist s.now call .any accepts timeout, none) := by
        simp [beginListing, hclosed, hvalues]
      simp only [State.step, hbegin] at h
      obtain ⟨rfl, rfl⟩ := Prod.mk.inj (Option.some.inj h)
      rw [hvalues, List.map_eq_nil_iff] at hfound
      exact .suspended hclosed hfound timeout rfl rfl rfl
    | cons v vs =>
      have hbegin : s.here.beginListing s.now call accepts timeout =
          (s.here, some (.value (v :: vs))) := by
        simp [beginListing, hclosed, hvalues]
      simp only [State.step, hbegin] at h
      obtain ⟨rfl, rfl⟩ := Prod.mk.inj (Option.some.inj h)
      rw [hvalues] at hfound
      refine .current hclosed (fun hnil => ?_) rfl ?_
      · rw [show List.filter _ _ = [] from hnil] at hfound
        cases hfound
      · rw [Query.found, hfound]
        rfl

/-- A call that begins is cancelled, or takes what is there, or has to wait. -/
theorem begun_of_step {s t : State κ ν γ} {a : Action κ ν γ} {events : List (Event ν γ)}
    {q : Query κ ν γ} (hl : (s.here.registry.values.map (·.1)).Nodup)
    (h : s.step a = some (t, events)) (hq : asked? ⟨s, a, t, events⟩ = some q) :
    Begun s q t events := by
  cases a with
  | wait call target accepts timeout => exact Option.some.inj hq ▸ begun_of_wait hl h
  | list call accepts timeout => exact Option.some.inj hq ▸ begun_of_list h
  | _ => cases hq

theorem values_of_step {s t : State κ ν γ} {a : Action κ ν γ} {events : List (Event ν γ)}
    (hl : (s.here.registry.values.map (·.1)).Nodup) (h : s.step a = some (t, events)) :
    t.here.registry.values = a.stores s.here.registry.values ∧
      (t.here.registry.closed = true ↔ s.here.registry.closed = true ∨ a = .close) := by
  cases a with
  | wait call target accepts timeout =>
    obtain ⟨hvalues, hclosed⟩ := (begun_of_wait hl h).kept
    exact ⟨hvalues, by simp [hclosed]⟩
  | list call accepts timeout =>
    obtain ⟨hvalues, hclosed⟩ := (begun_of_list h).kept
    exact ⟨hvalues, by simp [hclosed]⟩
  | resume call =>
    obtain ⟨⟨here, o⟩, hr, h⟩ := Option.map_eq_some_iff.mp h
    obtain ⟨rfl, -⟩ := Prod.mk.inj h
    simp [resume_eq hr, Action.stores]
  | tick moment =>
    simp only [State.step] at h
    split at h
    · obtain ⟨rfl, -⟩ := Prod.mk.inj (Option.some.inj h)
      simp [Action.stores]
    · cases h
  | set k v | remove k | close | drop call =>
    obtain ⟨rfl, -⟩ := Prod.mk.inj (Option.some.inj h)
    simp [Action.stores, Rendezvous.remove, Registry.remove, Rendezvous.close, Registry.close]

/-- **What a step does to the lines and the replies.** It takes away those whom it settles,
who return or who are dropped, and adds the call that has to wait. -/
theorem armed_of_step {s t : State κ ν γ} {a : Action κ ν γ} {events : List (Event ν γ)}
    {entries : List (Nat × Query κ ν γ)} (hl : (s.here.registry.values.map (·.1)).Nodup)
    (armed : Armed s.here entries) (h : s.step a = some (t, events)) :
    Armed t.here
        (entries.filter (fun e => e.2.passes a) ++ (enlisted? ⟨s, a, t, events⟩).toList) ∧
      t.here.replies = (s.here.replies ++ replied a (entries.map (·.2))).filter
        (fun r => !a.leaves r.1) := by
  cases a with
  | wait call target accepts timeout =>
    simpa [Query.passes, Query.settledBy?, Action.leaves, replied] using
      (begun_of_wait hl h).armed rfl armed
  | list call accepts timeout =>
    simpa [Query.passes, Query.settledBy?, Action.leaves, replied] using
      (begun_of_list h).armed rfl armed
  | set k v =>
    obtain ⟨rfl, rfl⟩ := Prod.mk.inj (Option.some.inj h)
    obtain ⟨hset, hreplies⟩ := armed.set k v
    refine ⟨?_, by simpa [Action.leaves] using hreplies⟩
    show Armed _ (_ ++ [])
    rw [List.append_nil]
    refine (congrArg (Armed _) (List.filter_congr fun e _ => ?_)).mpr hset
    cases hw : e.2.wants k v <;> simp [Query.passes, Query.settledBy?, Action.leaves, hw]
  | close =>
    obtain ⟨rfl, rfl⟩ := Prod.mk.inj (Option.some.inj h)
    obtain ⟨hclose, hreplies⟩ := armed.close
    refine ⟨?_, by simpa [Action.leaves] using hreplies⟩
    show Armed _ (_ ++ [])
    simpa [Query.passes, Query.settledBy?] using hclose
  | resume call =>
    obtain ⟨⟨here, o⟩, hr, h⟩ := Option.map_eq_some_iff.mp h
    obtain ⟨rfl, rfl⟩ := Prod.mk.inj h
    obtain rfl := resume_eq hr
    refine ⟨?_, by simp [replied, Action.leaves, abandon, eq_comm]⟩
    show Armed _ (_ ++ [])
    simpa [Query.passes, Query.settledBy?, Action.leaves, eq_comm] using armed.abandon call
  | drop call =>
    obtain ⟨rfl, rfl⟩ := Prod.mk.inj (Option.some.inj h)
    refine ⟨?_, by simp [replied, Action.leaves, abandon, eq_comm]⟩
    show Armed _ (_ ++ [])
    simpa [Query.passes, Query.settledBy?, Action.leaves, eq_comm] using armed.abandon call
  | remove k =>
    obtain ⟨rfl, rfl⟩ := Prod.mk.inj (Option.some.inj h)
    have hsame : Armed (s.here.remove k) entries :=
      ⟨armed.ordered, armed.fresh, armed.waits, fun t => armed.lines t⟩
    refine ⟨?_, by simp [replied, Action.leaves, Rendezvous.remove]⟩
    show Armed _ (_ ++ [])
    simpa [Query.passes, Query.settledBy?, Action.leaves] using hsame
  | tick moment =>
    simp only [State.step] at h
    split at h
    · obtain ⟨rfl, rfl⟩ := Prod.mk.inj (Option.some.inj h)
      refine ⟨?_, by simp [replied, Action.leaves]⟩
      show Armed _ (_ ++ [])
      simpa [Query.passes, Query.settledBy?, Action.leaves] using armed
    · cases h

end
end Rendezvous
end DeviceRelay

/-
# The lines of a registry hold those who wait and are not settled

Every call that waits has one waiter, in the line of its own target, and the lines are in
the order in which the calls began. A step takes from the lines exactly the calls that it
settles, lets return or drops, and adds at the end the call that it begins, if that has to
wait. Those that a value settles get their replies in the order of the line of its key, and
then in the order of the line of all keys.

Key definitions: `Rendezvous.Armed`, `Rendezvous.replied`.
Key theorems: `Registry.waiters_setWaiters`, `Registry.waiters_set`, `Rendezvous.Armed.set`,
`Rendezvous.Armed.close`, `Rendezvous.Armed.abandon`, `Rendezvous.Armed.enlist`.
-/
import DeviceRelay.Proofs.Rendezvous.Queries
import DeviceRelay.Proofs.Rendezvous.Values

namespace DeviceRelay

namespace Registry

variable {κ ν : Type} [DecidableEq κ]

@[simp] theorem setWaitersOf_global (r : Registry κ ν) (k : κ) (ws : List (Waiter ν)) :
    (r.setWaitersOf k ws).global = r.global := by
  unfold setWaitersOf; split <;> rfl

@[simp] theorem setWaitersOf_nextTicket (r : Registry κ ν) (k : κ) (ws : List (Waiter ν)) :
    (r.setWaitersOf k ws).nextTicket = r.nextTicket := by
  unfold setWaitersOf; split <;> rfl

@[simp] theorem setWaiters_nextTicket (r : Registry κ ν) (t : Target κ) (ws : List (Waiter ν)) :
    (r.setWaiters t ws).nextTicket = r.nextTicket := by
  cases t <;> simp [setWaiters]

/-- The line of a key is the one that was put last, also if it is empty and forgotten. -/
theorem waitersOf_setWaitersOf (r : Registry κ ν) (k k' : κ) (ws : List (Waiter ν)) :
    (r.setWaitersOf k ws).waitersOf k' = if k' = k then ws else r.waitersOf k' := by
  unfold setWaitersOf waitersOf
  split
  case isTrue hws =>
    rw [Keyed.lookup_remove]
    by_cases h : k' = k <;> simp [h, List.isEmpty_iff.mp hws]
  case isFalse =>
    rw [Keyed.lookup_put]
    by_cases h : k' = k <;> simp [h]

theorem waiters_setWaiters (r : Registry κ ν) (t t' : Target κ) (ws : List (Waiter ν)) :
    (r.setWaiters t ws).waiters t' = if t' = t then ws else r.waiters t' := by
  cases t with
  | key k => cases t' <;> simp [setWaiters, waiters, waitersOf_setWaitersOf]
  | any => cases t' <;> simp [setWaiters, waiters, waitersOf]

theorem waiters_register (r : Registry κ ν) (t t' : Target κ) (accepts : ν → Bool) :
    (r.register t accepts).1.waiters t' =
      r.waiters t' ++ if t' = t then [⟨r.nextTicket, accepts⟩] else [] := by
  simp only [register, waiters_setWaiters]
  by_cases h : t' = t
  · simp [h]
  · simp only [h, ↓reduceIte, List.append_nil]
    cases t' <;> rfl

theorem waiters_withdraw (r : Registry κ ν) (t t' : Target κ) (ticket : Nat) :
    (r.withdraw t ticket).waiters t' =
      (r.waiters t').filter fun w => !(t' = t && w.ticket = ticket) := by
  unfold withdraw
  rw [waiters_setWaiters]
  by_cases h : t' = t <;> simp [h]

/-- A value takes those who accept it from the lines that it is for. -/
theorem waiters_set (r : Registry κ ν) (k : κ) (v : ν) (t : Target κ) :
    (r.set k v).1.waiters t =
      (r.waiters t).filter fun w => !(t.covers k && w.accepts v) := by
  cases t with
  | key k' =>
    simp only [set, waiters, waitersOf_setWaitersOf, Target.covers]
    by_cases h : k = k'
    · simp [h, declining]
    · simp [h, Ne.symm h, waitersOf]
  | any => simp [set, waiters, Target.covers, declining]

@[simp] theorem waiters_close (r : Registry κ ν) (t : Target κ) : r.close.waiters t = [] := by
  cases t <;> rfl

@[simp] theorem waiters_remove (r : Registry κ ν) (k : κ) (t : Target κ) :
    (r.remove k).waiters t = r.waiters t := by
  cases t <;> rfl

end Registry

theorem Target.covers_iff {κ : Type} [DecidableEq κ] {t : Target κ} {k : κ} :
    t.covers k = true ↔ t = .key k ∨ t = .any := by
  cases t <;> simp [Target.covers, eq_comm]

namespace Rendezvous

section
variable {κ ν γ : Type}

def Query.waiter (q : Query κ ν γ) (ticket : Nat) : Waiter ν := ⟨ticket, q.accepts⟩

/-- The place of a call among those that wait. -/
def Query.wait (q : Query κ ν γ) (ticket : Nat) : Wait κ γ := ⟨q.call, ticket, q.target, q.due⟩

end

section
variable {κ ν γ : Type} [DecidableEq κ]

/-- The tickets of the calls that wait, with what they ask for. -/
structure Armed (r : Rendezvous κ ν γ) (entries : List (Nat × Query κ ν γ)) : Prop where
  /-- Tickets are given in order. -/
  ordered : (entries.map (·.1)).Pairwise (· < ·)
  fresh : ∀ e ∈ entries, e.1 < r.registry.nextTicket
  waits : r.waits = entries.map fun e => e.2.wait e.1
  /-- Each call has one waiter, in the line of its target. -/
  lines : ∀ t, r.registry.waiters t =
    (entries.filter (·.2.target = t)).map fun e => e.2.waiter e.1

/-- The replies that an action gives to those that wait, in order. -/
def replied : Action κ ν γ → List (Query κ ν γ) → List (γ × Outcome ν)
  | .set k v, waiting =>
    ((waiting.filter fun q => q.target = .key k && q.accepts v) ++
      waiting.filter fun q => q.target = .any && q.accepts v).map fun q => (q.call, .value v)
  | .close, waiting => waiting.map fun q => (q.call, .cancelled)
  | _, _ => []

namespace Armed

variable {r : Rendezvous κ ν γ} {entries : List (Nat × Query κ ν γ)}

theorem start : Armed ({} : Rendezvous κ ν γ) [] :=
  ⟨List.Pairwise.nil, by simp, rfl, fun t => by cases t <;> rfl⟩

theorem nodup (h : Armed r entries) : (entries.map (·.1)).Nodup :=
  h.ordered.imp Nat.ne_of_lt

theorem eq_of_ticket (h : Armed r entries) {e e' : Nat × Query κ ν γ} (he : e ∈ entries)
    (he' : e' ∈ entries) (ht : e.1 = e'.1) : e = e' :=
  List.inj_on_of_nodup_map h.nodup he he' ht

theorem find?_wait (h : Armed r entries) {e : Nat × Query κ ν γ} (he : e ∈ entries) :
    r.waits.find? (·.ticket = e.1) = some (e.2.wait e.1) := by
  have hfind : entries.find? (fun e' => e'.1 = e.1) = some e := Keyed.find?_of_mem h.nodup he
  rw [h.waits, List.find?_map]
  exact congrArg (Option.map _) hfind

theorem filter (h : Armed r entries) {r' : Rendezvous κ ν γ} {p : Nat × Query κ ν γ → Bool}
    (hnext : r'.registry.nextTicket = r.registry.nextTicket)
    (hwaits : r'.waits = (entries.filter p).map fun e => e.2.wait e.1)
    (hlines : ∀ t, r'.registry.waiters t =
      ((entries.filter (·.2.target = t)).filter p).map fun e => e.2.waiter e.1) :
    Armed r' (entries.filter p) where
  ordered := h.ordered.sublist (List.filter_sublist.map _)
  fresh e he := hnext ▸ h.fresh e (List.mem_of_mem_filter he)
  waits := hwaits
  lines t := by rw [hlines, List.filter_comm]

theorem accepting_line (h : Armed r entries) (t : Target κ) (v : ν) :
    Registry.accepting v (r.registry.waiters t) =
      (entries.filter fun e => e.2.target = t && e.2.accepts v).map (·.1) := by
  unfold Registry.accepting
  rw [h.lines, List.filter_map, List.map_map, List.filter_filter]
  refine congrArg (List.map _) (List.filter_congr fun e _ => ?_)
  exact Bool.and_comm _ _

theorem calls_of_accepting (h : Armed r entries) (t : Target κ) (v : ν) :
    (Registry.accepting v (r.registry.waiters t)).filterMap
        (fun ticket => (r.waits.find? (·.ticket = ticket)).map (·.call)) =
      ((entries.map (·.2)).filter fun q => q.target = t && q.accepts v).map (·.call) := by
  rw [h.accepting_line, List.filterMap_map, List.filter_map, List.map_map,
    ← List.filterMap_eq_map]
  refine List.filterMap_congr fun e he => ?_
  simp [h.find?_wait (List.mem_of_mem_filter he), Query.wait]

theorem mem_woken_iff (h : Armed r entries) {e : Nat × Query κ ν γ} (he : e ∈ entries) (k : κ)
    (v : ν) : e.1 ∈ (r.registry.set k v).2 ↔ e.2.wants k v = true := by
  have hline : ∀ t, e.1 ∈ Registry.accepting v (r.registry.waiters t) ↔
      e.2.target = t ∧ e.2.accepts v = true := by
    intro t
    rw [h.accepting_line, List.mem_map]
    constructor
    · rintro ⟨e', he', ht⟩
      obtain ⟨hmem, hp⟩ := List.mem_filter.mp he'
      obtain rfl := h.eq_of_ticket hmem he ht
      simpa using hp
    · intro hp
      exact ⟨e, List.mem_filter.mpr ⟨he, by simpa using hp⟩, rfl⟩
  have hkey := hline (.key k)
  have hany := hline .any
  simp only [Registry.waiters] at hkey hany
  rw [Registry.set, List.mem_append, hkey, hany, ← or_and_right, Query.wants, Bool.and_eq_true,
    Target.covers_iff]

/-- **A value takes those who want it from the lines and replies to them**, first to those for
its key and then to those for any key, each in the order in which they came. -/
theorem set (h : Armed r entries) (k : κ) (v : ν) :
    Armed (r.set k v) (entries.filter fun e => !e.2.wants k v) ∧
      (r.set k v).replies = r.replies ++ replied (.set k v) (entries.map (·.2)) := by
  constructor
  · refine h.filter ?_ ?_ fun t => ?_
    · simp [Rendezvous.set, Registry.set]
    · show r.waits.filter (fun w => w.ticket ∉ (r.registry.set k v).2) = _
      rw [h.waits, List.filter_map]
      refine congrArg (List.map _) (List.filter_congr fun e he => ?_)
      by_cases hw : e.2.wants k v = true
      · simp [hw, Query.wait, (h.mem_woken_iff he k v).mpr hw]
      · simp [hw, Query.wait, mt (h.mem_woken_iff he k v).mp hw]
    · show (r.registry.set k v).1.waiters t = _
      rw [Registry.waiters_set, h.lines, List.filter_map]
      refine congrArg (List.map _) (List.filter_congr fun e he => ?_)
      have ht : e.2.target = t := by simpa using (List.mem_filter.mp he).2
      simp [Query.wants, Query.waiter, ht]
  · show r.replies ++ ((r.registry.set k v).2.filterMap _).map _ = _
    have hkey := h.calls_of_accepting (.key k) v
    have hany := h.calls_of_accepting .any v
    simp only [Registry.waiters] at hkey hany
    rw [Registry.set, List.filterMap_append, hkey, hany, ← List.map_append, List.map_map]
    rfl

theorem close (h : Armed r entries) :
    Armed r.close [] ∧ r.close.replies = r.replies ++ replied .close (entries.map (·.2)) := by
  constructor
  · exact ⟨List.Pairwise.nil, by simp, rfl, fun t => by simp [Rendezvous.close]⟩
  · show r.replies ++ r.waits.map _ = _
    rw [h.waits, List.map_map]
    simp [replied, Query.wait]

/-- A new call comes last. -/
theorem enlist (h : Armed r entries) {now : Nat} {q : Query κ ν γ} {timeout : Option Nat}
    (hdue : q.due = timeout.map (timerDue now)) :
    Armed (r.enlist now q.call q.target q.accepts timeout)
      (entries ++ [(r.registry.nextTicket, q)]) where
  ordered := by
    rw [List.map_append, List.pairwise_append]
    refine ⟨h.ordered, List.pairwise_singleton _ _, fun n hn m hm => ?_⟩
    obtain ⟨e, he, rfl⟩ := List.mem_map.mp hn
    obtain rfl : m = r.registry.nextTicket := by simpa using hm
    exact h.fresh e he
  fresh e he := by
    have hnext : (r.enlist now q.call q.target q.accepts timeout).registry.nextTicket =
        r.registry.nextTicket + 1 := by simp [Rendezvous.enlist, Registry.register]
    rw [hnext]
    rcases List.mem_append.mp he with he | he
    · exact Nat.lt_succ_of_lt (h.fresh e he)
    · obtain rfl := List.mem_singleton.mp he
      exact Nat.lt_succ_self _
  waits := by
    show r.waits ++ _ = _
    rw [h.waits, List.map_append, ← hdue]
    rfl
  lines t := by
    show (r.registry.register q.target q.accepts).1.waiters t = _
    rw [Registry.waiters_register, h.lines, List.filter_append, List.map_append]
    by_cases ht : t = q.target
    · simp [ht, Query.waiter]
    · simp [ht, Ne.symm ht]

end Armed

/-- To withdraw waiters takes them from the lines of their targets. -/
theorem waiters_withdrawAll (ws : List (Wait κ γ)) (r : Registry κ ν) (t : Target κ) :
    (ws.foldl (fun r w => r.withdraw w.target w.ticket) r).waiters t =
      (r.waiters t).filter fun w => !ws.any fun x => t = x.target && w.ticket = x.ticket := by
  induction ws generalizing r with
  | nil => simp
  | cons x ws ih =>
    rw [List.foldl_cons, ih, Registry.waiters_withdraw, List.filter_filter]
    refine List.filter_congr fun w _ => ?_
    rw [List.any_cons, Bool.not_or, Bool.and_comm]

theorem nextTicket_withdrawAll (ws : List (Wait κ γ)) (r : Registry κ ν) :
    (ws.foldl (fun r w => r.withdraw w.target w.ticket) r).nextTicket = r.nextTicket := by
  induction ws generalizing r with
  | nil => rfl
  | cons x ws ih => rw [List.foldl_cons, ih]; simp [Registry.withdraw]

end

section
variable {κ ν γ : Type} [DecidableEq κ] [DecidableEq γ]

/-- A call that returns or is dropped takes its own waiter away and no other. -/
theorem Armed.abandon {r : Rendezvous κ ν γ} {entries : List (Nat × Query κ ν γ)}
    (h : Armed r entries) (call : γ) :
    Armed (r.abandon call) (entries.filter fun e => e.2.call ≠ call) := by
  refine h.filter ?_ ?_ fun t => ?_
  · exact nextTicket_withdrawAll _ _
  · show r.waits.filter _ = _
    rw [h.waits, List.filter_map]
    rfl
  · show (List.foldl _ r.registry (r.waits.filter _)).waiters t = _
    rw [waiters_withdrawAll, h.lines, List.filter_map]
    refine congrArg (List.map _) (List.filter_congr fun e he => ?_)
    obtain ⟨hmem, ht⟩ := List.mem_filter.mp he
    have hwaits : (r.waits.filter (·.call = call)).any
        (fun x => t = x.target && e.1 = x.ticket) = decide (e.2.call = call) := by
      rw [h.waits, Bool.eq_iff_iff, List.any_eq_true]
      constructor
      · rintro ⟨x, hx, hxt⟩
        obtain ⟨hx, hcall⟩ := List.mem_filter.mp hx
        obtain ⟨e', he', rfl⟩ := List.mem_map.mp hx
        have hticket : e.1 = e'.1 := of_decide_eq_true (Bool.and_eq_true_iff.mp hxt).2
        obtain rfl := h.eq_of_ticket hmem he' hticket
        exact hcall
      · intro hcall
        refine ⟨e.2.wait e.1, List.mem_filter.mpr ⟨List.mem_map_of_mem hmem, hcall⟩, ?_⟩
        have htarget : e.2.target = t := of_decide_eq_true ht
        simp [Query.wait, htarget]
    simp only [Function.comp_apply, Query.waiter, hwaits, ne_eq, decide_not]

end
end Rendezvous
end DeviceRelay

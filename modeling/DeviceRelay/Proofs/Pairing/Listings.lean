/-
# A listing that waits is in line or has its reply

Requests and listings meet where the live requests are kept. A step of the coordinator
changes the requests there and leaves those who wait alone, or it sends a request, which
replies to those who wait for it, or it cancels all who wait, or a listing comes or goes.
So a listing that waits is in line until it has its reply, and it keeps that until it
returns or is dropped. Once the registry is closed, nobody comes any more.

Key definitions: `Rendezvous.Hears`, `Rendezvous.Shut`, `Coordinator.Meets`,
`Coordinator.Waits`, `Coordinator.State.Attended`.
Key theorems: `Coordinator.meets_of_step`, `Coordinator.attended_of_history`,
`Coordinator.Meets.shut`, `Coordinator.Meets.lookup_of_shut`.
-/
import DeviceRelay.Proofs.Pairing.Histories
import DeviceRelay.Proofs.Rendezvous.Tracking

namespace DeviceRelay

/-- To take other keys away does not change what is found. -/
theorem Keyed.lookup_filter {κ β : Type} [DecidableEq κ] {l : List (κ × β)} {p : κ → Bool} {k : κ}
    (h : p k = true) : (l.filter fun e => p e.1).lookup k = l.lookup k := by
  induction l with
  | nil => rfl
  | cons e l ih =>
    rw [List.filter_cons, Keyed.lookup_cons_eq]
    by_cases hk : k = e.1
    · rw [if_pos (hk ▸ h), Keyed.lookup_cons_eq, if_pos hk, if_pos hk]
    · rw [if_neg hk, ← ih]
      split
      · rw [Keyed.lookup_cons_eq, if_neg hk]
      · rfl

namespace Rendezvous

section
variable {κ ν γ : Type}

/-- Whether a call is in line or has its reply. -/
def Hears (r : Rendezvous κ ν γ) (call : γ) : Prop :=
  (∃ w ∈ r.waits, w.call = call) ∨ ∃ o, (call, o) ∈ r.replies

/-- A registry that was closed and at which nobody waits. -/
structure Shut (r : Rendezvous κ ν γ) : Prop where
  closed : r.registry.closed = true
  keyed : r.registry.keyed = []
  global : r.registry.global = []
  waits : r.waits = []

/-- The same calls with other values. -/
def withValues (r : Rendezvous κ ν γ) (values : List (κ × ν)) : Rendezvous κ ν γ :=
  { r with registry := { r.registry with values } }

theorem shut_close (r : Rendezvous κ ν γ) : r.close.Shut := ⟨rfl, rfl, rfl, rfl⟩

/-- To close a registry gives their reply to those in line, and to nobody else. -/
theorem lookup_replies_close [DecidableEq γ] {r : Rendezvous κ ν γ} {call : γ} (h : r.Hears call)
    (hnone : r.replies.lookup call = none) : r.close.replies.lookup call = some .cancelled := by
  have hcalls : ∀ ws : List (Wait κ γ), (∃ w ∈ ws, w.call = call) →
      (ws.map fun w => (w.call, (Outcome.cancelled : Outcome ν))).lookup call = some .cancelled := by
    intro ws hws
    induction ws with
    | nil => obtain ⟨w, hw, -⟩ := hws; cases hw
    | cons w ws ih =>
      rw [List.map_cons, Keyed.lookup_cons_eq]
      by_cases hw : call = w.call
      · rw [if_pos hw]
      · rw [if_neg hw]
        obtain ⟨v, hv, hcall⟩ := hws
        rcases List.mem_cons.mp hv with rfl | hv
        · exact absurd hcall.symm hw
        · exact ih ⟨v, hv, hcall⟩
  rw [close, List.lookup_append, hnone, Option.none_or]
  refine hcalls _ (h.resolve_right ?_)
  rintro ⟨o, ho⟩
  exact (Keyed.lookup_eq_none_iff _ _).mp hnone (List.mem_map_of_mem ho)

end

section
variable {κ ν γ : Type} [DecidableEq κ]

theorem Armed.withValues {r : Rendezvous κ ν γ} {entries : List (Nat × Query κ ν γ)}
    (h : Armed r entries) (values : List (κ × ν)) : Armed (r.withValues values) entries :=
  ⟨h.ordered, h.fresh, h.waits, fun t => (h.lines t ▸ by cases t <;> rfl)⟩

/-- Whom a value wakes has it for a reply, and the others are still in line. -/
theorem Armed.hears_set {r : Rendezvous κ ν γ} {entries : List (Nat × Query κ ν γ)}
    (h : Armed r entries) {call : γ} (hears : r.Hears call) (k : κ) (v : ν) :
    (r.set k v).Hears call := by
  obtain ⟨armed, hreplies⟩ := h.set k v
  rcases hears with ⟨w, hw, hcall⟩ | ⟨o, ho⟩
  · rw [h.waits] at hw
    obtain ⟨e, he, rfl⟩ := List.mem_map.mp hw
    by_cases hwants : e.2.wants k v = true
    · refine Or.inr ⟨.value v, hreplies ▸ List.mem_append_right _ ?_⟩
      exact mem_replied_iff.mpr ⟨e.2, List.mem_map_of_mem he, by simp [Query.settledBy?, hwants], hcall⟩
    · refine Or.inl ⟨e.2.wait e.1, ?_, hcall⟩
      rw [armed.waits]
      exact List.mem_map_of_mem (List.mem_filter.mpr ⟨he, by simp [hwants]⟩)
  · exact Or.inr ⟨o, hreplies ▸ List.mem_append_left _ ho⟩

omit [DecidableEq κ] in
theorem Hears.close {r : Rendezvous κ ν γ} {call : γ} (h : r.Hears call) : r.close.Hears call := by
  rcases h with ⟨w, hw, rfl⟩ | ⟨o, ho⟩
  · exact Or.inr ⟨.cancelled, List.mem_append_right _ (List.mem_map_of_mem hw)⟩
  · exact Or.inr ⟨o, List.mem_append_left _ ho⟩

theorem Hears.abandon [DecidableEq γ] {r : Rendezvous κ ν γ} {call other : γ} (h : r.Hears call)
    (hne : call ≠ other) : (r.abandon other).Hears call := by
  rcases h with ⟨w, hw, rfl⟩ | ⟨o, ho⟩
  · exact Or.inl ⟨w, List.mem_filter.mpr ⟨hw, by simpa using hne⟩, rfl⟩
  · exact Or.inr ⟨o, List.mem_filter.mpr ⟨ho, by simpa using hne⟩⟩

end
end Rendezvous

namespace Coordinator

variable {γ : Type}

section
variable [DecidableEq γ]

/-- Whether an action is the return or the drop of a call. -/
def Action.leaves : Action γ → γ → Bool
  | .run (.call c), call => c = call
  | .drop c, call => c = call
  | _, _ => false

/-- What a step does to the live requests and to those who wait for one, if the calls `new`
begin to wait in it. -/
inductive Meets (r : Rendezvous RequestId PairingRequest γ) :
    Action γ → List (γ × Waiting) → Rendezvous RequestId PairingRequest γ → Prop where
  /-- Requests are taken away, or nothing happens to them. -/
  | values {a : Action γ} {new : List (γ × Waiting)} (values : List (RequestId × PairingRequest)) :
    (∀ w ∈ new, w.2 ≠ .listing) → Meets r a new (r.withValues values)
  | set {a : Action γ} (id : RequestId) (request : PairingRequest) :
    r.registry.closed = false → Meets r a [] (r.set id request)
  | close {a : Action γ} (values : List (RequestId × PairingRequest)) :
    Meets r a [] (r.withValues values).close
  | enlist {call : γ} {target : PrincipalId} {timeout : Nat} (now : Nat)
    (accepts : PairingRequest → Bool) (due : Option Nat) : r.registry.closed = false →
    Meets r (.list call target timeout) [(call, .listing)] (r.enlist now call .any accepts due)
  | abandon {a : Action γ} (call : γ) : a.leaves call = true → Meets r a [] (r.abandon call)

/-- The calls that wait after a step, each with its task: those of before that do not leave,
and the new ones. -/
structure Waits (s t : State γ) (a : Action γ) (new : List (γ × Waiting)) : Prop where
  waiting : t.waiting = (s.waiting.filter fun w => !a.leaves w.1) ++ new
  tasks : ∀ call, Task.call call ∈ t.tasks ↔
    (Task.call call ∈ s.tasks ∧ a.leaves call = false) ∨ call ∈ new.map (·.1)

/-- What is known of the calls that wait in a state of a run: a listing is in line or has its
reply, and every call has its task. -/
structure State.Attended (s : State γ) : Prop where
  armed : ∃ entries, Rendezvous.Armed s.here.live entries
  hears : ∀ call, (call, Waiting.listing) ∈ s.waiting → s.here.live.Hears call
  runs : ∀ w ∈ s.waiting, Task.call w.1 ∈ s.tasks

end

/-! ### The operations -/

theorem open_of_send {c d : Coordinator γ} {clock : Clock} {id : RequestId} {p q : Principal}
    {request : PairingRequest} (h : c.send clock id p q = .ok (d, request)) :
    c.live.registry.closed = false := by
  obtain ⟨hr, -⟩ := send_ok h
  unfold refusal? at hr
  split_ifs at hr with _ _ hclosed
  exact Bool.not_eq_true _ ▸ hclosed

theorem live_of_expire {c d : Coordinator γ} {now : Nat} {id : RequestId}
    (h : c.expire? now id = some d) : ∃ values, d.live = c.live.withValues values := by
  unfold expire? at h
  obtain ⟨due, -, h⟩ := Option.bind_eq_some_iff.mp h
  split at h
  · simp only [reject_stopTimer] at h
    split at h
    · rename_i hr
      obtain rfl := Option.some.inj h
      rw [(reject_ok hr).2]
      exact ⟨_, rfl⟩
    · obtain rfl := Option.some.inj h
      exact ⟨_, rfl⟩
  · cases h

theorem live_shutDown (c : Coordinator γ) :
    ∃ values, c.shutDown.live = (c.live.withValues values).close := by
  suffices key : ∀ (l : List (RequestId × PairingRequest)) (d : Coordinator γ),
      (∃ values, d.live = c.live.withValues values) → ∃ values, (l.foldl (fun c e =>
        { c.settle e.1 .rejected with live := c.live.remove e.1 }) d).live =
          c.live.withValues values by
    obtain ⟨values, hvalues⟩ := key c.live.registry.values { c with timers := [] } ⟨_, rfl⟩
    exact ⟨values, congrArg Rendezvous.close hvalues⟩
  intro l
  induction l with
  | nil => exact fun d hd => hd
  | cons e l ih =>
    rintro d ⟨values, hd⟩
    refine ih _ ⟨values.filter (·.1 ≠ e.1), ?_⟩
    show d.live.remove e.1 = _
    rw [hd]
    rfl

variable [DecidableEq γ] {s t : State γ} {a : Action γ} {events : List (Event γ)}

theorem Waits.of_kept (hw : t.waiting = s.waiting)
    (ht : ∀ call, Task.call call ∈ t.tasks ↔ Task.call call ∈ s.tasks)
    (hl : ∀ call, a.leaves call = false) : Waits s t a [] where
  waiting := by simp [hw, hl]
  tasks call := by simp [ht, hl]

theorem Waits.of_suspend {here : Coordinator γ} {call : γ} {w : Waiting}
    (hl : ∀ call, a.leaves call = false) :
    Waits s ({ s with here }.suspend call w) a [(call, w)] where
  waiting := by simp [State.suspend, hl]
  tasks call := by simp [State.suspend, hl]

theorem Waits.of_finish {here : Coordinator γ} {call : γ}
    (hl : ∀ other, a.leaves other = decide (call = other)) :
    Waits s ({ s with here }.finish call) a [] where
  waiting := by simp [State.finish, hl, @eq_comm _ call]
  tasks other := by simp [State.finish, hl, @eq_comm _ call]

theorem Meets.same {r : Rendezvous RequestId PairingRequest γ} {new : List (γ × Waiting)}
    (hnew : ∀ w ∈ new, w.2 ≠ .listing) : Meets r a new r :=
  .values r.registry.values hnew

/-- A step that leaves those who wait and the live requests alone. -/
theorem meets_of_kept (hw : t.waiting = s.waiting)
    (ht : ∀ call, Task.call call ∈ t.tasks ↔ Task.call call ∈ s.tasks)
    (hlive : t.here.live = s.here.live) (hl : ∀ call, a.leaves call = false) :
    ∃ new, Waits s t a new ∧ Meets s.here.live a new t.here.live :=
  ⟨[], .of_kept hw ht hl, hlive ▸ .same (by simp)⟩

theorem meets_of_runCall {call : γ} (h : s.runCall? call = some (t, events)) :
    Waits s t (.run (.call call)) [] ∧ Meets s.here.live (.run (.call call)) [] t.here.live := by
  unfold State.runCall? at h
  obtain ⟨w, -, h⟩ := Option.bind_eq_some_iff.mp h
  cases w with
  | recording id =>
    obtain ⟨result, -, h⟩ := Option.bind_eq_some_iff.mp h
    obtain ⟨rfl, rfl⟩ := Prod.mk.inj (Option.some.inj h)
    exact ⟨.of_finish fun _ => rfl, .same (by simp)⟩
  | listing =>
    obtain ⟨⟨here, outcome⟩, hr, h⟩ := Option.bind_eq_some_iff.mp h
    obtain ⟨rfl, rfl⟩ := Prod.mk.inj (Option.some.inj h)
    obtain ⟨⟨live, o⟩, hresume, hr⟩ := Option.map_eq_some_iff.mp hr
    obtain ⟨rfl, -⟩ := Prod.mk.inj hr
    rw [Rendezvous.resume_eq hresume]
    exact ⟨.of_finish fun _ => rfl, .abandon call (by simp [Action.leaves])⟩
  | settling id due =>
    simp only at h
    split at h
    · obtain ⟨rfl, rfl⟩ := Prod.mk.inj (Option.some.inj h)
      exact ⟨.of_finish fun _ => rfl, .same (by simp)⟩
    · cases h

theorem meets_of_runTask {task : Task γ} (h : s.runTask? task = some (t, events)) :
    Waits s t (.run task) [] ∧ Meets s.here.live (.run task) [] t.here.live := by
  cases task with
  | timer id =>
    obtain ⟨here, he, h⟩ := Option.map_eq_some_iff.mp h
    obtain ⟨rfl, rfl⟩ := Prod.mk.inj h
    obtain ⟨values, hlive⟩ := live_of_expire he
    exact ⟨.of_kept rfl (by simp) fun _ => rfl, hlive ▸ .values values (by simp)⟩
  | write id =>
    obtain ⟨⟨here, store⟩, he, h⟩ := Option.map_eq_some_iff.mp h
    obtain ⟨rfl, rfl⟩ := Prod.mk.inj h
    obtain ⟨_, -, -, -, _, -, rfl⟩ := endWrite_some he
    exact ⟨.of_kept rfl (by simp) fun _ => rfl, .same (by simp)⟩
  | call call => exact meets_of_runCall h

/-- **Every step does one of these.** -/
theorem meets_of_step (h : s.step a = some (t, events)) :
    ∃ new, Waits s t a new ∧ Meets s.here.live a new t.here.live := by
  cases a with
  | send id p q =>
    simp only [State.step] at h
    split at h
    · cases h
    · split at h
      · obtain ⟨rfl, rfl⟩ := Prod.mk.inj (Option.some.inj h)
        exact meets_of_kept rfl (fun _ => .rfl) rfl fun _ => rfl
      · rename_i hsend
        obtain ⟨rfl, rfl⟩ := Prod.mk.inj (Option.some.inj h)
        refine ⟨[], .of_kept rfl (by simp) fun _ => rfl, ?_⟩
        obtain ⟨-, -, rfl⟩ := send_ok hsend
        exact .set id _ (open_of_send hsend)
  | accept call id =>
    simp only [State.step] at h
    split at h
    · obtain ⟨rfl, rfl⟩ := Prod.mk.inj (Option.some.inj h)
      exact meets_of_kept rfl (fun _ => .rfl) rfl fun _ => rfl
    · rename_i hacc
      obtain ⟨rfl, rfl⟩ := Prod.mk.inj (Option.some.inj h)
      obtain ⟨_, -, rfl⟩ := beginAccept_ok hacc
      exact ⟨[(call, .recording id)], ⟨by simp [State.suspend, Action.leaves],
        fun c => by simp [State.suspend, Action.leaves]⟩, .values _ (by simp)⟩
  | reject id =>
    simp only [State.step] at h
    split at h
    · obtain ⟨rfl, rfl⟩ := Prod.mk.inj (Option.some.inj h)
      exact meets_of_kept rfl (fun _ => .rfl) rfl fun _ => rfl
    · rename_i hrej
      obtain ⟨rfl, rfl⟩ := Prod.mk.inj (Option.some.inj h)
      obtain ⟨-, rfl⟩ := reject_ok hrej
      exact ⟨[], .of_kept rfl (fun _ => .rfl) fun _ => rfl, .values _ (by simp)⟩
  | list call target timeout =>
    simp only [State.step, beginListing, Rendezvous.beginListing] at h
    cases hclosed : s.here.live.registry.closed with
    | true =>
      simp only [hclosed, ↓reduceIte] at h
      obtain ⟨rfl, rfl⟩ := Prod.mk.inj (Option.some.inj h)
      exact meets_of_kept rfl (fun _ => .rfl) rfl fun _ => rfl
    | false =>
      simp only [hclosed, Bool.false_eq_true, ↓reduceIte] at h
      cases hvalues : s.here.live.registry.valuesMatching (s.here.concerns target) with
      | nil =>
        simp only [hvalues] at h
        obtain ⟨rfl, rfl⟩ := Prod.mk.inj (Option.some.inj h)
        exact ⟨_, .of_suspend fun _ => rfl, .enlist s.clock.now _ (some timeout) hclosed⟩
      | cons v vs =>
        simp only [hvalues] at h
        obtain ⟨rfl, rfl⟩ := Prod.mk.inj (Option.some.inj h)
        exact meets_of_kept rfl (fun _ => .rfl) rfl fun _ => rfl
  | watch call id timeout =>
    obtain ⟨rfl, rfl⟩ := Prod.mk.inj (Option.some.inj h)
    exact ⟨_, .of_suspend fun _ => rfl, .same (by simp)⟩
  | run task => exact ⟨[], meets_of_runTask h⟩
  | drop call =>
    obtain ⟨rfl, rfl⟩ := Prod.mk.inj (Option.some.inj h)
    exact ⟨[], .of_finish fun _ => rfl, .abandon call (by simp [Action.leaves])⟩
  | shutDown =>
    obtain ⟨rfl, rfl⟩ := Prod.mk.inj (Option.some.inj h)
    obtain ⟨values, hlive⟩ := live_shutDown s.here
    exact ⟨[], .of_kept rfl (fun _ => .rfl) fun _ => rfl, hlive ▸ .close values⟩
  | link user device =>
    simp only [State.step] at h
    split at h <;> obtain ⟨rfl, rfl⟩ := Prod.mk.inj (Option.some.inj h) <;>
      exact meets_of_kept rfl (fun _ => .rfl) rfl fun _ => rfl
  | tick moment =>
    simp only [State.step] at h
    split at h
    · obtain ⟨rfl, rfl⟩ := Prod.mk.inj (Option.some.inj h)
      exact meets_of_kept rfl (fun _ => .rfl) rfl fun _ => rfl
    · cases h
  | get | setStore | unlink =>
    obtain ⟨rfl, rfl⟩ := Prod.mk.inj (Option.some.inj h)
    exact meets_of_kept rfl (fun _ => .rfl) rfl fun _ => rfl

/-! ### Those who wait -/

variable {new : List (γ × Waiting)} {r r' : Rendezvous RequestId PairingRequest γ}

/-- What a call waits for does not change until it leaves. -/
theorem Waits.lookup (W : Waits s t a new) {call : γ} {w : Waiting} (hl : a.leaves call = false)
    (h : s.waiting.lookup call = some w) : t.waiting.lookup call = some w := by
  rw [W.waiting, List.lookup_append,
    Keyed.lookup_filter (p := fun call => !a.leaves call) (by rw [hl]; rfl), h]
  rfl

theorem Meets.armed (M : Meets r a new r') (h : ∃ entries, Rendezvous.Armed r entries) :
    ∃ entries, Rendezvous.Armed r' entries := by
  obtain ⟨entries, armed⟩ := h
  cases M with
  | values values => exact ⟨_, armed.withValues values⟩
  | set id request => exact ⟨_, (armed.set id request).1⟩
  | close values => exact ⟨_, (armed.withValues values).close.1⟩
  | @enlist call _ _ now accepts due =>
    exact ⟨_, armed.enlist (q := ⟨call, .any, fun _ => true, accepts, due.map (timerDue now)⟩) rfl⟩
  | abandon call => exact ⟨_, armed.abandon call⟩

theorem Meets.hears (M : Meets r a new r') (armed : ∃ entries, Rendezvous.Armed r entries)
    {call : γ} (hl : a.leaves call = false) (h : r.Hears call) : r'.Hears call := by
  obtain ⟨entries, armed⟩ := armed
  cases M with
  | values => exact h
  | set id request => exact armed.hears_set h id request
  | close values => exact Rendezvous.Hears.close (r := r.withValues values) h
  | enlist =>
    rcases h with ⟨w, hw, hcall⟩ | hr
    · exact Or.inl ⟨w, List.mem_append_left _ hw, hcall⟩
    · exact Or.inr hr
  | abandon other hother =>
    refine h.abandon fun he => ?_
    rw [← he, hl] at hother
    cases hother

theorem Meets.hears_new (M : Meets r a new r') {call : γ} (h : (call, Waiting.listing) ∈ new) :
    r'.Hears call := by
  cases M with
  | values _ hnew => exact absurd rfl (hnew _ h)
  | enlist =>
    obtain ⟨rfl, -⟩ := Prod.mk.inj (List.mem_singleton.mp h)
    exact Or.inl ⟨_, List.mem_append_right _ (List.mem_singleton.mpr rfl), rfl⟩
  | set | close | abandon => cases h

theorem attended_of_step (A : s.Attended) (h : s.step a = some (t, events)) : t.Attended := by
  obtain ⟨new, W, M⟩ := meets_of_step h
  refine ⟨M.armed A.armed, fun call hcall => ?_, fun w hw => (W.tasks w.1).mpr ?_⟩
  · rw [W.waiting, List.mem_append, List.mem_filter] at hcall
    rcases hcall with ⟨hcall, hl⟩ | hcall
    · exact M.hears A.armed (by simpa using hl) (A.hears call hcall)
    · exact M.hears_new hcall
  · rw [W.waiting, List.mem_append, List.mem_filter] at hw
    rcases hw with ⟨hw, hl⟩ | hw
    · exact Or.inl ⟨A.runs w hw, by simpa using hl⟩
    · exact Or.inr (List.mem_map_of_mem hw)

/-- **In every state of a run, a listing that waits is in line or has its reply.** -/
theorem attended_of_history {ttl : Nat} {clock : Clock} {store : PairingStore}
    {steps : List (Step γ)} (h : (machine γ).History (.fresh ttl clock store) s steps) :
    s.Attended := by
  refine h.invariant ⟨⟨[], List.Pairwise.nil, by simp, rfl, fun t => by cases t <;> rfl⟩,
    fun _ h => ?_, fun _ h => ?_⟩ fun _ _ _ _ A h => attended_of_step A h
  · cases h
  · cases h

/-! ### After the registry was closed -/

/-- Nobody begins to wait at a closed registry. -/
theorem Meets.shut (M : Meets r a new r') (S : r.Shut) : r'.Shut := by
  cases M with
  | values => exact ⟨S.closed, S.keyed, S.global, S.waits⟩
  | set _ _ isOpen | enlist _ _ _ isOpen => rw [S.closed] at isOpen; cases isOpen
  | close values => exact Rendezvous.shut_close _
  | abandon call =>
    have hsame : (r.abandon call).registry = r.registry := by
      rw [Rendezvous.abandon, S.waits]
      rfl
    refine ⟨hsame ▸ S.closed, hsame ▸ S.keyed, hsame ▸ S.global, ?_⟩
    rw [Rendezvous.abandon, S.waits]
    rfl

/-- A reply at a closed registry stays until its call leaves. -/
theorem Meets.lookup_of_shut (M : Meets r a new r') (S : r.Shut) {call : γ}
    (hl : a.leaves call = false) : r'.replies.lookup call = r.replies.lookup call := by
  cases M with
  | values => rfl
  | set _ _ isOpen | enlist _ _ _ isOpen => rw [S.closed] at isOpen; cases isOpen
  | close values =>
    have hwaits : (r.withValues values).waits = [] := S.waits
    rw [Rendezvous.close, hwaits, List.map_nil, List.append_nil]
    rfl
  | abandon other hother =>
    refine Keyed.lookup_filter (p := fun call => call ≠ other) ?_
    have hne : call ≠ other := fun he => by rw [← he, hl] at hother; cases hother
    simpa using hne

end Coordinator
end DeviceRelay

/-
# Where a consumer stands, and what it does when it runs

A consumer that nobody else shares its name with is about to pop, or waits in line with one
pop. When it runs, it takes the oldest entry of its recipient and ends or is about to pop
again, or it finds none and waits until a moment that is set when it joins the line, and that
stays when it is woken in vain. What the others do does not change where it stands.

Key definitions: `Relay.place`, `Relay.Pops`, `Relay.Waits`, `Relay.Absent`, `Relay.rest`,
`Relay.Turn`.
Key theorems: `Relay.rest_of_run?`, `Relay.turn_of_run?`, `Relay.place_of_step`,
`Relay.awake_of_step`.
-/
import DeviceRelay.Proofs.Queue.Steps
import DeviceRelay.Proofs.Relay.Deadlines
import DeviceRelay.Proofs.Relay.Steps

namespace DeviceRelay
namespace Relay

variable {γ : Type} [DecidableEq γ]

/-- Those who consume under a name, and the keys and the ends of their pops. -/
def place (r : Relay γ) (call : γ) : List (Consumer γ) × List (String × Nat) :=
  (r.consumers.filter (·.call = call), r.queues.slots call)

/-- Nobody consumes under a name. -/
def Absent (r : Relay γ) (call : γ) : Prop := r.place call = ([], [])

/-- A consumer is about to pop. -/
def Pops (r : Relay γ) (c : Consumer γ) : Prop :=
  r.place c.call = ([{ c with waits := false }], [])

/-- A consumer waits in the line of its recipient until a moment. -/
def Waits (r : Relay γ) (c : Consumer γ) (due : Nat) : Prop :=
  r.place c.call = ([{ c with waits := true }], [(queueName c.recipient, due)])

/-- Those who consume under other names, and their pops. -/
def rest (r : Relay γ) (call : γ) : List (Consumer γ) × List (Pop String γ) :=
  (r.consumers.filter (·.call ≠ call), r.queues.pops.filter (·.call ≠ call))

/-! ### What the others do -/

theorem rest_abandon (r : Relay γ) (call : γ) : (r.abandon call).rest call = r.rest call := by
  unfold rest abandon Queues.abandon
  simp

theorem rest_setWaits (r : Relay γ) (call : γ) (waits : Bool) :
    (r.setWaits call waits).rest call = r.rest call := by
  have hkeeps : ∀ c : Consumer γ, (if c.call = call then { c with waits } else c).call = c.call :=
    fun c => by split <;> rfl
  unfold rest setWaits
  simp only [List.filter_map, Function.comp_def, hkeeps]
  refine Prod.ext ((List.map_congr_left fun c hc => ?_).trans (List.map_id _)) rfl
  exact if_neg (of_decide_eq_true (List.mem_filter.mp hc).2)

theorem rest_finish (r : Relay γ) (c : Consumer γ) (popped : Popped (List UInt8)) :
    (r.finish c popped).1.rest c.call = r.rest c.call := by
  unfold finish
  split
  · split
    · exact rest_abandon r c.call
    · split
      · exact rest_setWaits r c.call false
      · exact rest_abandon r c.call
  · exact rest_abandon r c.call
  · exact rest_abandon r c.call

theorem rest_of_pops {r : Relay γ} {q : Queues String (List UInt8) γ} {call : γ}
    (h : q.pops.filter (·.call ≠ call) = r.queues.pops.filter (·.call ≠ call)) :
    { r with queues := q }.rest call = r.rest call :=
  Prod.ext rfl h

/-- **The run of one consumer leaves all others as they are.** -/
theorem rest_of_run? {r r' : Relay γ} {now : Nat} {call : γ} {consumed? : Option Consumed}
    (h : r.run? now call = some (r', consumed?)) : r'.rest call = r.rest call := by
  obtain ⟨c, hc, h⟩ := Option.bind_eq_some_iff.mp h
  obtain rfl : c.call = call := by simpa using List.find?_some hc
  split at h
  · obtain ⟨⟨q, popped?⟩, hq, h⟩ := Option.bind_eq_some_iff.mp h
    have hrest : { r with queues := q }.rest c.call = r.rest c.call := by
      refine rest_of_pops ?_
      obtain ⟨p, hp, hcases⟩ := Queues.resume?_cases hq
      have hcall : p.call = c.call := by simpa using List.find?_some hp
      rcases hcases with ⟨-, -, -, hpops, -⟩ | ⟨-, -, -, hpops, -⟩ | ⟨-, -, -, rfl⟩
      · simp [hpops, Queues.abandon]
      · simp [hpops, Queues.abandon, hcall]
      · simp [Queues.abandon]
    cases popped? with
    | some popped =>
      obtain ⟨rfl, -⟩ := Prod.ext_iff.mp (Option.some.inj h)
      exact (rest_finish _ c popped).trans hrest
    | none =>
      obtain ⟨rfl, -⟩ := Prod.mk.inj (Option.some.inj h)
      exact hrest
  · split at h
    · obtain ⟨rfl, -⟩ := Prod.mk.inj (Option.some.inj h)
      exact rest_abandon r c.call
    · have hrest : ∀ {q popped?},
          r.queues.beginPop now c.call (queueName c.recipient) c.timeout = (q, popped?) →
          { r with queues := q }.rest c.call = r.rest c.call := fun {q popped?} hbegin => by
        refine rest_of_pops ?_
        rcases Queues.beginPop_cases hbegin with
          ⟨-, hpops, -⟩ | ⟨_, -, hpops, -⟩ | ⟨_, -, -, -, hpops, -⟩ <;> simp [hpops]
      split at h
      · next q popped hbegin =>
        obtain ⟨rfl, -⟩ := Prod.ext_iff.mp (Option.some.inj h)
        exact (rest_finish _ c popped).trans (hrest hbegin)
      · next q hbegin =>
        obtain ⟨rfl, -⟩ := Prod.mk.inj (Option.some.inj h)
        exact (rest_setWaits _ c.call true).trans (hrest hbegin)

/-- Where one stands is told by those who consume under other names than another one. -/
theorem place_of_rest {r r' : Relay γ} {other call : γ} (h : r'.rest other = r.rest other)
    (hne : other ≠ call) : r'.place call = r.place call := by
  have hconsumers : ∀ r : Relay γ, r.consumers.filter (·.call = call) =
      (r.rest other).1.filter (·.call = call) := fun r => by
    unfold rest
    rw [List.filter_filter]
    refine List.filter_congr fun c _ => ?_
    by_cases hc : c.call = call <;> simp [hc, Ne.symm hne]
  have hpops : ∀ r : Relay γ, r.queues.pops.filter (·.call = call) =
      (r.rest other).2.filter (·.call = call) := fun r => by
    unfold rest
    rw [List.filter_filter]
    refine List.filter_congr fun p _ => ?_
    by_cases hp : p.call = call <;> simp [hp, Ne.symm hne]
  unfold place Queues.slots
  rw [hconsumers r', hpops r', h, ← hconsumers r, ← hpops r]

theorem place_begin (r : Relay γ) (other call : γ) (recipient : PrincipalId) (timeout : Nat)
    (skips : Bool) :
    (r.begin other recipient timeout skips).place call =
      if other = call then
        ((r.place call).1 ++ [⟨other, recipient, timeout, skips, false⟩], (r.place call).2)
      else r.place call := by
  unfold place begin
  rw [List.filter_append]
  split
  case isTrue h => simp [h]
  case isFalse h => simp [h]

theorem place_publish {r : Relay γ} (hr : r.fault = none) (recipient : PrincipalId) (m : Message)
    (call : γ) : (r.publish recipient m).1.place call = r.place call := by
  rw [publish_of_usable hr]
  exact Prod.ext rfl (Queues.slots_wake _ _ call)

theorem place_pushRaw (r : Relay γ) (recipient : PrincipalId) (bytes : List UInt8) (call : γ) :
    (r.pushRaw recipient bytes).1.place call = r.place call :=
  Prod.ext rfl (Queues.slots_wake _ _ call)

/-! ### What a consumer does when it runs -/

/-- What a consumer does when it runs, and where it stands then. -/
inductive Turn (r r' : Relay γ) (now : Nat) (c : Consumer γ) : Option Consumed → Prop where
  /-- It finds no entry and joins the line, until the moment that is its timeout from now. -/
  | joins (due : Nat) (pops : r.Pops c) (named : deadline? now c.timeout = some due)
      (empty : r.entries c.recipient = [])
      (same : ∀ recipient, r'.entries recipient = r.entries recipient) (after : r'.Waits c due) :
      Turn r r' now c none
  /-- It was woken in vain and joins the line again, until the same moment. -/
  | rejoins (due : Nat) (waits : r.Waits c due)
      (woken : ∀ p ∈ r.queues.pops, p.call = c.call → p.woken = true)
      (empty : r.entries c.recipient = [])
      (same : ∀ recipient, r'.entries recipient = r.entries recipient) (after : r'.Waits c due)
      (sleeps : ∀ p ∈ r'.queues.pops, p.call = c.call → p.woken = false) : Turn r r' now c none
  /-- It takes an entry, passes over it and is about to pop again. -/
  | skips (bytes : List UInt8) (unreported : report c bytes = none)
      (front : r.entries c.recipient = bytes :: r'.entries c.recipient)
      (others : ∀ recipient, recipient ≠ c.recipient → r'.entries recipient = r.entries recipient)
      (after : r'.Pops c) : Turn r r' now c none
  /-- It takes an entry and ends with it. -/
  | ends (bytes : List UInt8) (consumed : Consumed) (reported : report c bytes = some consumed)
      (front : r.entries c.recipient = bytes :: r'.entries c.recipient)
      (others : ∀ recipient, recipient ≠ c.recipient → r'.entries recipient = r.entries recipient)
      (after : r'.Absent c.call) : Turn r r' now c (some consumed)
  /-- It gives up, as its time is over and no entry is there. -/
  | givesUp (due : Nat) (waits : r.Waits c due) (elapsed : due ≤ now)
      (empty : r.entries c.recipient = [])
      (same : ∀ recipient, r'.entries recipient = r.entries recipient)
      (after : r'.Absent c.call) : Turn r r' now c (some .nothing)
  /-- The clock cannot name the moment when it is to give up. -/
  | refused (pops : r.Pops c) (beyond : deadline? now c.timeout = none)
      (same : ∀ recipient, r'.entries recipient = r.entries recipient)
      (after : r'.Absent c.call) : Turn r r' now c (some .beyondClock)

theorem absent_abandon (r : Relay γ) (call : γ) : (r.abandon call).Absent call := by
  unfold Absent place abandon
  rw [Queues.slots_abandon, if_pos rfl]
  simp

theorem place_setWaits (r : Relay γ) (call : γ) (waits : Bool) :
    (r.setWaits call waits).place call =
      ((r.place call).1.map ({ · with waits }), (r.place call).2) := by
  have hkeeps : ∀ c : Consumer γ, (if c.call = call then { c with waits } else c).call = c.call :=
    fun c => by split <;> rfl
  unfold place setWaits
  simp only [List.filter_map, Function.comp_def, hkeeps]
  refine Prod.ext (List.map_congr_left fun c hc => ?_) rfl
  rw [if_pos (of_decide_eq_true (List.mem_filter.mp hc).2)]

theorem find?_of_place {r : Relay γ} {call : γ} {d : Consumer γ} {slots : List (String × Nat)}
    (h : r.place call = ([d], slots)) : r.consumers.find? (·.call = call) = some d := by
  rw [← List.head?_filter, show r.consumers.filter (·.call = call) = [d] from congrArg Prod.fst h]
  rfl

theorem pop_of_slots {q : Queues String (List UInt8) γ} {call : γ} {k : String} {due : Nat}
    (h : q.slots call = [(k, due)]) :
    ∃ p, q.pops.filter (·.call = call) = [p] ∧ p.key = k ∧ p.due = due := by
  obtain ⟨p, hp, he⟩ := List.map_eq_singleton_iff.mp h
  obtain ⟨hkey, hdue⟩ := Prod.mk.inj he
  exact ⟨p, hp, hkey, hdue⟩

theorem place_finish_self {r : Relay γ} {q : Queues String (List UInt8) γ} {c : Consumer γ}
    {waits : Bool} (hc : (r.place c.call).1 = [{ c with waits }]) (hq : q.slots c.call = [])
    (popped : Popped (List UInt8)) :
    let finished := { r with queues := q }.finish { c with waits } popped
    (finished.2 = none → finished.1.Pops c) ∧ (finished.2 ≠ none → finished.1.Absent c.call) := by
  have habandon : ({ r with queues := q }.abandon c.call).Absent c.call := absent_abandon _ _
  have hsetWaits : ({ r with queues := q }.setWaits c.call false).Pops c := by
    unfold Pops
    rw [place_setWaits]
    have hplace : ({ r with queues := q }.place c.call).1 = [{ c with waits }] := hc
    refine Prod.ext ?_ hq
    rw [hplace]
    rfl
  unfold finish
  cases popped with
  | item bytes =>
    dsimp only
    split
    · exact ⟨nofun, fun _ => habandon⟩
    · split
      · exact ⟨fun _ => hsetWaits, fun hne => absurd rfl hne⟩
      · exact ⟨nofun, fun _ => habandon⟩
  | nothing | beyondClock => exact ⟨nofun, fun _ => habandon⟩

theorem turn_of_item {r : Relay γ} {q : Queues String (List UInt8) γ} {now : Nat}
    {c : Consumer γ} {waits : Bool} {bytes : List UInt8} (hc : (r.place c.call).1 = [{ c with waits }])
    (hq : q.slots c.call = [])
    (front : r.queues.items (queueName c.recipient) = bytes :: q.items (queueName c.recipient))
    (others : ∀ k, k ≠ queueName c.recipient → q.items k = r.queues.items k) :
    let finished := { r with queues := q }.finish { c with waits } (.item bytes)
    r.Turn finished.1 now c finished.2 := by
  intro finished
  obtain ⟨hgoesOn, hends⟩ := place_finish_self hc hq (.item bytes)
  have hreport : finished.2 = report c bytes := finish_item ..
  have hentries : ∀ recipient, finished.1.entries recipient = q.items (queueName recipient) :=
    entries_finish { r with queues := q } _ (.item bytes)
  have hfront : r.entries c.recipient = bytes :: finished.1.entries c.recipient := by
    rw [hentries]
    exact front
  have hothers : ∀ recipient, recipient ≠ c.recipient →
      finished.1.entries recipient = r.entries recipient := fun recipient hne => by
    rw [hentries]
    exact others _ (queueName_ne hne)
  cases hconsumed : finished.2 with
  | none => exact .skips bytes (hreport ▸ hconsumed) hfront hothers (hgoesOn hconsumed)
  | some consumed =>
    refine .ends bytes consumed (hreport ▸ hconsumed) hfront hothers (hends ?_)
    exact fun hnone => nomatch hconsumed.symm.trans hnone

/-- **All that a consumer can do when it runs.** -/
theorem turn_of_run? {config : RelayConfig} {r r' : Relay γ} (hr : r.Sound config)
    (awake : r.queues.Awake) {now : Nat} {c : Consumer γ} (stands : r.Pops c ∨ ∃ due, r.Waits c due)
    {consumed? : Option Consumed} (h : r.run? now c.call = some (r', consumed?)) :
    r.Turn r' now c consumed? := by
  unfold run? at h
  rcases stands with pops | ⟨due, waits⟩
  · have hc : (r.place c.call).1 = [{ c with waits := false }] := congrArg Prod.fst pops
    have hslots : r.queues.slots c.call = [] := congrArg Prod.snd pops
    rw [find?_of_place pops, Option.bind_eq_bind, Option.bind_some, if_neg Bool.false_ne_true] at h
    split at h
    · next hfault => rw [hr.usable] at hfault; cases hfault
    cases hbegin : r.queues.beginPop now c.call (queueName c.recipient) c.timeout with
    | mk q popped? =>
    rw [hbegin] at h
    rcases Queues.beginPop_cases hbegin with
      ⟨rfl, hpops, hsame⟩ | ⟨bytes, rfl, hpops, hfront, hothers⟩ |
      ⟨due, rfl, hdue, hempty, hpops, hsame⟩
    · obtain ⟨rfl, rfl⟩ := Prod.ext_iff.mp (Option.some.inj h)
      have hq : q.slots c.call = [] := (Queues.slots_of_pops hpops _).trans hslots
      refine .refused pops (beginPop_beyondClock hbegin) (fun recipient => ?_)
        ((place_finish_self hc hq .beyondClock).2 nofun)
      exact hsame _
    · obtain ⟨rfl, rfl⟩ := Prod.ext_iff.mp (Option.some.inj h)
      have hq : q.slots c.call = [] := (Queues.slots_of_pops hpops _).trans hslots
      exact turn_of_item hc hq hfront hothers
    · obtain ⟨rfl, rfl⟩ := Prod.mk.inj (Option.some.inj h)
      refine .joins due pops hdue hempty (fun recipient => hsame _) ?_
      have hplace : ({ r with queues := q }.place c.call).1 = [{ c with waits := false }] := hc
      unfold Waits
      rw [place_setWaits]
      refine Prod.ext ?_ ?_
      · rw [hplace]
        rfl
      · show q.slots c.call = _
        rw [Queues.slots_append hpops, hslots, if_pos rfl, List.nil_append]
  · have hc : (r.place c.call).1 = [{ c with waits := true }] := congrArg Prod.fst waits
    have hslots : r.queues.slots c.call = [(queueName c.recipient, due)] := congrArg Prod.snd waits
    rw [find?_of_place waits, Option.bind_eq_bind, Option.bind_some, if_pos rfl] at h
    obtain ⟨⟨q, popped?⟩, hresume, h⟩ := Option.bind_eq_some_iff.mp h
    obtain ⟨p, hp, hcases⟩ := Queues.resume?_cases hresume
    have hcall : p.call = c.call := by simpa using List.find?_some hp
    obtain ⟨p', honly, hkey, rfl⟩ := pop_of_slots hslots
    obtain rfl : p = p' := by
      rw [← List.head?_filter, honly] at hp
      exact (Option.some.inj hp).symm
    have hleft : (r.queues.abandon c.call).slots c.call = [] := by
      rw [Queues.slots_abandon, if_pos rfl]
    rcases hcases with
      ⟨bytes, rfl, -, hpops, hfront, hothers⟩ | ⟨rfl, hwoken, hempty, hpops, hsame⟩ |
      ⟨rfl, hsleeps, hover, rfl⟩
    · obtain ⟨rfl, rfl⟩ := Prod.ext_iff.mp (Option.some.inj h)
      have hq : q.slots c.call = [] := (Queues.slots_of_pops hpops _).trans hleft
      rw [hkey] at hfront hothers
      exact turn_of_item hc hq hfront hothers
    · obtain ⟨rfl, rfl⟩ := Prod.mk.inj (Option.some.inj h)
      rw [hkey] at hempty
      refine .rejoins p.due waits (fun p' hp' hcall' => ?_) hempty (fun recipient => hsame _)
        (Prod.ext hc ?_) fun p' hp' hcall' => ?_
      · have hmem : p' ∈ r.queues.pops.filter (·.call = c.call) :=
          List.mem_filter.mpr ⟨hp', decide_eq_true hcall'⟩
        rw [honly, List.mem_singleton] at hmem
        exact hmem ▸ hwoken
      · show q.slots c.call = _
        rw [Queues.slots_append hpops, hleft, if_pos hcall, List.nil_append, hkey]
      · have hmem : p' ∈ (r.queues.abandon c.call).pops ++ [{ p with woken := false }] := hpops ▸ hp'
        rcases List.mem_append.mp hmem with hmem | hmem
        · exact absurd hcall' (Queues.mem_abandon.mp hmem).2
        · rw [List.mem_singleton.mp hmem]
    · obtain ⟨rfl, rfl⟩ := Prod.ext_iff.mp (Option.some.inj h)
      have hempty : r.queues.items p.key = [] := awake p (List.mem_of_find?_eq_some hp) hsleeps
      rw [hkey] at hempty
      refine .givesUp p.due waits hover hempty (fun recipient => ?_)
        ((place_finish_self hc hleft .nothing).2 nofun)
      rfl

/-! ### What a step does -/

/-- Whether an action begins to consume under a name. -/
def Action.begins : Action γ → γ → Bool
  | .consume c _ _ _, call => c = call
  | _, _ => false

/-- A step that neither begins, runs nor drops a consumer leaves it where it stands. -/
theorem place_of_step {config : RelayConfig} {s t : State γ} {a : Action γ}
    {events : List (Event γ)} (hs : s.here.Sound config) (h : s.step a = some (t, events))
    {call : γ} (hbegins : a.begins call = false) (hrun : a ≠ .run call) (hdrop : a ≠ .drop call) :
    t.here.place call = s.here.place call := by
  cases a with
  | publish recipient m =>
    have hplace := place_publish hs.usable recipient m call
    simp only [State.step] at h
    cases hpublish : s.here.publish recipient m with
    | mk r told =>
    rw [hpublish] at h hplace
    cases told <;> (obtain ⟨rfl, -⟩ := Prod.mk.inj (Option.some.inj h); exact hplace)
  | pushRaw recipient bytes =>
    obtain ⟨rfl, -⟩ := Prod.mk.inj (Option.some.inj h)
    exact place_pushRaw s.here recipient bytes call
  | consume other recipient timeout skips =>
    obtain ⟨rfl, -⟩ := Prod.mk.inj (Option.some.inj h)
    have hne : other ≠ call := of_decide_eq_false hbegins
    exact (place_begin s.here ..).trans (if_neg hne)
  | run other =>
    obtain ⟨⟨r, consumed?⟩, hran, h⟩ := Option.map_eq_some_iff.mp h
    obtain ⟨rfl, -⟩ := Prod.mk.inj h
    exact place_of_rest (rest_of_run? hran) fun hother => hrun (congrArg _ hother)
  | drop other =>
    obtain ⟨rfl, -⟩ := Prod.mk.inj (Option.some.inj h)
    exact place_of_rest (rest_abandon s.here other) fun hother => hdrop (congrArg _ hother)
  | tick moment =>
    obtain ⟨-, h⟩ := Option.ite_none_right_eq_some.mp h
    obtain ⟨rfl, -⟩ := Prod.mk.inj (Option.some.inj h)
    rfl

theorem awake_abandon {q : Queues String (List UInt8) γ} (awake : q.Awake) (call : γ) :
    (q.abandon call).Awake :=
  awake.mono (fun _ hp => (Queues.mem_abandon.mp hp).1) fun _ hempty => hempty

theorem awake_of_resume? {q q' : Queues String (List UInt8) γ} (awake : q.Awake) {now : Nat}
    {call : γ} {popped? : Option (Popped (List UInt8))}
    (h : q.resume? now call = some (q', popped?)) : q'.Awake :=
  Queues.awake_of_step (s := ⟨now, q⟩) (a := .resume call) (congrArg (Option.map _) h) awake

theorem awake_of_beginPop {q q' : Queues String (List UInt8) γ} (awake : q.Awake)
    {now timeout : Nat} {call : γ} {k : String} {popped? : Option (Popped (List UInt8))}
    (h : q.beginPop now call k timeout = (q', popped?)) : q'.Awake := by
  have hstep : Queues.State.step ⟨now, q⟩ (.pop call k timeout) =
      some (Queues.State.ran ⟨now, q⟩ call (q', popped?)) := h ▸ rfl
  exact Queues.awake_of_step hstep awake

theorem awake_finish {r : Relay γ} (awake : r.queues.Awake) (c : Consumer γ)
    (popped : Popped (List UInt8)) : (r.finish c popped).1.queues.Awake := by
  unfold finish
  split
  · split
    · exact awake_abandon awake c.call
    · split
      · exact awake
      · exact awake_abandon awake c.call
  · exact awake_abandon awake c.call
  · exact awake_abandon awake c.call

theorem awake_of_run? {r r' : Relay γ} (awake : r.queues.Awake) {now : Nat} {call : γ}
    {consumed? : Option Consumed} (h : r.run? now call = some (r', consumed?)) :
    r'.queues.Awake := by
  obtain ⟨c, -, h⟩ := Option.bind_eq_some_iff.mp h
  split at h
  · obtain ⟨⟨q, popped?⟩, hq, h⟩ := Option.bind_eq_some_iff.mp h
    have hawake := awake_of_resume? awake hq
    cases popped? with
    | some popped =>
      obtain ⟨rfl, -⟩ := Prod.ext_iff.mp (Option.some.inj h)
      exact awake_finish (r := { r with queues := q }) hawake c popped
    | none =>
      obtain ⟨rfl, -⟩ := Prod.mk.inj (Option.some.inj h)
      exact hawake
  · split at h
    · obtain ⟨rfl, -⟩ := Prod.mk.inj (Option.some.inj h)
      exact awake_abandon awake call
    · split at h
      · next q popped hq =>
        obtain ⟨rfl, -⟩ := Prod.ext_iff.mp (Option.some.inj h)
        exact awake_finish (r := { r with queues := q }) (awake_of_beginPop awake hq) c popped
      · next q hq =>
        obtain ⟨rfl, -⟩ := Prod.mk.inj (Option.some.inj h)
        exact awake_of_beginPop awake hq

/-- **No step makes one who waits miss an entry.** -/
theorem awake_of_step {s t : State γ} {a : Action γ} {events : List (Event γ)}
    (awake : s.here.queues.Awake) (h : s.step a = some (t, events)) : t.here.queues.Awake := by
  cases a with
  | publish recipient m =>
    have hq := Queues.awake_of_step (s := ⟨s.now, s.here.queues⟩) (a := .pushCapped
      (queueName recipient) m.pack s.here.maxSize s.here.overflowBuffer) rfl awake
    simp only [State.step, publish] at h
    cases hfault : s.here.fault with
    | some cause =>
      rw [hfault] at h
      obtain ⟨rfl, -⟩ := Prod.mk.inj (Option.some.inj h)
      exact awake
    | none =>
      rw [hfault] at h
      obtain ⟨rfl, -⟩ := Prod.mk.inj (Option.some.inj h)
      exact hq
  | pushRaw recipient bytes =>
    obtain ⟨rfl, -⟩ := Prod.mk.inj (Option.some.inj h)
    exact Queues.awake_of_step (s := ⟨s.now, s.here.queues⟩)
      (a := .push (queueName recipient) bytes) rfl awake
  | consume call recipient timeout skips =>
    obtain ⟨rfl, -⟩ := Prod.mk.inj (Option.some.inj h)
    exact awake
  | run call =>
    obtain ⟨⟨r, consumed?⟩, hran, h⟩ := Option.map_eq_some_iff.mp h
    obtain ⟨rfl, -⟩ := Prod.mk.inj h
    exact awake_of_run? awake hran
  | drop call =>
    obtain ⟨rfl, -⟩ := Prod.mk.inj (Option.some.inj h)
    exact awake_abandon awake call
  | tick moment =>
    obtain ⟨-, h⟩ := Option.ite_none_right_eq_some.mp h
    obtain ⟨rfl, -⟩ := Prod.mk.inj (Option.some.inj h)
    exact awake

end Relay
end DeviceRelay

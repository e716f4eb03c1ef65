/-
# A party is in a phase since the step in which it entered it

A call or a session that publishes is in some phase. It enters its first phase when it
begins, and any other one in a step of its own, from the phase before. It stays in a phase
until its next step. So whatever phase a party is in, it entered it in a step of the run,
and has been there since.

Key definitions: `SessionPhase.phase?`, `Server.Enters`, `Server.Entered`.
Key theorems: `Server.phaseOf?_of_turn`, `Server.entered_of_history`, `Server.entered_before`,
`Server.Enters.of_begins`.
-/
import DeviceRelay.Proofs.Server.Authors
import DeviceRelay.Proofs.Service.Phases

namespace DeviceRelay

/-- The phase of a session that publishes. -/
def SessionPhase.phase? : SessionPhase → Option Phase
  | .publishes _ phase => some phase
  | _ => none

namespace Server

/-- A party enters a phase in a step. -/
inductive Enters (z : Step) : Task → Phase → Prop where
  | begins (label : String) (call : Call) (asks : Asks z.before z.action label call) :
    Enters z (.call label) (.begins call)
  /-- A session takes up a text. -/
  | hears (name : String) (call : Call) (asked : z.action = .choose name .receive) :
    Enters z (.session name) (.begins call)
  /-- A party goes on from another phase. -/
  | goesOn (task : Task) (asked : z.action = .run task) (previous next : Phase)
    (before : z.before.phaseOf? task = some previous)
    (follows : Service.Follows z.before.service previous next) : Enters z task next

/-- A party entered a phase in the step `i` of a run, and stays in it up to the step `n`. -/
structure Entered (steps : List Step) (task : Task) (phase : Phase) (i n : Nat) : Prop where
  earlier : i < n
  enters : ∃ z, steps[i]? = some z ∧ Enters z task phase
  stays : ∀ j y, i < j → j < n → steps[j]? = some y →
    y.before.phaseOf? task = some phase ∧ y.action ≠ .run task

variable {s t : Server} {a : Action} {events : List Event}

theorem phaseOf?_call (s : Server) (label : String) :
    s.phaseOf? (.call label) = (s.call? label).map (·.phase) := rfl

theorem phaseOf?_session {name : String} {x : Session} (here : s.session? name = some x) :
    s.phaseOf? (.session name) = x.phase.phase? := by
  have hbind : s.phaseOf? (.session name) = (s.session? name).bind (·.phase.phase?) := rfl
  rw [hbind, here, Option.bind_some]

/-! ### Sessions -/

theorem phase?_takeText {x : Session} {text : String} {phase : Phase}
    (h : (x.takeText text).phase.phase? = some phase) : ∃ call, phase = .begins call := by
  unfold Session.takeText at h
  split at h
  · cases h
  · exact ⟨_, (Option.some.inj h).symm⟩

/-- A session enters a phase in its turn, or was in it before. -/
theorem phase?_of_turn {x : Session} {r : Service × Session} (here : s.session? x.name = some x)
    (turn : SessionTurn s x a r) {phase : Phase} (h : r.2.phase.phase? = some phase) :
    Enters ⟨s, a, t, events⟩ (.session x.name) phase ∨
      s.phaseOf? (.session x.name) = some phase ∧ a ≠ .run (.session x.name) := by
  have kept (same : r.2.phase = x.phase) (apart : a ≠ .run (.session x.name)) :
      s.phaseOf? (.session x.name) = some phase ∧ a ≠ .run (.session x.name) := by
    refine ⟨?_, apart⟩
    rw [phaseOf?_session here, ← same, h]
  cases turn with
  | forward _ turn =>
    refine .inr (kept ?_ (by simp))
    cases turn with
    | reserves _ _ _ after => rw [after]
    | consumes _ _ _ consumed? _ after =>
      rw [after]
      cases consumed? with
      | none => rfl
      | some consumed => cases consumed <;> rfl
  | choose choice _ waits turn =>
    cases turn with
    | keeps _ _ after | refuses _ _ _ after | takes _ _ after | ends _ _ _ after =>
      subst after
      simp [SessionPhase.phase?, Session.takeMessage, Session.finish, waits] at h
    | hears asked connection text _ after =>
      subst after asked
      obtain ⟨call, rfl⟩ := phase?_takeText h
      exact .inl (.hears x.name call rfl)
  | proceed _ turn =>
    cases turn with
    | publishes messageId previous before move moves after =>
      subst after
      cases hprogress : move.progress with
      | goesOn next =>
        obtain rfl : next = phase := by
          simpa [SessionPhase.phase?, Session.onProgress, hprogress] using h
        have hbefore : s.phaseOf? (.session x.name) = some previous := by
          rw [phaseOf?_session here, before]
          rfl
        have hfollows := (Service.passes_of_step? moves).follows hprogress
        exact .inl (.goesOn _ rfl previous next hbefore hfollows)
      | ends ending => simp [SessionPhase.phase?, Session.onProgress, hprogress] at h
    | sends _ _ _ _ after | ends _ _ _ _ _ after =>
      subst after
      simp [SessionPhase.phase?, Session.finish] at h
  | drop =>
    refine .inr (kept ?_ (by simp))
    unfold Session.drop at h ⊢
    split
    · rename_i hruns
      simp [SessionPhase.phase?, hruns] at h
    · rfl
  | peer => exact .inr (kept rfl (by simp))

/-! ### All parties -/

/-- **A party that is in a phase entered it just now, or was in it before.** -/
theorem phaseOf?_of_turn (T : Turn s a t) {task : Task} {phase : Phase}
    (h : t.phaseOf? task = some phase) : Enters ⟨s, a, t, events⟩ task phase ∨
      s.phaseOf? task = some phase ∧ a ≠ .run task := by
  cases task with
  | background | forward => cases h
  | call label =>
    rw [phaseOf?_call] at h
    cases callBecomes_of_turn T label with
    | rests apart after => exact .inr ⟨by rw [phaseOf?_call, ← after, h], apart⟩
    | begins call asks after =>
      obtain rfl := Option.some.inj (after.symm.trans h)
      exact .inl (.begins label call asks)
    | goesOn c asked here move moves next goes after =>
      obtain rfl := Option.some.inj (after.symm.trans h)
      have hbefore : s.phaseOf? (.call label) = some c.phase := by rw [phaseOf?_call, here]; rfl
      have hfollows := (Service.passes_of_step? moves).follows goes
      exact .inl (.goesOn _ asked c.phase next hbefore hfollows)
    | gone after => simp [after] at h
  | session name =>
    cases becomes_of_turn T name with
    | rests apart after =>
      refine .inr ⟨?_, fun asked => apart (asked ▸ rfl)⟩
      rw [← h, phaseOf?, phaseOf?, after]
    | joins _ _ _ _ after =>
      rw [phaseOf?_session after] at h
      cases h
    | acts x here r turn _ after =>
      obtain rfl := session_name here
      rw [phaseOf?_session after] at h
      exact phase?_of_turn here turn h

/-- No party goes on to begin: a phase with which a call begins is entered when it is asked
for. -/
theorem Enters.of_begins {z : Step} {label : String} {call : Call}
    (h : Enters z (.call label) (.begins call)) : Asks z.before z.action label call := by
  cases h with
  | begins _ _ asks => exact asks
  | goesOn _ _ _ _ _ follows =>
    cases follows with
    | waits _ _ waits => exact waits.elim

/-! ### Runs -/

/-- **A party in a phase entered it in a step of the run, and has been there since.** -/
theorem entered_of_history {start : Server} {steps : List Step} (h : machine.History start s steps)
    (hcalls : start.calls = []) (hsessions : start.sessions = []) {task : Task} {phase : Phase}
    (hphase : s.phaseOf? task = some phase) : ∃ i, Entered steps task phase i steps.length := by
  induction h with
  | start =>
    cases task with
    | call label => simp [phaseOf?, call?, hcalls] at hphase
    | session name => simp [phaseOf?, session?, hsessions] at hphase
    | background | forward => cases hphase
  | @step u t steps a events hu hstep ih =>
    rw [List.length_append, List.length_singleton]
    rcases phaseOf?_of_turn (turn_of_step hstep) hphase with henters | ⟨hheld, apart⟩
    · refine ⟨steps.length, Nat.lt_succ_self _, ⟨_, List.getElem?_concat_length, henters⟩, ?_⟩
      intro j y hlt hj
      omega
    · obtain ⟨i, hlt, ⟨z, hz, henters⟩, hstays⟩ := ih hheld
      refine ⟨i, Nat.lt_succ_of_lt hlt, ⟨z, Machine.getElem?_append_of_some hz _, henters⟩, ?_⟩
      intro j y hij hj hy
      rcases Machine.getElem?_concat_eq_some hy with hy | ⟨-, rfl⟩
      · exact hstays j y hij (List.getElem?_eq_some_iff.mp hy).1 hy
      · exact ⟨hheld, apart⟩

/-- The same, seen from a step before which the party is in the phase. -/
theorem entered_before {start : Server} {steps : List Step} (h : machine.History start s steps)
    (hcalls : start.calls = []) (hsessions : start.sessions = []) {n : Nat} {z : Step}
    (hn : steps[n]? = some z) {task : Task} {phase : Phase}
    (hphase : z.before.phaseOf? task = some phase) : ∃ i, Entered steps task phase i n := by
  have hlt : n < steps.length := (List.getElem?_eq_some_iff.mp hn).1
  have hlength : (steps.take n).length = n := List.length_take_of_le (Nat.le_of_lt hlt)
  have htake {k : Nat} (hk : k < n) : (steps.take n)[k]? = steps[k]? := List.getElem?_take_of_lt hk
  obtain ⟨i, hin, ⟨y, hy, henters⟩, hstays⟩ :=
    entered_of_history (h.take hn).1 hcalls hsessions hphase
  rw [hlength] at hin hstays
  refine ⟨i, hin, ⟨y, (htake hin).symm.trans hy, henters⟩, ?_⟩
  intro j x hij hjn hx
  exact hstays j x hij hjn ((htake hjn).trans hx)

end Server
end DeviceRelay

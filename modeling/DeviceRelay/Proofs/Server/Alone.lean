/-
# What runs alone runs to its end

A call, or what a session publishes, runs in steps of the server. If nothing else happens in
between, it comes to its end in some number of them, and the server is then as its own steps
leave it.

Key theorems: `Server.run_of_runsAlone`, `Server.runSession_of_runsAlone`.
-/
import DeviceRelay.Proofs.Server.Authors
import DeviceRelay.Proofs.Server.Endings
import DeviceRelay.Proofs.Service.Posting

namespace DeviceRelay
namespace Server

variable {s : Server} {label name : String}

theorem run_cons {t u : Server} {action : Action} {rest : List Action} {events later : List Event}
    (hstep : s.step action = some (t, events)) (hrest : machine.run t rest = some (u, later)) :
    machine.run s (action :: rest) = some (u, events ++ later) := by
  have hfirst : machine.step s action = some (t, events) := hstep
  unfold Machine.run
  simp only [Option.bind_eq_bind, hfirst, hrest, Option.bind_some, Option.pure_def]

theorem step_of_ends {origin : Origin} {phase : Phase} {m : Move} {ending : Ending}
    (hcall : s.call? label = some ⟨label, origin, phase⟩)
    (moves : s.service.step? (.call label) phase = some m) (last : m.progress = .ends ending) :
    ∃ t, s.step (.run (.call label)) = some (t, [endEvent label ending origin]) ∧
      t.service = m.service := by
  have hrun : s.step (.run (.call label)) = s.runCall? label := rfl
  unfold runCall? at hrun
  rw [hrun, hcall]
  simp only [Option.bind_eq_bind, Option.bind_some, moves, last]
  exact ⟨_, rfl, rfl⟩

theorem step_of_goesOn {origin : Origin} {phase next : Phase} {m : Move}
    (hcall : s.call? label = some ⟨label, origin, phase⟩)
    (moves : s.service.step? (.call label) phase = some m) (passes : m.progress = .goesOn next) :
    ∃ t, s.step (.run (.call label)) = some (t, []) ∧ t.service = m.service ∧
      t.call? label = some ⟨label, origin, next⟩ := by
  have hrun : s.step (.run (.call label)) = s.runCall? label := rfl
  unfold runCall? at hrun
  rw [hrun, hcall]
  simp only [Option.bind_eq_bind, Option.bind_some, moves, passes]
  refine ⟨_, rfl, rfl, ?_⟩
  rw [call?_map rfl, hcall, Option.map_some, if_pos rfl]

/-- **A call that runs alone does so in steps of the server.** -/
theorem run_of_runsAlone {v w : Service} {phase : Phase} {ending : Ending}
    (h : Service.RunsAlone (.call label) v phase w ending) : ∀ (s : Server) (origin : Origin),
      s.service = v → s.call? label = some ⟨label, origin, phase⟩ →
      ∃ n t, machine.run s (List.replicate n (.run (.call label))) =
        some (t, [endEvent label ending origin]) ∧ t.service = w := by
  induction h with
  | ends v phase m ending moves last =>
    rintro s origin rfl hcall
    obtain ⟨t, hstep, hservice⟩ := step_of_ends hcall moves last
    exact ⟨1, t, run_cons hstep rfl, hservice⟩
  | goesOn v phase m next w ending moves passes _ ih =>
    rintro s origin rfl hcall
    obtain ⟨u, hstep, hservice, hnext⟩ := step_of_goesOn hcall moves passes
    obtain ⟨n, t, hrun, ht⟩ := ih u origin hservice hnext
    exact ⟨n + 1, t, run_cons hstep hrun, ht⟩

/-- A session that publishes goes on in a step of the server. -/
theorem step_of_publishes {x : Session} {messageId : String} {phase : Phase} {m : Move}
    (here : s.session? name = some x) (hphase : x.phase = .publishes messageId phase)
    (moves : s.service.step? (.session name) phase = some m) :
    ∃ t y, s.step (.run (.session name)) = some (t, []) ∧ t.service = m.service ∧
      t.session? name = some y ∧ y.phase = Session.onProgress messageId m.progress := by
  obtain rfl := session_name here
  generalize hy : { x with phase := Session.onProgress messageId m.progress } = y
  have hproceed : x.proceed? s.service = some (m.service, y) := by
    unfold Session.proceed?
    simp only [hphase, moves, Option.map_some, ← hy]
    cases m.progress with
    | goesOn | ends => rfl
  have hstep : s.step (.run (.session x.name)) = some (s.after (m.service, y)) := by
    have hrun : s.step (.run (.session x.name)) = s.runSession? x.name := rfl
    unfold runSession? at hrun
    rw [hrun, here]
    simp only [Option.bind_eq_bind, Option.bind_some, hproceed, Option.pure_def]
  have hsilent : (s.after (m.service, y)).2 = [] := by
    rw [events_after, ← hy]
    cases m.progress with
    | goesOn | ends => rfl
  have hname : y.name = x.name := by rw [← hy]
  refine ⟨(s.after (m.service, y)).1, y, ?_, service_after .., session?_after here hname, ?_⟩
  · rw [hstep, ← hsilent]
  · rw [← hy]

/-- **A session that publishes alone does so in steps of the server.** -/
theorem runSession_of_runsAlone {v w : Service} {phase : Phase} {ending : Ending}
    (h : Service.RunsAlone (.session name) v phase w ending) :
    ∀ (s : Server) (x : Session) (messageId : String), s.service = v →
      s.session? name = some x → x.phase = .publishes messageId phase →
      ∃ n t, machine.run s (List.replicate n (.run (.session name))) = some (t, []) ∧
        t.service = w ∧ (t.session? name).map (·.phase) =
          some (.sends (.response (Session.replyTo messageId ending))) := by
  induction h with
  | ends v phase m ending moves last =>
    rintro s x messageId rfl here hphase
    obtain ⟨t, y, hstep, hservice, hthere, hy⟩ := step_of_publishes here hphase moves
    refine ⟨1, t, run_cons hstep rfl, hservice, ?_⟩
    rw [hthere, Option.map_some, hy, last]
    rfl
  | goesOn v phase m next w ending moves passes _ ih =>
    rintro s x messageId rfl here hphase
    obtain ⟨u, y, hstep, hservice, hthere, hy⟩ := step_of_publishes here hphase moves
    rw [passes] at hy
    obtain ⟨n, t, hrun, ht⟩ := ih u y messageId hservice hthere hy
    exact ⟨n + 1, t, run_cons hstep hrun, ht⟩

end Server
end DeviceRelay

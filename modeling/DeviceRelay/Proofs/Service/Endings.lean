/-
# How the publishing of a letter ends

A call that publishes goes on with its letter, or ends: it is answered if the letter was just
queued, and it fails if it was not. It never breaks off. No step of a call counts a session
that failed.

Key definitions: `Service.Published`.
Key theorems: `Service.published_of_step?`, `Service.errors_of_step?`.
-/
import DeviceRelay.Proofs.Service.Lasting
import DeviceRelay.Proofs.Service.Letters

namespace DeviceRelay
namespace Service

variable {s : Service} {party : Party} {phase : Phase} {letter : Letter} {m : Move}

/-! ### Publishing -/

/-- What a step does with the letter that a call publishes. -/
inductive Published (s : Service) (phase : Phase) (letter : Letter) (m : Move) : Prop where
  | carries (next : Phase) (goesOn : m.progress = .goesOn next) (after : next.letter? = some letter)
  | enqueued (before : phase = .queues letter) (usable : s.relay.fault = none)
    (ends : m.progress = .ends (.answered .done))
  | fails (e : Error) (ends : m.progress = .ends (.failed e))
    (refused : ∀ letter, phase = .queues letter → s.relay.fault ≠ none)

theorem beginPublish_published (early : ∀ letter, phase ≠ .queues letter) :
    Published s phase letter (s.beginPublish letter) := by
  have fails (s' : Service) (e : Error) : Published s phase letter (s'.fail e) :=
    .fails e rfl fun l hl => absurd hl (early l)
  unfold beginPublish
  split
  · exact fails _ _
  · split
    · exact fails _ _
    · split
      · exact .carries _ rfl rfl
      · split
        · exact fails _ _
        · exact .carries _ rfl rfl

theorem compareOwners_published (early : ∀ letter, phase ≠ .queues letter)
    (senderOwner : Option PrincipalId) :
    Published s phase letter (s.compareOwners letter senderOwner) := by
  have fails (e : Error) : Published s phase letter (s.fail e) :=
    .fails e rfl fun l hl => absurd hl (early l)
  unfold compareOwners
  split
  · exact fails _
  · split
    · exact .carries _ rfl rfl
    · exact fails _

theorem enqueue_published (letter : Letter) :
    Published s (.queues letter) letter (s.enqueue letter) := by
  unfold enqueue
  cases hfault : s.relay.fault with
  | some cause =>
    simp only [Relay.publish, hfault]
    exact .fails _ rfl fun _ _ => by simp [hfault]
  | none =>
    simp only [Relay.publish, hfault]
    exact .enqueued rfl hfault rfl

/-- **A call that publishes is answered if its letter is queued, and fails otherwise.** -/
theorem published_of_step? (carries : phase.letter? = some letter)
    (h : s.step? party phase = some m) : Published s phase letter m := by
  cases phase with
  | begins call =>
    cases call with
    | publish sender recipient kind correlationId data =>
      obtain rfl := Option.some.inj carries
      obtain rfl := Option.some.inj h
      exact beginPublish_published nofun
    | _ => cases carries
  | compares other senderOwner =>
    obtain rfl := Option.some.inj carries
    obtain rfl := Option.some.inj h
    exact compareOwners_published (fun _ h => Phase.noConfusion h) senderOwner
  | queues other =>
    obtain rfl := Option.some.inj carries
    obtain rfl := Option.some.inj h
    exact enqueue_published other
  | _ => cases carries

/-! ### The counter of failed sessions -/

/-- **No step of a call counts a failed session.** -/
theorem errors_of_step? (h : s.step? party phase = some m) :
    m.service.metrics.errors = s.metrics.errors :=
  congrArg Lasting.errors (lasting_of_step? h)

theorem errors_of_runBackground? {b : Background} {s' : Service} (h : s.runBackground? b = some s') :
    s'.metrics.errors = s.metrics.errors :=
  congrArg Lasting.errors (lasting_of_runBackground? h)

end Service
end DeviceRelay

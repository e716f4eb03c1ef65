/-
# What publishing a letter comes to

A call that publishes and that no other step comes between first takes its cells, then finds
out whether its letter may reach the recipient, and then queues it. The first of these that
fails decides. Whether the letter may reach its recipient is a matter of the directory and of
the pairings alone.

Key definitions: `Service.RunsAlone`, `Service.reach`, `Service.deliver`, `Service.post`,
`Service.fate`, `Service.Posted`, `Service.Clear`.
Key theorems: `Service.runsAlone_iff`, `Service.posted_of_post`, `Service.post_result`,
`Service.post_of_clear`.
-/
import DeviceRelay.Proofs.Pairing.Ownership
import DeviceRelay.Proofs.Service.Letters

namespace DeviceRelay

/-- How a call ends that publishes with the given result. -/
def Ending.ofPosting (result : Except Error Unit) : Ending := .ofResult (result.map fun () => .done)

namespace Service

/-- A call gets from a phase to its end, with no step of another in between. -/
inductive RunsAlone (party : Party) : Service → Phase → Service → Ending → Prop where
  | ends (s : Service) (phase : Phase) (m : Move) (ending : Ending)
    (moves : s.step? party phase = some m) (last : m.progress = .ends ending) :
    RunsAlone party s phase m.service ending
  | goesOn (s : Service) (phase : Phase) (m : Move) (next : Phase) (t : Service) (ending : Ending)
    (moves : s.step? party phase = some m) (passes : m.progress = .goesOn next)
    (rest : RunsAlone party m.service next t ending) : RunsAlone party s phase t ending

/-- Whether a letter may reach its recipient, who must be known and in the network of the
sender. -/
def reach (s : Service) (letter : Letter) : Except Error Unit :=
  if (s.directory.lookup? letter.recipient).isNone then
    .error (.notFound s!"principal {letter.recipient}")
  else if letter.sender = letter.recipient then .ok ()
  else
    match s.store.read fun edges => edges.sameNetwork letter.sender letter.recipient with
    | .error e => .error e
    | .ok together => if together then .ok () else .error .crossNetwork

/-- Queues the message of a letter, which is counted. -/
def deliver (s : Service) (letter : Letter) : Service × Except Error Unit :=
  match s.relay.publish letter.recipient (letter.message s.clock.wall) with
  | (relay, .error cause) => ({ s with relay }, .error (.storage cause))
  | (relay, .ok _) =>
    ({ s with relay, metrics := { s.metrics with published := s.metrics.published + 1 } }, .ok ())

/-- Publishes a letter in one go. -/
def post (s : Service) (letter : Letter) : Service × Except Error Unit :=
  match s.checkRates letter.sender with
  | (s, .error e) => (s, .error e)
  | (s, .ok ()) =>
    match s.reach letter with
    | .error e => (s, .error e)
    | .ok () => s.deliver letter

variable {s t t' : Service} {party : Party} {phase : Phase} {letter : Letter}
  {ending ending' : Ending}

/-! ### Running alone -/

theorem RunsAlone.unique (h : RunsAlone party s phase t ending)
    (h' : RunsAlone party s phase t' ending') : t' = t ∧ ending' = ending := by
  induction h with
  | ends s phase m ending moves last =>
    cases h' with
    | ends _ _ m' _ moves' last' =>
      obtain rfl := Option.some.inj (moves.symm.trans moves')
      exact ⟨rfl, Progress.ends.inj (last'.symm.trans last)⟩
    | goesOn _ _ m' next _ _ moves' passes =>
      obtain rfl := Option.some.inj (moves.symm.trans moves')
      cases last.symm.trans passes
  | goesOn s phase m next t ending moves passes _ ih =>
    cases h' with
    | ends _ _ m' _ moves' last =>
      obtain rfl := Option.some.inj (moves.symm.trans moves')
      cases last.symm.trans passes
    | goesOn _ _ m' next' _ _ moves' passes' rest =>
      obtain rfl := Option.some.inj (moves.symm.trans moves')
      obtain rfl := Progress.goesOn.inj (passes.symm.trans passes')
      exact ih rest

theorem runsAlone_fail {s' : Service} {e : Error} (h : s.step? party phase = some (s'.fail e)) :
    RunsAlone party s phase s' (.failed e) := .ends s phase _ _ h rfl

/-! ### From the last step to the first -/

theorem runsAlone_queues (party : Party) (s : Service) (letter : Letter) :
    RunsAlone party s (.queues letter) (s.deliver letter).1 (.ofPosting (s.deliver letter).2) := by
  have moves : s.step? party (.queues letter) = some (s.enqueue letter) := rfl
  cases hpublish : s.relay.publish letter.recipient (letter.message s.clock.wall) with
  | mk relay result =>
    unfold enqueue at moves
    unfold deliver
    rw [hpublish] at moves ⊢
    cases result with
    | error cause => exact runsAlone_fail moves
    | ok counts => exact .ends _ _ _ _ moves rfl

/-- Once the owner of the sender was read, the letter is on its way if the store still can be
read. -/
theorem runsAlone_compares (party : Party) (s : Service) (letter : Letter)
    (apart : letter.sender ≠ letter.recipient) (hread : ∀ {α : Type} (f : Edges → α),
      s.store.read f = .ok (f s.store.edges)) :
    RunsAlone party s (.compares letter (s.store.edges.owner? letter.sender))
      (if s.store.edges.sameNetwork letter.sender letter.recipient then (s.deliver letter).1 else s)
      (.ofPosting (if s.store.edges.sameNetwork letter.sender letter.recipient
        then (s.deliver letter).2 else .error .crossNetwork)) := by
  have hsame : s.store.edges.sameNetwork letter.sender letter.recipient =
      Edges.connected letter.sender letter.recipient (s.store.edges.owner? letter.sender)
        (s.store.edges.owner? letter.recipient) := by
    unfold Edges.sameNetwork
    rw [beq_eq_false_iff_ne.mpr apart, Bool.false_or]
  have moves : s.step? party (.compares letter (s.store.edges.owner? letter.sender)) =
      some (s.compareOwners letter (s.store.edges.owner? letter.sender)) := rfl
  unfold compareOwners at moves
  rw [hread] at moves
  dsimp only at moves
  rw [← hsame] at moves
  cases htogether : s.store.edges.sameNetwork letter.sender letter.recipient with
  | false =>
    simp only [htogether, Bool.false_eq_true, ↓reduceIte] at moves ⊢
    exact runsAlone_fail moves
  | true =>
    simp only [htogether, ↓reduceIte] at moves ⊢
    exact .goesOn _ _ _ _ _ _ moves rfl (runsAlone_queues party s letter)

theorem read_cases (store : PairingStore) :
    (∃ cause, ∀ {α : Type} (f : Edges → α), store.read f = .error (.storage cause)) ∨
      ∀ {α : Type} (f : Edges → α), store.read f = .ok (f store.edges) := by
  unfold PairingStore.read
  rcases store.fault with _ | ⟨_ | cause⟩
  · exact .inr fun _ => rfl
  · exact .inr fun _ => rfl
  · exact .inl ⟨cause, fun _ => rfl⟩

theorem runsAlone_beginPublish (party : Party) {s : Service} {phase : Phase} {letter : Letter}
    (h : s.step? party phase = some (s.beginPublish letter)) :
    RunsAlone party s phase (s.post letter).1 (.ofPosting (s.post letter).2) := by
  unfold beginPublish at h
  unfold post
  cases hrates : s.checkRates letter.sender with
  | mk v checked =>
  rw [hrates] at h
  cases checked with
  | error e => exact runsAlone_fail h
  | ok _ =>
    dsimp only at h ⊢
    unfold reach
    by_cases hunknown : (v.directory.lookup? letter.recipient).isNone = true
    · rw [if_pos hunknown] at h ⊢
      exact runsAlone_fail h
    · rw [if_neg hunknown] at h ⊢
      by_cases hsame : letter.sender = letter.recipient
      · rw [if_pos hsame] at h ⊢
        exact .goesOn _ _ _ _ _ _ h rfl (runsAlone_queues party v letter)
      · rw [if_neg hsame] at h ⊢
        rcases read_cases v.store with ⟨cause, hread⟩ | hread
        · rw [hread] at h ⊢
          exact runsAlone_fail h
        · rw [hread] at h ⊢
          have hrest := runsAlone_compares party v letter hsame hread
          cases htogether : v.store.edges.sameNetwork letter.sender letter.recipient with
          | false | true =>
            rw [htogether] at hrest
            exact .goesOn _ _ _ _ _ _ h rfl hrest

/-- **A call that publishes and runs alone posts its letter.** -/
theorem runsAlone_post (party : Party) (s : Service) {call : Call}
    (carries : (Phase.begins call).letter? = some letter) :
    RunsAlone party s (.begins call) (s.post letter).1 (.ofPosting (s.post letter).2) := by
  cases call with
  | publish sender recipient kind correlationId data =>
    obtain rfl := Option.some.inj carries
    exact runsAlone_beginPublish party rfl
  | _ => cases carries

/-- **To publish a letter in one go is to run its call alone.** -/
theorem runsAlone_iff {call : Call} (carries : (Phase.begins call).letter? = some letter) :
    RunsAlone party s (.begins call) t ending ↔
      t = (s.post letter).1 ∧ ending = .ofPosting (s.post letter).2 := by
  have hposts := runsAlone_post party s carries
  constructor
  · exact hposts.unique
  · rintro ⟨rfl, rfl⟩
    exact hposts

/-! ### What a post does -/

/-- What becomes of a letter that has its cells. -/
def fate (s : Service) (letter : Letter) : Except Error Unit :=
  match s.reach letter with
  | .error e => .error e
  | .ok () =>
    match s.relay.fault with
    | some cause => .error (.storage cause)
    | none => .ok ()

/-- What a post does. A cell that was taken is gone, whatever becomes of the letter. -/
inductive Posted (s : Service) (letter : Letter) (r : Service × Except Error Unit) : Prop where
  /-- One of the rates refuses the letter, which is counted. -/
  | limited (rate : RateLimitError)
    (refused : (s.limits.takeCells letter.sender).2 = .error rate)
    (after : r = ({ s with
        limits := (s.limits.takeCells letter.sender).1
        metrics := { s.metrics with rateLimitHits := s.metrics.rateLimitHits + 1 } },
      .error (.rateLimited rate.message)))
  | refused (allowed : (s.limits.takeCells letter.sender).2 = .ok ()) (e : Error)
    (fate : s.fate letter = .error e)
    (after : r = ({ s with limits := (s.limits.takeCells letter.sender).1 }, .error e))
  /-- The letter is queued, which is counted. -/
  | queued (allowed : (s.limits.takeCells letter.sender).2 = .ok ())
    (fate : s.fate letter = .ok ()) (usable : s.relay.fault = none)
    (after : r = ({ s with
        limits := (s.limits.takeCells letter.sender).1
        relay := (s.relay.publish letter.recipient (letter.message s.clock.wall)).1
        metrics := { s.metrics with published := s.metrics.published + 1 } }, .ok ()))

/-- **A post takes its cells first, and then its letter meets its fate.** -/
theorem posted_of_post (s : Service) (letter : Letter) : Posted s letter (s.post letter) := by
  unfold post checkRates
  cases htaken : s.limits.takeCells letter.sender with
  | mk limits allowed =>
  obtain rfl : (s.limits.takeCells letter.sender).1 = limits := by rw [htaken]
  replace htaken : (s.limits.takeCells letter.sender).2 = allowed := by rw [htaken]
  cases allowed with
  | error rate => exact .limited rate htaken rfl
  | ok _ =>
    have hreach : reach { s with limits := (s.limits.takeCells letter.sender).1 } letter =
      s.reach letter := rfl
    dsimp only
    rw [hreach]
    cases hletter : s.reach letter with
    | error e => exact .refused htaken e (by rw [fate, hletter]) rfl
    | ok _ =>
      cases hfault : s.relay.fault with
      | some cause =>
        refine .refused htaken (.storage cause) (by rw [fate, hletter, hfault]) ?_
        simp only [deliver, Relay.publish, hfault]
      | none =>
        refine .queued htaken (by rw [fate, hletter, hfault]) hfault ?_
        simp only [deliver, Relay.publish, hfault]

/-- What was posted takes cells, and nothing else of the limits. -/
theorem limits_post (s : Service) (letter : Letter) :
    (s.post letter).1.limits = (s.limits.takeCells letter.sender).1 := by
  cases posted_of_post s letter with
  | limited _ _ after | refused _ _ _ after | queued _ _ _ after => rw [after]

/-- **The rates come first, the common one before that of the sender.** -/
theorem post_result (s : Service) (letter : Letter) : (s.post letter).2 =
    match (s.limits.takeCells letter.sender).2 with
    | .error rate => .error (.rateLimited rate.message)
    | .ok () => s.fate letter := by
  cases posted_of_post s letter with
  | limited rate refused after => rw [after, refused]
  | refused allowed e fate after => rw [after, allowed, fate]
  | queued allowed fate usable after => rw [after, allowed, fate]

theorem fault_publish (relay : Relay Party) (recipient : PrincipalId) (m : Message) :
    (relay.publish recipient m).1.fault = relay.fault := by
  unfold Relay.publish
  split
  · rfl
  · rfl

theorem fate_post (s : Service) (letter other : Letter) :
    (s.post letter).1.fate other = s.fate other := by
  have hsame : (s.post letter).1.reach other = s.reach other ∧
      (s.post letter).1.relay.fault = s.relay.fault := by
    cases posted_of_post s letter with
    | limited _ _ after | refused _ _ _ after => exact after ▸ ⟨rfl, rfl⟩
    | queued _ _ _ after => exact after ▸ ⟨rfl, fault_publish ..⟩
  unfold fate
  rw [hsame.1, hsame.2]

theorem relay_post (s : Service) (letter : Letter) : (s.post letter).1.relay =
    match (s.post letter).2 with
    | .ok () => (s.relay.publish letter.recipient (letter.message s.clock.wall)).1
    | .error _ => s.relay := by
  cases posted_of_post s letter with
  | limited _ _ after | refused _ _ _ after | queued _ _ _ after => rw [after]

/-! ### A letter that nothing hinders -/

/-- A sender has cells left, and the store and the queues can be used. -/
structure Clear (s : Service) (sender : PrincipalId) : Prop where
  rates : (s.limits.takeCells sender).2 = .ok ()
  store : ∀ cause, s.store.fault ≠ some (.error cause)
  queues : s.relay.fault = none

/-- **A letter to a known recipient that nothing else hinders is queued just if the two are in one
network.** -/
theorem post_of_clear (C : s.Clear letter.sender)
    (known : (s.directory.lookup? letter.recipient).isSome = true) :
    (s.post letter).2 = if s.store.edges.sameNetwork letter.sender letter.recipient then .ok ()
      else .error .crossNetwork := by
  have hfound : ¬ (s.directory.lookup? letter.recipient).isNone = true := by
    rw [Option.isNone_iff_eq_none]
    exact Option.isSome_iff_ne_none.mp known
  have hread {α : Type} (f : Edges → α) : s.store.read f = .ok (f s.store.edges) := by
    unfold PairingStore.read
    split
    · rename_i cause hfault
      exact absurd hfault (C.store cause)
    · rfl
  have hself (h : letter.sender = letter.recipient) :
      s.store.edges.sameNetwork letter.sender letter.recipient = true := by
    unfold Edges.sameNetwork
    rw [beq_iff_eq.mpr h, Bool.true_or]
  rw [post_result, C.rates]
  dsimp only
  unfold fate reach
  rw [if_neg hfound, hread, C.queues]
  by_cases hsame : letter.sender = letter.recipient
  · rw [if_pos hsame, if_pos (hself hsame)]
  · rw [if_neg hsame]
    cases s.store.edges.sameNetwork letter.sender letter.recipient with
    | false | true => rfl

end Service
end DeviceRelay

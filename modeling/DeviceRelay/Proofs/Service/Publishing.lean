/-
# The first check that fails decides about a letter

A letter is checked against the common rate, then against the rate of its sender, then for its
recipient, then for the network of the two, and at last the queues must be usable. The first check
that fails decides. A letter that passes all of them becomes the newest entry in the queue of its
recipient and is counted. Any other leaves queues and counters alone, except that a rate that
refuses is counted. The cells that a letter took are gone in either case. All this is so if
others use the service between the steps of the call, as long as they leave the pairings and
the store alone.

Key definitions: `Service.letterChecks`, `Service.verdict`, `Service.Queued`, `Service.Refused`,
`Service.Concluded`, `Service.RunsAmid`, `Service.Conducted`.
Key theorems: `Service.concluded_of_post`, `Service.conducted_of_runsAmid`.
-/
import DeviceRelay.Proofs.Inbound
import DeviceRelay.Proofs.Packing
import DeviceRelay.Proofs.Relay.Entries
import DeviceRelay.Proofs.Service.Quotas

namespace DeviceRelay

/-- A value that was read somewhere in a text, no deeper in brackets than a text is read. -/
def Json.Value.IsRead (v : Json.Value) : Prop :=
  ∃ (depth : Nat) (input rest : Json.Input),
    depth ≤ Json.depthLimit ∧ Json.readValue depth input = .ok (v, rest)

/-- **A message whose data was read in a text is read back**, if its lengths can be written and its
time is a signed word. -/
theorem Message.unpack?_of_isRead {m : Message} (read : m.data.IsRead) (short : m.Short)
    (hlow : -(twoTo 63 : Int) ≤ m.createdAt) (hhigh : m.createdAt < (twoTo 63 : Int)) :
    Message.unpack? m.pack = some m := by
  obtain ⟨depth, input, rest, hdepth, hread⟩ := read
  obtain ⟨hvalue, -⟩ := (Json.readableTo_readValue depth (Nat.le_refl _)).of_ok hread
  have hheight : m.data.height ≤ Json.depthLimit := Nat.le_trans hvalue.height hdepth
  have hshallow : m.data.height < MessagePack.depthLimit :=
    Nat.lt_of_le_of_lt hheight (by decide)
  have sendable : m.Sendable := ⟨hvalue.readable.fits, short, hshallow, hlow, hhigh⟩
  exact sendable.unpack?_pack

/-- Whether an error is the refusal of a rate. -/
def Error.isRateLimit : Error → Bool
  | .rateLimited _ => true
  | _ => false

/-- The first objection decides, and without any it is done. -/
def Error.verdict (objections : List (Option Error)) : Except Error Unit :=
  match objections.findSome? id with
  | some e => .error e
  | none => .ok ()

theorem Error.verdict_cons (objection : Option Error) (later : List (Option Error)) :
    verdict (objection :: later) = match objection with
      | some e => .error e
      | none => verdict later := by
  cases objection with
  | none | some => rfl

theorem Error.verdict_ite (p : Prop) [Decidable p] (e : Error) (later : List (Option Error)) :
    verdict ((if p then some e else none) :: later) = if p then .error e else verdict later := by
  by_cases hp : p
  · rw [if_pos hp, if_pos hp]
    rfl
  · rw [if_neg hp, if_neg hp]
    rfl

theorem Error.mem_of_verdict {objections : List (Option Error)} {e : Error}
    (h : verdict objections = .error e) : some e ∈ objections := by
  unfold verdict at h
  split at h
  · next hfirst =>
    obtain rfl := Except.error.inj h
    obtain ⟨objection, hmem, rfl⟩ := List.exists_of_findSome?_eq_some hfirst
    exact hmem
  · cases h

namespace Service

/-! ### Checks -/

/-- The objection that the sender of a letter and its recipient are not in one network, or that
this cannot be read. Nobody leaves the network by writing to itself. -/
def apart? (s : Service) (letter : Letter) : Option Error :=
  if letter.sender = letter.recipient then none
  else
    match s.store.read fun edges => edges.sameNetwork letter.sender letter.recipient with
    | .error e => some e
    | .ok together => if together then none else some .crossNetwork

/-- What is objected to a letter, check by check in their order. -/
def letterChecks (s : Service) (letter : Letter) : List (Option Error) :=
  [if s.limits.globalLeft = 0 then some (.rateLimited RateLimitError.global.message) else none,
    if s.limits.leftFor letter.sender = 0 then
      some (.rateLimited RateLimitError.sender.message) else none,
    if (s.directory.lookup? letter.recipient).isNone then
      some (.notFound s!"principal {letter.recipient}") else none,
    s.apart? letter,
    s.relay.fault.map .storage]

/-- What the first check that fails says about a letter. -/
def verdict (s : Service) (letter : Letter) : Except Error Unit :=
  Error.verdict (s.letterChecks letter)

/-- A letter was queued as the newest entry of its recipient, whose queue is trimmed if it is too
long then. Nothing else is queued or counted. -/
structure Queued (s t : Service) (letter : Letter) : Prop where
  entries : t.relay.entries letter.recipient =
    (s.relay.entries letter.recipient ++ [(letter.message s.clock.wall).pack]).drop
      (Queues.excess s.relay.maxSize s.relay.overflowBuffer
        ((s.relay.entries letter.recipient).length + 1))
  others : ∀ other, other ≠ letter.recipient → t.relay.entries other = s.relay.entries other
  relay : t.relay = { s.relay with queues := t.relay.queues }
  metrics : t.metrics = { s.metrics with published := s.metrics.published + 1 }
  /-- The entry stands for the letter. -/
  legible : letter.data.IsRead → (letter.message s.clock.wall).Short →
    -(twoTo 63 : Int) ≤ s.clock.wall → s.clock.wall < (twoTo 63 : Int) →
      Message.unpack? (letter.message s.clock.wall).pack = some (letter.message s.clock.wall)

/-- A letter was refused. That is counted if a rate refused it. -/
structure Refused (s t : Service) (e : Error) : Prop where
  relay : t.relay = s.relay
  metrics : t.metrics = { s.metrics with
    rateLimitHits := s.metrics.rateLimitHits + if e.isRateLimit then 1 else 0 }

/-- What became of a letter, and of the service. -/
def Settles (letter : Letter) (result : Except Error Unit) (s t : Service) : Prop :=
  match result with
  | .ok () => Queued s t letter
  | .error e => Refused s t e

/-- How a letter ends that is published in one go. -/
structure Concluded (s : Service) (letter : Letter) (r : Service × Except Error Unit) : Prop where
  /-- The first check that fails decides. -/
  decided : r.2 = s.verdict letter
  /-- The cells are gone, whatever becomes of the letter. -/
  cells : r.1.limits = (s.limits.takeCells letter.sender).1
  settles : Settles letter (s.verdict letter) s r.1
  rest : r.1 = { s with limits := r.1.limits, relay := r.1.relay, metrics := r.1.metrics }

variable {s t : Service} {party : Party} {phase : Phase} {letter : Letter} {ending : Ending}
  {turns : List (Service × Service)}

/-! ### In one go -/

theorem verdict_fault (fault : Option StorageError) : (match fault with
    | some cause => Except.error (Error.storage cause)
    | none => .ok ()) = Error.verdict [fault.map .storage] := by
  cases fault with
  | none | some => rfl

theorem fate_eq (s : Service) (letter : Letter) : s.fate letter = Error.verdict
    [if (s.directory.lookup? letter.recipient).isNone then
        some (.notFound s!"principal {letter.recipient}") else none,
      s.apart? letter, s.relay.fault.map .storage] := by
  have hqueues := verdict_fault s.relay.fault
  rw [Error.verdict_ite, Error.verdict_cons]
  unfold fate reach apart?
  by_cases hunknown : (s.directory.lookup? letter.recipient).isNone = true
  · rw [if_pos hunknown, if_pos hunknown]
  · rw [if_neg hunknown, if_neg hunknown]
    by_cases hself : letter.sender = letter.recipient
    · rw [if_pos hself, if_pos hself]
      exact hqueues
    · rw [if_neg hself, if_neg hself]
      cases s.store.read fun edges => edges.sameNetwork letter.sender letter.recipient with
      | error e => rfl
      | ok together =>
        cases together with
        | false => rfl
        | true => exact hqueues

/-- **The first check that fails decides what a post comes to.** -/
theorem post_decided (s : Service) (letter : Letter) : (s.post letter).2 = s.verdict letter := by
  unfold verdict letterChecks
  rw [post_result_eq, Error.verdict_ite, Error.verdict_ite, fate_eq]

theorem rateLimit_of_apart {e : Error} (h : s.apart? letter = some e) : e.isRateLimit = false := by
  unfold apart? at h
  obtain ⟨-, h⟩ := Option.ite_none_left_eq_some.mp h
  rcases read_cases s.store with ⟨cause, hfails⟩ | hreads
  · rw [hfails] at h
    obtain rfl := Option.some.inj h
    rfl
  · rw [hreads] at h
    obtain ⟨-, h⟩ := Option.ite_none_left_eq_some.mp h
    obtain rfl := Option.some.inj h
    rfl

theorem rateLimit_of_fate {e : Error} (h : s.fate letter = .error e) : e.isRateLimit = false := by
  rw [fate_eq] at h
  rcases List.mem_cons.mp (Error.mem_of_verdict h) with hunknown | hmem
  · obtain ⟨-, hunknown⟩ := Option.ite_none_right_eq_some.mp hunknown.symm
    obtain rfl := Option.some.inj hunknown
    rfl
  · rcases List.mem_cons.mp hmem with hapart | hmem
    · exact rateLimit_of_apart hapart.symm
    · obtain ⟨cause, -, rfl⟩ := Option.map_eq_some_iff.mp (List.mem_singleton.mp hmem).symm
      rfl

/-- To queue a letter adds it to the queue of its recipient and counts it. -/
theorem queued_of_publish (usable : s.relay.fault = none)
    (relay : t.relay = (s.relay.publish letter.recipient (letter.message s.clock.wall)).1)
    (metrics : t.metrics = { s.metrics with published := s.metrics.published + 1 }) :
    Queued s t letter where
  entries := by rw [relay, Relay.entries_publish usable, if_pos rfl]
  others other hother := by rw [relay, Relay.entries_publish usable, if_neg hother]
  relay := by rw [relay, Relay.publish_of_usable usable]
  metrics := metrics
  legible read short hlow hhigh := Message.unpack?_of_isRead read short hlow hhigh

/-- **What a post comes to.** -/
theorem concluded_of_post (s : Service) (letter : Letter) :
    Concluded s letter (s.post letter) := by
  have hdecided := post_decided s letter
  refine ⟨hdecided, limits_post s letter, ?_, ?_⟩
  · rw [← hdecided]
    cases posted_of_post s letter with
    | limited _ _ after =>
      rw [after]
      exact ⟨rfl, rfl⟩
    | refused _ e fate after =>
      rw [after]
      refine ⟨rfl, ?_⟩
      rw [rateLimit_of_fate fate]
      rfl
    | queued _ _ usable after =>
      rw [after]
      exact queued_of_publish usable rfl rfl
  · cases posted_of_post s letter with
    | limited _ _ after | refused _ _ _ after | queued _ _ _ after => rw [after]

/-! ### With others in between -/

/-- Nothing changed of what a letter is checked for once it has its cells. -/
structure Calm (s t : Service) : Prop where
  directory : t.directory = s.directory
  store : t.store = s.store
  fault : t.relay.fault = s.relay.fault

/-- A call gets from a phase to its end, and others use the service between its steps but leave
the pairings and the store alone. Its own steps are listed, each with the service before it and
after it. -/
inductive RunsAmid (party : Party) : Service → Phase → List (Service × Service) → Ending → Prop where
  | ends (s : Service) (phase : Phase) (m : Move) (ending : Ending)
    (moves : s.step? party phase = some m) (last : m.progress = .ends ending) :
    RunsAmid party s phase [(s, m.service)] ending
  | goesOn (s : Service) (phase : Phase) (m : Move) (next : Phase) (t : Service)
    (turns : List (Service × Service)) (ending : Ending) (moves : s.step? party phase = some m)
    (passes : m.progress = .goesOn next) (calm : Calm m.service t)
    (rest : RunsAmid party t next turns ending) :
    RunsAmid party s phase ((s, m.service) :: turns) ending

/-- What the steps of a call do that has its letter's cells already: the last one settles the
letter, and no other does anything. -/
structure Carried (letter : Letter) (result : Except Error Unit)
    (turns : List (Service × Service)) : Prop where
  limits : ∀ x ∈ turns, x.2.limits = x.1.limits
  early : ∀ x ∈ turns.dropLast, x.2 = x.1
  last : ∃ x, turns.getLast? = some x ∧ Settles letter result x.1 x.2
  rest : ∀ x ∈ turns, x.2 = { x.1 with relay := x.2.relay, metrics := x.2.metrics }

/-- How a letter ends if others use the service between the steps of its call. -/
structure Conducted (s : Service) (letter : Letter) (turns : List (Service × Service))
    (ending : Ending) : Prop where
  /-- The first check that fails decides. -/
  decided : ending = .ofPosting (s.verdict letter)
  /-- The first step takes the cells, and no later one takes any. -/
  cells : ∃ t later, turns = (s, t) :: later ∧
    t.limits = (s.limits.takeCells letter.sender).1 ∧ ∀ x ∈ later, x.2.limits = x.1.limits
  /-- The last step settles the letter. -/
  last : ∃ x, turns.getLast? = some x ∧ Settles letter (s.verdict letter) x.1 x.2
  /-- The earlier ones queue and count nothing. -/
  early : ∀ x ∈ turns.dropLast, x.2.relay = x.1.relay ∧ x.2.metrics = x.1.metrics
  rest : ∀ x ∈ turns, x.2 = { x.1 with
    limits := x.2.limits, relay := x.2.relay, metrics := x.2.metrics }

theorem RunsAmid.of_fail {v : Service} {e : Error} (h : RunsAmid party s phase turns ending)
    (moves : s.step? party phase = some (v.fail e)) : turns = [(s, v)] ∧ ending = .failed e := by
  cases h with
  | ends _ _ m _ moves' last =>
    obtain rfl := Option.some.inj (moves.symm.trans moves')
    exact ⟨rfl, (Progress.ends.inj last).symm⟩
  | goesOn _ _ m _ _ _ _ moves' passes =>
    obtain rfl := Option.some.inj (moves.symm.trans moves')
    cases passes

theorem RunsAmid.of_goesOn {v : Service} {next : Phase} (h : RunsAmid party s phase turns ending)
    (moves : s.step? party phase = some ⟨v, .goesOn next, none⟩) :
    ∃ t later, turns = (s, v) :: later ∧ Calm v t ∧ RunsAmid party t next later ending := by
  cases h with
  | ends _ _ m _ moves' last =>
    obtain rfl := Option.some.inj (moves.symm.trans moves')
    cases last
  | goesOn _ _ m _ t later _ moves' passes calm rest =>
    obtain rfl := Option.some.inj (moves.symm.trans moves')
    obtain rfl := Progress.goesOn.inj passes
    exact ⟨t, later, rfl, calm, rest⟩

theorem settles_refused {s : Service} {e : Error} (h : e.isRateLimit = false) :
    Settles letter (.error e) s s := by
  refine ⟨rfl, ?_⟩
  rw [h]
  rfl

theorem settles_enqueue (s : Service) (letter : Letter) :
    Settles letter (Error.verdict [s.relay.fault.map .storage]) s (s.enqueue letter).service := by
  unfold enqueue
  cases hfault : s.relay.fault with
  | some cause =>
    simp only [Relay.publish, hfault]
    exact settles_refused rfl
  | none =>
    have hpublish := Relay.publish_of_usable hfault letter.recipient (letter.message s.clock.wall)
    rw [hpublish]
    exact queued_of_publish hfault (by rw [hpublish]; rfl) rfl

theorem Carried.ends {result : Except Error Unit}
    (kept : t = { s with relay := t.relay, metrics := t.metrics })
    (settles : Settles letter result s t) : Carried letter result [(s, t)] where
  limits := List.forall_mem_singleton.mpr (by rw [kept])
  early := List.forall_mem_nil _
  last := ⟨_, rfl, settles⟩
  rest := List.forall_mem_singleton.mpr kept

theorem Carried.fails {e : Error} (other : e.isRateLimit = false) :
    Carried letter (.error e) [(s, s)] := .ends rfl (settles_refused other)

theorem Carried.cons {result : Except Error Unit} (C : Carried letter result turns)
    (s : Service) : Carried letter result ((s, s) :: turns) where
  limits := List.forall_mem_cons.mpr ⟨rfl, C.limits⟩
  early := by
    obtain ⟨x, hlast, -⟩ := C.last
    have hne : turns ≠ [] := fun hnil => by
      rw [hnil] at hlast
      cases hlast
    rw [List.dropLast_cons_of_ne_nil hne]
    exact List.forall_mem_cons.mpr ⟨rfl, C.early⟩
  last := by
    obtain ⟨x, hlast, hsettles⟩ := C.last
    refine ⟨x, ?_, hsettles⟩
    rw [List.getLast?_cons, hlast]
    rfl
  rest := List.forall_mem_cons.mpr ⟨rfl, C.rest⟩

theorem carried_queues (h : RunsAmid party s (.queues letter) turns ending) :
    ending = .ofPosting (Error.verdict [s.relay.fault.map .storage]) ∧
      Carried letter (Error.verdict [s.relay.fault.map .storage]) turns := by
  have hends : (s.enqueue letter).progress =
      .ends (.ofPosting (Error.verdict [s.relay.fault.map .storage])) := by
    unfold enqueue
    cases hfault : s.relay.fault with
    | some | none =>
      simp only [Relay.publish, hfault]
      rfl
  have hservice : (s.enqueue letter).service = { s with
      relay := (s.enqueue letter).service.relay, metrics := (s.enqueue letter).service.metrics } := by
    unfold enqueue
    split <;> rfl
  cases h with
  | ends _ _ m _ moves last =>
    obtain rfl := Option.some.inj moves
    exact ⟨Progress.ends.inj (last.symm.trans hends), .ends hservice (settles_enqueue s letter)⟩
  | goesOn _ _ m _ _ _ _ moves passes =>
    obtain rfl := Option.some.inj moves
    cases passes.symm.trans hends

/-- Once the owner of the sender was read, the network and the queues are left to be checked. -/
theorem carried_compares (apart : letter.sender ≠ letter.recipient)
    (hread : ∀ {α : Type} (f : Edges → α), s.store.read f = .ok (f s.store.edges))
    (h : RunsAmid party s (.compares letter (s.store.edges.owner? letter.sender)) turns ending) :
    ending = .ofPosting (Error.verdict [s.apart? letter, s.relay.fault.map .storage]) ∧
      Carried letter (Error.verdict [s.apart? letter, s.relay.fault.map .storage]) turns := by
  have hsame : s.store.edges.sameNetwork letter.sender letter.recipient =
      Edges.connected letter.sender letter.recipient (s.store.edges.owner? letter.sender)
        (s.store.edges.owner? letter.recipient) := by
    unfold Edges.sameNetwork
    rw [beq_eq_false_iff_ne.mpr apart, Bool.false_or]
  have moves : s.step? party (.compares letter (s.store.edges.owner? letter.sender)) =
      some (s.compareOwners letter (s.store.edges.owner? letter.sender)) := rfl
  unfold compareOwners at moves
  rw [hread] at moves
  dsimp only at moves
  rw [← hsame] at moves
  unfold apart?
  rw [if_neg apart, hread]
  cases htogether : s.store.edges.sameNetwork letter.sender letter.recipient with
  | false =>
    rw [htogether, if_neg Bool.false_ne_true] at moves
    obtain ⟨rfl, rfl⟩ := h.of_fail moves
    exact ⟨rfl, .fails rfl⟩
  | true =>
    rw [htogether, if_pos rfl] at moves
    obtain ⟨t, later, rfl, calm, rest⟩ := h.of_goesOn moves
    obtain ⟨hending, C⟩ := carried_queues rest
    rw [calm.fault] at hending C
    exact ⟨hending, C.cons s⟩

/-- What settles a letter does not depend on the cells. -/
theorem Settles.of_limits {limits : RateLimits} {result : Except Error Unit}
    (h : Settles letter result { s with limits } t) : Settles letter result s t := by
  cases result with
  | ok => exact ⟨h.entries, h.others, h.relay, h.metrics, h.legible⟩
  | error e => exact ⟨h.relay, h.metrics⟩

/-- What follows once the cells are taken is what follows in the service without them. -/
theorem Conducted.of_carried {later : List (Service × Service)}
    (decided : ending = .ofPosting (s.verdict letter)) (C : Carried letter (s.verdict letter)
      (({ s with limits := (s.limits.takeCells letter.sender).1 }, t) :: later)) :
    Conducted s letter ((s, t) :: later) ending := by
  obtain ⟨hlimits, hearly, ⟨x, hlast, hsettles⟩, hrest⟩ := C
  obtain ⟨hfirst, hlater⟩ := List.forall_mem_cons.mp hlimits
  obtain ⟨hhead, htail⟩ := List.forall_mem_cons.mp hrest
  have hrests : ∀ x ∈ later, x.2 = { x.1 with
      limits := x.2.limits, relay := x.2.relay, metrics := x.2.metrics } := by
    intro x hx
    have hkept := htail x hx
    have hcells := hlater x hx
    rw [hcells, ← hkept]
  refine ⟨decided, ⟨t, later, rfl, hfirst, hlater⟩, ?_, ?_, ?_⟩
  · cases later with
    | nil =>
      obtain rfl := Option.some.inj hlast
      exact ⟨_, rfl, hsettles.of_limits⟩
    | cons y later => exact ⟨x, hlast, hsettles⟩
  · cases later with
    | nil => exact List.forall_mem_nil _
    | cons y later =>
      rw [List.dropLast_cons_cons] at hearly ⊢
      obtain ⟨hstill, hearly⟩ := List.forall_mem_cons.mp hearly
      dsimp only at hstill
      refine List.forall_mem_cons.mpr ⟨?_, fun x hx => ?_⟩
      · rw [hstill]
        exact ⟨rfl, rfl⟩
      · rw [hearly x hx]
        exact ⟨rfl, rfl⟩
  · refine List.forall_mem_cons.mpr ⟨?_, hrests⟩
    dsimp only at hhead hfirst ⊢
    rw [hfirst]
    exact hhead

theorem checkRates_eq (s : Service) (sender : PrincipalId) : s.checkRates sender =
    match (s.limits.takeCells sender).2 with
    | .ok () => ({ s with limits := (s.limits.takeCells sender).1 }, .ok ())
    | .error rate => ({ s with
        limits := (s.limits.takeCells sender).1
        metrics := { s.metrics with rateLimitHits := s.metrics.rateLimitHits + 1 } },
      .error (.rateLimited rate.message)) := by
  unfold checkRates
  cases s.limits.takeCells sender with
  | mk limits result =>
    cases result with
    | ok | error => rfl

theorem conducted_limited {rate : RateLimitError}
    (limited : (s.limits.takeCells letter.sender).2 = .error rate)
    (moves : s.step? party phase = some (s.beginPublish letter))
    (h : RunsAmid party s phase turns ending) : Conducted s letter turns ending := by
  have hverdict : s.verdict letter = .error (.rateLimited rate.message) := by
    rw [← post_decided, post_result, limited]
  unfold beginPublish at moves
  rw [checkRates_eq, limited] at moves
  obtain ⟨rfl, rfl⟩ := h.of_fail moves
  refine ⟨?_, ⟨_, [], rfl, rfl, List.forall_mem_nil _⟩, ⟨_, rfl, ?_⟩, List.forall_mem_nil _,
    List.forall_mem_singleton.mpr rfl⟩
  · rw [hverdict]
    rfl
  · rw [hverdict]
    exact ⟨rfl, rfl⟩

theorem carried_allowed (allowed : (s.limits.takeCells letter.sender).2 = .ok ())
    (moves : s.step? party phase = some (s.beginPublish letter))
    (h : RunsAmid party s phase turns ending) : ∃ t later, turns = (s, t) :: later ∧
      ending = .ofPosting (s.verdict letter) ∧ Carried letter (s.verdict letter)
        (({ s with limits := (s.limits.takeCells letter.sender).1 }, t) :: later) := by
  have hverdict : s.verdict letter = s.fate letter := by
    rw [← post_decided, post_result, allowed]
  rw [fate_eq, Error.verdict_ite] at hverdict
  unfold beginPublish at moves
  rw [checkRates_eq, allowed] at moves
  dsimp only at moves
  by_cases hunknown : (s.directory.lookup? letter.recipient).isNone = true
  · rw [if_pos hunknown] at moves hverdict
    obtain ⟨rfl, rfl⟩ := h.of_fail moves
    rw [hverdict]
    exact ⟨_, _, rfl, rfl, .fails rfl⟩
  · rw [if_neg hunknown] at moves hverdict
    rw [hverdict]
    by_cases hself : letter.sender = letter.recipient
    · have hnone : s.apart? letter = none := if_pos hself
      rw [hnone, Error.verdict_cons]
      rw [if_pos hself] at moves
      obtain ⟨t, later, rfl, calm, rest⟩ := h.of_goesOn moves
      obtain ⟨hending, C⟩ := carried_queues rest
      rw [calm.fault] at hending C
      exact ⟨_, _, rfl, hending, C.cons _⟩
    · rw [if_neg hself] at moves
      rcases read_cases s.store with ⟨cause, hread⟩ | hread
      · have hobjects : s.apart? letter = some (.storage cause) := by
          unfold apart?
          rw [if_neg hself, hread]
        rw [hread] at moves
        rw [hobjects]
        obtain ⟨rfl, rfl⟩ := h.of_fail moves
        exact ⟨_, _, rfl, rfl, .fails rfl⟩
      · rw [hread] at moves
        obtain ⟨t, later, rfl, calm, rest⟩ := h.of_goesOn moves
        have hstore : t.store = s.store := calm.store
        have hfault : t.relay.fault = s.relay.fault := calm.fault
        have hapart : t.apart? letter = s.apart? letter := by
          unfold apart?
          rw [hstore]
        rw [← hstore] at rest hread
        obtain ⟨hending, C⟩ := carried_compares hself hread rest
        rw [hapart, hfault] at hending C
        exact ⟨_, _, rfl, hending, C.cons _⟩

/-- **What a letter comes to if others use the service between the steps of its call.** -/
theorem conducted_of_runsAmid {call : Call} (carries : (Phase.begins call).letter? = some letter)
    (h : RunsAmid party s (.begins call) turns ending) : Conducted s letter turns ending := by
  have moves : s.step? party (.begins call) = some (s.beginPublish letter) := by
    cases call with
    | publish =>
      obtain rfl := Option.some.inj carries
      rfl
    | _ => cases carries
  cases hcells : (s.limits.takeCells letter.sender).2 with
  | error rate => exact conducted_limited hcells moves h
  | ok =>
    obtain ⟨t, later, rfl, hending, C⟩ := carried_allowed hcells moves h
    exact .of_carried hending C

end Service
end DeviceRelay

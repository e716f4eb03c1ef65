/-
# A request counts for what its caller may do, and for nothing else of its header

Whoever asks over HTTP for more than the health report or the metrics presents a token. If it
is no token of the directory the answer is the same for every request, and nothing else comes
of it. If it is one, the header counts only for the principal whose token it is: two runs whose
requests have other headers of the same principals are the same run.

Key definitions: `HttpRequest.Presents`, `Directory.Bears`, `HttpResponse.unauthorized`,
`Server.Gated`, `Server.SameBearer`, `Server.Gatekept`.
Key theorems: `HttpRequest.bearerToken?_eq_some_iff`, `Service.caller_eq_ok_iff`,
`Server.step_of_sameBearer`, `Server.run_of_sameBearer`, `Server.gatekept`.
-/
import DeviceRelay.Proofs.Server.Settings
import Mathlib.Data.List.TakeWhile

namespace DeviceRelay

/-! ### Tokens -/

/-- Up to the first blank a text holds no blank, and there it goes on with one. -/
theorem Text.split_at_blank (text : List Char) :
    text = text.takeWhile (· ≠ ' ') ++ text.dropWhile (· ≠ ' ') ∧
      ' ' ∉ text.takeWhile (· ≠ ' ') ∧
      ∀ c rest, text.dropWhile (· ≠ ' ') = c :: rest → c = ' ' := by
  refine ⟨List.takeWhile_append_dropWhile.symm, fun hmem => ?_, fun c rest hrest => ?_⟩
  · have hne := List.mem_takeWhile_imp hmem
    simp at hne
  · have hhead := List.head_dropWhile_not (· ≠ ' ') (l := text) (by rw [hrest]; simp)
    simp only [hrest, List.head_cons] at hhead
    simpa using hhead

namespace HttpRequest

/-- The header is visible, its scheme is that of a bearer, and what follows the first blank is
the token once it is trimmed. -/
def Presents (r : HttpRequest) (token : String) : Prop :=
  ∃ (bytes : List UInt8) (scheme rest : List Char), r.authorization = some bytes ∧
    headerText? bytes = some (scheme ++ ' ' :: rest) ∧ ' ' ∉ scheme ∧
    scheme.map Char.toLower = "bearer".toList ∧ token = String.ofList (Text.trim rest) ∧
    Text.trim rest ≠ []

theorem bearer?_eq_some_iff {header : List Char} {token : String} :
    bearer? header = some token ↔ ∃ scheme rest, header = scheme ++ ' ' :: rest ∧ ' ' ∉ scheme ∧
      scheme.map Char.toLower = "bearer".toList ∧ token = String.ofList (Text.trim rest) ∧
      Text.trim rest ≠ [] := by
  unfold bearer?
  dsimp only
  constructor
  · intro h
    obtain ⟨⟨hscheme, htoken⟩, h⟩ := Option.ite_none_right_eq_some.mp h
    obtain ⟨hsplit, hfree, hblank⟩ := Text.split_at_blank header
    cases hrest : header.dropWhile (· ≠ ' ') with
    | nil =>
      rw [hrest] at htoken
      exact absurd rfl htoken
    | cons c rest =>
      obtain rfl := hblank c rest hrest
      rw [hrest] at hsplit htoken h
      exact ⟨_, rest, hsplit, hfree, hscheme, (Option.some.inj h).symm, htoken⟩
  · rintro ⟨scheme, rest, rfl, hfree, hscheme, rfl, htoken⟩
    have hbefore : ∀ c ∈ scheme, decide (c ≠ ' ') = true := fun c hc => by
      simpa using fun h : c = ' ' => hfree (h ▸ hc)
    have htake : (scheme ++ ' ' :: rest).takeWhile (· ≠ ' ') = scheme := by
      rw [List.takeWhile_append_of_pos hbefore, List.takeWhile_cons_of_neg (by simp),
        List.append_nil]
    have hdrop : (scheme ++ ' ' :: rest).dropWhile (· ≠ ' ') = ' ' :: rest := by
      rw [List.dropWhile_append_of_pos hbefore, List.dropWhile_cons_of_neg (by simp)]
    rw [htake, hdrop]
    exact if_pos ⟨hscheme, htoken⟩

theorem bearerToken?_eq_some_iff {r : HttpRequest} {token : String} :
    r.bearerToken? = some token ↔ r.Presents token := by
  unfold bearerToken? Presents
  simp only [Option.bind_eq_some_iff, bearer?_eq_some_iff]
  constructor
  · rintro ⟨header, ⟨bytes, hbytes, htext⟩, scheme, rest, rfl, h⟩
    exact ⟨bytes, scheme, rest, hbytes, htext, h⟩
  · rintro ⟨bytes, scheme, rest, hbytes, htext, h⟩
    exact ⟨_, ⟨bytes, hbytes, htext⟩, scheme, rest, rfl, h⟩

end HttpRequest

/-! ### Callers -/

/-- A request presents the token of a principal. -/
def Directory.Bears (d : Directory) (r : HttpRequest) (p : Principal) : Prop :=
  ∃ token, r.Presents token ∧ d.authenticate token = .ok p

namespace Service

variable {s : Service} {r : HttpRequest} {p : Principal}

/-- **The caller is the principal whose token is presented.** -/
theorem caller_eq_ok_iff : s.caller r = .ok p ↔ s.directory.Bears r p := by
  unfold caller Directory.Bears
  simp only [← HttpRequest.bearerToken?_eq_some_iff]
  cases r.bearerToken? with
  | none => simp
  | some token => simp

theorem authenticate_eq_error {d : Directory} {token : String} {e : Error}
    (h : d.authenticate token = .error e) : e = .unauthorized := by
  unfold Directory.authenticate at h
  split at h
  · cases h
  · exact (Except.error.inj h).symm

theorem caller_of_unknown (unknown : ∀ p, ¬ s.directory.Bears r p) :
    s.caller r = .error .unauthorized := by
  cases hcaller : s.caller r with
  | ok p => exact absurd (caller_eq_ok_iff.mp hcaller) (unknown p)
  | error e =>
    unfold caller at hcaller
    split at hcaller
    · rw [authenticate_eq_error hcaller]
    · rw [← Except.error.inj hcaller]

/-- Two requests that one principal makes have one caller. -/
theorem caller_eq_of_bears {r' : HttpRequest} (first : s.directory.Bears r p)
    (second : s.directory.Bears r' p) : s.caller r' = s.caller r :=
  (caller_eq_ok_iff.mpr second).trans (caller_eq_ok_iff.mpr first).symm

end Service

/-! ### Requests without a known caller -/

/-- The answer to everyone who is not known. -/
def HttpResponse.unauthorized : HttpResponse where
  status := 401
  contentType := some jsonType
  body := ({ ok := false, code := 401, message := "unauthorized", data := none } : Reply).text

theorem HttpResponse.ofError_unauthorized : ofError .unauthorized = unauthorized := rfl

/-- A request reaches a handler that asks who is calling. -/
structure Service.Guards (s : Service) (r : HttpRequest) (endpoint : Endpoint) : Prop where
  route : Endpoint.find s.config.server.metricsEnabled r.method r.path = .ok endpoint
  notHealth : endpoint ≠ .health
  notMetrics : endpoint ≠ .metrics

/-- **No handler does anything for a caller who is not known**, whatever the method, the query
and the body are. -/
theorem HttpRequest.plan_of_unknown {s : Service} {r : HttpRequest} {endpoint : Endpoint}
    (guards : s.Guards r endpoint) (unknown : ∀ p, ¬ s.directory.Bears r p) (draw : Draw) :
    r.plan s draw = .answer .unauthorized := by
  have hcaller := Service.caller_of_unknown unknown
  unfold HttpRequest.plan
  rw [guards.route]
  dsimp only
  unfold Endpoint.plan
  split
  · exact absurd rfl guards.notHealth
  · exact absurd rfl guards.notMetrics
  · rw [hcaller]
    exact congrArg Plan.answer HttpResponse.ofError_unauthorized

/-! ### Requests of one caller -/

/-- A request with another header. -/
def HttpRequest.bearing (r : HttpRequest) (authorization : Option (List UInt8)) : HttpRequest :=
  { r with authorization }

theorem Endpoint.planFor_bearing (endpoint : Endpoint) (p : Principal) (r : HttpRequest)
    (authorization : Option (List UInt8)) (draw : Draw) :
    endpoint.planFor p (r.bearing authorization) draw = endpoint.planFor p r draw := by
  cases endpoint <;> rfl

/-- What a request leads to depends on its header through the caller only. -/
theorem HttpRequest.plan_bearing {s : Service} {r : HttpRequest}
    {authorization : Option (List UInt8)} (draw : Draw)
    (same : s.caller (r.bearing authorization) = s.caller r) :
    (r.bearing authorization).plan s draw = r.plan s draw := by
  have hroute : Endpoint.find s.config.server.metricsEnabled (r.bearing authorization).method
      (r.bearing authorization).path =
        Endpoint.find s.config.server.metricsEnabled r.method r.path := rfl
  unfold HttpRequest.plan
  rw [hroute]
  cases Endpoint.find s.config.server.metricsEnabled r.method r.path with
  | error response => rfl
  | ok endpoint =>
    dsimp only
    unfold Endpoint.plan
    split
    · rfl
    · rfl
    · rw [same]
      simp only [Endpoint.planFor_bearing]

namespace Server

/-- A request, as an action, to a handler that asks who is calling, and what is seen of it if
nobody is known to call. A head is asked for without its body. -/
inductive Gated (s : Server) (r : HttpRequest) : Action → Event → Prop where
  | http (label : String) (draw : Draw) (endpoint : Endpoint)
    (guards : s.service.Guards r endpoint) :
    Gated s r (.http label r draw) (.responded label (HttpRequest.fit r.method .unauthorized))
  /-- The handler of sessions is asked for one. -/
  | handshake (name : String) :
    Gated s r (.handshake name r) (.shaken name (some .unauthorized))

/-- Two actions are the same but for the header of a request, and that stands for the same
principal. -/
inductive SameBearer (d : Directory) : Action → Action → Prop where
  | same (a : Action) : SameBearer d a a
  | http (label : String) (r : HttpRequest) (draw : Draw) (authorization : Option (List UInt8))
    (p : Principal) (first : d.Bears r p) (second : d.Bears (r.bearing authorization) p) :
    SameBearer d (.http label r draw) (.http label (r.bearing authorization) draw)
  | handshake (name : String) (r : HttpRequest) (authorization : Option (List UInt8))
    (p : Principal) (first : d.Bears r p) (second : d.Bears (r.bearing authorization) p) :
    SameBearer d (.handshake name r) (.handshake name (r.bearing authorization))

variable {s : Server}

/-- **A request without a known caller is refused, and changes nothing.** -/
theorem step_of_unknown {r : HttpRequest} {a : Action} {refusal : Event}
    (gated : Gated s r a refusal) (unknown : ∀ p, ¬ s.service.directory.Bears r p) :
    s.step a = some (s, [refusal]) := by
  cases gated with
  | http label draw endpoint guards =>
    dsimp only [step, beginHttp?]
    rw [HttpRequest.plan_of_unknown guards unknown]
  | handshake name =>
    dsimp only [step, shake?]
    rw [Service.caller_of_unknown unknown]
    rfl

/-- **Requests of one principal do the same.** -/
theorem step_of_sameBearer {a a' : Action} (h : SameBearer s.service.directory a a') :
    s.step a' = s.step a := by
  cases h with
  | same => rfl
  | http label r draw authorization p first second =>
    have hsame := Service.caller_eq_of_bears first second
    dsimp only [step, beginHttp?]
    rw [HttpRequest.plan_bearing draw hsame]
    rfl
  | handshake name r authorization p first second =>
    have hsame := Service.caller_eq_of_bears first second
    dsimp only [step, shake?]
    rw [hsame]

/-- **Runs of requests of the same principals are the same.** The directory stays as it is, so
a header stands for one principal all the time. -/
theorem run_of_sameBearer {actions actions' : List Action}
    (h : List.Forall₂ (SameBearer s.service.directory) actions actions') :
    machine.run s actions' = machine.run s actions := by
  have keeps (t : Server) (a : Action) (u : Server) (events : List Event)
      (same : t.service.directory = s.service.directory)
      (hstep : machine.step t a = some (u, events)) :
      u.service.directory = s.service.directory :=
    (congrArg Prod.snd (settings_of_step hstep)).trans same
  have halike := Machine.run_alike (f := id) (g := id) keeps
    (fun t t' a a' same ht ha => ?_) rfl rfl h
  · simpa using halike
  · obtain rfl := ht
    exact congrArg _ (step_of_sameBearer (same ▸ ha))

/-- What a header counts for. -/
structure Gatekept (s : Server) : Prop where
  /-- Every handler that asks who is calling has one answer to those who are not known. -/
  answers : ∀ r draw endpoint, s.service.Guards r endpoint →
    (∀ p, ¬ s.service.directory.Bears r p) → r.plan s.service draw = .answer .unauthorized
  /-- This answer is given at once, and the server stays as it was. -/
  refuses : ∀ r a refusal, Gated s r a refusal → (∀ p, ¬ s.service.directory.Bears r p) →
    s.step a = some (s, [refusal])
  /-- Of two runs whose requests have other headers of the same principals, the one is possible
  just if the other is, and both lead to the same state and show the same events. -/
  resolves : ∀ actions actions', List.Forall₂ (SameBearer s.service.directory) actions actions' →
    machine.run s actions' = machine.run s actions

/-- **A header counts only for the principal whose token it presents**, in every state of a
server and for every request. -/
theorem gatekept (s : Server) : Gatekept s where
  answers _ draw _ guards unknown := HttpRequest.plan_of_unknown guards unknown draw
  refuses _ _ _ gated unknown := step_of_unknown gated unknown
  resolves _ _ alike := run_of_sameBearer alike

/-! ### Three headers -/

def lodger : Principal := ⟨⟨1⟩, "alice", false⟩

def lodge : Config where
  principals := [⟨lodger, "t-alice"⟩]

def lodgeStart : Server := (ofConfig lodge 0).toOption.get rfl

/-- A letter to the user itself, under a header. -/
def errand (header : String) : HttpRequest where
  method := "POST"
  target := "/storage/write/response"
  authorization := some (Utf8.encode header.toList)
  contentType := some (Utf8.encode "application/json".toList)
  body := Utf8.encode
    "\x7b\"target_user_id\":1,\"response_to_request_uuid\":\"m\"\x7d".toList

/-- The letter is brought and queued. -/
def delivery (header : String) : List Action :=
  .http "a" (errand header) ⟨⟨0⟩, "m"⟩ :: List.replicate 2 (.run (.call "a"))

theorem bears_errand {header : String}
    (token : (errand header).bearerToken? = some "t-alice") :
    lodgeStart.service.directory.Bears (errand header) lodger :=
  ⟨"t-alice", HttpRequest.bearerToken?_eq_some_iff.mp token, rfl⟩

/-- The same token under the scheme in other letters and between other blanks does the same, and
queues a letter; without the scheme it is refused. -/
theorem gatekept_of_lodge : ∃ header other foreign,
    List.Forall₂ (SameBearer lodgeStart.service.directory) (delivery header) (delivery other) ∧
      errand header ≠ errand other ∧
      machine.run lodgeStart (delivery other) = machine.run lodgeStart (delivery header) ∧
      (machine.run lodgeStart (delivery header)).map (·.1.service.metrics.published) = some 1 ∧
      (∀ p, ¬ lodgeStart.service.directory.Bears (errand foreign) p) ∧
      lodgeStart.step (.http "b" (errand foreign) ⟨⟨1⟩, "n"⟩) =
        some (lodgeStart, [.responded "b" .unauthorized]) := by
  have alike : List.Forall₂ (SameBearer lodgeStart.service.directory)
      (delivery "Bearer t-alice") (delivery "bEARER \t t-alice ") :=
    .cons (.http _ _ _ _ lodger (bears_errand rfl) (bears_errand rfl))
      (List.forall₂_same.mpr fun a _ => .same a)
  have unknown (p : Principal) :
      ¬ lodgeStart.service.directory.Bears (errand "Token t-alice") p := by
    rintro ⟨token, hpresents, -⟩
    cases HttpRequest.bearerToken?_eq_some_iff.mpr hpresents
  refine ⟨_, _, _, alike, ?_, (gatekept _).resolves _ _ alike, by decide +kernel, unknown,
    (gatekept _).refuses _ _ _ (.http "b" ⟨⟨1⟩, "n"⟩ .writeResponse ⟨rfl, ?_, ?_⟩) unknown⟩
  · exact fun h => absurd (congrArg HttpRequest.authorization h) (by decide +kernel)
  · exact nofun
  · exact nofun

end Server
end DeviceRelay

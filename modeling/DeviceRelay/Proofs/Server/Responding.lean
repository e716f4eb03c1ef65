/-
# A response over HTTP and one in a session are not always taken alike

A response to a message can be written over HTTP or in a session. Where both texts are taken its
letter is posted, and the answers have the same code and the same words. But a session refuses a
blank text for the message that is answered, before anything is done, and over HTTP nobody looks.
Over HTTP a long body is refused, and a session takes a text of any length. A payload that
nests too deep for their readers both refuse, each in its own words. So the two ways are alike just
for texts that are not blank, in a body that is short enough and where both readers reach.

Key definitions: `Server.Posts`, `Server.Hears`, `Server.EndsOverHttp`, `Server.EndsInSession`,
`Server.OverHttp`, `Server.InSession`, `Server.Alike`.
Key theorems: `Server.ends_over_http`, `Server.ends_in_session`, `Server.alike_iff`,
`Server.queued_blank`, `Server.refused_deep`.
-/
import DeviceRelay.Proofs.Inbound.Responses
import DeviceRelay.Proofs.Outbound.Frames
import DeviceRelay.Proofs.RateLimits
import DeviceRelay.Proofs.Server.Alone

namespace DeviceRelay

/-- The letter with which a principal responds. -/
def WriteResponsePayload.letter (a : WriteResponsePayload) (p : Principal) : Letter :=
  ⟨p.id, a.target, .response, a.answers, a.data⟩

namespace Server

/-- A request over HTTP with which a known caller responds, in a body of any length that nests to any
depth. -/
structure Posts (s : Server) (r : HttpRequest) (p : Principal) (a : WriteResponsePayload) :
    Prop where
  route : Endpoint.find s.service.config.server.metricsEnabled r.method r.path = .ok .writeResponse
  caller : s.service.caller r = .ok p
  json : r.isJson = true
  body : ∃ rest, WriteResponsePayload.decoder.Says (Utf8.glyphs r.body) a rest

/-- What a session of a principal receives next is a text with which it responds, which nests to
any depth. -/
structure Hears (s : Server) (name text : String) (p : Principal) (a : WriteResponsePayload) :
    Prop where
  waits : ∃ (x : Session) (connection : Connection), s.session? name = some x ∧ x.principal = p ∧
    x.phase = .selects ∧ x.connection.receive? = some (connection, some (.ok text))
  text : ∃ rest, InboundRequest.decoder.Says (Glyph.ofText text.toList) a.request rest ∧
    Json.readEnd rest = .ok ()

/-- A request is answered, and nothing else happens until then. -/
def EndsOverHttp (s : Server) (label : String) (r : HttpRequest) (draw : Draw) (t : Server)
    (response : HttpResponse) : Prop :=
  ∃ n, machine.run s (.http label r draw :: List.replicate n (.run (.call label))) =
    some (t, [.responded label response])

/-- A session that takes a text up is about to send its reply, and nothing else happens until
then. -/
def EndsInSession (s : Server) (name : String) (t : Server) (reply : Reply) : Prop :=
  ∃ n, machine.run s (.choose name .receive :: List.replicate n (.run (.session name))) =
    some (t, []) ∧ (t.session? name).map (·.phase) = some (.sends (.response reply))

/-- What a response over HTTP comes to in a service. -/
inductive OverHttp (v : Service) (r : HttpRequest) (p : Principal) (a : WriteResponsePayload)
    (w : Service) (response : HttpResponse) : Prop where
  /-- Its letter is posted. -/
  | posted (short : r.body.length ≤ Payload.bodyLimit)
    (reaches : WriteResponsePayload.decoder.Reaches (Utf8.glyphs r.body))
    (after : w = (v.post (a.letter p)).1)
    (told : response = Rendering.writeResponse.render (.ofPosting (v.post (a.letter p)).2))
  | tooLong (long : Payload.bodyLimit < r.body.length) (after : w = v)
    (told : response = .ofError
      (.malformedMessage "Failed to buffer the request body: length limit exceeded"))
  | tooDeep (short : r.body.length ≤ Payload.bodyLimit)
    (deep : ¬ WriteResponsePayload.decoder.Reaches (Utf8.glyphs r.body)) (after : w = v)
    (report : Json.Report)
    (told : response = .ofError (.malformedMessage (Payload.faultText report)))

/-- What a response in a session comes to in a service. -/
inductive InSession (v : Service) (text : String) (p : Principal) (a : WriteResponsePayload)
    (w : Service) (reply : Reply) : Prop where
  /-- Its letter is posted. -/
  | posted (named : Text.isAllBlank a.answers.toList = false)
    (reaches : InboundRequest.decoder.Reaches (Glyph.ofText text.toList))
    (after : w = (v.post (a.letter p)).1)
    (told : reply = Session.replyTo a.answers (.ofPosting (v.post (a.letter p)).2))
  /-- It does not name the message that it answers. -/
  | unnamed (blank : Text.isAllBlank a.answers.toList = true)
    (reaches : InboundRequest.decoder.Reaches (Glyph.ofText text.toList)) (after : w = v)
    (told : reply = .ofError (.ofWire (.invalidData "message_id must not be empty")))
  | tooDeep (deep : ¬ InboundRequest.decoder.Reaches (Glyph.ofText text.toList)) (after : w = v)
    (report : Json.Report) (told : reply = .ofError (.ofWire (.frame report)))

/-- Two ways to write a letter end alike. They leave the same service behind, the one tells what
the other does, without its data, and if this is a refusal then the queues are as they
were. -/
structure Alike (s t u : Server) (letter : Letter) (response : HttpResponse) (reply : Reply) :
    Prop where
  service : t.service = u.service
  told : response.body = ({ reply with data := none } : Reply).text
  queues : t.service.relay =
    if reply.ok then
      (s.service.relay.publish letter.recipient (letter.message s.service.clock.wall)).1
    else s.service.relay

variable {s : Server} {label name text : String} {r : HttpRequest} {p : Principal}
  {a : WriteResponsePayload}

/-! ### Over HTTP -/

theorem method_of_route {metricsEnabled : Bool} {method path : String}
    (h : Endpoint.find metricsEnabled method path = .ok .writeResponse) : method = "POST" := by
  have hroutes : ∀ served ∈ Endpoint.routes metricsEnabled, ∀ m ∈ served.2,
      m.2 = .writeResponse → m.1 = .post := by
    cases metricsEnabled <;> decide
  unfold Endpoint.find at h
  split at h
  · cases h
  · rename_i served hserved
    split at h
    · rename_i m endpoint hfind
      obtain rfl := Except.ok.inj h
      obtain rfl := hroutes _ (Keyed.mem_of_lookup hserved) _ (List.mem_of_find?_eq_some hfind) rfl
      have hnamed := List.find?_some hfind
      simpa [Endpoint.Method.names] using hnamed
    · cases h

/-- The call that writes a response. -/
def respondsWith (p : Principal) (a : WriteResponsePayload) : Call :=
  .publish p a.target .response a.answers a.data

/-- What becomes of the body of a request with which a caller responds. -/
theorem read_of_posts (posts : Posts s r p a) :
    (r.body.length ≤ Payload.bodyLimit ∧ WriteResponsePayload.decoder.Reaches (Utf8.glyphs r.body) ∧
      Payload.read WriteResponsePayload.decoder r = .ok a) ∨
    (Payload.bodyLimit < r.body.length ∧ Payload.read WriteResponsePayload.decoder r =
      .error (.malformedMessage "Failed to buffer the request body: length limit exceeded")) ∨
    (r.body.length ≤ Payload.bodyLimit ∧ ¬ WriteResponsePayload.decoder.Reaches (Utf8.glyphs r.body) ∧
      ∃ report, Payload.read WriteResponsePayload.decoder r =
        .error (.malformedMessage (Payload.faultText report))) := by
  obtain ⟨rest, said⟩ := posts.body
  have hcases := said.decodeFrontWith_cases WriteResponsePayload.deepens_decoder
  unfold Payload.read
  rw [posts.json, if_neg (by simp)]
  rcases Nat.lt_or_ge Payload.bodyLimit r.body.length with hlong | hshort
  · rw [if_pos hlong]
    exact .inr (.inl ⟨hlong, rfl⟩)
  · rw [if_neg (Nat.not_lt_of_le hshort)]
    rcases hcases with ⟨reaches, hread⟩ | ⟨deep, report, hread⟩
    · rw [hread]
      exact .inl ⟨hshort, reaches, rfl⟩
    · rw [hread]
      exact .inr (.inr ⟨hshort, deep, report, rfl⟩)

section

variable (posts : Posts s r p a)

include posts

theorem plan_of_posts (draw : Draw) : r.plan s.service draw =
    .ofExcept ((Payload.read WriteResponsePayload.decoder r).map fun a =>
      .call (respondsWith p a) .writeResponse) := by
  unfold HttpRequest.plan
  rw [posts.route]
  dsimp only [Endpoint.plan]
  rw [posts.caller]
  dsimp only [Endpoint.planFor]
  cases Payload.read WriteResponsePayload.decoder r with
  | error | ok => rfl

theorem refused_of_posts {e : Error} (refused : Payload.read WriteResponsePayload.decoder r = .error e)
    (label : String) (draw : Draw) : EndsOverHttp s label r draw s (.ofError e) := by
  have hstep : s.step (.http label r draw) = s.beginHttp? label r draw := rfl
  unfold beginHttp? at hstep
  rw [plan_of_posts posts, refused] at hstep
  have hfit : HttpRequest.fit r.method (.ofError e) = .ofError e := by
    rw [method_of_route posts.route]
    rfl
  refine ⟨0, ?_⟩
  rw [← hfit]
  exact run_cons hstep rfl

theorem begins_of_posts (read : Payload.read WriteResponsePayload.decoder r = .ok a)
    (new : s.call? label = none) (draw : Draw) :
    ∃ u, s.step (.http label r draw) = some (u, []) ∧ u.service = s.service ∧
      u.call? label = some ⟨label, .http r.method .writeResponse, .begins (respondsWith p a)⟩ := by
  have hbegin : s.beginCall? label (.http r.method .writeResponse) (respondsWith p a) =
      some { s with
        calls := s.calls ++ [⟨label, .http r.method .writeResponse, .begins (respondsWith p a)⟩]
        tasks := s.tasks ++ [.call label] } := by
    simp [beginCall?, new, respondsWith]
  have hhttp : s.step (.http label r draw) = s.beginHttp? label r draw := rfl
  unfold beginHttp? at hhttp
  rw [plan_of_posts posts, read] at hhttp
  refine ⟨_, hhttp.trans (congrArg (Option.map fun s => (s, [])) hbegin), rfl, ?_⟩
  have hnone : s.calls.find? (·.label = label) = none := new
  unfold call?
  rw [List.find?_append, hnone]
  simp

/-- What is taken of a request is posted, and the answer tells how that ended. -/
theorem posted_of_posts (read : Payload.read WriteResponsePayload.decoder r = .ok a)
    (new : s.call? label = none) (draw : Draw) :
    ∃ t, EndsOverHttp s label r draw t
        (Rendering.writeResponse.render (.ofPosting (s.service.post (a.letter p)).2)) ∧
      t.service = (s.service.post (a.letter p)).1 := by
  have carries : (Phase.begins (respondsWith p a)).letter? = some (a.letter p) := rfl
  obtain ⟨u, hstep, hservice, hcall⟩ := begins_of_posts posts read new draw
  obtain ⟨n, t, hrun, ht⟩ := run_of_runsAlone
    (Service.runsAlone_post (.call label) s.service carries) u _ hservice hcall
  have hseen (ending : Ending) : endEvent label ending (.http r.method .writeResponse) =
      .responded label (Rendering.writeResponse.render ending) := by
    rw [method_of_route posts.route]
    rfl
  rw [hseen] at hrun
  exact ⟨t, ⟨n, run_cons hstep hrun⟩, ht⟩

/-- **Over HTTP a response is posted if its body is taken**, and is refused at once if not. -/
theorem ends_over_http (new : s.call? label = none) (draw : Draw) :
    ∃ t response, EndsOverHttp s label r draw t response ∧
      OverHttp s.service r p a t.service response := by
  rcases read_of_posts posts with ⟨hshort, reaches, read⟩ | ⟨hlong, refused⟩ |
    ⟨hshort, deep, report, refused⟩
  · obtain ⟨t, ends, ht⟩ := posted_of_posts posts read new draw
    exact ⟨t, _, ends, .posted hshort reaches ht rfl⟩
  · exact ⟨s, _, refused_of_posts posts refused label draw, .tooLong hlong rfl rfl⟩
  · exact ⟨s, _, refused_of_posts posts refused label draw, .tooDeep hshort deep rfl report rfl⟩

end

/-! ### In a session -/

theorem begins_of_hears {x : Session} {connection : Connection} {text : String}
    (here : s.session? name = some x) (waits : x.phase = .selects)
    (received : x.connection.receive? = some (connection, some (.ok text))) :
    ∃ u, s.step (.choose name .receive) = some (u, []) ∧ u.service = s.service ∧
      u.session? name = some (({ x with connection } : Session).takeText text) := by
  obtain rfl := session_name here
  generalize hy : ({ x with connection } : Session).takeText text = y
  have hchoose : x.choose? s.service .receive = some (s.service, y) := by
    unfold Session.choose?
    simp only [waits, received, Option.map_some, Session.takeEvent, ← hy]
  have hstep : s.step (.choose x.name .receive) = some (s.after (s.service, y)) := by
    have hrun : s.step (.choose x.name .receive) = s.choose? x.name .receive := rfl
    unfold Server.choose? at hrun
    rw [hrun, here]
    simp only [Option.bind_eq_bind, Option.bind_some, hchoose, Option.pure_def]
  have hphase : (∃ frame, y.phase = .sends frame) ∨ ∃ m phase, y.phase = .publishes m phase := by
    rw [← hy]
    unfold Session.takeText
    split
    · exact .inl ⟨_, rfl⟩
    · exact .inr ⟨_, _, rfl⟩
  have hsilent : (s.after (s.service, y)).2 = [] := by
    rw [events_after]
    rcases hphase with ⟨frame, h⟩ | ⟨m, phase, h⟩ <;> rw [h]
  have hname : y.name = x.name := hy ▸ (Session.same_takeText _ text).name
  refine ⟨(s.after (s.service, y)).1, ?_, service_after .., session?_after here hname⟩
  rw [hstep, ← hsilent]

theorem parse_of_hears (hears : Hears s name text p a) :
    (Text.isAllBlank a.answers.toList = false ∧
      InboundRequest.decoder.Reaches (Glyph.ofText text.toList) ∧
      InboundRequest.parse text.toList = .ok a.request) ∨
    (Text.isAllBlank a.answers.toList = true ∧
      InboundRequest.decoder.Reaches (Glyph.ofText text.toList) ∧
      InboundRequest.parse text.toList = .error (.invalidData "message_id must not be empty")) ∨
    (¬ InboundRequest.decoder.Reaches (Glyph.ofText text.toList) ∧
      ∃ report, InboundRequest.parse text.toList = .error (.frame report)) := by
  obtain ⟨rest, said, hend⟩ := hears.text
  unfold InboundRequest.parse
  rcases said.decodeWith_cases InboundRequest.deepens_decoder hend with
    ⟨reaches, hread⟩ | ⟨deep, report, hread⟩
  · rw [hread]
    cases hblank : Text.isAllBlank a.answers.toList with
    | false => exact .inl ⟨rfl, reaches, if_neg (by simp [WriteResponsePayload.request, hblank])⟩
    | true => exact .inr (.inl ⟨rfl, reaches, if_pos hblank⟩)
  · rw [hread]
    exact .inr (.inr ⟨deep, report, rfl⟩)

/-- **In a session a response is posted if its text is taken**, and is refused at once if not. -/
theorem ends_in_session (hears : Hears s name text p a) :
    ∃ u reply, EndsInSession s name u reply ∧ InSession s.service text p a u.service reply := by
  obtain ⟨x, connection, here, rfl, waits, received⟩ := hears.waits
  obtain ⟨u, hstep, hservice, hthere⟩ := begins_of_hears here waits received
  have refused {e : WireError} (hparse : InboundRequest.parse text.toList = .error e) :
      EndsInSession s name u (.ofError (.ofWire e)) := by
    refine ⟨0, run_cons hstep rfl, ?_⟩
    rw [hthere]
    unfold Session.takeText
    rw [hparse]
    rfl
  rcases parse_of_hears hears with ⟨named, reaches, hparse⟩ | ⟨blank, reaches, hparse⟩ |
    ⟨deep, report, hparse⟩
  · have carries : (Phase.begins (respondsWith x.principal a)).letter? =
      some (a.letter x.principal) := rfl
    unfold Session.takeText at hthere
    rw [hparse] at hthere
    obtain ⟨n, t, hrun, ht, hreply⟩ := runSession_of_runsAlone
      (Service.runsAlone_post (.session name) s.service carries) u _ _ hservice hthere rfl
    exact ⟨t, _, ⟨n, run_cons hstep hrun, hreply⟩, .posted named reaches ht rfl⟩
  · exact ⟨u, _, refused hparse, .unnamed blank reaches hservice rfl⟩
  · exact ⟨u, _, refused hparse, .tooDeep deep hservice report rfl⟩

/-! ### Both ways -/

/-- To post a letter shows, if only in the limits or in a counter. -/
theorem post_ne (v : Service) (letter : Letter) : (v.post letter).1 ≠ v := by
  have hcell (allowed : (v.limits.takeCells letter.sender).2 = .ok ()) :
      (v.limits.takeCells letter.sender).1.globalLeft ≠ v.limits.globalLeft := by
    rw [RateLimits.globalLeft_takeCells]
    rw [RateLimits.takeCells_result] at allowed
    split at allowed
    · cases allowed
    · omega
  intro hsame
  cases Service.posted_of_post v letter with
  | limited rate refused after =>
    rw [after] at hsame
    have hcount := congrArg (fun w : Service => w.metrics.rateLimitHits) hsame
    exact absurd hcount (Nat.succ_ne_self _)
  | refused allowed e fate after | queued allowed fate usable after =>
    rw [after] at hsame
    exact hcell allowed (congrArg (fun w : Service => w.limits.globalLeft) hsame)

/-- What a response over HTTP tells is what a session tells, up to its data. -/
theorem body_render (m : String) (result : Except Error Unit) :
    (Rendering.writeResponse.render (.ofPosting result)).body =
      ({ Session.replyTo m (.ofPosting result) with data := none } : Reply).text := by
  cases result with
  | error | ok => rfl

theorem reason_of_refusals {x y : String} (h : (Reply.ofError (.malformedMessage x)).text =
    (Reply.ofError (.malformedMessage y)).text) : x = y := by
  have hcode : Status.malformed.code < twoTo 16 := by decide
  have hwritable (x : String) : (Reply.ofError (.malformedMessage x)).Writable := ⟨hcode, .null, .null⟩
  have hmessage := congrArg Reply.message
    (OutboundFrame.received_of_reply (hwritable x) (hwritable y) h)
  exact (String.append_right_inj "malformed message: ").mp hmessage

theorem first_of_faultText (report : Json.Report) :
    (Payload.faultText report).toList.head? = some 'F' := by
  unfold Payload.faultText
  split <;> (rw [String.toList_append]; rfl)

theorem first_of_wireError (e : WireError) : e.message.toList.head? ≠ some 'F' := by
  cases e with
  | unpacking => decide
  | frame report | invalidData reason =>
    unfold WireError.message
    rw [String.toList_append]
    exact fun h => absurd (Option.some.inj h) (by decide : 'i' ≠ 'F')

section

variable {v w : Service}

/-- Over HTTP a response is posted, or is refused for a reason that begins like this. -/
theorem OverHttp.posted_or_refused {response : HttpResponse} (h : OverHttp v r p a w response) :
    (w = (v.post (a.letter p)).1 ∧
      response = Rendering.writeResponse.render (.ofPosting (v.post (a.letter p)).2) ∧
      r.body.length ≤ Payload.bodyLimit ∧
      WriteResponsePayload.decoder.Reaches (Utf8.glyphs r.body)) ∨
    (w = v ∧ ∃ reason, response = .ofError (.malformedMessage reason) ∧
      reason.toList.head? = some 'F') ∧ ¬ (r.body.length ≤ Payload.bodyLimit ∧
        WriteResponsePayload.decoder.Reaches (Utf8.glyphs r.body)) := by
  cases h with
  | posted short reaches after told => exact .inl ⟨after, told, short, reaches⟩
  | tooLong long after told =>
    exact .inr ⟨⟨after, _, told, by decide⟩, fun h => Nat.not_le_of_lt long h.1⟩
  | tooDeep short deep after report told =>
    exact .inr ⟨⟨after, _, told, first_of_faultText report⟩, fun h => deep h.2⟩

/-- In a session a response is posted, or is refused as what is wrong with a frame. -/
theorem InSession.posted_or_refused {reply : Reply} (h : InSession v text p a w reply) :
    (w = (v.post (a.letter p)).1 ∧
      reply = Session.replyTo a.answers (.ofPosting (v.post (a.letter p)).2) ∧
      Text.isAllBlank a.answers.toList = false ∧
      InboundRequest.decoder.Reaches (Glyph.ofText text.toList)) ∨
    (w = v ∧ ∃ e, reply = .ofError (.ofWire e)) ∧ ¬ (Text.isAllBlank a.answers.toList = false ∧
      InboundRequest.decoder.Reaches (Glyph.ofText text.toList)) := by
  cases h with
  | posted named reaches after told => exact .inl ⟨after, told, named, reaches⟩
  | unnamed blank reaches after told =>
    exact .inr ⟨⟨after, _, told⟩, fun h => Bool.false_ne_true (h.1.symm.trans blank)⟩
  | tooDeep deep after report told => exact .inr ⟨⟨after, _, told⟩, fun h => deep h.2⟩

end

/-- Two refusals are not alike: over HTTP other words are used than in a session. -/
theorem not_alike_of_refusals {t u : Server} {letter : Letter} {reason : String} {e : WireError}
    (hreason : reason.toList.head? = some 'F') :
    ¬ Alike s t u letter (.ofError (.malformedMessage reason)) (.ofError (.ofWire e)) := by
  intro alike
  obtain rfl := reason_of_refusals alike.told
  exact first_of_wireError e hreason

/-- What nests too deep is taken neither over HTTP nor in a session. -/
theorem not_reaches_of_height (posts : Posts s r p a) (hears : Hears s name text p a)
    (deep : Json.depthLimit ≤ a.data.height) :
    ¬ WriteResponsePayload.decoder.Reaches (Utf8.glyphs r.body) ∧
      ¬ InboundRequest.decoder.Reaches (Glyph.ofText text.toList) := by
  obtain ⟨rest, said⟩ := posts.body
  obtain ⟨rest', said', -⟩ := hears.text
  exact ⟨fun reaches => Nat.not_lt_of_le deep (WriteResponsePayload.height_of_reaches said reaches),
    fun reaches => Nat.not_lt_of_le deep (InboundRequest.height_of_reaches said' reaches)⟩

/-- **A response over HTTP and one in a session end alike just if they answer no blank text, and the
body of the one is short enough and neither nests too deep.** Otherwise a blank text is refused in a
session alone, a long body over HTTP alone, and what nests too deep both ways, in other words. -/
theorem alike_iff (posts : Posts s r p a) (hears : Hears s name text p a)
    (new : s.call? label = none) (draw : Draw) :
    ∃ t u response reply, EndsOverHttp s label r draw t response ∧ EndsInSession s name u reply ∧
      OverHttp s.service r p a t.service response ∧ InSession s.service text p a u.service reply ∧
      (Alike s t u (a.letter p) response reply ↔ Text.isAllBlank a.answers.toList = false ∧
        r.body.length ≤ Payload.bodyLimit ∧
        WriteResponsePayload.decoder.Reaches (Utf8.glyphs r.body) ∧
        InboundRequest.decoder.Reaches (Glyph.ofText text.toList)) ∧
      (Json.depthLimit ≤ a.data.height →
        ¬ WriteResponsePayload.decoder.Reaches (Utf8.glyphs r.body) ∧
          ¬ InboundRequest.decoder.Reaches (Glyph.ofText text.toList)) := by
  obtain ⟨t, response, hhttp, overHttp⟩ := ends_over_http posts new draw
  obtain ⟨u, reply, hsession, inSession⟩ := ends_in_session hears
  refine ⟨t, u, response, reply, hhttp, hsession, overHttp, inSession, ?_,
    not_reaches_of_height posts hears⟩
  have hpost := post_ne s.service (a.letter p)
  rcases overHttp.posted_or_refused with ⟨ht, rfl, short, reaches⟩ | ⟨⟨ht, reason, rfl, hreason⟩, untaken⟩ <;>
    rcases inSession.posted_or_refused with ⟨hu, rfl, named, reaches'⟩ | ⟨⟨hu, e, rfl⟩, untaken'⟩
  · refine iff_of_true ⟨ht.trans hu.symm, body_render a.answers _, ?_⟩
      ⟨named, short, reaches, reaches'⟩
    rw [ht, Service.relay_post]
    cases (s.service.post (a.letter p)).2 with
    | error | ok => rfl
  · refine iff_of_false (fun alike => hpost ?_) fun h => untaken' ⟨h.1, h.2.2.2⟩
    rw [← ht, alike.service, hu]
  · refine iff_of_false (fun alike => hpost ?_) fun h => untaken ⟨h.2.1, h.2.2.1⟩
    rw [← hu, ← alike.service, ht]
  · exact iff_of_false (not_alike_of_refusals hreason) fun h => untaken ⟨h.2.1, h.2.2.1⟩

/-! ### Notes -/

def reader : Principal := ⟨⟨1⟩, "alice", false⟩

def study : Config where
  principals := [⟨reader, "t-alice"⟩]

/-- What heads a response of the user over HTTP. -/
def letterhead : HttpRequest where
  method := "POST"
  target := "/storage/write/response"
  authorization := some (Utf8.encode "Bearer t-alice".toList)
  contentType := some (Utf8.encode "application/json".toList)

/-- A response of the user over HTTP. -/
def postcard (a : WriteResponsePayload) : HttpRequest := { letterhead with body := Utf8.encode a.print }

/-- The service of the place at its start. -/
def studyStart : Server := (ofConfig study 0).toOption.get rfl

/-- The place with a session that is about to receive the same response. -/
def visited (a : WriteResponsePayload) : Server := ((machine.run studyStart
  [.openSession "alice" reader (.direct {}),
    .peer "alice" (.direct (.text a.request.text))]).get rfl).1

theorem posts_postcard (fits : a.data.Fits) (whole : a.data.Whole) :
    Posts (visited a) (postcard a) reader a := by
  have hpath : letterhead.path = "/storage/write/response" := by decide +kernel
  have htoken : letterhead.bearerToken? = some "t-alice" := by decide +kernel
  have hjson : letterhead.isJson = true := by decide +kernel
  have hroute : Endpoint.find study.server.metricsEnabled letterhead.method letterhead.path =
      .ok .writeResponse := by
    rw [hpath]
    rfl
  have hcaller : studyStart.service.caller letterhead = .ok reader := by
    unfold Service.caller
    rw [htoken]
    rfl
  refine ⟨hroute, hcaller, hjson, ?_⟩
  obtain ⟨rest, said, -⟩ := Json.Decoder.said_of_reads
    (WriteResponsePayload.reads_print fits whole (Nat.le_refl _))
  refine ⟨rest, ?_⟩
  unfold postcard
  rw [Utf8.glyphs_encode]
  exact said

theorem hears_visited (fits : a.data.Fits) (whole : a.data.Whole) :
    Hears (visited a) "alice" a.request.text reader a := by
  refine ⟨⟨_, _, rfl, rfl, rfl, rfl⟩, ?_⟩
  unfold InboundRequest.text
  rw [String.toList_ofList]
  exact Json.Decoder.said_of_reads
    (InboundRequest.reads_print (r := a.request) fits whole (Nat.le_refl _))

theorem reaches_postcard (fits : a.data.Fits) (whole : a.data.Whole) :
    WriteResponsePayload.decoder.Reaches (Utf8.glyphs (postcard a).body) ↔
      a.data.height < Json.depthLimit := WriteResponsePayload.reaches_print_iff fits whole

theorem reaches_request (fits : a.data.Fits) (whole : a.data.Whole) :
    InboundRequest.decoder.Reaches (Glyph.ofText a.request.text.toList) ↔
      a.data.height < Json.depthLimit := by
  unfold InboundRequest.text
  rw [String.toList_ofList]
  exact InboundRequest.reaches_print_iff (r := a.request) fits whole

/-- What becomes of one response that is written both ways. -/
theorem ends_of_visit (fits : a.data.Fits) (whole : a.data.Whole) : ∃ t u response reply,
    EndsOverHttp (visited a) "w" (postcard a) ⟨⟨0⟩, "w"⟩ t response ∧
      EndsInSession (visited a) "alice" u reply ∧
      OverHttp (visited a).service (postcard a) reader a t.service response ∧
      InSession (visited a).service a.request.text reader a u.service reply := by
  have new : (visited a).call? "w" = none := rfl
  obtain ⟨t, response, hhttp, overHttp⟩ :=
    ends_over_http (posts_postcard fits whole) new ⟨⟨0⟩, "w"⟩
  obtain ⟨u, reply, hsession, inSession⟩ := ends_in_session (hears_visited fits whole)
  exact ⟨t, u, response, reply, hhttp, hsession, overHttp, inSession⟩

/-- Both ways of answering one message end alike. -/
theorem alike_of_note : ∃ (s : Server) (label name text : String) (r : HttpRequest) (p : Principal)
    (a : WriteResponsePayload) (draw : Draw), Posts s r p a ∧ Hears s name text p a ∧
      s.call? label = none ∧ ∃ t u response reply, EndsOverHttp s label r draw t response ∧
        EndsInSession s name u reply ∧ Alike s t u (a.letter p) response reply := by
  have posts := posts_postcard (a := ⟨⟨1⟩, "m", .null⟩) .null .null
  have hears := hears_visited (a := ⟨⟨1⟩, "m", .null⟩) .null .null
  have hshort : (postcard ⟨⟨1⟩, "m", .null⟩).body.length ≤ Payload.bodyLimit := by decide +kernel
  have hlow : Json.Value.null.height < Json.depthLimit := by decide
  have new : (visited ⟨⟨1⟩, "m", .null⟩).call? "w" = none := rfl
  obtain ⟨t, u, response, reply, hhttp, hsession, -, -, halike, -⟩ :=
    alike_iff posts hears new ⟨⟨0⟩, "w"⟩
  exact ⟨_, _, _, _, _, _, _, _, posts, hears, new, t, u, response, reply, hhttp, hsession,
    halike.mpr ⟨by decide, hshort, (reaches_postcard .null .null).mpr hlow,
      (reaches_request .null .null).mpr hlow⟩⟩

/-- **A response to a blank text is queued over HTTP, and is refused in a session.** -/
theorem queued_blank : ∃ (s t u : Server) (r : HttpRequest) (text : String) (response : HttpResponse)
    (reply : Reply), Posts s r reader ⟨⟨1⟩, " ", .null⟩ ∧
      Hears s "alice" text reader ⟨⟨1⟩, " ", .null⟩ ∧ EndsOverHttp s "w" r ⟨⟨0⟩, "w"⟩ t response ∧
      EndsInSession s "alice" u reply ∧ response = .success .success "enqueued" none ∧
      reply = ⟨false, 400, "malformed message: invalid data: message_id must not be empty", none⟩ ∧
      (t.queue ⟨1⟩).map (fun bytes => (Message.unpack? bytes).map (·.correlationId)) = [some " "] ∧
      u.queue ⟨1⟩ = [] := by
  have posts := posts_postcard (a := ⟨⟨1⟩, " ", .null⟩) .null .null
  have hears := hears_visited (a := ⟨⟨1⟩, " ", .null⟩) .null .null
  have hshort : (postcard ⟨⟨1⟩, " ", .null⟩).body.length ≤ Payload.bodyLimit := by decide +kernel
  have hlow : Json.Value.null.height < Json.depthLimit := by decide
  obtain ⟨t, u, response, reply, hhttp, hsession, overHttp, inSession⟩ :=
    ends_of_visit (a := ⟨⟨1⟩, " ", .null⟩) .null .null
  cases overHttp with
  | tooLong long => exact absurd hshort (Nat.not_le_of_lt long)
  | tooDeep _ deep => exact absurd ((reaches_postcard .null .null).mpr hlow) deep
  | posted _ _ ht told =>
    cases inSession with
    | tooDeep deep => exact absurd ((reaches_request .null .null).mpr hlow) deep
    | posted named => exact absurd named (by decide)
    | unnamed _ _ hu refused =>
      refine ⟨_, t, u, _, _, response, reply, posts, hears, hhttp, hsession, told, refused, ?_, ?_⟩
      · unfold queue
        rw [ht]
        decide +kernel
      · unfold queue
        rw [hu]
        decide +kernel

/-- **What nests too deep is refused both ways, with one code and in different words.** -/
theorem refused_deep : ∃ (s t u : Server) (r : HttpRequest) (text : String) (a : WriteResponsePayload)
    (response : HttpResponse) (reply : Reply), Posts s r reader a ∧ Hears s "alice" text reader a ∧
      a.answers = "m" ∧ EndsOverHttp s "w" r ⟨⟨0⟩, "w"⟩ t response ∧ EndsInSession s "alice" u reply ∧
      t.service = s.service ∧ u.service = s.service ∧ response.status = 400 ∧ reply.code = 400 ∧
      response.body ≠ reply.text := by
  have fits := InboundRequest.fits_stacked 126
  have whole := InboundRequest.whole_stacked 126
  have posts := posts_postcard (a := ⟨⟨1⟩, "m", InboundRequest.stacked 126⟩) fits whole
  have hears := hears_visited (a := ⟨⟨1⟩, "m", InboundRequest.stacked 126⟩) fits whole
  have hshort : (postcard ⟨⟨1⟩, "m", InboundRequest.stacked 126⟩).body.length ≤ Payload.bodyLimit := by
    decide +kernel
  have hdeep : Json.depthLimit ≤ (InboundRequest.stacked 126).height := by decide +kernel
  obtain ⟨hbody, htext⟩ := not_reaches_of_height posts hears hdeep
  obtain ⟨t, u, response, reply, hhttp, hsession, overHttp, inSession⟩ :=
    ends_of_visit (a := ⟨⟨1⟩, "m", InboundRequest.stacked 126⟩) fits whole
  cases overHttp with
  | posted _ reaches => exact absurd reaches hbody
  | tooLong long => exact absurd hshort (Nat.not_le_of_lt long)
  | tooDeep _ _ ht report told =>
    cases inSession with
    | posted _ reaches | unnamed _ reaches => exact absurd reaches htext
    | tooDeep _ hu fault refused =>
      refine ⟨_, t, u, _, _, _, response, reply, posts, hears, rfl, hhttp, hsession, ht, hu,
        congrArg HttpResponse.status told, congrArg Reply.code refused, fun hsame => ?_⟩
      rw [told, refused] at hsame
      have hreason := reason_of_refusals hsame
      exact first_of_wireError _ (hreason ▸ first_of_faultText report)

end Server
end DeviceRelay

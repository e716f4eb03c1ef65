/-
# The two texts of a response

A response to a message is the body of a request over HTTP, or a text in a session. What is
printed of it in either form says it, however deep its data nests. A reader with a limit takes
it from there just if its data leaves one bracket, that of the response.

Key definitions: `WriteResponsePayload.request`, `WriteResponsePayload.print`.
Key theorems: `WriteResponsePayload.height_of_reaches`, `InboundRequest.height_of_reaches`,
`WriteResponsePayload.reaches_print_iff`, `InboundRequest.reaches_print_iff`.
-/
import DeviceRelay.Proofs.Inbound.Listing

namespace DeviceRelay

open Json (Entry Reads Folds separated)
open Json.Decoder (takes_field reads_printName reads_printString reads_value)

/-! ### What is read in one of the forms -/

namespace Json.Decoder

variable {α : Type} {d : Decoder α} {a : α} {t : Input} {height : Nat}

theorem said_of_reads {depth : Nat} (h : Reads (d.read depth) a t) :
    ∃ rest, d.Says t a rest ∧ readEnd rest = .ok () := by
  obtain ⟨left, hread, hleft⟩ := h [] ends_nil
  rw [List.append_nil] at hread
  refine ⟨left, ⟨depth, hread⟩, ?_⟩
  unfold readEnd
  rw [hleft]
  rfl

/-- A reader takes what is read with one bracket more than its height just if it has as many. -/
theorem reaches_iff_of_reads (hd : d.Deepens)
    (reads : ∀ depth, height ≤ depth → Reads (d.read (depth + 1)) a t)
    (low : ∀ rest, d.read depthLimit t = .ok (a, rest) → height < depthLimit) :
    d.Reaches t ↔ height < depthLimit := by
  constructor
  · intro reaches
    obtain ⟨rest, said, -⟩ := said_of_reads (reads height (Nat.le_refl _))
    exact low rest (said.read_of_reaches hd reaches)
  · intro hheight
    obtain ⟨left, hread, -⟩ := reads (depthLimit - 1) (Nat.le_sub_one_of_lt hheight) [] ends_nil
    rw [List.append_nil] at hread
    exact ⟨_, hread⟩

end Json.Decoder

/-! ### Over HTTP -/

namespace WriteResponsePayload

variable {a : WriteResponsePayload} {depth : Nat}

/-- A response as the text of a body. -/
def print (a : WriteResponsePayload) : List Char :=
  Json.printFields [("target_user_id", Json.print a.target.json),
    ("response_to_request_uuid", Json.printString a.answers), ("data", Json.print a.data)]

/-- The same response, as it is written in a session. -/
def request (a : WriteResponsePayload) : InboundRequest :=
  ⟨.enqueueResponse, a.answers, a.target, a.data⟩

/-- The members of a body as they are printed. -/
def entries (a : WriteResponsePayload) : List Entry :=
  [.printed "target_user_id" (Json.print a.target.json),
    .printed "response_to_request_uuid" (Json.printString a.answers),
    .printed "data" (Json.print a.data)]

theorem ofText_print (a : WriteResponsePayload) : Glyph.ofText a.print =
    .char '\x7b' :: ([] ++ (separated (a.entries.map (·.whole)) ++ [.char '\x7d'])) :=
  Json.ofText_printFields _

theorem reads_print (fits : a.data.Fits) (whole : a.data.Whole) (hheight : a.data.height ≤ depth) :
    Reads (decoder.read (depth + 1)) a (Glyph.ofText a.print) := by
  have hdata : Reads (Json.Decoder.value.read depth) a.data (Glyph.ofText (Json.print a.data)) :=
    reads_value (Json.writes_print fits whole hheight)
  have hfolds : Folds (Json.Decoder.readMember fields depth) ⟨none, none, none⟩ a.entries
      ⟨some a.target, some a.answers, some a.data⟩ := by
    refine .cons (takes_field rfl rfl (PrincipalId.reads_json depth a.target)) <|
      .cons (takes_field rfl rfl (reads_printString depth a.answers)) <|
      .cons (takes_field rfl rfl hdata) (.nil _)
  rw [ofText_print]
  refine Json.Decoder.reads_record "WriteResponsePayload" hfolds ?_ (List.forall_mem_nil _)
  rfl

/-- What is taken of a body nests one bracket less deep than its reader goes. -/
theorem height_of_reaches {input rest : Json.Input} (said : decoder.Says input a rest)
    (reaches : decoder.Reaches input) : a.data.height < Json.depthLimit :=
  ((yields_decoder (Nat.le_refl _)).of_ok (said.read_of_reaches deepens_decoder reaches)).1

/-- **A reader takes what is printed of a response just if its data leaves one bracket.** -/
theorem reaches_print_iff (fits : a.data.Fits) (whole : a.data.Whole) :
    decoder.Reaches (Utf8.glyphs (Utf8.encode a.print)) ↔ a.data.height < Json.depthLimit := by
  rw [Utf8.glyphs_encode]
  exact Json.Decoder.reaches_iff_of_reads deepens_decoder (fun _ => reads_print fits whole)
    fun _ hread => ((yields_decoder (Nat.le_refl _)).of_ok hread).1

end WriteResponsePayload

/-! ### In a session -/

namespace InboundRequest

variable {r : InboundRequest} {depth : Nat}

theorem ofText_print (r : InboundRequest) : Glyph.ofText r.print =
    .char '\x7b' :: ([] ++ (separated (r.printed.map (·.whole)) ++ [.char '\x7d'])) :=
  Json.ofText_printFields _

theorem reads_print (fits : r.data.Fits) (whole : r.data.Whole) (hheight : r.data.height ≤ depth) :
    Reads (decoder.read (depth + 1)) r (Glyph.ofText r.print) := by
  have htype : RequestType.named.lookup r.requestType.name = some r.requestType := by
    cases r.requestType <;> rfl
  have hdata : Reads (Json.Decoder.value.read depth) r.data (Glyph.ofText (Json.print r.data)) :=
    reads_value (Json.writes_print fits whole hheight)
  have hfolds : Folds (Json.Decoder.readMember fields depth) ⟨none, none, none, none⟩ r.printed
      ⟨some r.requestType, some r.messageId, some r.target, some r.data⟩ := by
    refine .cons (takes_field rfl rfl (reads_printName depth htype)) <|
      .cons (takes_field rfl rfl (reads_printString depth r.messageId)) <|
      .cons (takes_field rfl rfl (PrincipalId.reads_json depth r.target)) <|
      .cons (takes_field rfl rfl hdata) (.nil _)
  rw [ofText_print]
  refine Json.Decoder.reads_record "InboundRequest" hfolds ?_ (List.forall_mem_nil _)
  rfl

/-- What is taken of a text nests one bracket less deep than its reader goes. -/
theorem height_of_reaches {input rest : Json.Input} (said : decoder.Says input r rest)
    (reaches : decoder.Reaches input) : r.data.height < Json.depthLimit :=
  ((yields_decoder (Nat.le_refl _)).of_ok (said.read_of_reaches deepens_decoder reaches)).1

/-- **A reader takes what is printed of a request just if its data leaves one bracket.** -/
theorem reaches_print_iff (fits : r.data.Fits) (whole : r.data.Whole) :
    decoder.Reaches (Glyph.ofText r.print) ↔ r.data.height < Json.depthLimit :=
  Json.Decoder.reaches_iff_of_reads deepens_decoder (fun _ => reads_print fits whole)
    fun _ hread => ((yields_decoder (Nat.le_refl _)).of_ok hread).1

end InboundRequest
end DeviceRelay

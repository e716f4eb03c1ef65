/-
# What clients write can be packed

The text of a request and the body of a message are read as records. Their data is in normal
form, and neither it nor the texts beside it are longer than what they are read of. So what a
client writes in fewer than `2 ^ 30` characters can be packed, where each length has 32 bits
and each character takes four bytes at most. As the record itself is a bracket, one bracket
fewer is left for its data.

Key definitions: `InboundRequest.Readable`, `WriteResponsePayload.Readable`.
Key theorems: `InboundRequest.readable_of_parse`, `WriteRequestPayload.readable_of_read`,
`WriteResponsePayload.readable_of_read`, `Json.Value.Readable.short`,
`InboundRequest.height_of_parse`, `WriteRequestPayload.height_of_read`,
`WriteResponsePayload.height_of_read`.
-/
import DeviceRelay.Frame
import DeviceRelay.Http.Payload
import DeviceRelay.Proofs.Json.Depths
import DeviceRelay.Proofs.Json.Records
import DeviceRelay.Proofs.MessagePack.RoundTrip

namespace DeviceRelay

open Json (Each)
open Json.Decoder (Gives gives_record yields_record gives_value gives_text gives_choice preserves_field
  keeps_field deepens_map deepens_integer deepens_record deepens_field deepens_choice deepens_text
  deepens_value)

/-! ### Requests and payloads -/

theorem PrincipalId.gives_decoder (n : Nat) : PrincipalId.decoder.Gives n fun _ => True := by
  have hword : Json.Decoder.word.Gives n fun _ => True :=
    Json.Decoder.gives_map (Json.Decoder.gives_integer _ _ _) fun _ _ => trivial
  exact Json.Decoder.gives_map hword fun _ _ => trivial

namespace InboundRequest

/-- A request that is read of a text of at most `n` glyphs. -/
structure Readable (n : Nat) (r : InboundRequest) : Prop where
  messageId : r.messageId.toList.length ≤ n
  data : r.data.Readable n

/-- What was read of such a request so far. -/
structure Draft.Readable (n : Nat) (s : Draft) : Prop where
  messageId : Each (fun text : String => text.toList.length ≤ n) s.messageId
  data : Each (Json.Value.Readable n) s.data

theorem preserves_fields (n : Nat) : ∀ field ∈ fields, field.Preserves n (Draft.Readable n) := by
  simp only [fields, List.forall_mem_cons]
  exact ⟨preserves_field (gives_choice _) fun _ _ h _ => ⟨h.messageId, h.data⟩,
    preserves_field gives_text fun _ _ h short => ⟨Json.each_some short, h.data⟩,
    preserves_field (PrincipalId.gives_decoder n) fun _ _ h _ => ⟨h.messageId, h.data⟩,
    preserves_field gives_value fun _ _ h readable => ⟨h.messageId, Json.each_some readable⟩,
    List.forall_mem_nil _⟩

theorem gives_decoder (n : Nat) : decoder.Gives n (Readable n) := by
  have hblank : Draft.Readable n ⟨none, none, none, none⟩ := ⟨Json.each_none, Json.each_none⟩
  refine gives_record (preserves_fields n) _ hblank fun s r hs hfinish => ?_
  obtain ⟨requestType, -, hfinish⟩ := Json.of_require hfinish
  obtain ⟨messageId, hmessageId, hfinish⟩ := Json.of_require hfinish
  obtain ⟨target, -, hfinish⟩ := Json.of_require hfinish
  obtain rfl := Except.ok.inj hfinish
  exact ⟨hs.messageId messageId hmessageId, hs.data.getD⟩

theorem decoded_of_parse {text : List Char} {r : InboundRequest} (h : parse text = .ok r) :
    Json.decodeWith decoder.read (Glyph.ofText text) = .ok r := by
  unfold parse at h
  split at h
  · cases h
  · rename_i hok
    split at h
    · cases h
    · exact Except.ok.inj h ▸ hok

/-- **The data of a request is in normal form, and no longer than its text.** -/
theorem readable_of_parse {text : List Char} {r : InboundRequest} (h : parse text = .ok r) :
    r.Readable text.length := by
  have hlength : (Glyph.ofText text).length = text.length := List.length_map ..
  exact Json.of_decodeWith (gives_decoder _ _ _ (Nat.le_of_eq hlength)) (decoded_of_parse h)

end InboundRequest

/-- A body is read just if it is said to be JSON, is not too long, and starts with a value of the
right form. -/
theorem Payload.read_eq_ok_iff {α : Type} {decoder : Json.Decoder α} {r : HttpRequest} {payload : α} :
    read decoder r = .ok payload ↔ r.isJson = true ∧ r.body.length ≤ bodyLimit ∧
      Json.decodeFrontWith decoder.read (Utf8.glyphs r.body) = .ok payload := by
  unfold read
  cases r.isJson with
  | false => simp
  | true =>
    by_cases hlong : bodyLimit < r.body.length
    · simp [hlong, Nat.not_le_of_lt hlong]
    · rw [if_neg (by simp), if_neg hlong]
      cases Json.decodeFrontWith decoder.read (Utf8.glyphs r.body) with
      | error | ok => simp [Nat.le_of_not_lt hlong]

theorem Payload.of_read {α : Type} {P : Nat → α → Prop} {decoder : Json.Decoder α}
    (h : ∀ n input, input.length ≤ n →
      Json.Yields (Json.Within n (P n)) (decoder.read Json.depthLimit input))
    {r : HttpRequest} {payload : α} (hread : read decoder r = .ok payload) :
    ∃ n ≤ r.body.length, P n payload := by
  obtain ⟨-, -, hok⟩ := Payload.read_eq_ok_iff.mp hread
  exact ⟨_, Utf8.length_glyphs_le r.body, Json.of_decodeFrontWith (h _ _ (Nat.le_refl _)) hok⟩

namespace WriteRequestPayload

theorem preserves_fields (n : Nat) :
    ∀ field ∈ fields, field.Preserves n fun s => Each (Json.Value.Readable n) s.data := by
  simp only [fields, List.forall_mem_cons]
  exact ⟨preserves_field (PrincipalId.gives_decoder n) fun _ _ h _ => h,
    preserves_field gives_value fun _ _ _ readable => Json.each_some readable,
    List.forall_mem_nil _⟩

theorem gives_decoder (n : Nat) : decoder.Gives n fun p => p.data.Readable n := by
  refine gives_record (preserves_fields n) _ Json.each_none fun s p hs hfinish => ?_
  obtain ⟨target, -, hfinish⟩ := Json.of_require hfinish
  obtain rfl := Except.ok.inj hfinish
  exact hs.getD

/-- **The data of a message that asks is in normal form, and no longer than the body.** -/
theorem readable_of_read {r : HttpRequest} {p : WriteRequestPayload}
    (h : Payload.read decoder r = .ok p) : ∃ n ≤ r.body.length, p.data.Readable n :=
  Payload.of_read (P := fun n p => p.data.Readable n) (fun n => gives_decoder n _) h

end WriteRequestPayload

namespace WriteResponsePayload

/-- An answer that is read of a body of at most `n` glyphs. -/
structure Readable (n : Nat) (p : WriteResponsePayload) : Prop where
  answers : p.answers.toList.length ≤ n
  data : p.data.Readable n

/-- What was read of such an answer so far. -/
structure Draft.Readable (n : Nat) (s : Draft) : Prop where
  answers : Each (fun text : String => text.toList.length ≤ n) s.answers
  data : Each (Json.Value.Readable n) s.data

theorem preserves_fields (n : Nat) : ∀ field ∈ fields, field.Preserves n (Draft.Readable n) := by
  simp only [fields, List.forall_mem_cons]
  exact ⟨preserves_field (PrincipalId.gives_decoder n) fun _ _ h _ => ⟨h.answers, h.data⟩,
    preserves_field gives_text fun _ _ h short => ⟨Json.each_some short, h.data⟩,
    preserves_field gives_value fun _ _ h readable => ⟨h.answers, Json.each_some readable⟩,
    List.forall_mem_nil _⟩

theorem gives_decoder (n : Nat) : decoder.Gives n (Readable n) := by
  have hblank : Draft.Readable n ⟨none, none, none⟩ := ⟨Json.each_none, Json.each_none⟩
  refine gives_record (preserves_fields n) _ hblank fun s p hs hfinish => ?_
  obtain ⟨target, -, hfinish⟩ := Json.of_require hfinish
  obtain ⟨answers, hanswers, hfinish⟩ := Json.of_require hfinish
  obtain rfl := Except.ok.inj hfinish
  exact ⟨hs.answers answers hanswers, hs.data.getD⟩

/-- **The data of a message that answers is in normal form, and no longer than the body.** -/
theorem readable_of_read {r : HttpRequest} {p : WriteResponsePayload}
    (h : Payload.read decoder r = .ok p) : ∃ n ≤ r.body.length, p.Readable n :=
  Payload.of_read (fun n => gives_decoder n _) h

end WriteResponsePayload

/-! ### Lengths -/

/-- A text of fewer than `2 ^ 30` characters has a length that can be written. -/
theorem shortText_of_length {s : String} (h : s.toList.length < twoTo 30) :
    MessagePack.ShortText s := by
  have hfour : twoTo 32 = 4 * twoTo 30 := by decide
  have hlength := Utf8.length_encode_le s.toList
  unfold MessagePack.ShortText
  omega

/-- **What is read of fewer than `2 ^ 30` glyphs has lengths that can be written.** -/
theorem Json.Value.Readable.short {n : Nat} (hn : n < twoTo 30) {v : Value} (h : Readable n v) :
    MessagePack.Short v := by
  have hlength {k : Nat} (hk : k ≤ n) : k < twoTo 32 :=
    Nat.lt_of_lt_of_le (Nat.lt_of_le_of_lt hk hn) (twoTo_le (by decide))
  induction h with
  | null => exact .null
  | bool b => exact .bool b
  | num => exact .num _
  | str short => exact .str (shortText_of_length (Nat.lt_of_le_of_lt short hn))
  | arr short _ ih => exact .arr (hlength short) ih
  | obj _ short names _ ih =>
    exact .obj (hlength short)
      (fun member hmember => shortText_of_length (Nat.lt_of_le_of_lt (names member hmember) hn)) ih

/-! ### Depths -/

theorem PrincipalId.deepens_decoder : decoder.Deepens :=
  deepens_map (deepens_map (deepens_integer _ _ _) _) _

/-- What a request says does not depend on how deep its reader goes. -/
theorem InboundRequest.deepens_decoder : decoder.Deepens := by
  refine deepens_record _ ?_ _ _
  simp only [fields, List.forall_mem_cons]
  exact ⟨deepens_field (deepens_choice _), deepens_field deepens_text,
    deepens_field PrincipalId.deepens_decoder, deepens_field deepens_value, List.forall_mem_nil _⟩

/-- What a message that answers says does not depend on how deep its reader goes. -/
theorem WriteResponsePayload.deepens_decoder : decoder.Deepens := by
  refine deepens_record _ ?_ _ _
  simp only [fields, List.forall_mem_cons]
  exact ⟨deepens_field PrincipalId.deepens_decoder, deepens_field deepens_text,
    deepens_field deepens_value, List.forall_mem_nil _⟩

/-! ### Heights -/

/-- The data of a record that is read so far. -/
def Shallow {σ : Type} (data? : σ → Option Json.Value) (depth : Nat) (s : σ) : Prop :=
  Each (fun v : Json.Value => v.height ≤ depth) (data? s)

theorem Shallow.getD {σ : Type} {data? : σ → Option Json.Value} {depth : Nat} {s : σ}
    (h : Shallow data? depth s) : ((data? s).getD .null).height ≤ depth := by
  cases hdata : data? s with
  | none => exact Nat.zero_le _
  | some data => exact h data hdata

theorem yields_shallow {n depth : Nat} (input : Json.Input) (hinput : input.length ≤ n) :
    Json.Yields (Json.Within n fun v => v.height ≤ depth) (Json.Decoder.value.read depth input) :=
  Json.yields_of fun _ _ hread =>
    have h := (Json.readableTo_readValue depth hinput).of_ok hread
    ⟨h.1.height, h.2⟩

namespace InboundRequest

theorem keeps_fields (n depth : Nat) :
    ∀ field ∈ fields, field.Keeps n depth (Shallow Draft.data depth) := by
  simp only [fields, List.forall_mem_cons]
  exact ⟨keeps_field (gives_choice _ depth) fun _ _ h _ => h,
    keeps_field (gives_text depth) fun _ _ h _ => h,
    keeps_field (PrincipalId.gives_decoder n depth) fun _ _ h _ => h,
    keeps_field yields_shallow fun _ _ _ hv => Json.each_some hv, List.forall_mem_nil _⟩

theorem yields_decoder {n : Nat} {input : Json.Input} (hinput : input.length ≤ n) :
    Json.Yields (Json.Within n fun r => r.data.height < Json.depthLimit)
      (decoder.read Json.depthLimit input) := by
  have hblank : Shallow Draft.data 126 ⟨none, none, none, none⟩ := Json.each_none
  refine yields_record (keeps_fields n 126) _ hblank (fun s r hs hfinish => ?_) hinput
  obtain ⟨requestType, -, hfinish⟩ := Json.of_require hfinish
  obtain ⟨messageId, -, hfinish⟩ := Json.of_require hfinish
  obtain ⟨target, -, hfinish⟩ := Json.of_require hfinish
  obtain rfl := Except.ok.inj hfinish
  exact Nat.lt_succ_of_le hs.getD

/-- **The data of a request nests one bracket less deep than the reader goes.** -/
theorem height_of_parse {text : List Char} {r : InboundRequest} (h : parse text = .ok r) :
    r.data.height < Json.depthLimit :=
  Json.of_decodeWith (P := fun r => r.data.height < Json.depthLimit) (yields_decoder (Nat.le_refl _))
    (decoded_of_parse h)

end InboundRequest

namespace WriteRequestPayload

theorem keeps_fields (n depth : Nat) :
    ∀ field ∈ fields, field.Keeps n depth (Shallow Draft.data depth) := by
  simp only [fields, List.forall_mem_cons]
  exact ⟨keeps_field (PrincipalId.gives_decoder n depth) fun _ _ h _ => h,
    keeps_field yields_shallow fun _ _ _ hv => Json.each_some hv, List.forall_mem_nil _⟩

/-- **The data of a message that asks nests one bracket less deep than the reader goes.** -/
theorem height_of_read {r : HttpRequest} {p : WriteRequestPayload}
    (h : Payload.read decoder r = .ok p) : p.data.height < Json.depthLimit := by
  have hblank : Shallow Draft.data 126 ⟨none, none⟩ := Json.each_none
  have hread : ∀ n input, input.length ≤ n →
      Json.Yields (Json.Within n fun p => p.data.height < Json.depthLimit)
        (decoder.read Json.depthLimit input) := by
    intro n input hinput
    refine yields_record (keeps_fields n 126) _ hblank (fun s p hs hfinish => ?_) hinput
    obtain ⟨target, -, hfinish⟩ := Json.of_require hfinish
    obtain rfl := Except.ok.inj hfinish
    exact Nat.lt_succ_of_le hs.getD
  obtain ⟨-, -, hp⟩ := Payload.of_read (P := fun _ p => p.data.height < Json.depthLimit) hread h
  exact hp

end WriteRequestPayload

namespace WriteResponsePayload

theorem keeps_fields (n depth : Nat) :
    ∀ field ∈ fields, field.Keeps n depth (Shallow Draft.data depth) := by
  simp only [fields, List.forall_mem_cons]
  exact ⟨keeps_field (PrincipalId.gives_decoder n depth) fun _ _ h _ => h,
    keeps_field (gives_text depth) fun _ _ h _ => h,
    keeps_field yields_shallow fun _ _ _ hv => Json.each_some hv, List.forall_mem_nil _⟩

theorem yields_decoder {n : Nat} {input : Json.Input} (hinput : input.length ≤ n) :
    Json.Yields (Json.Within n fun p => p.data.height < Json.depthLimit)
      (decoder.read Json.depthLimit input) := by
  have hblank : Shallow Draft.data 126 ⟨none, none, none⟩ := Json.each_none
  refine yields_record (keeps_fields n 126) _ hblank (fun s p hs hfinish => ?_) hinput
  obtain ⟨target, -, hfinish⟩ := Json.of_require hfinish
  obtain ⟨answers, -, hfinish⟩ := Json.of_require hfinish
  obtain rfl := Except.ok.inj hfinish
  exact Nat.lt_succ_of_le hs.getD

/-- **The data of a message that answers nests one bracket less deep than the reader goes.** -/
theorem height_of_read {r : HttpRequest} {p : WriteResponsePayload}
    (h : Payload.read decoder r = .ok p) : p.data.height < Json.depthLimit := by
  obtain ⟨-, -, hp⟩ := Payload.of_read (P := fun _ p => p.data.height < Json.depthLimit)
    (fun _ _ => yields_decoder) h
  exact hp

end WriteResponsePayload

end DeviceRelay

/-
# A frame is read back as it was, but for data that is null

The text of a frame is decoded to the frame itself if it holds no doubles and its data leaves two
brackets to the reader, one for the frame and one for its content. A reply writes that it has no
data as null, so one whose data is null is read as one without. This is all that is lost: frames
of one text differ in nothing else, however deep their data nests.

Key definitions: `Reply.received`, `OutboundFrame.Writable`, `OutboundFrame.received`,
`OutboundFrame.height`.
Key theorems: `Reply.reads_print`, `OutboundFrame.reads_received`,
`OutboundFrame.height_of_received`, `OutboundFrame.parse_text`.
-/
import DeviceRelay.Proofs.Outbound

namespace DeviceRelay

open Json (Entry Reads Folds Blank separated)
open Json.Decoder (takes_field reads_printName reads_printString reads_integer reads_map reads_optional
  gives_text gives_integer gives_map keeps_field yields_record)

/-! ### Replies -/

namespace Reply

variable {r : Reply} {depth : Nat}

/-- The data that is written of a reply. -/
def written (r : Reply) : Json.Value := r.data.getD .null

/-- A reply as it is read: null is no data. -/
def received (r : Reply) : Reply :=
  { r with data := if r.written = .null then none else some r.written }

/-- A reply that can be written: its code has 16 bits, and there are no doubles in it. -/
structure Writable (r : Reply) : Prop where
  code : r.code < twoTo 16
  fits : r.written.Fits
  whole : r.written.Whole

/-- The members of a reply as they are printed. -/
def entries (r : Reply) : List Entry :=
  [.printed "ok" (Json.print (.bool r.ok)),
    .printed "application_status_code" (Json.print (.ofNat r.code)),
    .printed "message" (Json.printString r.message), .printed "data" (Json.print r.written)]

theorem ofText_print (r : Reply) : Glyph.ofText r.print =
    .char '\x7b' :: ([] ++ (separated (r.entries.map (·.whole)) ++ [.char '\x7d'])) :=
  Json.ofText_printFields _

theorem reads_bool (depth : Nat) (b : Bool) :
    Reads (Json.Decoder.bool.read depth) b (Glyph.ofText (Json.print (.bool b))) := by
  intro rest _
  refine ⟨rest, ?_, rfl⟩
  cases b with
  | true => exact congrArg (Except.map fun rest => (true, rest)) (Json.readWord_ofText ['r', 'u', 'e'] rest)
  | false =>
    exact congrArg (Except.map fun rest => (false, rest)) (Json.readWord_ofText ['a', 'l', 's', 'e'] rest)

theorem reads_code (depth : Nat) {code : Nat} (h : code < twoTo 16) :
    Reads (Json.Decoder.shortWord.read depth) code (Glyph.ofText (Json.print (.ofNat code))) := by
  have hword : twoTo 16 ≤ twoTo 64 := twoTo_le (by decide)
  have hnumber : Reads ((Json.Decoder.integer "u16" 0 (twoTo 16 - 1)).read depth) (code : Int)
      (Glyph.ofText (Json.print (.ofNat code))) :=
    reads_integer "u16" ⟨by omega, by omega⟩ (by omega) (by omega)
  exact reads_map hnumber Int.toNat

/-- **A reply is decoded from what is printed of it**, inside one bracket. -/
theorem reads_print (h : r.Writable) (hheight : r.written.height ≤ depth) :
    Reads (decoder.read (depth + 1)) r.received (Glyph.ofText r.print) := by
  have hdata : Reads ((Json.Decoder.optional .value).read depth)
      (if r.written = .null then none else some r.written) (Glyph.ofText (Json.print r.written)) :=
    reads_optional (Json.writes_print h.fits h.whole hheight)
  have hfolds : Folds (Json.Decoder.readMember fields depth) ⟨none, none, none, none⟩ r.entries
      ⟨some r.ok, some r.code, some r.message, some r.received.data⟩ := by
    refine .cons (takes_field rfl rfl (reads_bool depth r.ok)) <|
      .cons (takes_field rfl rfl (reads_code depth h.code)) <|
      .cons (takes_field rfl rfl (reads_printString depth r.message)) <|
      .cons (takes_field rfl rfl hdata) (.nil _)
  rw [ofText_print]
  refine Json.Decoder.reads_record "ResponseFrame" hfolds ?_ (List.forall_mem_nil _)
  rfl

theorem gives_bool (n : Nat) : Json.Decoder.bool.Gives n fun _ => True := by
  intro depth input hinput
  have hrest {c : Char} {rest rest' : Json.Input} {word : List Char}
      (hstart : Json.skipBlank input = .char c :: rest) (hword : Json.readWord word rest = .ok rest') :
      rest'.length ≤ n := by
    have hblank := Json.length_of_skipBlank hstart
    have hlength := Json.length_readWord hword
    omega
  unfold Json.Decoder.bool
  dsimp only
  split
  · rename_i hstart
    exact Json.yields_map_rest fun rest hword => ⟨trivial, hrest hstart hword⟩
  · rename_i hstart
    exact Json.yields_map_rest fun rest hword => ⟨trivial, hrest hstart hword⟩
  · exact Json.yields_error _

/-- Data that may be null is read with as many brackets open as are left. -/
theorem yields_data {n : Nat} (input : Json.Input) (hinput : input.length ≤ n) :
    Json.Yields (Json.Within n fun data : Option Json.Value => (data.getD .null).height ≤ depth)
      ((Json.Decoder.optional .value).read depth input) := by
  unfold Json.Decoder.optional
  dsimp only
  split
  · rename_i hstart
    refine Json.yields_map_rest fun rest hword => ⟨Nat.zero_le _, ?_⟩
    have hblank := Json.length_of_skipBlank hstart
    have hlength := Json.length_readWord hword
    omega
  · have hskipped := Nat.le_trans (Json.length_skipBlank_le input) hinput
    exact (yields_shallow _ hskipped).map fun v rest hv => hv

theorem keeps_fields (n depth : Nat) : ∀ field ∈ fields, field.Keeps n depth
    fun s => ((s.data.getD none).getD .null).height ≤ depth := by
  simp only [fields, List.forall_mem_cons]
  exact ⟨keeps_field (gives_bool n depth) fun _ _ h _ => h,
    keeps_field (gives_map (Q := fun _ => True) (gives_integer _ _ _) (fun _ _ => trivial) depth)
      fun _ _ h _ => h,
    keeps_field (gives_text depth) fun _ _ h _ => h,
    keeps_field yields_data fun _ _ _ hdata => hdata, List.forall_mem_nil _⟩

theorem height_of_read {input rest : Json.Input} (h : decoder.read (depth + 1) input = .ok (r, rest)) :
    r.written.height ≤ depth := by
  have hblank : (((⟨none, none, none, none⟩ : Draft).data.getD none).getD .null).height ≤ depth :=
    Nat.zero_le depth
  have hread : Json.Yields (Json.Within input.length fun r => r.written.height ≤ depth)
      (decoder.read (depth + 1) input) :=
    yields_record (keeps_fields _ depth) _ hblank (fun s r hs hfinish => by
      obtain ⟨ok, -, hfinish⟩ := Json.of_require hfinish
      obtain ⟨code, -, hfinish⟩ := Json.of_require hfinish
      obtain ⟨message, -, hfinish⟩ := Json.of_require hfinish
      obtain rfl := Except.ok.inj hfinish
      exact hs) (Nat.le_refl _)
  exact (hread.of_ok h).1

theorem written_received (r : Reply) : r.received.written = r.written := by
  unfold received
  split
  · rename_i hnull
    exact hnull.symm
  · rfl

end Reply

/-! ### Frames -/

namespace OutboundFrame

/-- A frame that can be written. -/
def Writable : OutboundFrame → Prop
  | .data d => d.Writable
  | .response r => r.Writable

/-- A frame as it is read. -/
def received : OutboundFrame → OutboundFrame
  | .data d => .data d
  | .response r => .response r.received

/-- How deep the data of a frame nests. -/
def height : OutboundFrame → Nat
  | .data d => d.data.height
  | .response r => r.written.height

variable {f g : OutboundFrame} {depth : Nat}

theorem ofText_response (r : Reply) : Glyph.ofText (response r).print =
    .char '\x7b' :: ([] ++ (separated [(Entry.printed "msg_type" (Json.printString "response")).whole,
      (Entry.printed "data" r.print).whole] ++ [.char '\x7d'])) :=
  Json.ofText_printFields _

theorem reads_response_form (depth : Nat) :
    Reads ((Json.Decoder.choice forms).read depth) (Reply.decoder.map response)
      (Entry.printed "msg_type" (Json.printString "response")).text :=
  reads_printName depth rfl

/-- **A frame is decoded as it is received**, inside two brackets. -/
theorem reads_received (h : f.Writable) (hheight : f.height ≤ depth) :
    Reads (Json.Decoder.tagged "OutboundFrame" "msg_type" "data" forms (depth + 2)) f.received
      (Glyph.ofText f.print) := by
  cases f with
  | data d => exact reads_print h hheight
  | response r =>
    have hreply : Reads ((Reply.decoder.map response).read (depth + 1)) (response r.received)
        (Entry.printed "data" r.print).text := reads_map (Reply.reads_print h hheight) response
    have hne : "data" ≠ "msg_type" := by decide
    rw [ofText_response]
    exact Json.Decoder.reads_tagged "OutboundFrame" hne rfl rfl (reads_response_form (depth + 1))
      hreply (List.forall_mem_nil _)

/-- A frame that is decoded from its text leaves two brackets for its data. -/
theorem height_of_received {left : Json.Input}
    (h : Json.Decoder.tagged "OutboundFrame" "msg_type" "data" forms (depth + 2)
      (Glyph.ofText f.print) = .ok (f.received, left)) : f.height ≤ depth := by
  cases f with
  | data d => exact height_of_read h
  | response r =>
    have hne : "data" ≠ "msg_type" := by decide
    have hblank : Blank [] := List.forall_mem_nil _
    rw [ofText_response] at h
    obtain ⟨left, hread⟩ := Json.Decoder.of_tagged
      (.printed "msg_type" (Json.printString "response")) (.printed "data" r.print) rfl rfl hne
      (reads_response_form (depth + 1)) hblank h
    obtain ⟨r', hreply, hsame⟩ := Json.Decoder.of_map hread
    obtain rfl := OutboundFrame.response.inj hsame
    have hheight := Reply.height_of_read hreply
    rw [r.written_received] at hheight
    exact hheight

/-- **What is decoded from the text of a frame**: the frame as it is received, if its data leaves
two brackets, and only then. -/
theorem parse_print_iff (h : f.Writable) : parse f.print = .ok f.received ↔ f.height ≤ 125 := by
  constructor
  · intro hparse
    unfold parse at hparse
    cases hdecode : Json.decodeWith (Json.Decoder.tagged "OutboundFrame" "msg_type" "data" forms)
        (Glyph.ofText f.print) with
    | error report =>
      rw [hdecode] at hparse
      cases hparse
    | ok frame =>
      rw [hdecode] at hparse
      obtain rfl := Except.ok.inj hparse
      obtain ⟨left, hread⟩ := Json.read_of_decodeWith hdecode
      exact height_of_received hread
  · intro hheight
    unfold parse
    rw [Json.decodeWith_of_reads (reads_received h hheight)]
    rfl

/-- **Frames of one text are received as one.** A reader that may go deep enough reads both. -/
theorem received_of_print (hf : f.Writable) (hg : g.Writable) (h : f.print = g.print) :
    f.received = g.received := by
  have hread {k : OutboundFrame} (hk : k.Writable) (hheight : k.height ≤ max f.height g.height) :=
    reads_received hk hheight [] Json.ends_nil
  obtain ⟨left, hleft, -⟩ := hread hf (Nat.le_max_left _ _)
  obtain ⟨right, hright, -⟩ := hread hg (Nat.le_max_right _ _)
  rw [h] at hleft
  exact (Prod.mk.inj (Except.ok.inj (hleft.symm.trans hright))).1

theorem received_of_reply {r r' : Reply} (hr : r.Writable) (hr' : r'.Writable)
    (h : r.text = r'.text) : r.received = r'.received := by
  have hprint : (response r).print = (response r').print :=
    congrArg (fun text => Json.printFields [("msg_type", Json.printString "response"), ("data", text)])
      (String.ofList_injective h)
  exact OutboundFrame.response.inj
    (received_of_print (f := .response r) (g := .response r') hr hr' hprint)

/-- What is received is written in the same way. -/
theorem print_received (f : OutboundFrame) : f.received.print = f.print := by
  cases f with
  | data d => rfl
  | response r =>
    have hreply : r.received.print = r.print := by
      show Json.printFields [_, _, _, ("data", Json.print r.received.written)] = _
      rw [r.written_received]
      rfl
    show Json.printFields [("msg_type", Json.printString "response"), ("data", r.received.print)] = _
    rw [hreply]
    rfl

/-- What is lost of a frame: nothing, but that data that is null counts as none. -/
theorem received_eq_self_iff (f : OutboundFrame) :
    f.received = f ↔ ∀ r, f = .response r → r.data ≠ some .null := by
  cases f with
  | data d =>
    refine ⟨fun _ r hr => ?_, fun _ => rfl⟩
    cases hr
  | response r =>
    obtain ⟨ok, code, message, data⟩ := r
    cases data with
    | none => simp [received, Reply.received, Reply.written]
    | some v =>
      by_cases hv : v = .null
      · simp [received, Reply.received, Reply.written, hv]
      · simp [received, Reply.received, Reply.written, hv]

/-- **A frame is decoded from its text as it is received if its data nests at most 125 brackets
deep**, and only then. Frames of one text, however deep, are received as one. -/
theorem parse_text (hf : f.Writable) (hg : g.Writable) :
    (parse f.text.toList = .ok f.received ↔ f.height ≤ 125) ∧
      (f.text = g.text ↔ f.received = g.received) := by
  constructor
  · unfold text
    rw [String.toList_ofList]
    exact parse_print_iff hf
  · constructor
    · intro htext
      exact received_of_print hf hg (String.ofList_injective htext)
    · intro hreceived
      have hprint : f.print = g.print := by rw [← print_received f, hreceived, print_received g]
      exact congrArg String.ofList hprint

/-- A reply whose data is null is read as one without data, and a delivery of the least second
and the largest number is read as it is. -/
theorem parse_text_of_null :
    let bare : OutboundFrame := .response ⟨true, 65535, "", none⟩
    let null : OutboundFrame := .response ⟨true, 65535, "", some .null⟩
    let widest : OutboundFrame := .data
      ⟨.response, "\x22", .ofNat 0, -(twoTo 63 : Int), .arr [.num (.int (twoTo 64 - 1))]⟩
    parse null.text.toList = .ok bare ∧ null.text = bare.text ∧ null ≠ bare ∧
      parse widest.text.toList = .ok widest ∧ null.text ≠ widest.text := by
  intro bare null widest
  have hbare : bare.Writable := ⟨by decide, .null, .null⟩
  have hnull : null.Writable := ⟨by decide, .null, .null⟩
  have hwidest : widest.Writable := by
    refine ⟨.arr ?_, .arr ?_, by decide, by decide⟩
    · exact List.forall_mem_singleton.mpr (.num ⟨by decide, by decide⟩)
    · exact List.forall_mem_singleton.mpr (.int _)
  have hlow : null.height ≤ 125 := by decide
  have hone : widest.height ≤ 125 := by decide
  refine ⟨(parse_text hnull hbare).1.mpr hlow, (parse_text hnull hbare).2.mpr rfl, by decide,
    (parse_text hwidest hbare).1.mpr hone, fun htext => ?_⟩
  have hsame : null.received = widest.received := (parse_text hnull hwidest).2.mp htext
  cases hsame

end OutboundFrame

end DeviceRelay

/-
# A data frame is decoded if two brackets are left for its data

The data of a request is read inside the bracket of the request. The message that it leads to
keeps it in the queue, and the data frame writes it inside two brackets, those of the frame and
of its content. A reader that may open a fixed number of brackets reads the frame back if this
leaves two for them, and only then. So the data that nests as deep as a request can hold is
queued and sent, but is not decoded from its frame.

Key definitions: `InboundRequest.message`, `InboundRequest.Carried`.
Key theorems: `OutboundFrame.parse_data`, `InboundRequest.carried_of_parse`,
`InboundRequest.deepest_undecoded`.
-/
import DeviceRelay.Proofs.Inbound
import DeviceRelay.Proofs.Json.Decoding
import DeviceRelay.Proofs.Packing
import DeviceRelay.Proofs.Session.Replies

namespace DeviceRelay

open Json (Entry Reads Writes Folds Blank separated)
open Json.Decoder (takes_field reads_printName reads_printString reads_integer reads_map reads_value
  gives_choice gives_text gives_integer keeps_field yields_record)

/-! ### Deliveries -/

theorem PrincipalId.reads_json (depth : Nat) (id : PrincipalId) :
    Reads (PrincipalId.decoder.read depth) id (Glyph.ofText (Json.print id.json)) := by
  have hword : (id.toNat : Int) < (twoTo 64 : Int) := Int.ofNat_lt.mpr id.value.toNat_lt
  have hnonneg : (0 : Int) ≤ id.toNat := Int.natCast_nonneg _
  have hlow : -(twoTo 63 : Int) ≤ id.toNat := by
    have := Int.natCast_nonneg (twoTo 63)
    omega
  have hnumber : Reads ((Json.Decoder.integer "u64" 0 (twoTo 64 - 1)).read depth) (id.toNat : Int)
      (Glyph.ofText (Json.print id.json)) := reads_integer "u64" ⟨hlow, hword⟩ hnonneg (by omega)
  have hread := reads_map (reads_map hnumber Int.toNat) PrincipalId.ofNat
  have hid : PrincipalId.ofNat (id.toNat : Int).toNat = id := by
    rw [Int.toNat_natCast]
    exact congrArg PrincipalId.mk UInt64.ofNat_toNat
  rw [hid] at hread
  exact hread

namespace Delivery

variable {d : Delivery} {depth : Nat}

/-- The members of a delivery as they are printed. -/
def entries (d : Delivery) : List Entry :=
  [.printed "data_type" (Json.printString d.kind.name),
    .printed "request_uuid" (Json.printString d.correlationId),
    .printed "sender_user_id" (Json.print d.sender.json),
    .printed "created_at" (Json.printInt d.createdAt), .printed "data" (Json.print d.data)]

theorem ofText_print (d : Delivery) : Glyph.ofText d.print =
    .char '\x7b' :: ([] ++ (separated (d.entries.map (·.whole)) ++ [.char '\x7d'])) :=
  Json.ofText_printFields _

/-- A delivery that can be written: its numbers have 64 bits, and there are no doubles in it. -/
structure Writable (d : Delivery) : Prop where
  fits : d.data.Fits
  whole : d.data.Whole
  low : -(twoTo 63 : Int) ≤ d.createdAt
  high : d.createdAt < (twoTo 63 : Int)

/-- **A delivery is decoded from what is printed of it**, inside one bracket. -/
theorem reads_print (h : d.Writable) (hheight : d.data.height ≤ depth) :
    Reads (decoder.read (depth + 1)) d (Glyph.ofText d.print) := by
  have hword : (twoTo 63 : Int) ≤ (twoTo 64 : Int) := Int.ofNat_le.mpr (twoTo_le (by decide))
  have hkind : MessageKind.named.lookup d.kind.name = some d.kind := by cases d.kind <;> rfl
  have hstamp : Reads (Json.Decoder.signedWord.read depth) d.createdAt
      (Glyph.ofText (Json.printInt d.createdAt)) :=
    reads_integer "i64" ⟨h.low, Int.lt_of_lt_of_le h.high hword⟩ h.low (Int.le_sub_one_of_lt h.high)
  have hdata : Reads (Json.Decoder.value.read depth) d.data (Glyph.ofText (Json.print d.data)) :=
    reads_value (Json.writes_print h.fits h.whole hheight)
  have hfolds : Folds (Json.Decoder.readMember fields depth) ⟨none, none, none, none, none⟩ d.entries
      ⟨some d.kind, some d.correlationId, some d.sender, some d.createdAt, some d.data⟩ := by
    refine .cons (takes_field rfl rfl (reads_printName depth hkind)) <|
      .cons (takes_field rfl rfl (reads_printString depth d.correlationId)) <|
      .cons (takes_field rfl rfl (PrincipalId.reads_json depth d.sender)) <|
      .cons (takes_field rfl rfl hstamp) <| .cons (takes_field rfl rfl hdata) (.nil _)
  rw [ofText_print]
  refine Json.Decoder.reads_record "DataFrame" hfolds ?_ (List.forall_mem_nil _)
  rfl

theorem keeps_fields (n depth : Nat) :
    ∀ field ∈ fields, field.Keeps n depth (Shallow Draft.data depth) := by
  simp only [fields, List.forall_mem_cons]
  exact ⟨keeps_field (gives_choice _ depth) fun _ _ h _ => h,
    keeps_field (gives_text depth) fun _ _ h _ => h,
    keeps_field (PrincipalId.gives_decoder n depth) fun _ _ h _ => h,
    keeps_field (gives_integer _ _ _ depth) fun _ _ h _ => h,
    keeps_field yields_shallow fun _ _ _ hv => Json.each_some hv, List.forall_mem_nil _⟩

theorem height_of_read {input rest : Json.Input} (h : decoder.read (depth + 1) input = .ok (d, rest)) :
    d.data.height ≤ depth := by
  have hblank : Shallow Draft.data depth ⟨none, none, none, none, none⟩ := Json.each_none
  have hread : Json.Yields (Json.Within input.length fun d => d.data.height ≤ depth)
      (decoder.read (depth + 1) input) :=
    yields_record (keeps_fields _ depth) _ hblank (fun s d hs hfinish => by
      obtain ⟨kind, -, hfinish⟩ := Json.of_require hfinish
      obtain ⟨correlationId, -, hfinish⟩ := Json.of_require hfinish
      obtain ⟨sender, -, hfinish⟩ := Json.of_require hfinish
      obtain ⟨createdAt, -, hfinish⟩ := Json.of_require hfinish
      obtain ⟨data, hdata, hfinish⟩ := Json.of_require hfinish
      obtain rfl := Except.ok.inj hfinish
      exact hs data hdata) (Nat.le_refl _)
  exact (hread.of_ok h).1

end Delivery

/-! ### Data frames -/

namespace OutboundFrame

variable {d : Delivery}

theorem ofText_print (d : Delivery) : Glyph.ofText (data d).print =
    .char '\x7b' :: ([] ++ (separated [(Entry.printed "msg_type" (Json.printString "data")).whole,
      (Entry.printed "data" d.print).whole] ++ [.char '\x7d'])) :=
  Json.ofText_printFields _

theorem reads_form (depth : Nat) :
    Reads ((Json.Decoder.choice forms).read depth) (Delivery.decoder.map data)
      (Entry.printed "msg_type" (Json.printString "data")).text :=
  reads_printName depth rfl

theorem reads_print (h : d.Writable) {depth : Nat} (hheight : d.data.height ≤ depth) :
    Reads (Json.Decoder.tagged "OutboundFrame" "msg_type" "data" forms (depth + 2)) (data d)
      (Glyph.ofText (data d).print) := by
  have hdata : Reads ((Delivery.decoder.map data).read (depth + 1)) (data d)
      (Entry.printed "data" d.print).text := reads_map (Delivery.reads_print h hheight) data
  have hne : "data" ≠ "msg_type" := by decide
  rw [ofText_print]
  exact Json.Decoder.reads_tagged "OutboundFrame" hne rfl rfl (reads_form (depth + 1)) hdata
    (List.forall_mem_nil _)

theorem height_of_read {depth : Nat} {left : Json.Input}
    (h : Json.Decoder.tagged "OutboundFrame" "msg_type" "data" forms (depth + 2)
      (Glyph.ofText (data d).print) = .ok (data d, left)) : d.data.height ≤ depth := by
  have hne : "data" ≠ "msg_type" := by decide
  have hform := reads_form (depth + 1)
  have hblank : Blank [] := List.forall_mem_nil _
  rw [ofText_print] at h
  obtain ⟨left, hread⟩ := Json.Decoder.of_tagged (.printed "msg_type" (Json.printString "data"))
    (.printed "data" d.print) rfl rfl hne hform hblank h
  obtain ⟨d', hdelivery, hsame⟩ := Json.Decoder.of_map hread
  obtain rfl := OutboundFrame.data.inj hsame
  exact Delivery.height_of_read hdelivery

/-- **A data frame is decoded if its data leaves two brackets**, and only then. -/
theorem parse_data (h : d.Writable) :
    parse (data d).print = .ok (data d) ↔ d.data.height + 2 ≤ Json.depthLimit := by
  constructor
  · intro hparse
    unfold parse at hparse
    cases hdecode : Json.decodeWith (Json.Decoder.tagged "OutboundFrame" "msg_type" "data" forms)
        (Glyph.ofText (data d).print) with
    | error report =>
      rw [hdecode] at hparse
      cases hparse
    | ok frame =>
      rw [hdecode] at hparse
      obtain rfl := Except.ok.inj hparse
      obtain ⟨left, hread⟩ := Json.read_of_decodeWith hdecode
      have hheight : d.data.height ≤ 125 := height_of_read hread
      exact Nat.add_le_add_right hheight 2
  · intro hheight
    have hlimit : d.data.height ≤ 125 := Nat.le_of_add_le_add_right hheight
    have hdecode := Json.decodeWith_of_reads (reads_print h hlimit)
    unfold parse
    rw [hdecode]
    rfl

end OutboundFrame

/-! ### From a request to its data frame -/

namespace InboundRequest

/-- The message that a request leads to, of its sender and at its second. -/
def message (r : InboundRequest) (sender : Principal) (wall : Int) : Message :=
  (r.letter sender).message wall

/-- What becomes of the data of a request on its way to the recipient. -/
structure Carried (text : List Char) (r : InboundRequest) (m : Message) : Prop where
  /-- The queue gives the message back as it was. -/
  queued : text.length < twoTo 30 → Message.unpack? m.pack = some m
  /-- The data nests one bracket less deep than the reader of texts goes. -/
  bounded : r.data.height < Json.depthLimit
  /-- The data frame is decoded as it was if this leaves two brackets, and only then. -/
  decoded : OutboundFrame.parse (OutboundFrame.data (.ofMessage m)).print =
    .ok (.data (.ofMessage m)) ↔ r.data.height + 2 ≤ Json.depthLimit

/-- **What a client is allowed to send passes through the queue, and is decoded from its data
frame but for the deepest data.** -/
theorem carried_of_parse {text : List Char} {r : InboundRequest} (h : parse text = .ok r)
    (whole : r.data.Whole) (sender : Principal) {wall : Int} (hlow : -(twoTo 63 : Int) ≤ wall)
    (hhigh : wall < (twoTo 63 : Int)) : Carried text r (r.message sender wall) := by
  have readable := readable_of_parse h
  have hbounded := height_of_parse h
  refine ⟨fun htext => ?_, hbounded, ?_⟩
  case refine_1 =>
    have short : (r.message sender wall).Short :=
      ⟨shortText_of_length (Nat.lt_of_le_of_lt readable.messageId htext), readable.data.short htext⟩
    have hshallow : r.data.height < MessagePack.depthLimit := Nat.lt_trans hbounded (by decide)
    have sendable : (r.message sender wall).Sendable :=
      ⟨readable.data.fits, short, hshallow, hlow, hhigh⟩
    exact sendable.unpack?_pack
  case refine_2 =>
    have writable : (Delivery.ofMessage (r.message sender wall)).Writable :=
      ⟨readable.data.fits, whole, hlow, hhigh⟩
    exact OutboundFrame.parse_data writable

/-- A list in a list, and so on, around an empty list. -/
def stacked : Nat → Json.Value
  | 0 => .arr []
  | n + 1 => .arr [stacked n]

theorem whole_stacked (n : Nat) : (stacked n).Whole := by
  induction n with
  | zero => exact .arr (List.forall_mem_nil _)
  | succ n ih => exact .arr (List.forall_mem_singleton.mpr ih)

theorem fits_stacked (n : Nat) : (stacked n).Fits := by
  induction n with
  | zero => exact .arr (List.forall_mem_nil _)
  | succ n ih => exact .arr (List.forall_mem_singleton.mpr ih)

/-- A request whose data has 125 brackets is decoded from its data frame. -/
theorem carried_of_stacked :
    let alice : Principal := ⟨.ofNat 1, "alice", false⟩
    let r : InboundRequest := ⟨.enqueueRequest, "m1", .ofNat 2, stacked 124⟩
    parse r.print = .ok r ∧ Carried r.print r (r.message alice 1700000000) ∧
      r.data.height + 2 = Json.depthLimit := by
  intro alice r
  have haccepted : (parse r.print).toOption = some r := by decide +kernel
  have hparse : parse r.print = .ok r := by
    cases hread : parse r.print with
    | error e =>
      rw [hread] at haccepted
      cases haccepted
    | ok other =>
      rw [hread] at haccepted
      rw [Option.some.inj haccepted]
  exact ⟨hparse, carried_of_parse hparse (whole_stacked 124) alice (by decide) (by decide),
    by decide +kernel⟩

/-- **A request whose data has 126 brackets is not decoded from its data frame**, though it is
accepted, and its message passes through the queue. -/
theorem deepest_undecoded :
    let alice : Principal := ⟨.ofNat 1, "alice", false⟩
    let r : InboundRequest := ⟨.enqueueRequest, "m1", .ofNat 2, stacked 125⟩
    let m := r.message alice 1700000000
    (parse r.print).toOption = some r ∧ r.data.Whole ∧ Message.unpack? m.pack = some m ∧
      (OutboundFrame.parse (OutboundFrame.data (.ofMessage m)).print).toOption = none := by
  intro alice r m
  exact ⟨by decide +kernel, whole_stacked 125, by decide +kernel, by decide +kernel⟩

end InboundRequest

end DeviceRelay

/-
# A packed message is read back

A message is packed as a map of its six fields, and each field is read back from its own
item. So what is read of a packed message is the message, as far as its time fits a signed
word; and whatever is read of it has the kind, the correlation text, the sender, the
recipient and the data that were packed.

Key definitions: `Message.Short`, `Message.Sendable`.
Key theorems: `Message.unpack?_pack_eq`, `Message.unpack?_pack`, `Message.of_unpack?_pack`.
-/
import DeviceRelay.Message
import DeviceRelay.Proofs.MessagePack.RoundTrip

namespace DeviceRelay
namespace Message

open MessagePack (Item ShortText itemOf textItem membersOf intItem)

/-- A message whose lengths can be written. -/
structure Short (m : Message) : Prop where
  correlationId : ShortText m.correlationId
  data : MessagePack.Short m.data

theorem Short.fields {m : Message} (short : m.Short) :
    (∀ field ∈ m.fields, ShortText field.1) ∧ ∀ field ∈ m.fields, MessagePack.Short field.2 := by
  have hkind : ShortText m.kind.name := by cases m.kind <;> decide
  constructor
  · have hnames : ∀ name ∈ fieldNames, ShortText name := by decide
    intro field hfield
    refine hnames field.1 ?_
    exact List.mem_map_of_mem (f := Prod.fst) hfield
  · simp only [Message.fields, List.forall_mem_cons]
    exact ⟨.str hkind, .str short.correlationId, .num _, .num _, .num _, short.data,
      List.forall_mem_nil _⟩

theorem heightMembers_fields (m : Message) : Json.Value.heightMembers m.fields = m.data.height := by
  simp [fields, Json.Value.heightMembers, Json.Value.height, PrincipalId.json, Json.Value.ofNat]

/-- The bytes of a message are read as the map of its fields. -/
theorem read_pack {m : Message} (short : m.Short) :
    MessagePack.read MessagePack.depthLimit m.pack =
      if m.data.height ≤ 1022 then some (.map (membersOf m.fields), []) else none := by
  obtain ⟨hnames, hvalues⟩ := short.fields
  have hread := MessagePack.readMany_writeMembers hnames
    (fun field hfield => MessagePack.read_write (hvalues field hfield)) 1022 []
  have hcount : m.fields.length < twoTo 32 := (by decide : 6 < twoTo 32)
  obtain ⟨hopen, -⟩ := MessagePack.read_mapMarker hcount (MessagePack.writeMembers m.fields)
  rw [List.append_nil, heightMembers_fields] at hread
  unfold pack MessagePack.depthLimit
  rw [hopen 1022, hread]
  split <;> rfl

/-! ### Fields -/

theorem kind?_textItem (kind : MessageKind) : kind? (textItem kind.name) = some kind := by
  unfold kind? textItem
  dsimp only
  rw [MessagePack.text?_encode]
  cases kind <;> rfl

theorem toText?_textItem (s : String) : (textItem s).toText? = some s := MessagePack.text?_encode s

theorem principal?_itemOf (id : PrincipalId) : principal? (itemOf id.json) = some id := by
  have hint : (itemOf id.json).toInt? = some (id.toNat : Int) :=
    MessagePack.toInt?_intItem (by omega) (Int.ofNat_lt.mpr id.value.toNat_lt)
  unfold principal?
  rw [hint, Option.bind_some, if_pos (Int.natCast_nonneg _), Int.toNat_natCast]
  exact congrArg (fun value => some (PrincipalId.mk value)) UInt64.ofNat_toNat

theorem putMembers_textItem (draft : Draft) (name : String) (item : Item)
    (rest : List (Item × Item)) : draft.putMembers ((textItem name, item) :: rest) =
      (draft.put (fieldNames.idxOf name) item).bind fun draft => draft.putMembers rest := by
  have hfield : fieldNumber? (textItem name) = some (fieldNames.idxOf name) := by
    unfold fieldNumber? textItem
    dsimp only
    rw [MessagePack.text?_encode]
  rw [Draft.putMembers, hfield]
  rfl

/-- The map of the fields stands for the message, but for a time that is no signed word. -/
theorem ofItem?_fields {m : Message} (fits : m.data.Fits) :
    ofItem? (.map (membersOf m.fields)) =
      (stamp? (intItem m.createdAt)).map fun createdAt => { m with createdAt } := by
  have hdata : (itemOf m.data).toValue? = some m.data := MessagePack.toValue?_itemOf fits
  have h0 : fieldNames.idxOf "kind" = 0 := by decide
  have h1 : fieldNames.idxOf "correlation_id" = 1 := by decide
  have h2 : fieldNames.idxOf "sender_id" = 2 := by decide
  have h3 : fieldNames.idxOf "recipient_id" = 3 := by decide
  have h4 : fieldNames.idxOf "created_at" = 4 := by decide
  have h5 : fieldNames.idxOf "data" = 5 := by decide
  simp only [ofItem?, fields, membersOf, itemOf, putMembers_textItem, h0, h1, h2, h3, h4, h5,
    Draft.put, Draft.blank, Option.isSome_none, Bool.false_eq_true, if_false, kind?_textItem, toText?_textItem,
    principal?_itemOf, hdata, Option.map_some, Option.bind_some]
  cases stamp? (intItem m.createdAt) <;> rfl

/-! ### The whole message -/

/-- **What is read of a packed message** whose brackets nest no deeper than the reader goes. -/
theorem unpack?_pack_eq {m : Message} (fits : m.data.Fits) (short : m.Short) :
    unpack? m.pack = if m.data.height ≤ 1022 then
      (stamp? (intItem m.createdAt)).map fun createdAt => { m with createdAt } else none := by
  unfold unpack?
  rw [read_pack short]
  split
  · exact ofItem?_fields fits
  · rfl

/-- **A packed message is read back.** -/
theorem unpack?_pack {m : Message} (fits : m.data.Fits) (short : m.Short)
    (hheight : m.data.height ≤ 1022) (hlow : -(twoTo 63 : Int) ≤ m.createdAt)
    (hhigh : m.createdAt < (twoTo 63 : Int)) : unpack? m.pack = some m := by
  have hword : (twoTo 63 : Int) ≤ (twoTo 64 : Int) := Int.ofNat_le.mpr (twoTo_le (by decide))
  have hstamp : stamp? (intItem m.createdAt) = some m.createdAt := by
    unfold stamp?
    rw [MessagePack.toInt?_intItem hlow (Int.lt_of_lt_of_le hhigh hword), Option.bind_some,
      if_pos hhigh]
  rw [unpack?_pack_eq fits short, if_pos hheight, hstamp]
  rfl

/-- A message that the packed form keeps: its numbers have 64 bits, its lengths have 32, its time
is a signed word, and its brackets nest less deep than the reader of bytes goes, which is eight
times as deep as the reader of texts. -/
structure Sendable (m : Message) : Prop where
  fits : m.data.Fits
  short : m.Short
  shallow : m.data.height < MessagePack.depthLimit
  low : -(twoTo 63 : Int) ≤ m.createdAt
  high : m.createdAt < (twoTo 63 : Int)

theorem Sendable.unpack?_pack {m : Message} (h : m.Sendable) : unpack? m.pack = some m :=
  Message.unpack?_pack h.fits h.short (Nat.le_of_lt_succ h.shallow) h.low h.high

/-- **Whatever is read of a packed message is this message**, at whatever time. -/
theorem of_unpack?_pack {m n : Message} (fits : m.data.Fits) (short : m.Short)
    (h : unpack? m.pack = some n) : n = { m with createdAt := n.createdAt } := by
  rw [unpack?_pack_eq fits short] at h
  obtain ⟨-, h⟩ := Option.ite_none_right_eq_some.mp h
  obtain ⟨createdAt, -, rfl⟩ := Option.map_eq_some_iff.mp h
  rfl

end Message
end DeviceRelay

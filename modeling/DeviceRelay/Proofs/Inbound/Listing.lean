/-
# A request is read from every text that lists it

The members of an object may come in any order, each string of theirs in any spelling, with
members of other names between them, and data that is null may be left out. Of whatever text
lists a request so, the request is read, unless its message is named by white space. What is
printed of the request is such a text if its data leaves one bracket, that of the request. An
object that has a field twice is refused, whatever it holds besides.

Key definitions: `Json.Encloses`, `InboundRequest.Listed`, `InboundRequest.gathered`.
Key theorems: `InboundRequest.reads_listed`, `InboundRequest.parse_twice`,
`InboundRequest.parse_listed`.
-/
import DeviceRelay.Proofs.Json.Repeats
import DeviceRelay.Proofs.Outbound

namespace DeviceRelay

open Json (Entry Member Reads Writes Folds Blank Plain Formed Stops Ends Spells separated)
open Json.Decoder (takes_field takes_plain reads_choice reads_text reads_value Firm firm_map
  firm_value firm_text firm_integer firm_choice stops_field put_of_field)

namespace Json

/-- A text is an object with such members, and white space around it. -/
def Encloses (text : List Char) (members : List Input) : Prop :=
  ∃ before inside after, Blank before ∧ Blank inside ∧ Blank after ∧ Glyph.ofText text =
    before ++ ((.char '\x7b' :: (inside ++ (separated members ++ [.char '\x7d']))) ++ after)

variable {depth : Nat} {t : Input}

theorem spelled_of_writes {s : String} (h : Writes depth (.str s) t) :
    ∃ before w after, Blank before ∧ Spells s.toList w ∧ Blank after ∧
      t = before ++ ((.char '"' :: (Glyph.ofText w ++ [.char '"'])) ++ after) := by
  generalize hv : Value.str s = v at h
  induction h with
  | null | yes | no | int | arr | obj => cases hv
  | @str _ s w spells =>
    obtain rfl := Value.str.inj hv
    exact ⟨[], w, [], List.forall_mem_nil _, spells, List.forall_mem_nil _, by simp⟩
  | @padded _ v before t after blankBefore _ blankAfter ih =>
    obtain ⟨before', w, after', hbefore, spells, hafter, rfl⟩ := ih hv
    refine ⟨before ++ before', w, after' ++ after, ?_, spells, ?_, by simp⟩
    · exact List.forall_mem_append.mpr ⟨blankBefore, hbefore⟩
    · exact List.forall_mem_append.mpr ⟨hafter, blankAfter⟩

theorem digits_of_writes {n : Int} (h : Writes depth (.num (.int n)) t) :
    ∃ before after, Blank before ∧ Blank after ∧ t = before ++ (Glyph.ofText (printInt n) ++ after) := by
  generalize hv : Value.num (.int n) = v at h
  induction h with
  | null | yes | no | str | arr | obj => cases hv
  | int =>
    obtain rfl := Number.int.inj (Value.num.inj hv)
    exact ⟨[], [], List.forall_mem_nil _, List.forall_mem_nil _, by simp⟩
  | @padded _ v before t after blankBefore _ blankAfter ih =>
    obtain ⟨before', after', hbefore, hafter, rfl⟩ := ih hv
    refine ⟨before ++ before', after' ++ after, ?_, ?_, by simp⟩
    · exact List.forall_mem_append.mpr ⟨blankBefore, hbefore⟩
    · exact List.forall_mem_append.mpr ⟨hafter, blankAfter⟩

namespace Decoder

theorem unspaced_text (depth : Nat) : Unspaced (text.read depth) := fun _ _ h => by
  unfold text
  dsimp only
  rw [h]

theorem unspaced_integer (expected : String) (low high : Int) (depth : Nat) :
    Unspaced ((integer expected low high).read depth) := fun _ _ h => by
  unfold integer
  dsimp only
  rw [h]

theorem unspaced_choice {α : Type} (known : List (String × α)) (depth : Nat) :
    Unspaced ((choice known).read depth) := fun _ _ h => by
  unfold choice
  dsimp only
  rw [h]

theorem unspaced_map {α β : Type} {d : Decoder α} (h : Unspaced (d.read depth)) (f : α → β) :
    Unspaced ((d.map f).read depth) := fun input other hsame => by
  unfold map refine
  dsimp only
  rw [h input other hsame]

theorem unspaced_record {α σ : Type} (name : String) (fields : List (Field σ)) (blank : σ)
    (finish : σ → Except Cause α) (depth : Nat) :
    Unspaced ((record name fields blank finish).read depth) := fun _ _ h => by
  unfold record
  dsimp only
  rw [h]

theorem reads_text_of_writes {s : String} (h : Writes depth (.str s) t) (d : Nat) :
    Reads (text.read d) s t := by
  obtain ⟨before, w, after, hbefore, spells, hafter, rfl⟩ := spelled_of_writes h
  exact (reads_text spells).padded (unspaced_text d) hbefore hafter

theorem reads_choice_of_writes {α : Type} {known : List (String × α)} {name : String} {a : α}
    (hknown : known.lookup name = some a) (h : Writes depth (.str name) t) (d : Nat) :
    Reads ((choice known).read d) a t := by
  obtain ⟨before, w, after, hbefore, spells, hafter, rfl⟩ := spelled_of_writes h
  exact (reads_choice hknown spells).padded (unspaced_choice known d) hbefore hafter

end Decoder
end Json

theorem PrincipalId.reads_of_writes {depth : Nat} {t : Json.Input} {id : PrincipalId}
    (h : Writes depth id.json t) (d : Nat) : Reads (PrincipalId.decoder.read d) id t := by
  obtain ⟨before, after, hbefore, hafter, rfl⟩ := Json.digits_of_writes h
  have unspaced : Json.Unspaced (PrincipalId.decoder.read d) :=
    Json.Decoder.unspaced_map (Json.Decoder.unspaced_map (Json.Decoder.unspaced_integer _ _ _ d) _) _
  exact (PrincipalId.reads_json d id).padded unspaced hbefore hafter

theorem PrincipalId.writes_print (depth : Nat) (id : PrincipalId) :
    Writes depth id.json (Glyph.ofText (Json.print id.json)) := by
  have hword : (id.toNat : Int) < (twoTo 64 : Int) := Int.ofNat_lt.mpr id.value.toNat_lt
  have hsmall : (0 : Int) ≤ (twoTo 63 : Int) := Int.natCast_nonneg _
  have hid : (0 : Int) ≤ id.toNat := Int.natCast_nonneg _
  have fits : (Json.Number.int id.toNat).Fits := ⟨by omega, hword⟩
  exact Json.writes_print (.num fits) (.int _) (Nat.zero_le depth)

namespace InboundRequest

def members (r : InboundRequest) : List (String × Json.Value) :=
  [("request_type", .str r.requestType.name), ("message_id", .str r.messageId),
    ("target_user_id", r.target.json), ("data", r.data)]

/-- The names of the fields of a request. -/
def names : List String := fields.map (·.name)

/-- The members of a text list a request, whose data nests at most 126 brackets deep. -/
structure Listed (r : InboundRequest) (entries : List Entry) : Prop where
  writes : ∀ e ∈ entries, ∀ v, (e.name, v) ∈ r.members → Writes 126 v e.text
  plain : ∀ e ∈ entries, e.name ∉ names → Plain e.text
  once : entries.Pairwise fun e e' => e.name = e'.name → e.name ∉ names
  listed : ∀ name ∈ names, (∃ e ∈ entries, e.name = name) ∨ name = "data" ∧ r.data = .null

/-- What was read of a request once these members were. -/
def gathered (r : InboundRequest) (seen : List String) : Draft where
  requestType := if "request_type" ∈ seen then some r.requestType else none
  messageId := if "message_id" ∈ seen then some r.messageId else none
  target := if "target_user_id" ∈ seen then some r.target else none
  data := if "data" ∈ seen then some r.data else none

variable {r : InboundRequest} {e : Entry} {entries : List Entry} {seen : List String} {text : List Char}

theorem find?_none (h : e.name ∉ names) : fields.find? (·.name == e.name) = none := by
  rw [List.find?_eq_none]
  intro field hfield
  have hne : field.name ≠ e.name := fun heq => h (heq ▸ List.mem_map_of_mem hfield)
  simpa using hne

theorem takes_named {β : Type} {name : String} (hname : e.name = name) {d : Json.Decoder β}
    {get : Draft → Option β} {put : Draft → β → Draft} {mayBeLeftOut : Bool} {s : Draft} {b : β}
    (hfind : fields.find? (·.name == name) = some (.of name d get put mayBeLeftOut))
    (hunset : get s = none) (hread : Reads (d.read 126) b e.text) :
    Reads (Json.Decoder.readMember fields 126 e.name s) (put s b) e.tail := by
  subst hname
  exact takes_field hfind hunset hread

theorem takes_entry (hwrites : ∀ v, (e.name, v) ∈ r.members → Writes 126 v e.text)
    (hplain : e.name ∉ names → Plain e.text) (hnew : e.name ∈ names → e.name ∉ seen) :
    Reads (Json.Decoder.readMember fields 126 e.name (r.gathered seen)) (r.gathered (e.name :: seen))
      e.tail := by
  by_cases hknown : e.name ∈ names
  · have hnew := hnew hknown
    have hnames : e.name = "request_type" ∨ e.name = "message_id" ∨ e.name = "target_user_id" ∨
        e.name = "data" := by simpa [names, fields, Json.Field.of] using hknown
    rcases hnames with hname | hname | hname | hname
    · have hlookup : RequestType.named.lookup r.requestType.name = some r.requestType := by
        cases r.requestType <;> rfl
      have hread := Json.Decoder.reads_choice_of_writes hlookup
        (hwrites (.str r.requestType.name) (by simp [hname, members])) 126
      have hunset : (r.gathered seen).requestType = none := if_neg (hname ▸ hnew)
      have hput : r.gathered (e.name :: seen) =
          { r.gathered seen with requestType := some r.requestType } := by simp [gathered, hname]
      rw [hput]
      exact takes_named hname rfl hunset hread
    · have hread := Json.Decoder.reads_text_of_writes
        (hwrites (.str r.messageId) (by simp [hname, members])) 126
      have hunset : (r.gathered seen).messageId = none := if_neg (hname ▸ hnew)
      have hput : r.gathered (e.name :: seen) =
          { r.gathered seen with messageId := some r.messageId } := by simp [gathered, hname]
      rw [hput]
      exact takes_named hname rfl hunset hread
    · have hread := PrincipalId.reads_of_writes
        (hwrites r.target.json (by simp [hname, members])) 126
      have hunset : (r.gathered seen).target = none := if_neg (hname ▸ hnew)
      have hput : r.gathered (e.name :: seen) =
          { r.gathered seen with target := some r.target } := by simp [gathered, hname]
      rw [hput]
      exact takes_named hname rfl hunset hread
    · have hread := reads_value (hwrites r.data (by simp [hname, members]))
      have hunset : (r.gathered seen).data = none := if_neg (hname ▸ hnew)
      have hput : r.gathered (e.name :: seen) = { r.gathered seen with data := some r.data } := by
        simp [gathered, hname]
      rw [hput]
      exact takes_named hname rfl hunset hread
  · have hsame : r.gathered (e.name :: seen) = r.gathered seen := by
      have hnames : e.name ≠ "request_type" ∧ e.name ≠ "message_id" ∧ e.name ≠ "target_user_id" ∧
          e.name ≠ "data" := by simpa [names, fields, Json.Field.of] using hknown
      obtain ⟨htype, hid, htarget, hdata⟩ := hnames
      simp [gathered, htype.symm, hid.symm, htarget.symm, hdata.symm]
    rw [hsame]
    exact takes_plain (find?_none hknown) (hplain hknown)

/-- The members of a text that lists a request are taken one by one. -/
theorem folds_entries (hwrites : ∀ e ∈ entries, ∀ v, (e.name, v) ∈ r.members → Writes 126 v e.text)
    (hplain : ∀ e ∈ entries, e.name ∉ names → Plain e.text)
    (honce : entries.Pairwise fun e e' => e.name = e'.name → e.name ∉ names)
    (hnew : ∀ e ∈ entries, e.name ∈ names → e.name ∉ seen) :
    Folds (Json.Decoder.readMember fields 126) (r.gathered seen) entries
      (r.gathered ((entries.map (·.name)).reverse ++ seen)) := by
  induction entries generalizing seen with
  | nil => exact .nil _
  | cons e entries ih =>
    obtain ⟨hwrite, hwrites⟩ := List.forall_mem_cons.mp hwrites
    obtain ⟨hextra, hplain⟩ := List.forall_mem_cons.mp hplain
    obtain ⟨hfirst, honce⟩ := List.pairwise_cons.mp honce
    obtain ⟨hfresh, hnew⟩ := List.forall_mem_cons.mp hnew
    rw [List.map_cons, List.reverse_cons, List.append_assoc, List.singleton_append]
    refine .cons (takes_entry hwrite hextra hfresh) (ih hwrites hplain honce fun e' he' hknown => ?_)
    intro hseen
    obtain heq | hseen := List.mem_cons.mp hseen
    · exact hfirst e' he' heq.symm (heq ▸ hknown)
    · exact hnew e' he' hknown hseen

/-- **A request is read from every text that lists it**, whose data leaves one bracket. -/
theorem reads_listed (h : r.Listed entries) {inside : Json.Input} (blank : Blank inside) :
    Reads (decoder.read 127) r
      (.char '\x7b' :: (inside ++ (separated (entries.map (·.whole)) ++ [.char '\x7d']))) := by
  have hfolds : Folds _ (r.gathered []) entries _ :=
    folds_entries h.writes h.plain h.once fun _ _ _ => List.not_mem_nil
  have hblank : r.gathered [] = ⟨none, none, none, none⟩ := by simp [gathered]
  rw [hblank] at hfolds
  refine Json.Decoder.reads_record "InboundRequest" hfolds ?_ blank
  have hseen (name : String) (hname : name ∈ names) :
      name ∈ (entries.map (·.name)).reverse ++ [] ∨ name = "data" ∧ r.data = .null := by
    obtain ⟨e, he, rfl⟩ | hleft := h.listed name hname
    · exact .inl (by simpa using ⟨e, he, rfl⟩)
    · exact .inr hleft
  generalize (entries.map (·.name)).reverse ++ [] = seen at hseen ⊢
  have hmust {name : String} (hname : name ∈ names) (hdata : name ≠ "data") : name ∈ seen :=
    (hseen name hname).resolve_right fun hleft => hdata hleft.1
  have htype : (r.gathered seen).requestType = some r.requestType := if_pos (hmust (by decide) (by decide))
  have hid : (r.gathered seen).messageId = some r.messageId := if_pos (hmust (by decide) (by decide))
  have htarget : (r.gathered seen).target = some r.target := if_pos (hmust (by decide) (by decide))
  have hdata : (r.gathered seen).data.getD .null = r.data := by
    obtain hdata | ⟨-, hnull⟩ := hseen "data" (by decide)
    · have hsome : (r.gathered seen).data = some r.data := if_pos hdata
      rw [hsome]
      rfl
    · by_cases hdata : "data" ∈ seen <;> simp [gathered, hdata, hnull]
  rw [htype, hid, htarget, hdata]
  rfl

/-! ### Repeated fields -/

/-- The fields of a request stop behind their values, and each is set once. -/
theorem exclusive_fields (depth : Nat) : Json.Decoder.Exclusive fields depth where
  stops := by
    have hid : PrincipalId.decoder.Firm depth :=
      firm_map (firm_map (firm_integer _ _ _ depth) _) _
    simp only [fields, List.forall_mem_cons]
    exact ⟨stops_field (firm_choice _ depth), stops_field (firm_text depth), stops_field hid,
      stops_field (firm_value depth), List.forall_mem_nil _⟩
  sets := by
    simp only [fields, List.forall_mem_cons]
    refine ⟨?_, ?_, ?_, ?_, List.forall_mem_nil _⟩ <;> intro s input u left hread <;>
      obtain ⟨b, rfl⟩ := put_of_field hread <;> rfl
  keeps := by
    simp only [fields, List.forall_mem_cons]
    refine ⟨?_, ?_, ?_, ?_, List.forall_mem_nil _⟩ <;>
      refine ⟨?_, ?_, ?_, ?_, List.forall_mem_nil _⟩ <;> intro s input u left hread hset <;>
      obtain ⟨b, rfl⟩ := put_of_field hread <;> first | exact hset | rfl

/-- **An object that has a field twice is refused**, whatever its members hold. -/
theorem parse_twice {members : List Member} (h : Json.Encloses text (members.map (·.whole)))
    (inner : ∀ m ∈ members, Formed m.text) {name : String} (hname : name ∈ names) {first second : Member}
    (htwice : [first, second].Sublist members) (hfirst : first.Named name) (hsecond : second.Named name) :
    ∃ report, parse text = .error (.frame report) := by
  obtain ⟨before, inside, after, hbefore, hinside, -, htext⟩ := h
  unfold parse
  cases hdecode : Json.decodeWith decoder.read (Glyph.ofText text) with
  | error report => exact ⟨report, rfl⟩
  | ok r =>
    obtain ⟨field, hfield, hsame⟩ := List.mem_map.mp hname
    have hsome : (fields.find? (·.name == name)).isSome := List.find?_isSome.mpr ⟨field, hfield, by simp [hsame]⟩
    obtain ⟨field, hfind⟩ := Option.isSome_iff_exists.mp hsome
    obtain ⟨left, hread⟩ := Json.read_of_decodeWith hdecode
    have hstart : Json.skipBlank (Glyph.ofText text) = .char '\x7b' :: (inside ++
        (separated (members.map (·.whole)) ++ .char '\x7d' :: after)) := by
      rw [htext, Json.skipBlank_append hbefore]
      simp only [List.cons_append, List.append_assoc, List.nil_append]
      exact Json.skipBlank_of_mark (by decide) _
    have honce := Json.Decoder.once_of_read (exclusive_fields 126) hfind hinside inner hstart hread
    exact absurd ⟨hfirst, hsecond⟩ (List.pairwise_iff_forall_sublist.mp honce htwice)

/-! ### Texts -/

/-- A request is decoded from every text that lists it, and accepted if its message is named. -/
theorem parse_of_listed (h : Json.Encloses text (entries.map (·.whole))) (hlisted : r.Listed entries) :
    parse text = if Text.isAllBlank r.messageId.toList then
      .error (.invalidData "message_id must not be empty") else .ok r := by
  obtain ⟨before, inside, after, hbefore, hinside, hafter, htext⟩ := h
  have unspaced : Json.Unspaced (decoder.read Json.depthLimit) := Json.Decoder.unspaced_record _ _ _ _ _
  have hread : Reads (decoder.read Json.depthLimit) r (Glyph.ofText text) :=
    htext ▸ (reads_listed hlisted hinside).padded unspaced hbefore hafter
  unfold parse
  rw [Json.decodeWith_of_reads hread]

/-- The members of a request as they are printed. -/
def printed (r : InboundRequest) : List Entry :=
  [.printed "request_type" (Json.printString r.requestType.name),
    .printed "message_id" (Json.printString r.messageId),
    .printed "target_user_id" (Json.print r.target.json), .printed "data" (Json.print r.data)]

theorem encloses_print (r : InboundRequest) : Json.Encloses r.print (r.printed.map (·.whole)) := by
  have hblank : Blank [] := List.forall_mem_nil _
  refine ⟨[], [], [], hblank, hblank, hblank, ?_⟩
  rw [List.append_nil]
  exact Json.ofText_printFields _

theorem listed_printed (fits : r.data.Fits) (whole : r.data.Whole) (hheight : r.data.height ≤ 126) :
    r.Listed r.printed where
  writes := by
    have hflat : 0 ≤ 126 := Nat.zero_le 126
    simp only [printed, List.forall_mem_cons]
    refine ⟨fun v hv => ?_, fun v hv => ?_, fun v hv => ?_, fun v hv => ?_, List.forall_mem_nil _⟩
    · obtain rfl : v = .str r.requestType.name := by simpa [members, Entry.printed] using hv
      exact Json.writes_print (.str _) (.str _) hflat
    · obtain rfl : v = .str r.messageId := by simpa [members, Entry.printed] using hv
      exact Json.writes_print (.str _) (.str _) hflat
    · obtain rfl : v = r.target.json := by simpa [members, Entry.printed] using hv
      exact PrincipalId.writes_print 126 r.target
    · obtain rfl : v = r.data := by simpa [members, Entry.printed] using hv
      exact Json.writes_print fits whole hheight
  plain := by
    simp [printed, names, fields, Json.Field.of, Entry.printed]
  once := by
    simp [printed, Entry.printed]
  listed := by
    simp [printed, names, fields, Json.Field.of, Entry.printed]

theorem named_of_parse (h : parse text = .ok r) : Text.isAllBlank r.messageId.toList = false := by
  unfold parse at h
  split at h
  · cases h
  · split at h
    · cases h
    · rename_i hnamed
      obtain rfl := Except.ok.inj h
      simpa using hnamed

/-- **A request is read from every text that lists it**, whatever the order of its members, their
white space and their spelling, and from what is printed of it exactly if it can be read at all:
if its message is named, and its data nests at most 126 brackets deep. White space is refused as
the name of a message, and an object that has a field twice is refused as a frame. -/
theorem parse_listed (r : InboundRequest) :
    (∀ text entries, Json.Encloses text (entries.map Entry.whole) → r.Listed entries →
      parse text = if Text.isAllBlank r.messageId.toList then
        .error (.invalidData "message_id must not be empty") else .ok r) ∧
    (r.data.Fits → r.data.Whole → (parse r.print = .ok r ↔
      Text.isAllBlank r.messageId.toList = false ∧ r.data.height ≤ 126)) ∧
    ∀ text members name first second, Json.Encloses text (members.map Member.whole) →
      (∀ m ∈ members, Formed m.text) → name ∈ names → [first, second].Sublist members →
      first.Named name → second.Named name → ∃ report, parse text = .error (.frame report) := by
  refine ⟨fun text entries => parse_of_listed, fun fits whole => ⟨fun h => ?_, fun ⟨hnamed, hheight⟩ => ?_⟩,
    fun text members name first second h inner hname => parse_twice h inner hname⟩
  · exact ⟨named_of_parse h, Nat.le_of_lt_succ (height_of_parse h)⟩
  · rw [parse_of_listed r.encloses_print (listed_printed fits whole hheight), hnamed]
    rfl

/-- A request is read with its members in another order, its message escaped, a number of another
name between them and its data left out. -/
theorem parse_listed_of_escaped :
    let r : InboundRequest := ⟨.enqueueRequest, "\u00e91", .ofNat 18446744073709551615, .null⟩
    let text := "\x7b\"target_user_id\":18446744073709551615,\"note\":-0.5E+3,\"message_id\":\"\\u00E91\",\"request_type\":\"enqueue_request\"\x7d"
    let blank : InboundRequest := ⟨.enqueueResponse, " \u00a0", .ofNat 0, .arr [.null]⟩
    let twice := "\x7b\"data\":[],\"data\":[]\x7d"
    parse text.toList = .ok r ∧ parse r.print = .ok r ∧
      parse blank.print = .error (.invalidData "message_id must not be empty") ∧
      ∃ report, parse twice.toList = .error (.frame report) := by
  intro r text blank twice
  have hempty : Blank [] := List.forall_mem_nil _
  have hnote : Plain (Glyph.ofText "-0.5E+3".toList) := by
    have hdigit : ∀ c : Char, c.isDigit = true → Json.Digits [c] :=
      fun c hc => ⟨List.cons_ne_nil c [], List.forall_mem_singleton.mpr hc⟩
    have hwhole : Json.Digits ['0'] := hdigit '0' rfl
    have hfraction : Json.Fraction ['.', '5'] := .some (hdigit '5' rfl)
    have hexponent : Json.Exponent ['E', '+', '3'] :=
      .some (.inr rfl) (.inr (.inl rfl)) (hdigit '3' rfl)
    exact .of_scalar (.number (.negative (.parts hwhole (by simp) hfraction hexponent)))
  let target : Entry := .printed "target_user_id" (Json.print r.target.json)
  let note : Entry := .printed "note" "-0.5E+3".toList
  let message : Entry := .printed "message_id" "\"\\u00E91\"".toList
  let type : Entry := .printed "request_type" (Json.printString "enqueue_request")
  have hlisted : r.Listed [target, note, message, type] := by
    refine ⟨?_, ?_, ?_, ?_⟩
    · simp only [List.forall_mem_cons]
      refine ⟨fun v hv => ?_, fun v hv => ?_, fun v hv => ?_, fun v hv => ?_, List.forall_mem_nil _⟩
      · obtain rfl : v = r.target.json := by simpa [members, target, Entry.printed] using hv
        exact PrincipalId.writes_print 126 r.target
      · simp [members, note, Entry.printed] at hv
      · obtain rfl : v = .str "\u00e91" := by simpa [members, message, Entry.printed, r]  using hv
        have hdigits : Json.HexDigits ['0', '0', 'E', '9'] 233 :=
          .four (p := 0) (q := 0) (r := 14) (s := 9) rfl rfl rfl rfl
        have hescape : Json.Escape ['u', '0', '0', 'E', '9'] '\u00e9' := .number hdigits (.inl (by decide))
        have spells : Spells "\u00e91".toList ['\\', 'u', '0', '0', 'E', '9', '1'] :=
          .escaped hescape (.plain (by decide) (by decide) (by decide) .nil)
        exact .str 126 spells
      · obtain rfl : v = .str "enqueue_request" := by simpa [members, type, Entry.printed, r, RequestType.name] using hv
        exact Json.writes_print (.str _) (.str _) (Nat.zero_le _)
    · simp only [List.forall_mem_cons]
      exact ⟨fun h => absurd (by decide) h, fun _ => hnote, fun h => absurd (by decide) h,
        fun h => absurd (by decide) h, List.forall_mem_nil _⟩
    · simp [target, note, message, type, Entry.printed]
    · simp [target, note, message, type, names, fields, Json.Field.of, Entry.printed, r]
  have hencloses : Json.Encloses text.toList ([target, note, message, type].map Entry.whole) :=
    ⟨[], [], [], hempty, hempty, hempty, by decide +kernel⟩
  have hr := parse_listed r
  have hblank := parse_listed blank
  refine ⟨(hr.1 _ _ hencloses hlisted).trans (if_neg (by decide +kernel)),
    (hr.2.1 .null .null).mpr (by decide +kernel), ?_, ?_⟩
  · have hprinted := listed_printed (r := blank) (.arr (List.forall_mem_singleton.mpr .null))
      (.arr (List.forall_mem_singleton.mpr .null)) (by decide)
    exact (hblank.1 _ _ blank.encloses_print hprinted).trans (if_pos (by decide +kernel))
  · have hdata : Formed (.char '[' :: ([] ++ (separated [] ++ [.char ']']))) :=
      .arr hempty (List.forall_mem_nil _)
    let data : Entry := .printed "data" "[]".toList
    have hencloses : Json.Encloses twice.toList ([data.member, data.member].map Member.whole) :=
      ⟨[], [], [], hempty, hempty, hempty, by decide +kernel⟩
    have inner : ∀ m ∈ [data.member, data.member], Formed m.text :=
      List.forall_mem_cons.mpr ⟨hdata, List.forall_mem_singleton.mpr hdata⟩
    exact hr.2.2 _ _ "data" _ _ hencloses inner (by decide) (List.Sublist.refl _) data.named_member
      data.named_member

end InboundRequest

end DeviceRelay

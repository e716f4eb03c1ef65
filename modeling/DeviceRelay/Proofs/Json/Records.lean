/-
# A record has what its fields preserve

A decoder reads a text of some length and gives what has a property of this length: a string
is no longer than the text, and a value is in normal form. A record gathers its fields one by
one, in whatever order they come, and passes over the members that it does not know. So what
each field preserves holds of all that is gathered, and of the record.

Key definitions: `Json.Decoder.Gives`, `Json.Field.Keeps`, `Json.Field.Preserves`, `Json.Each`.
Key theorems: `Json.Decoder.yields_record`, `Json.Decoder.gives_record`,
`Json.read_of_decodeWith`, `Json.of_decodeWith`, `Json.of_decodeFrontWith`.
-/
import DeviceRelay.Proofs.Json.Readings

namespace DeviceRelay
namespace Json

/-! ### Decoders -/

namespace Decoder

variable {α β σ : Type} {n : Nat} {P : α → Prop} {Q : β → Prop}

/-- What a decoder gives of a text of at most `n` glyphs has a property. -/
def Gives (n : Nat) (P : α → Prop) (d : Decoder α) : Prop :=
  ∀ depth input, input.length ≤ n → Yields (Within n P) (d.read depth input)

theorem gives_refine {d : Decoder α} (hd : d.Gives n P) {check : α → Except Cause β}
    (hcheck : ∀ a b, P a → check a = .ok b → Q b) : (d.refine check).Gives n Q := by
  intro depth input hinput
  have hread := hd depth input hinput
  unfold refine
  dsimp only
  split
  · exact yields_error _
  · rename_i hok
    obtain ⟨ha, hrest⟩ := hread.of_ok hok
    split
    · exact yields_error _
    · rename_i hchecked
      exact ⟨hcheck _ _ ha hchecked, hrest⟩

theorem gives_map {d : Decoder α} (hd : d.Gives n P) {f : α → β} (hf : ∀ a, P a → Q (f a)) :
    (d.map f).Gives n Q :=
  gives_refine hd fun a _ ha hb => Except.ok.inj hb ▸ hf a ha

theorem gives_integer (expected : String) (low high : Int) :
    (integer expected low high).Gives n fun _ => True := by
  intro depth input hinput
  unfold integer
  dsimp only
  split
  · split
    · exact yields_error _
    · rename_i hnumber
      have hrest := Nat.le_trans (length_readSigned hnumber) (length_skipBlank_le input)
      split
      · exact yields_error _
      · exact ⟨trivial, Nat.le_trans hrest hinput⟩
  · exact yields_error _

theorem gives_text : text.Gives n fun s => s.toList.length ≤ n := by
  intro depth input hinput
  unfold text
  dsimp only
  split
  · rename_i hstart
    refine yields_of fun s rest hstring => ?_
    have hblank := length_of_skipBlank hstart
    have hlengths := length_readString hstring
    exact ⟨by omega, by omega⟩
  · exact yields_error _

theorem gives_choice (known : List (String × α)) : (choice known).Gives n fun _ => True :=
  fun _ _ hinput => yields_of fun _ _ h => ⟨trivial, Nat.le_trans (length_readChoice h) hinput⟩

theorem gives_value : value.Gives n (Value.Readable n) := fun depth _ hinput =>
  readable_readValue depth hinput

end Decoder

/-! ### Records -/

/-- To read a field of a text of at most `n` glyphs, with at most `depth` brackets open, keeps a
property of what was gathered. -/
def Field.Keeps {σ : Type} (n depth : Nat) (S : σ → Prop) (field : Field σ) : Prop :=
  ∀ state input, input.length ≤ n → S state → Yields (Within n S) (field.read state depth input)

/-- To read a field of a text of at most `n` glyphs keeps a property of what was gathered. -/
def Field.Preserves {σ : Type} (n : Nat) (S : σ → Prop) (field : Field σ) : Prop :=
  ∀ state depth input, input.length ≤ n → S state →
    Yields (Within n S) (field.read state depth input)

namespace Decoder

variable {α β σ : Type} {n : Nat} {S : σ → Prop} {P : α → Prop} {R : β → Prop}

variable {name : String} {d : Decoder β} {get : σ → Option β} {put : σ → β → σ}
  {mayBeLeftOut : Bool} {depth : Nat}

theorem keeps_field (hd : ∀ input, input.length ≤ n → Yields (Within n R) (d.read depth input))
    (hput : ∀ state b, S state → R b → S (put state b)) :
    (Field.of name d get put mayBeLeftOut).Keeps n depth S := by
  intro state input hinput hstate
  exact Yields.map (f := put state) (hd input hinput) fun b rest hb =>
    ⟨hput state b hstate hb.1, hb.2⟩

theorem preserves_field (hd : d.Gives n R) (hput : ∀ state b, S state → R b → S (put state b)) :
    (Field.of name d get put mayBeLeftOut).Preserves n S :=
  fun state depth input hinput hstate => keeps_field (hd depth) hput state input hinput hstate

section

variable {fields : List (Field σ)} (hfields : ∀ field ∈ fields, field.Keeps n depth S)

include hfields

theorem yields_readInOrder (length : String) (i : Nat) {state : σ} (hstate : S state)
    {input : Input} (hinput : input.length ≤ n) :
    Yields (Within n S) (readInOrder length depth fields i state input) := by
  induction fields generalizing i state input with
  | nil => exact ⟨hstate, hinput⟩
  | cons field fields ih =>
    obtain ⟨hfield, hrest⟩ := List.forall_mem_cons.mp hfields
    rw [readInOrder]
    split
    · exact yields_error _
    · rename_i hdone
      split
      · exact ih hrest i hstate (Nat.le_trans (length_nextItem hdone) hinput)
      · exact yields_error _
    · rename_i hnext
      have hread := hfield state _ (Nat.le_trans (length_nextItem hnext) hinput) hstate
      split
      · exact yields_error _
      · rename_i hok
        obtain ⟨hstate, hinput⟩ := hread.of_ok hok
        exact ih hrest (i + 1) hstate hinput

theorem yields_readMember (name : String) {state : σ} (hstate : S state)
    {input : Input} (hinput : input.length ≤ n) :
    Yields (Within n S) (readMember fields depth name state input) := by
  unfold readMember
  dsimp only
  split
  · rename_i field hfind
    split
    · exact yields_error _
    · refine Yields.mapError ?_ _
      split
      · exact yields_error _
      · rename_i hcolon
        exact hfields field (List.mem_of_find?_eq_some hfind) state _
          (Nat.le_trans (length_readColon hcolon) hinput) hstate
  · refine Yields.mapError ?_ _
    split
    · exact yields_error _
    · rename_i hcolon
      refine yields_map_rest fun rest hskip => ⟨hstate, ?_⟩
      exact Nat.le_trans (length_skipValue hskip) (Nat.le_trans (length_readColon hcolon) hinput)

omit hfields in
theorem yields_close {endsAt : Input → Input} {readClose : Input → Except Fault Input} {r : Read α}
    (hclose : ∀ {input rest}, readClose input = .ok rest → rest.length ≤ input.length)
    (h : Yields (Within n P) r) : Yields (Within n P) (close endsAt readClose r) := by
  unfold close
  split
  · exact yields_map_rest fun rest hend => ⟨h.1, Nat.le_trans (hclose hend) h.2⟩
  · split <;> exact yields_error _

/-- **A record has what its fields keep**, which are read inside its bracket. -/
theorem yields_record (name : String) {blank : σ} (hblank : S blank) {finish : σ → Except Cause α}
    (hfinish : ∀ state a, S state → finish state = .ok a → P a) {input : Input}
    (hinput : input.length ≤ n) :
    Yields (Within n P) ((record name fields blank finish).read (depth + 1) input) := by
  have hrest {g : Glyph} {rest : Input} (h : skipBlank input = g :: rest) : rest.length ≤ n :=
    Nat.le_of_lt (Nat.lt_of_lt_of_le (length_of_skipBlank h) hinput)
  have hdone {state : σ} {rest : Input} {a : α} (h : Within n S state rest)
      (hfinished : finish state = .ok a) : Within n P a rest :=
    ⟨hfinish state a h.1 hfinished, h.2⟩
  unfold record
  dsimp only
  split
  · rename_i hstart
    have hread := yields_readInOrder hfields (recordLength name fields) 0 hblank (hrest hstart)
    refine yields_close length_endList ?_
    split
    · exact yields_error _
    · rename_i hok
      split
      · exact yields_error _
      · exact hdone (hread.of_ok hok) ‹_›
  · rename_i rest hstart
    have hread : Yields (Within n S)
        (foldMembers (readMember fields depth) (rest.length + 1) true blank rest) :=
      yields_foldMembers (S := fun _ => S) (fun _ _ h => h)
        (fun name _ _ _ _ hinput hstate => yields_readMember hfields name hstate hinput)
        (k := 0) (Nat.le_refl _) hblank (hrest hstart)
    refine yields_close length_endObject ?_
    split
    · exact yields_error _
    · rename_i hok
      split
      · exact yields_error _
      · exact hdone (hread.of_ok hok) ‹_›
  · exact yields_error _

end

theorem read_record_zero (name : String) (fields : List (Field σ)) (blank : σ)
    (finish : σ → Except Cause α) (input : Input) (a : α) (rest : Input) :
    (record name fields blank finish).read 0 input ≠ .ok (a, rest) := by
  unfold record
  dsimp only
  split <;> nofun

/-- **A record has what its fields preserve.** -/
theorem gives_record {fields : List (Field σ)} (hfields : ∀ field ∈ fields, field.Preserves n S)
    (name : String) {blank : σ} (hblank : S blank) {finish : σ → Except Cause α}
    (hfinish : ∀ state a, S state → finish state = .ok a → P a) :
    (record name fields blank finish).Gives n P := by
  intro depth input hinput
  cases depth with
  | zero => exact yields_of fun a rest hread => (read_record_zero _ _ _ _ _ _ _ hread).elim
  | succ depth =>
    exact yields_record (fun field hfield state => hfields field hfield state depth) name hblank
      hfinish hinput

end Decoder

/-! ### Whole texts -/

/-- What is decoded from a text was read from it. -/
theorem read_of_decodeWith {α : Type} {read : Nat → Input → Read α} {a : α} {input : Input}
    (h : decodeWith read input = .ok a) : ∃ rest, read depthLimit input = .ok (a, rest) := by
  unfold decodeWith at h
  split at h
  · cases h
  · rename_i rest hread
    split at h
    · cases h
    · exact ⟨rest, Except.ok.inj h ▸ hread⟩

section

variable {α : Type} {P : α → Prop} {n : Nat} {read : Nat → Input → Read α} {input : Input} {a : α}
  (h : Yields (Within n P) (read depthLimit input))

include h

theorem of_decodeWith (hread : decodeWith read input = .ok a) : P a := by
  obtain ⟨rest, hok⟩ := read_of_decodeWith hread
  exact (h.of_ok hok).1

theorem of_decodeFrontWith (hread : decodeFrontWith read input = .ok a) : P a := by
  unfold decodeFrontWith at hread
  split at hread
  · cases hread
  · rename_i hok
    obtain rfl := Except.ok.inj hread
    exact (h.of_ok hok).1

end

/-- Every part that is there has a property. -/
def Each {α : Type} (P : α → Prop) (part? : Option α) : Prop := ∀ part, part? = some part → P part

theorem each_none {α : Type} {P : α → Prop} : Each P none := nofun

theorem each_some {α : Type} {P : α → Prop} {part : α} (h : P part) : Each P (some part) :=
  fun _ heq => Option.some.inj heq ▸ h

theorem Each.getD {n : Nat} {value? : Option Value} (h : Each (Value.Readable n) value?) :
    (value?.getD .null).Readable n := by
  cases value? with
  | none => exact .null
  | some value => exact h value rfl

theorem of_require {α β : Type} {name : String} {part? : Option β} {f : β → Except Cause α} {a : α}
    (h : require name part? >>= f = .ok a) : ∃ part, part? = some part ∧ f part = .ok a := by
  cases part? with
  | none => cases h
  | some part => exact ⟨part, rfl, h⟩

end Json
end DeviceRelay

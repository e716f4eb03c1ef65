/-
# A decoder decodes what is written in its form

A text, a whole number within its bounds and a known name are decoded from what writes them. A
record is decoded from an object with a member for each field, each decoded by the decoder of
the field; a tagged value from an object whose first member names the form of its second.

Key theorems: `Json.Decoder.reads_record`, `Json.Decoder.reads_tagged`, `Json.decodeWith_of_reads`.
-/
import DeviceRelay.Proofs.Json.Printing
import DeviceRelay.Proofs.Json.Readings

namespace DeviceRelay
namespace Json
namespace Decoder

variable {α β σ : Type} {depth : Nat}

/-! ### Plain values -/

theorem reads_refine {d : Decoder α} {check : α → Except Cause β} {a : α} {b : β} {t : Input}
    (h : Reads (d.read depth) a t) (hcheck : check a = .ok b) : Reads ((d.refine check).read depth) b t := by
  intro rest hrest
  obtain ⟨left, hread, hleft⟩ := h rest hrest
  refine ⟨left, ?_, hleft⟩
  unfold refine
  simp only [hread, hcheck]

theorem reads_map {d : Decoder α} {a : α} {t : Input} (h : Reads (d.read depth) a t) (f : α → β) :
    Reads ((d.map f).read depth) (f a) t := reads_refine h rfl

theorem of_map {d : Decoder α} {f : α → β} {input rest : Input} {b : β}
    (h : (d.map f).read depth input = .ok (b, rest)) :
    ∃ a, d.read depth input = .ok (a, rest) ∧ f a = b := by
  unfold map refine at h
  dsimp only at h
  split at h
  · cases h
  · rename_i a _ hread
    obtain ⟨hsame, rfl⟩ := Prod.mk.inj (Except.ok.inj h)
    exact ⟨a, hread, hsame⟩

theorem reads_integer (expected : String) {low high n : Int} (fits : (Number.int n).Fits)
    (hlow : low ≤ n) (hhigh : n ≤ high) :
    Reads ((integer expected low high).read depth) n (Glyph.ofText (printInt n)) := by
  obtain ⟨g, more, htext, hnumber⟩ := startsNumber_printInt n
  intro rest hrest
  obtain ⟨left, hread, hleft⟩ := reads_printInt fits rest hrest
  refine ⟨left, ?_, hleft⟩
  rw [htext, List.cons_append] at hread ⊢
  unfold integer
  simp only [skipBlank_of_mark (isSpace_of_startsNumber hnumber), List.head?_cons, Option.any_some, hnumber,
    if_true, hread, checkInt, hlow, hhigh, and_self]

theorem reads_text {s : String} {w : List Char} (spells : Spells s.toList w) :
    Reads (text.read depth) s (.char '"' :: (Glyph.ofText w ++ [.char '"'])) := by
  intro rest _
  refine ⟨rest, ?_, rfl⟩
  rw [List.cons_append, List.append_assoc, List.singleton_append]
  exact readString_spells spells rest

theorem reads_printString (depth : Nat) (s : String) :
    Reads (text.read depth) s (Glyph.ofText (printString s)) := by
  rw [ofText_printString]
  exact reads_text (spells_escaped s.toList)

theorem reads_choice {known : List (String × α)} {name : String} {a : α} {w : List Char}
    (hknown : known.lookup name = some a) (spells : Spells name.toList w) :
    Reads ((choice known).read depth) a (.char '"' :: (Glyph.ofText w ++ [.char '"'])) := by
  intro rest _
  refine ⟨rest, ?_, rfl⟩
  have hname : readVariantName known (.char '"' :: (Glyph.ofText w ++ .char '"' :: rest)) =
      .ok ((name, a), rest) := by
    unfold readVariantName
    rw [skipBlank_of_mark (by decide)]
    simp only [readString_spells spells, pick, hknown]
  rw [List.cons_append, List.append_assoc, List.singleton_append]
  unfold choice
  simp only [skipBlank_of_mark (by decide : isSpace (.char '"') = false), hname]
  rfl

theorem reads_printName (depth : Nat) {known : List (String × α)} {name : String} {a : α}
    (hknown : known.lookup name = some a) :
    Reads ((choice known).read depth) a (Glyph.ofText (printString name)) := by
  rw [ofText_printString]
  exact reads_choice hknown (spells_escaped name.toList)

theorem reads_value {v : Value} {t : Input} (h : Writes depth v t) : Reads (value.read depth) v t :=
  reads_of_writes h

theorem starts_of_null {input left : Input} (h : readValue depth input = .ok (.null, left)) :
    ∃ rest, skipBlank input = .char 'n' :: rest := by
  unfold readValue readValueWith at h
  split at h
  · cases h
  · exact ⟨_, ‹_›⟩
  · obtain ⟨_, -, h⟩ := ok_of_map h
    cases h
  · obtain ⟨_, -, h⟩ := ok_of_map h
    cases h
  · obtain ⟨_, -, h⟩ := ok_of_map h
    cases h
  · split at h
    · cases h
    · dsimp only at h
      split at h
      · cases h
      · obtain ⟨_, -, h⟩ := ok_of_map h
        cases h
  · split at h
    · cases h
    · dsimp only at h
      split at h
      · cases h
      · obtain ⟨_, -, h⟩ := ok_of_map h
        cases h
  · split at h
    · obtain ⟨_, -, h⟩ := ok_of_map h
      cases h
    · cases h

/-- Where null stands for nothing, any other value is read as ever. -/
theorem read_optional {input left : Input} {v : Value} (h : readValue depth input = .ok (v, left)) :
    (optional value).read depth input = .ok (if v = .null then none else some v, left) := by
  unfold optional
  dsimp only
  split
  · rename_i rest hstart
    unfold readValue readValueWith at h
    rw [hstart] at h
    dsimp only at h
    obtain ⟨rest', hword, h⟩ := ok_of_map h
    obtain ⟨rfl, rfl⟩ := Prod.mk.inj h
    rw [hword]
    rfl
  · rename_i hstart
    have hne : v ≠ .null := by
      rintro rfl
      obtain ⟨rest, hnull⟩ := starts_of_null h
      exact hstart rest hnull
    rw [if_neg hne]
    unfold value
    dsimp only
    rw [readValue_congr (skipBlank_idem input), h]
    rfl

theorem reads_optional {v : Value} {t : Input} (h : Writes depth v t) :
    Reads ((optional value).read depth) (if v = .null then none else some v) t := by
  intro rest hrest
  obtain ⟨left, hread, hleft⟩ := reads_of_writes h rest hrest
  exact ⟨left, read_optional hread, hleft⟩

/-! ### Records -/

theorem takes_field {fields : List (Field σ)} {e : Entry} {d : Decoder β} {get : σ → Option β}
    {put : σ → β → σ} {mayBeLeftOut : Bool} {s : σ} {b : β}
    (hfind : fields.find? (·.name == e.name) = some (.of e.name d get put mayBeLeftOut))
    (hunset : get s = none) (hread : Reads (d.read depth) b e.text) :
    Reads (readMember fields depth e.name s) (put s b) e.tail := by
  intro rest hrest
  obtain ⟨left, hread, hleft⟩ := hread rest hrest
  refine ⟨left, ?_, hleft⟩
  unfold readMember
  simp only [hfind, Field.of, hunset, Option.isSome_none, Bool.false_eq_true, if_false, e.readColon_tail,
    hread]
  rfl

/-- **A record is decoded from an object whose members its fields take.** -/
theorem reads_record (name : String) {fields : List (Field σ)} {blank s : σ}
    {finish : σ → Except Cause α} {entries : List Entry} {a : α}
    (folds : Folds (readMember fields depth) blank entries s) (hfinish : finish s = .ok a)
    {inside : Input} (hinside : Blank inside) :
    Reads ((record name fields blank finish).read (depth + 1)) a
      (.char '\x7b' :: (inside ++ (separated (entries.map (·.whole)) ++ [.char '\x7d']))) := by
  intro rest _
  refine ⟨rest, ?_, rfl⟩
  have hfuel := length_lt_fuel (entries.map (·.whole)) inside (.char '\x7d') rest
  rw [List.length_map] at hfuel
  have hfold := foldMembers_folds folds hinside rest hfuel
  simp only [List.cons_append, List.append_assoc, List.nil_append]
  unfold record
  simp only [skipBlank_of_mark (by decide : isSpace (.char '\x7b') = false), hfold, hfinish, close,
    endObject_close]
  rfl

/-! ### A tag beside its content -/

variable {tag content : String} {forms : List (String × Decoder α)}

theorem takes_tag (content : String) {e : Entry} (htag : e.name = tag) {form : Decoder α}
    (hform : Reads ((choice forms).read depth) form e.text) :
    Reads (readTagged tag content forms depth e.name ⟨none, none, none⟩) ⟨some form, none, none⟩
      e.tail := by
  intro rest hrest
  obtain ⟨left, hread, hleft⟩ := hform rest hrest
  refine ⟨left, ?_, hleft⟩
  unfold readTagged
  simp only [htag, if_true, Option.isSome_none, Bool.false_eq_true, if_false, e.readColon_tail, hread]
  rfl

theorem readTagged_content {e : Entry} (hne : content ≠ tag) (hcontent : e.name = content)
    (form : Decoder α) (rest : Input) :
    readTagged tag content forms depth e.name ⟨some form, none, none⟩ (e.tail ++ rest) =
      ((form.read depth (e.text ++ rest)).map
        fun (a, rest) => (⟨some form, none, some a⟩, rest)).mapError (Fault.within (.key content)) := by
  unfold readTagged
  simp only [hcontent, if_neg hne, if_true, Option.isSome_none, Bool.or_self, Bool.false_eq_true, if_false,
    e.readColon_tail]

/-- **A tagged value is decoded from an object of its tag and its content.** -/
theorem reads_tagged (name : String) (hne : content ≠ tag) {first second : Entry}
    (htag : first.name = tag) (hcontent : second.name = content) {form : Decoder α}
    (hform : Reads ((choice forms).read depth) form first.text) {a : α}
    (hread : Reads (form.read depth) a second.text) {inside : Input} (hinside : Blank inside) :
    Reads (tagged name tag content forms (depth + 1)) a
      (.char '\x7b' :: (inside ++ (separated [first.whole, second.whole] ++ [.char '\x7d']))) := by
  intro rest _
  refine ⟨rest, ?_, rfl⟩
  have takes : Reads (readTagged tag content forms depth second.name ⟨some form, none, none⟩)
      ⟨some form, none, some a⟩ second.tail := by
    intro rest hrest
    obtain ⟨left, hread, hleft⟩ := hread rest hrest
    refine ⟨left, ?_, hleft⟩
    rw [readTagged_content hne hcontent, hread]
    rfl
  have folds := Folds.cons (takes_tag content htag hform) (.cons takes (.nil _))
  have hfold := foldMembers_folds folds hinside rest
    (length_lt_fuel [first.whole, second.whole] inside (.char '\x7d') rest)
  simp only [List.cons_append, List.append_assoc, List.nil_append, List.map_cons, List.map_nil] at hfold ⊢
  unfold tagged
  simp only [skipBlank_of_mark (by decide : isSpace (.char '\x7b') = false), hfold, finishTagged, require,
    close, endObject_close]
  rfl

theorem of_close {endsAt : Input → Input} {readClose : Input → Except Fault Input} {r : Read α} {a : α}
    {left : Input} (h : close endsAt readClose r = .ok (a, left)) : ∃ rest, r = .ok (a, rest) := by
  unfold close at h
  split at h
  · rename_i rest
    obtain ⟨_, -, h⟩ := ok_of_map h
    obtain ⟨rfl, -⟩ := Prod.mk.inj h
    exact ⟨rest, rfl⟩
  · split at h <;> cases h

/-- Once tag and content were read, nothing else is taken. -/
theorem settled_foldMembers (form : Decoder α) (a : α) {fuel : Nat} {first : Bool} {input left : Input}
    {state : Tagged α}
    (h : foldMembers (readTagged tag content forms depth) fuel first ⟨some form, none, some a⟩ input =
      .ok (state, left)) : state = ⟨some form, none, some a⟩ := by
  have hsettled (name : String) (input : Input) : Yields
      (Within input.length fun state => state = (⟨some form, none, some a⟩ : Tagged α))
      (readTagged tag content forms depth name ⟨some form, none, some a⟩ input) := by
    unfold readTagged
    simp only [Option.isSome_some, Option.isSome_none, Bool.or_true, if_true]
    split
    · exact yields_error _
    · split
      · exact yields_error _
      · refine Yields.mapError ?_ _
        split
        · exact yields_error _
        · rename_i hcolon
          exact yields_map_rest fun rest hskip =>
            ⟨rfl, Nat.le_trans (length_skipValue hskip) (length_readColon hcolon)⟩
  have hfold : Yields (Within input.length fun state => state = (⟨some form, none, some a⟩ : Tagged α))
      (foldMembers (readTagged tag content forms depth) fuel first ⟨some form, none, some a⟩ input) :=
    yields_foldMembers (S := fun _ state => state = (⟨some form, none, some a⟩ : Tagged α))
      (fun _ _ h => h) (fun name _ state other _ hother hstate => by
        subst hstate
        exact yields_of fun state rest hread =>
          have hdone := (hsettled name other).of_ok hread
          ⟨hdone.1, Nat.le_trans hdone.2 hother⟩)
      (k := 0) (Nat.le_refl _) rfl (Nat.le_refl _)
  exact (hfold.of_ok h).1

section

variable (first second : Entry) (htag : first.name = tag) (hcontent : second.name = content)
  (hne : content ≠ tag) {form : Decoder α} (hform : Reads ((choice forms).read depth) form first.text)
  {inside rest left : Input} (hinside : Blank inside)

include htag hcontent hne hform hinside

/-- The content behind the tag is read in the form that the tag names. -/
theorem content_of_foldMembers {fuel : Nat} {state : Tagged α}
    (h : foldMembers (readTagged tag content forms depth) (fuel + 2) true ⟨none, none, none⟩
      (inside ++ (separated [first.whole, second.whole] ++ .char '\x7d' :: rest)) = .ok (state, left)) :
    ∃ a left, form.read depth (second.text ++ .char '\x7d' :: rest) = .ok (a, left) ∧
      state = ⟨some form, none, some a⟩ := by
  obtain ⟨afterTag, htagged, hafterTag⟩ := takes_tag content htag hform
    (followed [second.whole] ++ .char '\x7d' :: rest) (ends_followed (ends_brace rest) _)
  rw [followed_cons, skipBlank_of_mark (by decide)] at hafterTag
  rw [separated, List.append_assoc, foldMembers_entry (nextName_first hinside _), htagged] at h
  dsimp only at h
  rw [foldMembers_entry (nextName_comma hafterTag), readTagged_content hne hcontent] at h
  cases hread : form.read depth (second.text ++ .char '\x7d' :: rest) with
  | error fault =>
    rw [show followed [] ++ Glyph.char '\x7d' :: rest = .char '\x7d' :: rest from rfl, hread] at h
    cases h
  | ok read =>
    rw [show followed [] ++ Glyph.char '\x7d' :: rest = .char '\x7d' :: rest from rfl, hread] at h
    exact ⟨read.1, read.2, rfl, settled_foldMembers form read.1 h⟩

/-- What is decoded from a tagged value is decoded from its content. -/
theorem of_tagged {name : String} {a : α} (h : tagged name tag content forms (depth + 1)
      (.char '\x7b' :: (inside ++ (separated [first.whole, second.whole] ++ .char '\x7d' :: rest))) =
        .ok (a, left)) :
    ∃ left, form.read depth (second.text ++ .char '\x7d' :: rest) = .ok (a, left) := by
  obtain ⟨fuel, hfuel⟩ := Nat.exists_eq_add_of_lt
    (length_lt_fuel [first.whole, second.whole] inside (.char '\x7d') rest)
  have hlength : (inside ++ (separated [first.whole, second.whole] ++ .char '\x7d' :: rest)).length + 1 =
      fuel + 1 + 2 := by
    rw [hfuel, List.length_cons, List.length_singleton]
    omega
  unfold tagged at h
  simp only [skipBlank_of_mark (by decide : isSpace (.char '\x7b') = false), hlength] at h
  obtain ⟨rest', h⟩ := of_close h
  split at h
  · cases h
  · rename_i state _ hfold
    obtain ⟨a', left', hread, rfl⟩ := content_of_foldMembers first second htag hcontent hne hform hinside hfold
    obtain ⟨rfl, -⟩ := Prod.mk.inj (Except.ok.inj h)
    exact ⟨left', hread⟩

end

end Decoder

/-! ### Whole texts -/

/-- **A text that is read to its end is decoded.** -/
theorem decodeWith_of_reads {α : Type} {read : Nat → Input → Read α} {a : α} {t : Input}
    (h : Reads (read depthLimit) a t) : decodeWith read t = .ok a := by
  obtain ⟨left, hread, hleft⟩ := h [] ends_nil
  rw [List.append_nil] at hread
  have hend : readEnd left = .ok () := by
    unfold readEnd
    rw [hleft]
    rfl
  unfold decodeWith
  simp only [hread, hend]

end Json
end DeviceRelay

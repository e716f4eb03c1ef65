/-
# A record that has a field twice is refused

Each decoder of a field stops behind the value that it reads, whatever the form of the value. So
a record that is read of an object has met all members of it. The first of two members with the
name of a field sets the field, and the second finds it set.

Key definitions: `Json.Core`, `Json.Decoder.Firm`, `Json.Decoder.Exclusive`.
Key theorems: `Json.Decoder.firm_choice`, `Json.Decoder.once_of_read`.
-/
import DeviceRelay.Proofs.Json.Passing

namespace DeviceRelay
namespace Json

variable {t rest left : Input}

/-- A value without the white space around it. -/
inductive Core : Input → Prop where
  | scalar {t : Input} (scalar : Scalar t) : Core t
  | arr (more : Input) : Core (.char '[' :: more)
  | obj {inside : Input} {members : List Member} (blank : Blank inside)
    (inner : ∀ m ∈ members, Formed m.text) :
    Core (.char '\x7b' :: (inside ++ (separated (members.map (·.whole)) ++ [.char '\x7d'])))

/-- What is left of a value once the white space in front was passed over. -/
theorem Formed.front (h : Formed t) (hrest : Ends rest) :
    ∃ core behind, skipBlank (t ++ rest) = core ++ behind ∧ Core core ∧ Ends behind ∧
      skipBlank behind = skipBlank rest := by
  induction h generalizing rest with
  | @scalar t scalar =>
    refine ⟨t, rest, ?_, .scalar scalar, hrest, rfl⟩
    cases scalar with
    | null | yes | no | text => exact skipBlank_of_mark (by decide) _
    | number numeral =>
      obtain ⟨c, more, rfl, hc⟩ := exists_of_numeral numeral
      exact skipBlank_of_mark (isSpace_of_startsNumber hc) _
  | @arr inside items =>
    refine ⟨_, rest, ?_, .arr (inside ++ (separated items ++ [.char ']'])), hrest, rfl⟩
    exact skipBlank_of_mark (by decide) _
  | obj blank inner =>
    refine ⟨_, rest, ?_, .obj blank inner, hrest, rfl⟩
    exact skipBlank_of_mark (by decide) _
  | @padded before t after blankBefore _ blankAfter ih =>
    obtain ⟨core, behind, hstart, hcore, hends, hbehind⟩ := ih (ends_blank blankAfter hrest)
    refine ⟨core, behind, ?_, hcore, hends, hbehind.trans (skipBlank_append blankAfter rest)⟩
    rw [List.append_assoc, List.append_assoc, skipBlank_append blankBefore]
    exact hstart

namespace Decoder

variable {α β σ : Type} {depth : Nat}

/-! ### Decoders of fields -/

/-- A decoder that gives something of a value stops behind it, whatever its form. -/
def Firm (depth : Nat) (d : Decoder α) : Prop := ∀ t, Formed t → Stops (d.read depth) t

theorem firm_refine {d : Decoder α} (h : d.Firm depth) (check : α → Except Cause β) :
    (d.refine check).Firm depth := by
  intro t formed rest left b hrest hread
  unfold refine at hread
  dsimp only at hread
  split at hread
  · cases hread
  · rename_i hok
    split at hread
    · cases hread
    · obtain ⟨-, rfl⟩ := Prod.mk.inj (Except.ok.inj hread)
      exact h t formed rest _ _ hrest hok

theorem firm_map {d : Decoder α} (h : d.Firm depth) (f : α → β) : (d.map f).Firm depth := firm_refine h _

theorem firm_value (depth : Nat) : value.Firm depth := fun _ formed => stops_readValue formed depth

theorem quoted_of_core {core behind more : Input} (h : Core core)
    (heq : core ++ behind = .char '"' :: more) :
    ∃ w, Quoted w ∧ more = Glyph.ofText w ++ .char '"' :: behind := by
  cases h with
  | scalar scalar =>
    cases scalar with
    | null | yes | no => cases heq
    | number numeral =>
      obtain ⟨c, cs, rfl, hc⟩ := exists_of_numeral numeral
      obtain ⟨⟨⟩, -⟩ := List.cons.inj heq
      cases hc
    | @text w quoted =>
      obtain ⟨-, rfl⟩ := List.cons.inj heq
      exact ⟨w, quoted, by simp⟩
  | arr | obj => cases heq

theorem firm_text (depth : Nat) : text.Firm depth := by
  intro t formed rest left s hrest hread
  obtain ⟨core, behind, hstart, hcore, -, hbehind⟩ := formed.front hrest
  unfold text at hread
  dsimp only at hread
  split at hread
  · rename_i hquote
    obtain ⟨w, quoted, rfl⟩ := quoted_of_core hcore (hstart.symm.trans hquote)
    rw [rest_of_readString quoted hread, hbehind]
  · cases hread

theorem numeral_of_core {core behind more : Input} {g : Glyph} (h : Core core)
    (heq : core ++ behind = g :: more) (hg : startsNumber g = true) :
    ∃ cs, Numeral cs ∧ core = Glyph.ofText cs := by
  cases h with
  | scalar scalar =>
    cases scalar with
    | null | yes | no | text =>
      obtain ⟨rfl, -⟩ := List.cons.inj heq
      cases hg
    | @number cs numeral => exact ⟨cs, numeral, rfl⟩
  | arr | obj =>
    obtain ⟨rfl, -⟩ := List.cons.inj heq
    cases hg

theorem firm_integer (expected : String) (low high : Int) (depth : Nat) :
    (integer expected low high).Firm depth := by
  intro t formed rest left n hrest hread
  obtain ⟨core, behind, hstart, hcore, hends, hbehind⟩ := formed.front hrest
  unfold integer at hread
  simp only [hstart] at hread
  split at hread
  · rename_i hany
    cases heq : core ++ behind with
    | nil =>
      rw [heq] at hany
      cases hany
    | cons g more =>
      rw [heq] at hany
      obtain ⟨cs, numeral, rfl⟩ := numeral_of_core hcore heq hany
      split at hread
      · cases hread
      · rename_i hsigned
        split at hread
        · cases hread
        · obtain ⟨-, rfl⟩ := Prod.mk.inj (Except.ok.inj hread)
          rw [rest_of_readSigned numeral hends hsigned, hbehind]
  · cases hread

/-- What is read of the name of an alternative stops behind the name. -/
theorem rest_of_readVariantName {known : List (String × α)} {input : Input} {w : List Char}
    {named : String × α} (hquote : skipBlank input = .char '"' :: (Glyph.ofText w ++ .char '"' :: rest))
    (quoted : Quoted w) (h : readVariantName known input = .ok (named, left)) : left = rest := by
  unfold readVariantName at h
  split at h
  · rename_i hstart
    obtain ⟨-, rfl⟩ := List.cons.inj (hquote.symm.trans hstart)
    split at h
    · cases h
    · rename_i hstring
      split at h
      · cases h
      · obtain ⟨-, rfl⟩ := Prod.mk.inj (Except.ok.inj h)
        exact rest_of_readString quoted hstring
  · cases h

theorem firm_unit (depth : Nat) : unit.Firm depth := by
  intro t formed rest left u hrest hread
  obtain ⟨core, behind, hstart, hcore, -, hbehind⟩ := formed.front hrest
  unfold unit at hread
  dsimp only at hread
  split at hread
  · rename_i hword
    obtain ⟨middle, hnull, hsame⟩ := ok_of_map hread
    obtain ⟨-, rfl⟩ := Prod.mk.inj hsame
    have heq := hstart.symm.trans hword
    cases hcore with
    | scalar scalar =>
      cases scalar with
      | null =>
        obtain ⟨-, rfl⟩ := List.cons.inj heq
        rw [rest_of_readWord hnull, hbehind]
      | yes | no | text => cases heq
      | number numeral =>
        obtain ⟨c, cs, rfl, hc⟩ := exists_of_numeral numeral
        obtain ⟨⟨⟩, -⟩ := List.cons.inj heq
        cases hc
    | arr | obj => cases heq
  · cases hread

/-- What is read of an object as an alternative is the only member of the object. -/
theorem rest_of_readVariantObject {known : List (String × α)} {inside behind : Input}
    {members : List Member} (blank : Blank inside) (inner : ∀ m ∈ members, Formed m.text) {a : α}
    (h : readVariantObject known depth
      (inside ++ (separated (members.map (·.whole)) ++ .char '\x7d' :: behind)) = .ok (a, left)) :
    left = behind := by
  cases members with
  | nil =>
    have hclose : skipBlank (inside ++ .char '\x7d' :: behind) = .char '\x7d' :: behind := by
      rw [skipBlank_append blank, skipBlank_of_mark (by decide)]
    simp only [separated, List.map_nil, List.nil_append] at h
    unfold readVariantObject readVariantName at h
    rw [hclose] at h
    cases h
  | cons m members =>
    obtain ⟨hm, -⟩ := List.forall_mem_cons.mp inner
    have hquote := (skipBlank_append blank _).trans
      (m.skipBlank_whole (followed (members.map (·.whole)) ++ .char '\x7d' :: behind))
    rw [List.map_cons, separated, List.append_assoc] at h
    unfold readVariantObject at h
    split at h
    · cases h
    · rename_i hname
      obtain rfl := rest_of_readVariantName hquote m.quoted hname
      simp only [m.readColon_tail] at h
      split at h
      · cases h
      · rename_i hunit
        have hleft := firm_unit depth _ hm _ _ _ (ends_followed (ends_brace behind) _) hunit
        rw [hleft] at h
        cases members with
        | nil =>
          obtain ⟨-, rfl⟩ := Prod.mk.inj (Except.ok.inj h)
          rfl
        | cons next members =>
          rw [List.map_cons, followed_cons, skipBlank_of_mark (by decide)] at h
          cases h

theorem firm_choice (known : List (String × α)) (depth : Nat) : (choice known).Firm depth := by
  intro t formed rest left a hrest hread
  obtain ⟨core, behind, hstart, hcore, hends, hbehind⟩ := formed.front hrest
  unfold choice at hread
  dsimp only at hread
  split at hread
  · cases hread
  · rename_i hquote
    obtain ⟨w, quoted, rfl⟩ := quoted_of_core hcore (hstart.symm.trans hquote)
    obtain ⟨named, hname, hsame⟩ := ok_of_map hread
    obtain ⟨-, rfl⟩ := Prod.mk.inj hsame
    rw [rest_of_readVariantName (skipBlank_of_mark (by decide) _) quoted hname, hbehind]
  · rename_i hbrace
    have heq := hstart.symm.trans hbrace
    split at hread
    · cases hread
    · cases hcore with
      | scalar scalar =>
        cases scalar with
        | null | yes | no | text => cases heq
        | number numeral =>
          obtain ⟨c, cs, rfl, hc⟩ := exists_of_numeral numeral
          obtain ⟨⟨⟩, -⟩ := List.cons.inj heq
          cases hc
      | arr => cases heq
      | @obj inside members blank inner =>
        have htail : (inside ++ (separated (members.map (·.whole)) ++ [.char '\x7d'])) ++ behind = _ :=
          (List.cons.inj heq).2
        rw [← htail, List.append_assoc, List.append_assoc, List.singleton_append] at hread
        rw [rest_of_readVariantObject blank inner hread, hbehind]
  · cases hread

/-! ### Records -/

/-- The fields of a record stop behind what they read. To read a field sets it, and leaves those
set that are. -/
structure Exclusive (fields : List (Field σ)) (depth : Nat) : Prop where
  stops : ∀ field ∈ fields, ∀ s t, Formed t → Stops (field.read s depth) t
  sets : ∀ field ∈ fields, ∀ s input u left, field.read s depth input = .ok (u, left) →
    field.isSet u = true
  keeps : ∀ field ∈ fields, ∀ other ∈ fields, ∀ s input u left,
    field.read s depth input = .ok (u, left) → other.isSet s = true → other.isSet u = true

theorem stops_field {name : String} {d : Decoder β} {get : σ → Option β} {put : σ → β → σ}
    {mayBeLeftOut : Bool} (h : d.Firm depth) (s : σ) (t : Input) (formed : Formed t) :
    Stops ((Field.of name d get put mayBeLeftOut).read s depth) t :=
  (h t formed).map (put s)

theorem put_of_field {name : String} {d : Decoder β} {get : σ → Option β} {put : σ → β → σ}
    {mayBeLeftOut : Bool} {s u : σ} {input : Input}
    (h : (Field.of name d get put mayBeLeftOut).read s depth input = .ok (u, left)) :
    ∃ b, u = put s b := by
  obtain ⟨⟨b, middle⟩, -, hsame⟩ := ok_of_map h
  obtain ⟨rfl, -⟩ := Prod.mk.inj hsame
  exact ⟨b, rfl⟩

theorem ok_of_mapError {r : Read α} {f : Fault → Fault} {read : α × Input}
    (h : r.mapError f = .ok read) : r = .ok read := by
  cases r with
  | error => cases h
  | ok => exact congrArg Except.ok (Except.ok.inj h)

section

variable {fields : List (Field σ)} {members : List Member} {s u : σ}

/-- A member of a record is read by the field of its name, or passed over. -/
theorem of_readMember {name : String} {input : Input}
    (h : readMember fields depth name s input = .ok (u, left)) :
    (∃ field rest, fields.find? (·.name == name) = some field ∧ field.isSet s = false ∧
      readColon input = .ok rest ∧ field.read s depth rest = .ok (u, left)) ∨
    (∃ rest, fields.find? (·.name == name) = none ∧ readColon input = .ok rest ∧
      skipValue rest = .ok left ∧ u = s) := by
  unfold readMember at h
  dsimp only at h
  split at h
  · rename_i field hfind
    split at h
    · cases h
    · rename_i hunset
      have hread := ok_of_mapError h
      split at hread
      · cases hread
      · exact .inl ⟨field, _, hfind, by simpa using hunset, ‹_›, hread⟩
  · rename_i hfind
    have hread := ok_of_mapError h
    split at hread
    · cases hread
    · obtain ⟨rest, hskip, hsame⟩ := ok_of_map hread
      obtain ⟨rfl, rfl⟩ := Prod.mk.inj hsame
      exact .inr ⟨_, hfind, ‹_›, hskip, rfl⟩

variable (exclusive : Exclusive fields depth)

include exclusive

theorem stops_readMember {m : Member} (formed : Formed m.text) (name : String) (s : σ) :
    Stops (readMember fields depth name s) m.tail := by
  intro rest left u hrest hread
  obtain ⟨field, input, hfind, -, hcolon, hread⟩ | ⟨input, -, hcolon, hskip, -⟩ := of_readMember hread
  · obtain rfl := Except.ok.inj ((m.readColon_tail rest).symm.trans hcolon)
    exact exclusive.stops field (List.mem_of_find?_eq_some hfind) s _ formed rest _ _ hrest hread
  · obtain rfl := Except.ok.inj ((m.readColon_tail rest).symm.trans hcolon)
    exact stops_skipValue formed hrest hskip

theorem isSet_of_readMember {name : String} {input : Input}
    (h : readMember fields depth name s input = .ok (u, left)) {other : Field σ} (hother : other ∈ fields)
    (hset : other.isSet s = true) : other.isSet u = true := by
  obtain ⟨field, rest, hfind, -, -, hread⟩ | ⟨-, -, -, -, rfl⟩ := of_readMember h
  · exact exclusive.keeps field (List.mem_of_find?_eq_some hfind) other hother _ _ _ _ hread hset
  · exact hset

/-- A member with the name of a field finds it unset, and sets it. -/
theorem sets_of_readMember {name : String} {input : Input} {field : Field σ}
    (h : readMember fields depth name s input = .ok (u, left))
    (hfind : fields.find? (·.name == name) = some field) :
    field.isSet s = false ∧ field.isSet u = true := by
  obtain ⟨field', rest, hfind', hunset, -, hread⟩ | ⟨-, hnone, -⟩ := of_readMember h
  · obtain rfl := Option.some.inj (hfind.symm.trans hfind')
    exact ⟨hunset, exclusive.sets field (List.mem_of_find?_eq_some hfind) _ _ _ _ hread⟩
  · rw [hnone] at hfind
    cases hfind

/-- Of the members that are taken at most one has the name of a field, and none if the field is
set before. -/
theorem once_of_taken {name : String} {field : Field σ}
    (hfind : fields.find? (·.name == name) = some field)
    (h : Taken (readMember fields depth) s members u) :
    (field.isSet s = true → ∀ m ∈ members, ¬ m.Named name) ∧
      members.Pairwise fun m m' => ¬ (m.Named name ∧ m'.Named name) := by
  have hmem := List.mem_of_find?_eq_some hfind
  induction h with
  | nil => exact ⟨fun _ => List.forall_mem_nil _, .nil⟩
  | @cons s t u m members name' input left named takes _ ih =>
    obtain ⟨hset, hdistinct⟩ := ih
    constructor
    · intro hs
      refine List.forall_mem_cons.mpr ⟨fun hnamed => ?_, ?_⟩
      · obtain rfl := named name hnamed
        have hunset := (sets_of_readMember exclusive takes hfind).1
        rw [hs] at hunset
        cases hunset
      · exact hset (isSet_of_readMember exclusive takes hmem hs)
    · refine .cons (fun m' hm' hboth => ?_) hdistinct
      obtain rfl := named name hboth.1
      exact hset (sets_of_readMember exclusive takes hfind).2 m' hm' hboth.2

/-- **A record that is read of an object has each field in at most one member.** -/
theorem once_of_read {key name : String} {field : Field σ} {blank : σ} {finish : σ → Except Cause α}
    (hfind : fields.find? (·.name == key) = some field) {inside : Input} (hinside : Blank inside)
    (inner : ∀ m ∈ members, Formed m.text) {input rest : Input} {a : α}
    (hinput : skipBlank input =
      .char '\x7b' :: (inside ++ (separated (members.map (·.whole)) ++ .char '\x7d' :: rest)))
    (h : (record name fields blank finish).read (depth + 1) input = .ok (a, left)) :
    members.Pairwise fun m m' => ¬ (m.Named key ∧ m'.Named key) := by
  have hfuel := length_lt_fuel (members.map (·.whole)) inside (.char '\x7d') rest
  rw [List.length_map] at hfuel
  unfold record at h
  simp only [hinput] at h
  obtain ⟨middle, h⟩ := of_close h
  split at h
  · cases h
  · rename_i hfold
    obtain ⟨taken, -⟩ := taken_of_foldMembers
      (fun m hm => stops_readMember exclusive (inner m hm)) hinside hfuel hfold
    exact (once_of_taken exclusive hfind taken).2

end

end Decoder
end Json
end DeviceRelay

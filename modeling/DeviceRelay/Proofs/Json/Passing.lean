/-
# What passes over a value stops behind it

A value whose member is unknown is passed over with a list of the brackets that are open. Inside
whatever brackets it stands, to pass over a value goes on behind it, a list item by item and an
object member by member. A plain value is always passed over.

Key definitions: `Json.Passes`.
Key theorems: `Json.passes_of_formed`, `Json.stops_skipValue`, `Json.skipValue_plain`,
`Json.Decoder.takes_plain`.
-/
import DeviceRelay.Proofs.Json.Stopping

namespace DeviceRelay
namespace Json

variable {t rest left : Input}

/-- To pass over a text goes on behind it, in whatever brackets it stands. -/
def Passes (t : Input) : Prop :=
  ∀ fuel open_ rest out, Ends rest → skipWithin fuel open_ (t ++ rest) = .ok out →
    ∃ fuel left, skipBlank left = skipBlank rest ∧ skipOn fuel true open_ left = .ok out

theorem skipWithin_congr {input other : Input} (h : skipBlank input = skipBlank other) (fuel : Nat)
    (open_ : List Bracket) : skipWithin (fuel + 1) open_ input = skipWithin (fuel + 1) open_ other := by
  unfold skipWithin
  rw [h]

theorem skipWithin_number {g : Glyph} {input : Input} (h : startsNumber g = true) (hsign : g ≠ .char '-')
    (fuel : Nat) (open_ : List Bracket) : skipWithin (fuel + 1) open_ (g :: input) =
      (skipNumber (g :: input)).bind (skipOn fuel true open_) := by
  unfold skipWithin
  rw [skipBlank_of_mark (isSpace_of_startsNumber h)]
  split <;> simp_all [startsNumber]

/-- A text in quotes has as much fuel as it needs. -/
theorem skipString_whole {w : List Char} (h : Quoted w) (rest : Input) :
    skipString ((Glyph.ofText w ++ .char '"' :: rest).length + 1) (Glyph.ofText w ++ .char '"' :: rest) =
      .ok rest := by
  refine skipString_quoted h rest ?_
  rw [List.length_append, Glyph.ofText, List.length_map]
  omega

theorem skipWithin_scalar (h : Scalar t) (hrest : Ends rest) (fuel : Nat) (open_ : List Bracket) :
    skipWithin (fuel + 1) open_ (t ++ rest) = skipOn fuel true open_ rest := by
  cases h with
  | null | yes | no =>
    unfold skipWithin
    exact congrArg (Except.bind · (skipOn fuel true open_)) (readWord_ofText _ rest)
  | number numeral =>
    cases numeral with
    | positive unsigned =>
      have hskip := skipNumber_unsigned unsigned hrest
      obtain ⟨c, more, rfl, hc⟩ := exists_of_unsigned unsigned
      have hsign : Glyph.char c ≠ .char '-' := by
        rintro ⟨⟩
        cases hc
      rw [ofText_cons, List.cons_append] at hskip ⊢
      rw [skipWithin_number (startsNumber_of_isDigit hc) hsign, hskip]
      rfl
    | negative unsigned =>
      unfold skipWithin
      exact congrArg (Except.bind · (skipOn fuel true open_)) (skipNumber_unsigned unsigned hrest)
  | @text w quoted =>
    have hskip := skipString_whole quoted rest
    rw [List.cons_append, List.append_assoc, List.singleton_append]
    unfold skipWithin
    exact congrArg (Except.bind · (skipOn fuel true open_)) hskip

/-- **A plain value is passed over.** -/
theorem skipValue_plain (h : Plain t) (hrest : Ends rest) :
    ∃ left, skipValue (t ++ rest) = .ok left ∧ skipBlank left = skipBlank rest := by
  obtain ⟨blankBefore, scalar, blankAfter⟩ := h
  refine ⟨_, ?_, skipBlank_append blankAfter rest⟩
  unfold skipValue
  rw [List.append_assoc, List.append_assoc, skipWithin_congr (skipBlank_append blankBefore _),
    skipWithin_scalar scalar (ends_blank blankAfter hrest)]
  rfl

section

variable {open_ : List Bracket} {out : Input}

theorem passes_followed_items {items : List Input} (h : ∀ item ∈ items, Passes item) {fuel : Nat}
    {input : Input} (hinput : skipBlank input = skipBlank (followed items ++ .char ']' :: rest))
    (hskip : skipOn fuel true (.list :: open_) input = .ok out) :
    ∃ fuel, skipOn fuel true open_ rest = .ok out := by
  induction items generalizing fuel input with
  | nil =>
    cases fuel with
    | zero => cases hskip
    | succ fuel =>
      have hclose : skipBlank input = .char ']' :: rest :=
        hinput.trans (skipBlank_of_mark (by decide) rest)
      rw [skipOn, hclose] at hskip
      exact ⟨fuel, hskip⟩
  | cons item items ih =>
    cases fuel with
    | zero => cases hskip
    | succ fuel =>
      obtain ⟨hitem, hitems⟩ := List.forall_mem_cons.mp h
      rw [followed_cons, skipBlank_of_mark (by decide)] at hinput
      rw [skipOn, hinput] at hskip
      obtain ⟨fuel, middle, hmiddle, hskip⟩ :=
        hitem _ _ _ _ (ends_followed (ends_bracket rest) _) hskip
      exact ih hitems hmiddle hskip

theorem passes_items {inside : Input} (blank : Blank inside) {items : List Input}
    (h : ∀ item ∈ items, Formed item ∧ Passes item) {fuel : Nat}
    (hskip : skipOn fuel false (.list :: open_)
      (inside ++ (separated items ++ .char ']' :: rest)) = .ok out) :
    ∃ fuel, skipOn fuel true open_ rest = .ok out := by
  cases fuel with
  | zero => cases hskip
  | succ fuel =>
    cases items with
    | nil =>
      have hclose : skipBlank (inside ++ .char ']' :: rest) = .char ']' :: rest := by
        rw [skipBlank_append blank, skipBlank_of_mark (by decide)]
      simp only [separated, List.nil_append] at hskip
      rw [skipOn, hclose] at hskip
      exact ⟨fuel, hskip⟩
    | cons item items =>
      obtain ⟨⟨formed, hitem⟩, hitems⟩ := List.forall_mem_cons.mp h
      obtain ⟨g, more, hstart, hclose, hcomma⟩ := formed.starts (followed items ++ .char ']' :: rest)
      rw [separated, List.append_assoc, skipOn, skipBlank_append blank, hstart] at hskip
      have hwithin : skipWithin fuel (.list :: open_) (g :: more) = .ok out := by
        split at hskip <;> simp_all
      cases fuel with
      | zero => cases hwithin
      | succ fuel =>
        rw [← hstart, skipWithin_congr (skipBlank_idem _)] at hwithin
        obtain ⟨fuel, middle, hmiddle, hskip⟩ :=
          hitem _ _ _ _ (ends_followed (ends_bracket rest) _) hwithin
        exact passes_followed_items (fun item hitem => (hitems item hitem).2) hmiddle hskip

theorem of_skipMember {m : Member} {fuel : Nat} {input : Input}
    (hinput : skipBlank input = skipBlank (m.whole ++ rest))
    (hskip : skipMember fuel open_ input = .ok out) :
    ∃ fuel, skipWithin fuel (.object :: open_) (m.text ++ rest) = .ok out := by
  cases fuel with
  | zero => cases hskip
  | succ fuel =>
    have hstring := skipString_whole m.quoted (m.tail ++ rest)
    rw [skipMember, hinput, m.skipBlank_whole] at hskip
    simp only [hstring, m.readColon_tail] at hskip
    exact ⟨fuel, hskip⟩

theorem passes_followed_members {members : List Member} (h : ∀ m ∈ members, Passes m.text) {fuel : Nat}
    {input : Input} (hinput : skipBlank input =
      skipBlank (followed (members.map (·.whole)) ++ .char '\x7d' :: rest))
    (hskip : skipOn fuel true (.object :: open_) input = .ok out) :
    ∃ fuel, skipOn fuel true open_ rest = .ok out := by
  induction members generalizing fuel input with
  | nil =>
    cases fuel with
    | zero => cases hskip
    | succ fuel =>
      have hclose : skipBlank input = .char '\x7d' :: rest :=
        hinput.trans (skipBlank_of_mark (by decide) rest)
      rw [skipOn, hclose] at hskip
      exact ⟨fuel, hskip⟩
  | cons m members ih =>
    cases fuel with
    | zero => cases hskip
    | succ fuel =>
      obtain ⟨hm, hmembers⟩ := List.forall_mem_cons.mp h
      rw [List.map_cons, followed_cons, skipBlank_of_mark (by decide)] at hinput
      rw [skipOn, hinput] at hskip
      obtain ⟨fuel, hwithin⟩ := of_skipMember rfl hskip
      obtain ⟨fuel, middle, hmiddle, hskip⟩ :=
        hm _ _ _ _ (ends_followed (ends_brace rest) _) hwithin
      exact ih hmembers hmiddle hskip

theorem passes_members {inside : Input} (blank : Blank inside) {members : List Member}
    (h : ∀ m ∈ members, Passes m.text) {fuel : Nat}
    (hskip : skipOn fuel false (.object :: open_)
      (inside ++ (separated (members.map (·.whole)) ++ .char '\x7d' :: rest)) = .ok out) :
    ∃ fuel, skipOn fuel true open_ rest = .ok out := by
  cases fuel with
  | zero => cases hskip
  | succ fuel =>
    cases members with
    | nil =>
      have hclose : skipBlank (inside ++ .char '\x7d' :: rest) = .char '\x7d' :: rest := by
        rw [skipBlank_append blank, skipBlank_of_mark (by decide)]
      simp only [separated, List.map_nil, List.nil_append] at hskip
      rw [skipOn, hclose] at hskip
      exact ⟨fuel, hskip⟩
    | cons m members =>
      obtain ⟨hm, hmembers⟩ := List.forall_mem_cons.mp h
      have hstart := m.skipBlank_whole (followed (members.map (·.whole)) ++ .char '\x7d' :: rest)
      rw [List.map_cons, separated, List.append_assoc, skipOn, skipBlank_append blank, hstart] at hskip
      have hmember : skipMember fuel open_ (.char '"' :: _) = .ok out := hskip
      rw [← hstart] at hmember
      obtain ⟨fuel, hwithin⟩ := of_skipMember (skipBlank_idem _) hmember
      obtain ⟨fuel, middle, hmiddle, hskip⟩ :=
        hm _ _ _ _ (ends_followed (ends_brace rest) _) hwithin
      exact passes_followed_members hmembers hmiddle hskip

end

theorem passes_of_formed (h : Formed t) : Passes t := by
  induction h with
  | scalar scalar =>
    intro fuel open_ rest out hrest hskip
    cases fuel with
    | zero => cases hskip
    | succ fuel =>
      rw [skipWithin_scalar scalar hrest] at hskip
      exact ⟨fuel, rest, rfl, hskip⟩
  | @arr inside items blank inner ih =>
    intro fuel open_ rest out hrest hskip
    cases fuel with
    | zero => cases hskip
    | succ fuel =>
      simp only [List.cons_append, List.append_assoc, List.nil_append] at hskip
      rw [skipWithin, skipBlank_of_mark (by decide)] at hskip
      obtain ⟨fuel, hskip⟩ := passes_items blank (fun item hitem => ⟨inner item hitem, ih item hitem⟩) hskip
      exact ⟨fuel, rest, rfl, hskip⟩
  | @obj inside members blank inner ih =>
    intro fuel open_ rest out hrest hskip
    cases fuel with
    | zero => cases hskip
    | succ fuel =>
      simp only [List.cons_append, List.append_assoc, List.nil_append] at hskip
      rw [skipWithin, skipBlank_of_mark (by decide)] at hskip
      obtain ⟨fuel, hskip⟩ := passes_members blank ih hskip
      exact ⟨fuel, rest, rfl, hskip⟩
  | @padded before t after blankBefore _ blankAfter ih =>
    intro fuel open_ rest out hrest hskip
    cases fuel with
    | zero => cases hskip
    | succ fuel =>
      rw [List.append_assoc, List.append_assoc, skipWithin_congr (skipBlank_append blankBefore _)] at hskip
      obtain ⟨fuel, left, hleft, hskip⟩ := ih _ _ _ _ (ends_blank blankAfter hrest) hskip
      exact ⟨fuel, left, hleft.trans (skipBlank_append blankAfter rest), hskip⟩

/-- **What passes over a value stops behind it.** -/
theorem stops_skipValue (h : Formed t) (hrest : Ends rest) (hskip : skipValue (t ++ rest) = .ok left) :
    skipBlank left = skipBlank rest := by
  obtain ⟨fuel, middle, hmiddle, hdone⟩ := passes_of_formed h _ _ _ _ hrest hskip
  cases fuel with
  | zero => cases hdone
  | succ fuel =>
    obtain rfl := Except.ok.inj hdone
    exact hmiddle

/-- A record passes over a member that none of its fields takes. -/
theorem Decoder.takes_plain {σ : Type} {fields : List (Field σ)} {depth : Nat} {e : Entry} {s : σ}
    (hfind : fields.find? (·.name == e.name) = none) (h : Plain e.text) :
    Reads (Decoder.readMember fields depth e.name s) s e.tail := by
  intro rest hrest
  obtain ⟨left, hskip, hleft⟩ := skipValue_plain h hrest
  refine ⟨left, ?_, hleft⟩
  unfold Decoder.readMember
  simp only [hfind, e.readColon_tail, hskip]
  rfl

end Json
end DeviceRelay

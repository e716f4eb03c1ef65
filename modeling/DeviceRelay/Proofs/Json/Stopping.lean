/-
# A reader stops nowhere but behind a value

Whatever value stands at the front of a text, a reader that gives something stops behind the
value. So of an object all members are met, each with the name that it spells, and none is taken
for a part of another.

Key definitions: `Json.Stops`, `Json.Taken`.
Key theorems: `Json.taken_of_foldMembers`, `Json.stops_readValue`.
-/
import DeviceRelay.Proofs.Json.Decoding
import DeviceRelay.Proofs.Json.Grammar

namespace DeviceRelay
namespace Json

variable {α β σ : Type} {t rest left before after : Input} {depth : Nat}

/-! ### Readers and white space -/

/-- A reader that gives something of a text stops behind it, whatever follows that ends it. -/
def Stops (read : Input → Read α) (t : Input) : Prop :=
  ∀ rest left a, Ends rest → read (t ++ rest) = .ok (a, left) → skipBlank left = skipBlank rest

/-- White space in front does not matter. -/
def Unspaced (read : Input → β) : Prop :=
  ∀ input other, skipBlank input = skipBlank other → read input = read other

theorem Stops.padded {read : Input → Read α} (unspaced : Unspaced read) (blankBefore : Blank before)
    (h : Stops read t) (blankAfter : Blank after) : Stops read (before ++ (t ++ after)) := by
  intro rest left a hrest hread
  rw [List.append_assoc, List.append_assoc, unspaced _ _ (skipBlank_append blankBefore _)] at hread
  rw [h _ _ _ (ends_blank blankAfter hrest) hread, skipBlank_append blankAfter]

theorem Reads.padded {read : Input → Read α} (unspaced : Unspaced read) {a : α}
    (blankBefore : Blank before) (h : Reads read a t) (blankAfter : Blank after) :
    Reads read a (before ++ (t ++ after)) := by
  intro rest hrest
  obtain ⟨left, hread, hleft⟩ := h (after ++ rest) (ends_blank blankAfter hrest)
  refine ⟨left, ?_, hleft.trans (skipBlank_append blankAfter rest)⟩
  rw [List.append_assoc, List.append_assoc, unspaced _ _ (skipBlank_append blankBefore _)]
  exact hread

theorem Stops.map {read : Input → Read α} (h : Stops read t) (f : α → β) :
    Stops (fun input => (read input).map fun (a, rest) => (f a, rest)) t := by
  intro rest left b hrest hread
  obtain ⟨a, hok, hb⟩ := ok_of_map hread
  obtain ⟨-, rfl⟩ := Prod.mk.inj hb
  exact h rest _ _ hrest hok

theorem Formed.starts (h : Formed t) (rest : Input) :
    ∃ g more, skipBlank (t ++ rest) = g :: more ∧ g ≠ .char ']' ∧ g ≠ .char ',' := by
  induction h generalizing rest with
  | scalar scalar =>
    cases scalar with
    | null | yes | no | text => exact ⟨_, _, skipBlank_of_mark (by decide) _, by decide, by decide⟩
    | number numeral =>
      obtain ⟨c, more, rfl, hc⟩ := exists_of_numeral numeral
      refine ⟨_, _, skipBlank_of_mark (isSpace_of_startsNumber hc) _, ?_, ?_⟩
      · rintro ⟨⟩
        cases hc
      · rintro ⟨⟩
        cases hc
  | arr | obj => exact ⟨_, _, skipBlank_of_mark (by decide) _, by decide, by decide⟩
  | @padded before t after blankBefore _ blankAfter ih =>
    rw [List.append_assoc, List.append_assoc, skipBlank_append blankBefore]
    exact ih (after ++ rest)

/-! ### Members -/

namespace Member

theorem skipBlank_whole (m : Member) (rest : Input) : skipBlank (m.whole ++ rest) =
    .char '"' :: (Glyph.ofText m.spelling ++ .char '"' :: (m.tail ++ rest)) := by
  unfold whole
  simp only [List.append_assoc, List.cons_append]
  exact skipBlank_quote m.blankBefore _

theorem readColon_tail (m : Member) (rest : Input) :
    readColon (m.tail ++ rest) = .ok (m.text ++ rest) := by
  unfold tail
  rw [List.append_assoc, List.cons_append]
  exact readColon_between m.blankBetween _

/-- What stops behind the value of a member stops behind its tail. -/
theorem stops_tail (m : Member) {read : Input → Read α} (h : Stops read m.text) :
    Stops (fun input => match readColon input with
      | .error fault => .error fault
      | .ok input => read input) m.tail := by
  intro rest left a hrest hread
  simp only [m.readColon_tail] at hread
  exact h rest left a hrest hread

end Member

/-- Members are taken one by one, each under the name that is read of it. -/
inductive Taken (member : String → σ → Input → Read σ) : σ → List Member → σ → Prop where
  | nil (s : σ) : Taken member s [] s
  | cons {s t u : σ} {m : Member} {members : List Member} {name : String} {input left : Input}
    (named : ∀ other, m.Named other → name = other) (takes : member name s input = .ok (t, left))
    (more : Taken member t members u) : Taken member s (m :: members) u

section

variable {member : String → σ → Input → Read σ} {members : List Member} {s u : σ}

/-- A fold that goes on behind a member has read its name and taken it. -/
theorem of_foldMembers_member {m : Member} {fuel : Nat} {first : Bool} {input : Input}
    (hnext : nextName first input = .ok (true, skipBlank (m.whole ++ rest)))
    (h : foldMembers member (fuel + 1) first s input = .ok (u, left)) :
    ∃ name t middle, (∀ other, m.Named other → name = other) ∧
      member name s (m.tail ++ rest) = .ok (t, middle) ∧
      foldMembers member fuel false t middle = .ok (u, left) := by
  rw [foldMembers, hnext, m.skipBlank_whole] at h
  simp only [List.drop_succ_cons, List.drop_zero] at h
  split at h
  · cases h
  · rename_i name behind hname
    obtain rfl := rest_of_readString m.quoted hname
    split at h
    · cases h
    · rename_i t middle htaken
      refine ⟨name, t, middle, fun other hother => ?_, htaken, h⟩
      have hsame := (readString_spells hother _).symm.trans hname
      exact (Prod.mk.inj (Except.ok.inj hsame)).1.symm

theorem taken_of_foldMembers_followed
    (hstops : ∀ m ∈ members, ∀ name s, Stops (member name s) m.tail) {input : Input} {fuel : Nat}
    (hfuel : members.length < fuel) (hinput : skipBlank input =
      skipBlank (followed (members.map (·.whole)) ++ .char '\x7d' :: rest))
    (h : foldMembers member fuel false s input = .ok (u, left)) :
    Taken member s members u ∧ left = .char '\x7d' :: rest := by
  induction members generalizing s input fuel with
  | nil =>
    obtain ⟨fuel, rfl⟩ := Nat.exists_eq_add_one_of_ne_zero (Nat.ne_zero_of_lt hfuel)
    have hclose : skipBlank input = .char '\x7d' :: rest :=
      hinput.trans (skipBlank_of_mark (by decide) rest)
    rw [foldMembers, nextName, hclose] at h
    obtain ⟨rfl, rfl⟩ := Prod.mk.inj (Except.ok.inj h)
    exact ⟨.nil s, rfl⟩
  | cons m members ih =>
    obtain ⟨fuel, rfl⟩ := Nat.exists_eq_add_one_of_ne_zero (Nat.ne_zero_of_lt hfuel)
    obtain ⟨hm, hmembers⟩ := List.forall_mem_cons.mp hstops
    rw [List.map_cons, followed_cons, skipBlank_of_mark (by decide)] at hinput
    have hnext := nextName_quote_comma hinput (m.skipBlank_whole _)
    rw [← m.skipBlank_whole] at hnext
    obtain ⟨name, t, middle, named, takes, h⟩ := of_foldMembers_member hnext h
    have hmiddle := hm name s _ _ _ (ends_followed (ends_brace rest) _) takes
    obtain ⟨more, hleft⟩ := ih hmembers (by simp at hfuel; omega) hmiddle h
    exact ⟨.cons named takes more, hleft⟩

/-- **All members of an object are taken**, up to its closing brace. -/
theorem taken_of_foldMembers (hstops : ∀ m ∈ members, ∀ name s, Stops (member name s) m.tail)
    {inside : Input} (blank : Blank inside) {fuel : Nat} (hfuel : members.length < fuel)
    (h : foldMembers member fuel true s
      (inside ++ (separated (members.map (·.whole)) ++ .char '\x7d' :: rest)) = .ok (u, left)) :
    Taken member s members u ∧ left = .char '\x7d' :: rest := by
  obtain ⟨fuel, rfl⟩ := Nat.exists_eq_add_one_of_ne_zero (Nat.ne_zero_of_lt hfuel)
  cases members with
  | nil =>
    have hclose : skipBlank (inside ++ .char '\x7d' :: rest) = .char '\x7d' :: rest := by
      rw [skipBlank_append blank, skipBlank_of_mark (by decide)]
    simp only [separated, List.map_nil, List.nil_append] at h
    rw [foldMembers, nextName, hclose] at h
    obtain ⟨rfl, rfl⟩ := Prod.mk.inj (Except.ok.inj h)
    exact ⟨.nil s, rfl⟩
  | cons m members =>
    obtain ⟨hm, hmembers⟩ := List.forall_mem_cons.mp hstops
    rw [List.map_cons, separated, List.append_assoc] at h
    have hnext := nextName_quote_first blank (m.skipBlank_whole
      (followed (members.map (·.whole)) ++ .char '\x7d' :: rest))
    rw [← m.skipBlank_whole] at hnext
    obtain ⟨name, t, middle, named, takes, h⟩ := of_foldMembers_member hnext h
    have hmiddle := hm name s _ _ _ (ends_followed (ends_brace rest) _) takes
    obtain ⟨more, hleft⟩ :=
      taken_of_foldMembers_followed hmembers (by simp at hfuel; omega) hmiddle h
    exact ⟨.cons named takes more, hleft⟩

end

/-! ### Values -/

section

variable {items : List Input} (hitems : ∀ item ∈ items, Formed item ∧ Stops (readValue depth) item)

theorem of_foldItems_item {fuel i : Nat} {taken values : List Value} {input behind : Input}
    (hnext : nextItem (i == 0) input = .ok (true, skipBlank behind))
    (h : foldItems (collect depth) (fuel + 1) i taken input = .ok (values, left)) :
    ∃ v middle, readValue depth behind = .ok (v, middle) ∧
      foldItems (collect depth) fuel (i + 1) (v :: taken) middle = .ok (values, left) := by
  rw [foldItems, hnext] at h
  dsimp only at h
  split at h
  · cases h
  · rename_i hitem
    obtain ⟨⟨v, middle⟩, hread, hsame⟩ := ok_of_map hitem
    obtain ⟨rfl, rfl⟩ := Prod.mk.inj hsame
    rw [readValue_congr (skipBlank_idem behind)] at hread
    exact ⟨v, _, hread, h⟩

include hitems

theorem rest_of_foldItems_followed {i : Nat} (hi : (i == 0) = false) {taken values : List Value}
    {input : Input} {fuel : Nat} (hfuel : items.length < fuel)
    (hinput : skipBlank input = skipBlank (followed items ++ .char ']' :: rest))
    (h : foldItems (collect depth) fuel i taken input = .ok (values, left)) :
    left = .char ']' :: rest := by
  induction items generalizing i taken input fuel with
  | nil =>
    obtain ⟨fuel, rfl⟩ := Nat.exists_eq_add_one_of_ne_zero (Nat.ne_zero_of_lt hfuel)
    have hclose : skipBlank input = .char ']' :: rest :=
      hinput.trans (skipBlank_of_mark (by decide) rest)
    rw [foldItems, nextItem_close _ hclose] at h
    exact (Prod.mk.inj (Except.ok.inj h)).2.symm
  | cons item items ih =>
    obtain ⟨fuel, rfl⟩ := Nat.exists_eq_add_one_of_ne_zero (Nat.ne_zero_of_lt hfuel)
    obtain ⟨⟨formed, stops⟩, hitems⟩ := List.forall_mem_cons.mp hitems
    rw [followed_cons, skipBlank_of_mark (by decide)] at hinput
    obtain ⟨g, more, hstart, hclose, -⟩ := formed.starts (followed items ++ .char ']' :: rest)
    have hnext := nextItem_comma hinput hstart hclose
    rw [← hi, ← hstart] at hnext
    obtain ⟨v, middle, hread, h⟩ := of_foldItems_item hnext h
    have hmiddle := stops _ _ _ (ends_followed (ends_bracket rest) _) hread
    exact ih hitems rfl (by simp at hfuel; omega) hmiddle h

/-- All items of a list are read, up to its closing bracket. -/
theorem rest_of_foldItems {inside : Input} (blank : Blank inside) {values : List Value} {fuel : Nat}
    (hfuel : items.length < fuel) (h : foldItems (collect depth) fuel 0 []
      (inside ++ (separated items ++ .char ']' :: rest)) = .ok (values, left)) :
    left = .char ']' :: rest := by
  obtain ⟨fuel, rfl⟩ := Nat.exists_eq_add_one_of_ne_zero (Nat.ne_zero_of_lt hfuel)
  cases items with
  | nil =>
    have hclose : skipBlank (inside ++ .char ']' :: rest) = .char ']' :: rest := by
      rw [skipBlank_append blank, skipBlank_of_mark (by decide)]
    simp only [separated, List.nil_append] at h
    rw [foldItems, nextItem_close _ hclose] at h
    exact (Prod.mk.inj (Except.ok.inj h)).2.symm
  | cons item items =>
    obtain ⟨⟨formed, stops⟩, hitems⟩ := List.forall_mem_cons.mp hitems
    rw [separated, List.append_assoc] at h
    obtain ⟨g, more, hstart, hclose, hcomma⟩ := formed.starts (followed items ++ .char ']' :: rest)
    have hnext := nextItem_first ((skipBlank_append blank _).trans hstart) hclose hcomma
    rw [← hstart] at hnext
    obtain ⟨v, middle, hread, h⟩ := of_foldItems_item (i := 0) hnext h
    have hmiddle := stops _ _ _ (ends_followed (ends_bracket rest) _) hread
    exact rest_of_foldItems_followed hitems rfl (by simp at hfuel; omega) hmiddle h

end

theorem rest_of_readWord {word : List Char}
    (h : readWord word (Glyph.ofText word ++ rest) = .ok left) : left = rest := by
  rw [readWord_ofText] at h
  exact (Except.ok.inj h).symm

theorem readValue_quote (depth : Nat) (input : Input) :
    readValue depth (.char '"' :: input) = (readString input).map fun (s, rest) => (.str s, rest) := by
  unfold readValue
  rw [readValueWith]
  rfl

theorem stops_readValue_scalar (h : Scalar t) (depth : Nat) : Stops (readValue depth) t := by
  intro rest left v hrest hread
  cases h with
  | null | yes | no =>
    unfold readValue readValueWith at hread
    obtain ⟨middle, hword, hsame⟩ := ok_of_map hread
    obtain ⟨-, rfl⟩ := Prod.mk.inj hsame
    rw [rest_of_readWord hword]
  | number numeral =>
    obtain ⟨c, more, rfl, hc⟩ := exists_of_numeral numeral
    rw [ofText_cons, List.cons_append, readValue_number depth hc] at hread
    obtain ⟨⟨n, middle⟩, hsigned, hsame⟩ := ok_of_map hread
    obtain ⟨-, rfl⟩ := Prod.mk.inj hsame
    rw [rest_of_readSigned numeral hrest hsigned]
  | text quoted =>
    rw [List.cons_append, List.append_assoc, List.singleton_append, readValue_quote] at hread
    obtain ⟨⟨s, middle⟩, hstring, hsame⟩ := ok_of_map hread
    obtain ⟨-, rfl⟩ := Prod.mk.inj hsame
    rw [rest_of_readString quoted hstring]

/-- **A reader of values stops behind the value.** -/
theorem stops_readValue (h : Formed t) (depth : Nat) : Stops (readValue depth) t := by
  induction h generalizing depth with
  | scalar scalar => exact stops_readValue_scalar scalar depth
  | @arr inside items blank inner ih =>
    intro rest left v hrest hread
    cases depth with
    | zero => cases hread
    | succ depth =>
      have hitems : ∀ item ∈ items, Formed item ∧ Stops (readValue depth) item :=
        fun item hitem => ⟨inner item hitem, ih item hitem depth⟩
      have hfuel := length_lt_fuel items inside (.char ']') rest
      simp only [List.cons_append, List.append_assoc, List.nil_append] at hread
      rw [readValue_bracket] at hread
      split at hread
      · cases hread
      · rename_i hfold
        obtain rfl := rest_of_foldItems hitems blank hfuel hfold
        rw [endList_close] at hread
        obtain ⟨-, rfl⟩ := Prod.mk.inj (Except.ok.inj hread)
        rfl
  | @obj inside members blank inner ih =>
    intro rest left v hrest hread
    cases depth with
    | zero => cases hread
    | succ depth =>
      have hmembers : ∀ m ∈ members, ∀ name taken, Stops (gather depth name taken) m.tail := by
        intro m hm name taken rest left taken' hrest hread
        unfold gather at hread
        dsimp only at hread
        split at hread
        · cases hread
        · rename_i hvalue
          obtain ⟨-, rfl⟩ := Prod.mk.inj (Except.ok.inj hread)
          exact m.stops_tail (ih m hm depth) rest _ _ hrest hvalue
      have hfuel := length_lt_fuel (members.map (·.whole)) inside (.char '\x7d') rest
      rw [List.length_map] at hfuel
      simp only [List.cons_append, List.append_assoc, List.nil_append] at hread
      rw [readValue_brace] at hread
      split at hread
      · cases hread
      · rename_i hfold
        obtain ⟨-, rfl⟩ := taken_of_foldMembers hmembers blank hfuel hfold
        rw [endObject_close] at hread
        obtain ⟨-, rfl⟩ := Prod.mk.inj (Except.ok.inj hread)
        rfl
  | padded blankBefore _ blankAfter ih =>
    exact (ih depth).padded (fun _ _ h => readValue_congr h depth) blankBefore blankAfter

end Json
end DeviceRelay

/-
# A value that is read is in normal form, and no longer than the text

A number that is read is whole and within 64 bits, or a double that is a number: its digits
are at most `2 ^ 64`, a power of ten that makes it larger is checked, and one that makes it
smaller divides by a double of at least one. A text, a list or an object that is read has no
more parts than the text it is read of, and its parts are read with one bracket fewer to open.
So every value that is read is in normal form, with lengths that the text bounds and a height
that the reader bounds.

Key definitions: `Json.Yields`, `Json.Within`, `Json.Value.Readable`, `Json.Value.ReadableTo`.
Key theorems: `Json.yields_foldItems`, `Json.yields_foldMembers`, `Json.fits_readSigned`,
`Json.readableTo_readValue`.
-/
import DeviceRelay.Proofs.Json.Extent
import DeviceRelay.Proofs.Json.Values
import DeviceRelay.Proofs.Number.Double

namespace DeviceRelay
namespace Json

/-! ### Outcomes -/

/-- Whatever is read and left has a property. -/
def Yields {α : Type} (P : α → Input → Prop) : Read α → Prop
  | .ok (a, rest) => P a rest
  | .error _ => True

/-- A property of what is read, where at most `n` glyphs are left. -/
def Within {α : Type} (n : Nat) (P : α → Prop) (a : α) (rest : Input) : Prop :=
  P a ∧ rest.length ≤ n

section

variable {α β σ : Type} {P : α → Input → Prop} {Q : β → Input → Prop}

theorem yields_error (fault : Fault) : Yields P (.error fault) := trivial

theorem yields_of {r : Read α} (h : ∀ a rest, r = .ok (a, rest) → P a rest) : Yields P r := by
  cases r with
  | error fault => trivial
  | ok read => exact h read.1 read.2 rfl

theorem Yields.of_ok {r : Read α} (h : Yields P r) {a : α} {rest : Input}
    (hr : r = .ok (a, rest)) : P a rest := by
  subst hr
  exact h

theorem Yields.map {r : Read α} (h : Yields P r) {f : α → β}
    (hf : ∀ a rest, P a rest → Q (f a) rest) :
    Yields Q (r.map fun (a, rest) => (f a, rest)) := by
  cases r with
  | error fault => trivial
  | ok read => exact hf read.1 read.2 h

theorem Yields.mapError {r : Read α} (h : Yields P r) (f : Fault → Fault) :
    Yields P (r.mapError f) := by
  cases r with
  | error fault => trivial
  | ok read => exact h

theorem yields_map_rest {r : Except Fault Input} {a : α} (h : ∀ rest, r = .ok rest → P a rest) :
    Yields P (r.map fun rest => (a, rest)) := by
  cases r with
  | error fault => trivial
  | ok rest => exact h rest rfl

/-! ### Folds -/

variable {n m : Nat} {S : Nat → σ → Prop} (hmono : ∀ k state, S k state → S (k + 1) state)

include hmono

theorem holds_of_le {k : Nat} {state : σ} (h : S k state) (hle : k ≤ m) : S m state := by
  induction hle with
  | refl => exact h
  | step _ ih => exact hmono _ state ih

/-- What each item preserves holds after all of them, of which there are no more than the fuel
allows. -/
theorem yields_foldItems {item : Nat → σ → Input → Read σ}
    (hitem : ∀ i k state input, input.length ≤ n → S k state →
      Yields (Within n (S (k + 1))) (item i state input))
    {fuel i k : Nat} (hm : k + fuel ≤ m) {state : σ} (hstate : S k state) {input : Input}
    (hinput : input.length ≤ n) : Yields (Within n (S m)) (foldItems item fuel i state input) := by
  induction fuel generalizing i k state input with
  | zero => exact ⟨holds_of_le hmono hstate hm, hinput⟩
  | succ fuel ih =>
    rw [foldItems]
    split
    · exact yields_error _
    · rename_i hdone
      exact ⟨holds_of_le hmono hstate (by omega), Nat.le_trans (length_nextItem hdone) hinput⟩
    · rename_i rest hnext
      have hread := hitem i k state rest (Nat.le_trans (length_nextItem hnext) hinput) hstate
      split
      · exact yields_error _
      · rename_i hok
        obtain ⟨hstate, hrest⟩ := hread.of_ok hok
        exact ih (by omega) hstate hrest

/-- What each member preserves holds after all of them. Its name is no longer than the text. -/
theorem yields_foldMembers {member : String → σ → Input → Read σ}
    (hmember : ∀ name k state input, name.toList.length ≤ n → input.length ≤ n → S k state →
      Yields (Within n (S (k + 1))) (member name state input))
    {fuel : Nat} {first : Bool} {k : Nat} (hm : k + fuel ≤ m) {state : σ} (hstate : S k state)
    {input : Input} (hinput : input.length ≤ n) :
    Yields (Within n (S m)) (foldMembers member fuel first state input) := by
  induction fuel generalizing first k state input with
  | zero => exact ⟨holds_of_le hmono hstate hm, hinput⟩
  | succ fuel ih =>
    rw [foldMembers]
    split
    · exact yields_error _
    · rename_i hdone
      exact ⟨holds_of_le hmono hstate (by omega), Nat.le_trans (length_nextName hdone) hinput⟩
    · rename_i named hnext
      have hnamed : (named.drop 1).length ≤ n := by
        rw [List.length_drop]
        exact Nat.le_trans (Nat.sub_le ..) (Nat.le_trans (length_nextName hnext) hinput)
      split
      · exact yields_error _
      · rename_i name rest hname
        have hlengths : name.toList.length ≤ n ∧ rest.length ≤ n := by
          have hshorter := length_readString hname
          omega
        have hread := hmember name k state rest hlengths.1 hlengths.2 hstate
        split
        · exact yields_error _
        · rename_i hok
          obtain ⟨hstate, hrest⟩ := hread.of_ok hok
          exact ih (by omega) hstate hrest

end

/-! ### Numbers -/

theorem absorb_lt {n : Nat} (h : n < twoTo 64) (digits : List Nat) :
    (absorb n digits).1 < twoTo 64 := by
  induction digits generalizing n with
  | nil => exact h
  | cons d rest ih =>
    rw [absorb]
    split
    · rename_i hlt
      exact ih hlt
    · exact h

/-- **To scale by a power of ten gives a number**, as only what is made larger can leave the
range, and that is checked. -/
theorem isFinite_scaleByTen {fuel : Nat} {x y : Double} {exponent : Int} (hx : Double.AtMost 64 x)
    (h : scaleByTen fuel x exponent = some y) : y.isFinite = true := by
  have hfinite {z : Double} : Double.AtMost 64 z → z.isFinite = true :=
    Double.isFinite_of_atMost (by decide)
  induction fuel generalizing x exponent with
  | zero =>
    obtain rfl := Option.some.inj h
    exact hfinite hx
  | succ fuel ih =>
    have hdiv (k : Nat) : Double.AtMost 64 (x.div (Double.ofNat (tenTo k))) :=
      Double.atMost_div hx (Double.atLeastOne_ofNat (tenTo_pos k))
    rw [scaleByTen] at h
    split at h
    · split at h
      · obtain ⟨hproduct, h⟩ := Option.ite_none_right_eq_some.mp h
        obtain rfl := Option.some.inj h
        exact hproduct
      · obtain rfl := Option.some.inj h
        exact hfinite (hdiv _)
    · split at h
      · obtain rfl := Option.some.inj h
        exact hfinite hx
      · split at h
        · cases h
        · exact ih (hdiv 308) h

theorem fits_assemble (negative : Bool) {n : Nat} (h : n < twoTo 64) (exponent : Int)
    (rest : Input) : Yields (fun x _ => x.Fits) (assemble negative n exponent rest) := by
  unfold assemble
  split
  · rename_i x hx
    have hfinite : x.isFinite = true :=
      isFinite_scaleByTen (Double.atMost_ofNat (Nat.le_of_lt h)) hx
    cases negative with
    | false => exact hfinite
    | true => exact (Double.isFinite_neg x).trans hfinite
  · exact yields_error _

theorem fits_readExponent (negative : Bool) {n : Nat} (h : n < twoTo 64) (start : Int)
    (input : Input) : Yields (fun x _ => x.Fits) (readExponent negative n start input) := by
  unfold readExponent
  split
  split
  · exact yields_error _
  · split
    · exact yields_error _
    · split
      · exact fits_assemble negative h _ _
      · split
        · exact yields_error _
        · exact Double.isFinite_zero negative

theorem fits_readFraction (negative : Bool) {n : Nat} (h : n < twoTo 64) (start : Nat)
    (input : Input) : Yields (fun x _ => x.Fits) (readFraction negative n start input) := by
  unfold readFraction
  dsimp only
  split
  · exact yields_error _
  · have hn := absorb_lt h (readDigits input).1
    split
    · split
      · exact fits_readExponent negative hn _ _
      · exact fits_assemble negative hn _ _
    · exact fits_assemble negative hn _ _

theorem fits_wholeNumber (negative : Bool) {n : Nat} (h : n < twoTo 64) :
    (wholeNumber negative n).Fits := by
  have h64 : (n : Int) < (twoTo 64 : Int) := Int.ofNat_lt.mpr h
  have hsmall : (0 : Int) ≤ (twoTo 63 : Int) := Int.natCast_nonneg _
  unfold wholeNumber
  split
  · exact ⟨by omega, h64⟩
  · split
    · rename_i hn
      have h63 : (n : Int) ≤ (twoTo 63 : Int) := Int.ofNat_le.mpr hn.2
      exact ⟨by omega, by omega⟩
    · have hfinite := Double.isFinite_of_atMost (by decide) (Double.atMost_ofNat (Nat.le_of_lt h))
      exact (Double.isFinite_neg _).trans hfinite

theorem fits_readNumber (negative : Bool) (input : Input) :
    Yields (fun x _ => x.Fits) (readNumber negative input) := by
  unfold readNumber
  dsimp only
  split
  · exact yields_error _
  · exact yields_error _
  · have hn := absorb_lt (twoTo_pos 64) (readDigits input).1
    split
    · exact fits_readFraction negative hn _ _
    · exact fits_readExponent negative hn _ _
    · exact fits_readExponent negative hn _ _
    · split
      · exact fits_wholeNumber negative hn
      · exact fits_assemble negative hn _ _

/-- **A number that is read is whole and within 64 bits, or a double that is a number.** -/
theorem fits_readSigned (input : Input) : Yields (fun x _ => x.Fits) (readSigned input) := by
  unfold readSigned
  split <;> exact fits_readNumber _ _

/-! ### Values -/

namespace Value

/-- A value in the form in which it is read of a text of at most `n` glyphs. -/
inductive Readable (n : Nat) : Value → Prop where
  | null : Readable n .null
  | bool (b : Bool) : Readable n (.bool b)
  | num {x : Number} (fits : x.Fits) : Readable n (.num x)
  | str {s : String} (short : s.toList.length ≤ n) : Readable n (.str s)
  | arr {items : List Value} (short : items.length ≤ n) (inner : ∀ item ∈ items, Readable n item) :
    Readable n (.arr items)
  | obj {members : List (String × Value)} (ordered : Ordered members) (short : members.length ≤ n)
    (names : ∀ member ∈ members, member.1.toList.length ≤ n)
    (inner : ∀ member ∈ members, Readable n member.2) : Readable n (.obj members)

/-- **A value that is read is in normal form.** -/
theorem Readable.fits {n : Nat} {v : Value} (h : Readable n v) : v.Fits := by
  induction h with
  | null => exact .null
  | bool b => exact .bool b
  | num fits => exact .num fits
  | str => exact .str _
  | arr _ _ ih => exact .arr ih
  | obj ordered _ _ _ ih => exact .obj ordered ih

/-- At most `k` items that are read of a text of at most `n` glyphs. -/
structure ReadableItems (n k : Nat) (items : List Value) : Prop where
  count : items.length ≤ k
  values : ∀ item ∈ items, Readable n item

/-- At most `k` members that are read of a text of at most `n` glyphs. -/
structure ReadableMembers (n k : Nat) (members : List (String × Value)) : Prop where
  count : members.length ≤ k
  names : ∀ member ∈ members, member.1.toList.length ≤ n
  values : ∀ member ∈ members, Readable n member.2

variable {n k : Nat} {items : List Value} {members : List (String × Value)}

theorem ReadableItems.none : ReadableItems n 0 [] := ⟨Nat.le_refl _, List.forall_mem_nil _⟩

theorem ReadableItems.cons (h : ReadableItems n k items) {item : Value} (hitem : Readable n item) :
    ReadableItems n (k + 1) (item :: items) :=
  ⟨Nat.succ_le_succ h.count, List.forall_mem_cons.mpr ⟨hitem, h.values⟩⟩

theorem ReadableMembers.none : ReadableMembers n 0 [] :=
  ⟨Nat.le_refl _, List.forall_mem_nil _, List.forall_mem_nil _⟩

theorem ReadableMembers.cons (h : ReadableMembers n k members) {name : String} {value : Value}
    (hname : name.toList.length ≤ n) (hvalue : Readable n value) :
    ReadableMembers n (k + 1) ((name, value) :: members) :=
  ⟨Nat.succ_le_succ h.count, List.forall_mem_cons.mpr ⟨hname, h.names⟩,
    List.forall_mem_cons.mpr ⟨hvalue, h.values⟩⟩

theorem ReadableItems.arr (h : ReadableItems n k items) (hk : k ≤ n) :
    Readable n (.arr items.reverse) := by
  refine .arr ?_ fun item hitem => h.values item (List.mem_reverse.mp hitem)
  rw [List.length_reverse]
  exact Nat.le_trans h.count hk

theorem ReadableMembers.obj (h : ReadableMembers n k members) (hk : k ≤ n) :
    Readable n (ofMembers members.reverse) := by
  have hmem {member : String × Value} (hmember : member ∈ inserted [] members.reverse) :
      member ∈ members :=
    List.mem_reverse.mp ((mem_inserted hmember).resolve_left List.not_mem_nil)
  refine .obj (ordered_inserted List.Pairwise.nil _) ?_ (fun member hmember => ?_)
    fun member hmember => ?_
  · calc (inserted [] members.reverse).length ≤ 0 + members.reverse.length := length_inserted_le ..
      _ = members.length := by rw [Nat.zero_add, List.length_reverse]
      _ ≤ n := Nat.le_trans h.count hk
  · exact h.names member (hmem hmember)
  · exact h.values member (hmem hmember)

end Value

/-- A value that is read of a text of at most `n` glyphs with at most `depth` brackets open. -/
structure Value.ReadableTo (n depth : Nat) (v : Value) : Prop where
  readable : v.Readable n
  height : v.height ≤ depth

section

variable {n depth : Nat} (inner : ∀ input : Input, input.length ≤ n →
  Yields (Within n (Value.ReadableTo n depth)) (readValue depth input))

include inner

theorem readable_readItems (fuel : Nat) {input : Input} (hinput : input.length ≤ n) :
    Yields (Within n fun items => Value.ReadableItems n fuel items ∧ ∀ item ∈ items, item.height ≤ depth)
      (foldItems (fun _ items input =>
        (readValueWith Value.ofMembers depth input).map fun (value, rest) => (value :: items, rest))
        fuel 0 [] input) := by
  refine yields_foldItems
    (S := fun k items => Value.ReadableItems n k items ∧ ∀ item ∈ items, item.height ≤ depth)
    (fun _ _ h => ⟨⟨Nat.le_succ_of_le h.1.count, h.1.values⟩, h.2⟩)
    (fun _ _ items input hinput hitems => ?_) (Nat.le_of_eq (Nat.zero_add _))
    ⟨Value.ReadableItems.none, List.forall_mem_nil _⟩ hinput
  refine Yields.map (f := fun value => value :: items) (inner input hinput) fun _ _ hvalue => ?_
  exact ⟨⟨hitems.1.cons hvalue.1.readable, List.forall_mem_cons.mpr ⟨hvalue.1.height, hitems.2⟩⟩,
    hvalue.2⟩

theorem readable_readMembers (fuel : Nat) {input : Input} (hinput : input.length ≤ n) :
    Yields (Within n fun members =>
        Value.ReadableMembers n fuel members ∧ ∀ member ∈ members, member.2.height ≤ depth)
      (foldMembers (fun name members input =>
        let value : Read Value := match readColon input with
          | .error fault => .error fault
          | .ok input => readValueWith Value.ofMembers depth input
        match value with
        | .error fault => .error (fault.within (.key name))
        | .ok (value, rest) => .ok ((name, value) :: members, rest))
        fuel true [] input) := by
  refine yields_foldMembers
    (S := fun k members => Value.ReadableMembers n k members ∧ ∀ member ∈ members, member.2.height ≤ depth)
    (fun _ _ h => ⟨⟨Nat.le_succ_of_le h.1.count, h.1.names, h.1.values⟩, h.2⟩)
    (fun name _ members input hname hinput hmembers => ?_)
    (Nat.le_of_eq (Nat.zero_add _)) ⟨Value.ReadableMembers.none, List.forall_mem_nil _⟩ hinput
  dsimp only
  split
  · exact yields_error _
  · rename_i value rest hvalue
    split at hvalue
    · cases hvalue
    · rename_i after hcolon
      obtain ⟨hread, hrest⟩ :=
        (inner after (Nat.le_trans (length_readColon hcolon) hinput)).of_ok hvalue
      exact ⟨⟨hmembers.1.cons hname hread.readable,
        List.forall_mem_cons.mpr ⟨hread.height, hmembers.2⟩⟩, hrest⟩

end

/-- The step of the induction on the brackets that may be open. -/
theorem readable_readValue_of {n depth : Nat}
    (inner : ∀ d, depth = d + 1 → ∀ input : Input, input.length ≤ n →
      Yields (Within n (Value.ReadableTo n d)) (readValue d input))
    {input : Input} (hinput : input.length ≤ n) :
    Yields (Within n (Value.ReadableTo n depth)) (readValue depth input) := by
  unfold readValue readValueWith
  have hblank {g : Glyph} {rest : Input} (h : skipBlank input = g :: rest) : rest.length < n :=
    Nat.lt_of_lt_of_le (length_of_skipBlank h) hinput
  have hword {word : List Char} {g : Glyph} {rest : Input} (h : skipBlank input = g :: rest)
      {v : Value} (readable : v.Readable n) (hflat : v.height = 0) :
      Yields (Within n (Value.ReadableTo n depth)) ((readWord word rest).map fun rest => (v, rest)) :=
    yields_map_rest fun rest hrest =>
      ⟨⟨readable, hflat ▸ Nat.zero_le _⟩,
        Nat.le_trans (length_readWord hrest) (Nat.le_of_lt (hblank h))⟩
  split
  · exact yields_error _
  · exact hword ‹_› .null rfl
  · exact hword ‹_› (.bool true) rfl
  · exact hword ‹_› (.bool false) rfl
  · rename_i rest hstart
    have hrest := hblank hstart
    refine Yields.map (P := fun s rest => s.toList.length ≤ n ∧ rest.length ≤ n) (f := Value.str)
      (yields_of fun s rest hstring => ?_) fun s rest h => ⟨⟨.str h.1, Nat.zero_le _⟩, h.2⟩
    have hlengths := length_readString hstring
    omega
  · rename_i rest hstart
    have hrest := hblank hstart
    split
    · exact yields_error _
    · rename_i d
      have hitems := readable_readItems (inner d rfl) (rest.length + 1) (Nat.le_of_lt hrest)
      dsimp only
      split
      · exact yields_error _
      · rename_i items _ hok
        obtain ⟨⟨hreadable, hheight⟩, hleft⟩ := hitems.of_ok hok
        have hlist : (Value.arr items.reverse).height ≤ d + 1 := Nat.succ_le_succ
          (Value.heightItems_le.mpr fun item hitem => hheight item (List.mem_reverse.mp hitem))
        exact yields_map_rest fun rest hend =>
          ⟨⟨hreadable.arr hrest, hlist⟩, Nat.le_trans (length_endList hend) hleft⟩
  · rename_i rest hstart
    have hrest := hblank hstart
    split
    · exact yields_error _
    · rename_i d
      have hmembers := readable_readMembers (inner d rfl) (rest.length + 1) (Nat.le_of_lt hrest)
      dsimp only
      split
      · exact yields_error _
      · rename_i members _ hok
        obtain ⟨⟨hreadable, hheight⟩, hleft⟩ := hmembers.of_ok hok
        have hobject : (Value.ofMembers members.reverse).height ≤ d + 1 :=
          Value.height_ofMembers_le fun member hmember => hheight member (List.mem_reverse.mp hmember)
        exact yields_map_rest fun rest hend =>
          ⟨⟨hreadable.obj hrest, hobject⟩, Nat.le_trans (length_endObject hend) hleft⟩
  · rename_i g rest _ _ _ _ _ _ hstart
    have hrest := hblank hstart
    split
    · refine Yields.map (P := fun x rest => x.Fits ∧ rest.length ≤ n) (f := Value.num)
        (yields_of fun x rest hnumber => ⟨?_, ?_⟩) fun x rest h => ⟨⟨.num h.1, Nat.zero_le _⟩, h.2⟩
      · exact (fits_readSigned _).of_ok hnumber
      · exact Nat.le_trans (length_readSigned hnumber) hrest
    · exact yields_error _

/-- **A value that is read is in normal form, no longer than the text, and nests no deeper than
the reader goes.** -/
theorem readableTo_readValue {n : Nat} (depth : Nat) {input : Input} (hinput : input.length ≤ n) :
    Yields (Within n (Value.ReadableTo n depth)) (readValue depth input) := by
  induction depth generalizing input with
  | zero => exact readable_readValue_of (fun d hd => absurd hd (Nat.zero_ne_add_one d)) hinput
  | succ depth ih =>
    refine readable_readValue_of (fun d hd input hinput => ?_) hinput
    exact Nat.succ.inj hd ▸ ih hinput

/-- **A value that is read is in normal form, and no longer than the text.** -/
theorem readable_readValue {n : Nat} (depth : Nat) {input : Input} (hinput : input.length ≤ n) :
    Yields (Within n (Value.Readable n)) (readValue depth input) :=
  yields_of fun _ _ hread =>
    have h := (readableTo_readValue depth hinput).of_ok hread
    ⟨h.1.readable, h.2⟩

end Json
end DeviceRelay

/-
# A JSON text is read as the value that it writes

A value is written in many ways: with white space around its parts, with its characters escaped
or not, and with the members of its objects in any order. Whatever of it is nested has its
bracket. A reader that may go as deep as the brackets nest reads the value back. The members of
an object are taken one by one, by whatever takes each of them.

Key definitions: `Json.Entry`, `Json.Writes`, `Json.Folds`.
Key theorems: `Json.foldMembers_folds`, `Json.reads_of_writes`.
-/
import DeviceRelay.Proofs.Json.Spelling

namespace DeviceRelay
namespace Json

/-! ### Parts with commas between them -/

/-- Parts with a comma before each. -/
def followed (parts : List Input) : Input := parts.flatMap (.char ',' :: ·)

/-- Parts with a comma between each two. -/
def separated : List Input → Input
  | [] => []
  | part :: parts => part ++ followed parts

theorem followed_cons (part : Input) (parts : List Input) (rest : Input) :
    followed (part :: parts) ++ rest = .char ',' :: (part ++ (followed parts ++ rest)) := by
  simp [followed]

theorem length_le_followed (parts : List Input) : parts.length ≤ (followed parts).length := by
  induction parts with
  | nil => exact Nat.le_refl _
  | cons part parts ih => simp [followed] at ih ⊢; omega

theorem length_le_separated (parts : List Input) : parts.length ≤ (separated parts).length + 1 := by
  cases parts with
  | nil => exact Nat.zero_le _
  | cons part parts =>
    have := length_le_followed parts
    simp [separated]
    omega

/-- A text has as much fuel as it needs for its parts. -/
theorem length_lt_fuel (parts : List Input) (inside : Input) (mark : Glyph) (rest : Input) :
    parts.length < (inside ++ (separated parts ++ mark :: rest)).length + 1 := by
  have hle := length_le_separated parts
  simp only [List.length_append, List.length_cons]
  omega

/-- A comma or the mark that closes ends what comes before. -/
theorem ends_followed {mark : Glyph} {rest : Input} (h : Ends (mark :: rest)) (parts : List Input) :
    Ends (followed parts ++ mark :: rest) := by
  cases parts with
  | nil => exact h
  | cons part parts => exact ends_comma _

/-! ### Members -/

/-- A member of an object as it is written: its name in quotes, a colon, and a text. -/
structure Entry where
  before : Input
  name : String
  spelling : List Char
  between : Input
  text : Input
  blankBefore : Blank before
  spells : Spells name.toList spelling
  blankBetween : Blank between

theorem skipBlank_quote {before : Input} (h : Blank before) (rest : Input) :
    skipBlank (before ++ .char '"' :: rest) = .char '"' :: rest := by
  rw [skipBlank_append h, skipBlank_of_mark (by decide)]

theorem readColon_between {between : Input} (h : Blank between) (rest : Input) :
    readColon (between ++ .char ':' :: rest) = .ok rest := by
  have hcolon : skipBlank (between ++ .char ':' :: rest) = .char ':' :: rest := by
    rw [skipBlank_append h, skipBlank_of_mark (by decide)]
  unfold readColon
  rw [hcolon]
  rfl

theorem nextName_quote_first {inside part more : Input} (blank : Blank inside)
    (h : skipBlank part = .char '"' :: more) :
    nextName true (inside ++ part) = .ok (true, .char '"' :: more) := by
  rw [nextName, skipBlank_append blank, h]
  rfl

theorem nextName_quote_comma {input part more : Input} (hinput : skipBlank input = .char ',' :: part)
    (h : skipBlank part = .char '"' :: more) : nextName false input = .ok (true, .char '"' :: more) := by
  rw [nextName, hinput]
  simp only [Bool.false_eq_true, if_false, h]

namespace Entry

/-- The colon and what comes after it. -/
def tail (e : Entry) : Input := e.between ++ .char ':' :: e.text

def whole (e : Entry) : Input :=
  e.before ++ .char '"' :: (Glyph.ofText e.spelling ++ .char '"' :: e.tail)

theorem skipBlank_whole (e : Entry) (rest : Input) : skipBlank (e.whole ++ rest) =
    .char '"' :: (Glyph.ofText e.spelling ++ .char '"' :: (e.tail ++ rest)) := by
  unfold whole
  simp only [List.append_assoc, List.cons_append]
  exact skipBlank_quote e.blankBefore _

theorem readColon_tail (e : Entry) (rest : Input) : readColon (e.tail ++ rest) = .ok (e.text ++ rest) := by
  unfold tail
  rw [List.append_assoc, List.cons_append]
  exact readColon_between e.blankBetween _

/-- What is read after the colon is read after the whole tail. -/
theorem reads_tail {α : Type} (e : Entry) {read : Input → Read α} {a : α} (h : Reads read a e.text) :
    Reads (fun input => match readColon input with
      | .error fault => .error fault
      | .ok input => read input) a e.tail := by
  intro rest hrest
  obtain ⟨left, hread, hleft⟩ := h rest hrest
  exact ⟨left, by simp only [readColon_tail, hread], hleft⟩

end Entry

/-! ### Folds over members -/

section

variable {σ : Type} (member : String → σ → Input → Read σ)

/-- Members are taken one by one, each from its colon on. -/
inductive Folds : σ → List Entry → σ → Prop where
  | nil (s : σ) : Folds s [] s
  | cons {s t u : σ} {e : Entry} {entries : List Entry} (takes : Reads (member e.name s) t e.tail)
    (more : Folds t entries u) : Folds s (e :: entries) u

variable {member}

/-- A fold at a member, of which white space and the comma were passed over. -/
theorem foldMembers_entry {s : σ} {e : Entry} {fuel : Nat} {first : Bool} {input rest : Input}
    (hnext : nextName first input = .ok (true, skipBlank (e.whole ++ rest))) :
    foldMembers member (fuel + 1) first s input = match member e.name s (e.tail ++ rest) with
      | .error fault => .error fault
      | .ok (t, left) => foldMembers member fuel false t left := by
  rw [foldMembers, hnext, e.skipBlank_whole]
  rcases htaken : member e.name s (e.tail ++ rest) with fault | ⟨t, left⟩ <;>
    simp only [List.drop_succ_cons, List.drop_zero, readString_spells e.spells, htaken]

theorem nextName_first {e : Entry} {inside : Input} (blank : Blank inside) (rest : Input) :
    nextName true (inside ++ (e.whole ++ rest)) = .ok (true, skipBlank (e.whole ++ rest)) := by
  rw [nextName_quote_first blank (e.skipBlank_whole rest), e.skipBlank_whole]

theorem nextName_comma {e : Entry} {input rest : Input}
    (hinput : skipBlank input = .char ',' :: (e.whole ++ rest)) :
    nextName false input = .ok (true, skipBlank (e.whole ++ rest)) := by
  rw [nextName_quote_comma hinput (e.skipBlank_whole rest), e.skipBlank_whole]

theorem foldMembers_followed {s u : σ} {entries : List Entry} (h : Folds member s entries u)
    {input rest : Input} {fuel : Nat} (hfuel : entries.length < fuel)
    (hinput : skipBlank input =
      skipBlank (followed (entries.map (·.whole)) ++ .char '\x7d' :: rest)) :
    foldMembers member fuel false s input = .ok (u, .char '\x7d' :: rest) := by
  induction h generalizing input fuel with
  | nil s =>
    obtain ⟨fuel, rfl⟩ := Nat.exists_eq_add_one_of_ne_zero (Nat.ne_zero_of_lt hfuel)
    have hclose : skipBlank input = .char '\x7d' :: rest :=
      hinput.trans (skipBlank_of_mark (by decide) rest)
    rw [foldMembers, nextName, hclose]
    rfl
  | @cons s t u e entries takes _ ih =>
    obtain ⟨fuel, rfl⟩ := Nat.exists_eq_add_one_of_ne_zero (Nat.ne_zero_of_lt hfuel)
    rw [List.map_cons, followed_cons, skipBlank_of_mark (by decide)] at hinput
    obtain ⟨left, hread, hleft⟩ := takes _ (ends_followed (ends_brace rest) (entries.map (·.whole)))
    rw [foldMembers_entry (nextName_comma hinput), hread]
    exact ih (by simp at hfuel; omega) hleft

/-- **The members of an object are taken up to its closing brace.** -/
theorem foldMembers_folds {s u : σ} {entries : List Entry} (h : Folds member s entries u)
    {inside : Input} (blank : Blank inside) (rest : Input) {fuel : Nat} (hfuel : entries.length < fuel) :
    foldMembers member fuel true s
        (inside ++ (separated (entries.map (·.whole)) ++ .char '\x7d' :: rest)) =
      .ok (u, .char '\x7d' :: rest) := by
  obtain ⟨fuel, rfl⟩ := Nat.exists_eq_add_one_of_ne_zero (Nat.ne_zero_of_lt hfuel)
  cases h with
  | nil s =>
    have hclose : skipBlank (inside ++ .char '\x7d' :: rest) = .char '\x7d' :: rest := by
      rw [skipBlank_append blank, skipBlank_of_mark (by decide)]
    simp only [separated, List.map_nil, List.nil_append]
    rw [foldMembers, nextName, hclose]
    rfl
  | @cons s t u e entries takes more =>
    obtain ⟨left, hread, hleft⟩ := takes _ (ends_followed (ends_brace rest) (entries.map (·.whole)))
    rw [List.map_cons, separated, List.append_assoc]
    rw [foldMembers_entry (nextName_first blank _), hread]
    exact foldMembers_followed more (by simp at hfuel; omega) hleft

end

/-! ### Values -/

/-- A text writes a value, with so many brackets nested at most. -/
inductive Writes : Nat → Value → Input → Prop where
  | null (depth : Nat) : Writes depth .null (Glyph.ofText ['n', 'u', 'l', 'l'])
  | yes (depth : Nat) : Writes depth (.bool true) (Glyph.ofText ['t', 'r', 'u', 'e'])
  | no (depth : Nat) : Writes depth (.bool false) (Glyph.ofText ['f', 'a', 'l', 's', 'e'])
  | int (depth : Nat) {n : Int} (fits : (Number.int n).Fits) :
    Writes depth (.num (.int n)) (Glyph.ofText (printInt n))
  | str (depth : Nat) {s : String} {w : List Char} (spells : Spells s.toList w) :
    Writes depth (.str s) (.char '"' :: (Glyph.ofText w ++ [.char '"']))
  | arr {depth : Nat} {inside : Input} {items : List (Value × Input)} (blank : Blank inside)
    (inner : ∀ item ∈ items, Writes depth item.1 item.2) :
    Writes (depth + 1) (.arr (items.map (·.1)))
      (.char '[' :: (inside ++ (separated (items.map (·.2)) ++ [.char ']'])))
  | obj {depth : Nat} {inside : Input} {members : List (Entry × Value)} (blank : Blank inside)
    (inner : ∀ member ∈ members, Writes depth member.2 member.1.text) :
    Writes (depth + 1) (Value.ofMembers (members.map fun member => (member.1.name, member.2)))
      (.char '\x7b' :: (inside ++ (separated (members.map (·.1.whole)) ++ [.char '\x7d'])))
  | padded {depth : Nat} {v : Value} {before t after : Input} (blankBefore : Blank before)
    (writes : Writes depth v t) (blankAfter : Blank after) : Writes depth v (before ++ (t ++ after))

theorem readValue_congr {input other : Input} (h : skipBlank input = skipBlank other) (depth : Nat) :
    readValue depth input = readValue depth other := by
  unfold readValue readValueWith
  rw [h]

/-- A text of which a value is read starts with no closing bracket and no comma. -/
theorem starts_of_readValue {depth : Nat} {input : Input} {r : Value × Input}
    (h : readValue depth input = .ok r) :
    ∃ g more, skipBlank input = g :: more ∧ g ≠ .char ']' ∧ g ≠ .char ',' := by
  unfold readValue readValueWith at h
  cases hstart : skipBlank input with
  | nil => simp [hstart] at h
  | cons g more =>
    refine ⟨g, more, rfl, ?_, ?_⟩ <;> rintro rfl <;> rw [hstart] at h <;> cases h

theorem nextItem_first {input : Input} {g : Glyph} {more : Input} (h : skipBlank input = g :: more)
    (hclose : g ≠ .char ']') (hcomma : g ≠ .char ',') : nextItem true input = .ok (true, g :: more) := by
  unfold nextItem
  rw [h]
  split <;> simp_all

theorem nextItem_comma {input behind : Input} {g : Glyph} {more : Input}
    (hinput : skipBlank input = .char ',' :: behind) (h : skipBlank behind = g :: more)
    (hclose : g ≠ .char ']') : nextItem false input = .ok (true, g :: more) := by
  unfold nextItem
  rw [hinput]
  simp only [Bool.false_eq_true, if_false]
  rw [h]
  split <;> simp_all

theorem nextItem_close (first : Bool) {input rest : Input}
    (h : skipBlank input = .char ']' :: rest) : nextItem first input = .ok (false, .char ']' :: rest) := by
  unfold nextItem
  rw [h]
  rfl

section

variable {depth : Nat} {items : List (Value × Input)}

def collect (depth : Nat) (_ : Nat) (items : List Value) (input : Input) : Read (List Value) :=
  (readValue depth input).map fun (value, rest) => (value :: items, rest)

def gather (depth : Nat) (name : String) (members : List (String × Value)) (input : Input) :
    Read (List (String × Value)) :=
  let value : Read Value := match readColon input with
    | .error fault => .error fault
    | .ok input => readValue depth input
  match value with
  | .error fault => .error (fault.within (.key name))
  | .ok (value, rest) => .ok ((name, value) :: members, rest)

/-- The step of a reader of lists at an item, of which white space and the comma were passed
over. -/
theorem foldItems_step {i fuel : Nat} {taken : List Value} {input behind : Input}
    (hnext : nextItem (i == 0) input = .ok (true, skipBlank behind)) {v : Value} {left : Input}
    (hread : readValue depth behind = .ok (v, left)) :
    foldItems (collect depth) (fuel + 1) i taken input =
      foldItems (collect depth) fuel (i + 1) (v :: taken) left := by
  have hvalue : collect depth i taken (skipBlank behind) = .ok (v :: taken, left) := by
    unfold collect
    rw [readValue_congr (skipBlank_idem behind), hread]
    rfl
  rw [foldItems, hnext]
  simp only [hvalue]

/-- A reader of a list takes the items that are left, each behind its comma. -/
theorem foldItems_followed (h : ∀ item ∈ items, Reads (readValue depth) item.1 item.2) {i : Nat}
    (hi : i ≠ 0) (taken : List Value) {input rest : Input} {fuel : Nat} (hfuel : items.length < fuel)
    (hinput : skipBlank input = skipBlank (followed (items.map (·.2)) ++ .char ']' :: rest)) :
    foldItems (collect depth) fuel i taken input =
      .ok ((items.map (·.1)).reverse ++ taken, .char ']' :: rest) := by
  have hfirst {i : Nat} (hi : i ≠ 0) : (i == 0) = false := by simpa using hi
  induction items generalizing i taken input fuel with
  | nil =>
    obtain ⟨fuel, rfl⟩ := Nat.exists_eq_add_one_of_ne_zero (Nat.ne_zero_of_lt hfuel)
    have hclose : skipBlank input = .char ']' :: rest :=
      hinput.trans (skipBlank_of_mark (by decide) rest)
    rw [foldItems, nextItem_close _ hclose]
    rfl
  | cons item items ih =>
    obtain ⟨fuel, rfl⟩ := Nat.exists_eq_add_one_of_ne_zero (Nat.ne_zero_of_lt hfuel)
    obtain ⟨hitem, hitems⟩ := List.forall_mem_cons.mp h
    obtain ⟨left, hread, hleft⟩ := hitem _ (ends_followed (ends_bracket rest) (items.map (·.2)))
    obtain ⟨g, more, hstart, hclose, -⟩ := starts_of_readValue hread
    rw [List.map_cons, followed_cons, skipBlank_of_mark (by decide)] at hinput
    have hnext := nextItem_comma hinput hstart hclose
    rw [← hfirst hi, ← hstart] at hnext
    rw [foldItems_step hnext hread, ih hitems (Nat.succ_ne_zero i) _ (by simp at hfuel; omega) hleft]
    simp

/-- The items of a list are taken up to its closing bracket. -/
theorem foldItems_reads (h : ∀ item ∈ items, Reads (readValue depth) item.1 item.2)
    {inside : Input} (blank : Blank inside) (rest : Input) {fuel : Nat} (hfuel : items.length < fuel) :
    foldItems (collect depth) fuel 0 []
        (inside ++ (separated (items.map (·.2)) ++ .char ']' :: rest)) =
      .ok ((items.map (·.1)).reverse, .char ']' :: rest) := by
  obtain ⟨fuel, rfl⟩ := Nat.exists_eq_add_one_of_ne_zero (Nat.ne_zero_of_lt hfuel)
  cases items with
  | nil =>
    have hclose : skipBlank (inside ++ .char ']' :: rest) = .char ']' :: rest := by
      rw [skipBlank_append blank, skipBlank_of_mark (by decide)]
    simp only [separated, List.map_nil, List.nil_append]
    rw [foldItems, nextItem_close _ hclose]
    rfl
  | cons item items =>
    obtain ⟨hitem, hitems⟩ := List.forall_mem_cons.mp h
    rw [List.map_cons, separated, List.append_assoc]
    obtain ⟨left, hread, hleft⟩ := hitem _ (ends_followed (ends_bracket rest) (items.map (·.2)))
    obtain ⟨g, more, hstart, hclose, hcomma⟩ := starts_of_readValue hread
    have hnext := nextItem_first ((skipBlank_append blank _).trans hstart) hclose hcomma
    rw [← hstart] at hnext
    rw [foldItems_step (i := 0) hnext hread,
      foldItems_followed hitems (Nat.succ_ne_zero 0) _ (by simp at hfuel; omega) hleft]
    simp

end

theorem folds_members {depth : Nat} {members : List (Entry × Value)}
    (h : ∀ member ∈ members, Reads (readValue depth) member.2 member.1.text)
    (taken : List (String × Value)) :
    Folds (gather depth) taken (members.map (·.1))
      ((members.map fun member => (member.1.name, member.2)).reverse ++ taken) := by
  induction members generalizing taken with
  | nil => exact .nil taken
  | cons member members ih =>
    obtain ⟨hmember, hmembers⟩ := List.forall_mem_cons.mp h
    have hmore := ih hmembers ((member.1.name, member.2) :: taken)
    rw [List.map_cons, List.map_cons, List.reverse_cons, List.append_assoc, List.singleton_append]
    refine .cons (fun rest hrest => ?_) hmore
    obtain ⟨left, hread, hleft⟩ := member.1.reads_tail hmember rest hrest
    refine ⟨left, ?_, hleft⟩
    unfold gather
    simp only [hread]

theorem endList_close (rest : Input) : endList (.char ']' :: rest) = .ok rest := by
  unfold endList
  rw [skipBlank_of_mark (by decide)]
  rfl

theorem endObject_close (rest : Input) : endObject (.char '\x7d' :: rest) = .ok rest := by
  unfold endObject
  rw [skipBlank_of_mark (by decide)]
  rfl

theorem readValue_bracket (depth : Nat) (input : Input) :
    readValue (depth + 1) (.char '[' :: input) =
      match foldItems (collect depth) (input.length + 1) 0 [] input with
      | .error fault => .error fault
      | .ok (items, rest) => (endList rest).map fun rest => (.arr items.reverse, rest) := by
  unfold readValue
  rw [readValueWith, skipBlank_of_mark (by decide)]
  rfl

theorem readValue_brace (depth : Nat) (input : Input) :
    readValue (depth + 1) (.char '\x7b' :: input) =
      match foldMembers (gather depth) (input.length + 1) true [] input with
      | .error fault => .error fault
      | .ok (members, rest) =>
        (endObject rest).map fun rest => (Value.ofMembers members.reverse, rest) := by
  unfold readValue
  rw [readValueWith, skipBlank_of_mark (by decide)]
  rfl

theorem readValue_list {depth : Nat} {input rest : Input} {items : List Value}
    (h : foldItems (collect depth) (input.length + 1) 0 [] input = .ok (items, .char ']' :: rest)) :
    readValue (depth + 1) (.char '[' :: input) = .ok (.arr items.reverse, rest) := by
  rw [readValue_bracket, h]
  exact congrArg (Except.map fun rest => (Value.arr items.reverse, rest)) (endList_close rest)

theorem readValue_object {depth : Nat} {input rest : Input} {members : List (String × Value)}
    (h : foldMembers (gather depth) (input.length + 1) true [] input =
      .ok (members, .char '\x7d' :: rest)) :
    readValue (depth + 1) (.char '\x7b' :: input) = .ok (Value.ofMembers members.reverse, rest) := by
  rw [readValue_brace, h]
  exact congrArg (Except.map fun rest => (Value.ofMembers members.reverse, rest)) (endObject_close rest)

theorem isSpace_of_startsNumber {g : Glyph} (h : startsNumber g = true) : isSpace g = false := by
  unfold isSpace
  split <;> first | cases h | rfl

/-- A value that starts with the first glyph of a number is a number. -/
theorem readValue_number (depth : Nat) {g : Glyph} {rest : Input} (h : startsNumber g = true) :
    readValue depth (g :: rest) = (readSigned (g :: rest)).map fun (n, rest) => (.num n, rest) := by
  unfold readValue readValueWith
  rw [skipBlank_of_mark (isSpace_of_startsNumber h)]
  split <;> simp_all [startsNumber]

theorem startsNumber_of_isDigit {c : Char} (h : c.isDigit = true) : startsNumber (.char c) = true := by
  obtain ⟨hlow, hhigh⟩ := range_of_isDigit h
  simp [startsNumber, hlow, hhigh]

theorem startsNumber_printInt (n : Int) : ∃ g more, Glyph.ofText (printInt n) = g :: more ∧
    startsNumber g = true := by
  unfold printInt
  split
  · exact ⟨_, _, rfl, rfl⟩
  · obtain ⟨c, cs, hdigits, hdigit⟩ := exists_toDigits n.natAbs
    exact ⟨.char c, Glyph.ofText cs, by rw [hdigits]; rfl, startsNumber_of_isDigit hdigit⟩

/-- A word is read as what it stands for, if its first letter tells it. -/
theorem reads_word {depth : Nat} {v : Value} {first : Char} {word : List Char}
    (h : ∀ rest, readValue depth (.char first :: rest) = (readWord word rest).map fun rest => (v, rest)) :
    Reads (readValue depth) v (Glyph.ofText (first :: word)) := by
  intro rest _
  refine ⟨rest, (h _).trans ?_, rfl⟩
  exact congrArg (Except.map fun rest => (v, rest)) (readWord_ofText word rest)

/-- **A text is read as the value that it writes.** -/
theorem reads_of_writes {depth : Nat} {v : Value} {t : Input} (h : Writes depth v t) :
    Reads (readValue depth) v t := by
  induction h with
  | null | yes | no =>
    refine reads_word fun rest => ?_
    unfold readValue
    rw [readValueWith]
    rfl
  | @int depth n fits =>
    obtain ⟨g, more, htext, hnumber⟩ := startsNumber_printInt n
    intro rest hrest
    obtain ⟨left, hread, hleft⟩ := (reads_printInt fits).map Value.num rest hrest
    refine ⟨left, ?_, hleft⟩
    rw [htext] at hread ⊢
    exact (readValue_number depth hnumber).trans hread
  | @str depth s w spells =>
    intro rest _
    refine ⟨rest, ?_, rfl⟩
    rw [List.cons_append, List.append_assoc, List.singleton_append]
    unfold readValue
    rw [readValueWith]
    exact congrArg (Except.map fun r => (Value.str r.1, r.2)) (readString_spells spells rest)
  | @arr depth inside items blank _ ih =>
    intro rest _
    refine ⟨rest, ?_, rfl⟩
    have hfuel := length_lt_fuel (items.map (·.2)) inside (.char ']') rest
    rw [List.length_map] at hfuel
    have hlist := readValue_list (foldItems_reads ih blank rest hfuel)
    simpa only [List.cons_append, List.append_assoc, List.nil_append, List.reverse_reverse] using hlist
  | @obj depth inside members blank _ ih =>
    intro rest _
    refine ⟨rest, ?_, rfl⟩
    have hfuel := length_lt_fuel ((members.map (·.1)).map (·.whole)) inside (.char '\x7d') rest
    rw [List.length_map] at hfuel
    have hobject := readValue_object (foldMembers_folds (folds_members ih []) blank rest hfuel)
    simpa only [List.map_map, Function.comp_def, List.cons_append, List.append_assoc, List.nil_append,
      List.append_nil, List.reverse_reverse] using hobject
  | @padded depth v before t after blankBefore _ blankAfter ih =>
    intro rest hrest
    obtain ⟨left, hread, hleft⟩ := ih (after ++ rest) (ends_blank blankAfter hrest)
    refine ⟨left, ?_, hleft.trans (skipBlank_append blankAfter rest)⟩
    rw [List.append_assoc, List.append_assoc]
    exact (readValue_congr (skipBlank_append blankBefore _) depth).trans hread

end Json
end DeviceRelay

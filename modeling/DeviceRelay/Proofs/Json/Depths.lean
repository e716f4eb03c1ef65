/-
# A reader that may go deeper reads the same

The brackets that may be open at once only limit what is read. What a reader takes in with some of
them it takes in with more, and leaves the same rest. So what a text says does not depend on how
deep a reader goes, and a reader with a limit gives just this or nothing.

Key definitions: `Json.Follows`, `Json.Decoder.Deepens`, `Json.Decoder.Says`, `Json.Decoder.Reaches`.
Key theorems: `Json.follows_readValueWith`, `Json.Decoder.deepens_record`,
`Json.Decoder.Says.unique`, `Json.Decoder.Says.decodeFrontWith_cases`,
`Json.Decoder.Says.decodeWith_cases`.
-/
import DeviceRelay.Json.Decoder

namespace DeviceRelay
namespace Json

variable {α β σ : Type}

/-! ### Readings that follow each other -/

/-- What the one reading gives, the other one gives, too. -/
def Follows (r r' : Except Fault α) : Prop := ∀ a, r = .ok a → r' = .ok a

theorem Follows.refl (r : Except Fault α) : Follows r r := fun _ h => h

theorem follows_error (fault : Fault) (r : Except Fault α) : Follows (.error fault) r := nofun

theorem Follows.map {r r' : Except Fault α} {f : α → β} (h : Follows r r') :
    Follows (r.map f) (r'.map f) := by
  cases r with
  | error fault => exact follows_error _ _
  | ok a =>
    rw [h a rfl]
    exact .refl _

theorem Follows.mapError {r r' : Except Fault α} (h : Follows r r') (f : Fault → Fault) :
    Follows (r.mapError f) (r'.mapError f) := by
  cases r with
  | error fault => exact follows_error _ _
  | ok a =>
    rw [h a rfl]
    exact .refl _

theorem follows_foldItems {item item' : Nat → σ → Input → Read σ}
    (h : ∀ i state input, Follows (item i state input) (item' i state input)) (fuel i : Nat)
    (state : σ) (input : Input) :
    Follows (foldItems item fuel i state input) (foldItems item' fuel i state input) := by
  induction fuel generalizing i state input with
  | zero => exact .refl _
  | succ fuel ih =>
    rw [foldItems, foldItems]
    split
    · exact follows_error _ _
    · exact .refl _
    · rename_i rest _
      cases hitem : item i state rest with
      | error fault => exact follows_error _ _
      | ok read =>
        rw [h i state rest read hitem]
        exact ih (i + 1) read.1 read.2

theorem follows_foldMembers {member member' : String → σ → Input → Read σ}
    (h : ∀ name state input, Follows (member name state input) (member' name state input))
    (fuel : Nat) (first : Bool) (state : σ) (input : Input) :
    Follows (foldMembers member fuel first state input) (foldMembers member' fuel first state input) := by
  induction fuel generalizing first state input with
  | zero => exact .refl _
  | succ fuel ih =>
    rw [foldMembers, foldMembers]
    split
    · exact follows_error _ _
    · exact .refl _
    · split
      · exact follows_error _ _
      · rename_i name rest _
        cases hmember : member name state rest with
        | error fault => exact follows_error _ _
        | ok read =>
          rw [h name state rest read hmember]
          exact ih false read.1 read.2

/-! ### Values -/

section

variable {object : List (String × Value) → Value}

/-- The step of the induction on the brackets that may be open. -/
theorem follows_readValueWith_of {depth more : Nat} (inner : ∀ d, depth = d + 1 → ∃ m, more = m + 1 ∧
      ∀ input, Follows (readValueWith object d input) (readValueWith object m input)) (input : Input) :
    Follows (readValueWith object depth input) (readValueWith object more input) := by
  unfold readValueWith
  split
  · exact follows_error _ _
  · exact .refl _
  · exact .refl _
  · exact .refl _
  · exact .refl _
  · rename_i rest _
    cases depth with
    | zero => exact follows_error _ _
    | succ d =>
      obtain ⟨m, rfl, hinner⟩ := inner d rfl
      have hitems := follows_foldItems (fun _ (items : List Value) input =>
        Follows.map (f := fun read : Value × Input => (read.1 :: items, read.2)) (hinner input))
        (rest.length + 1) 0 [] rest
      dsimp only
      split
      · exact follows_error _ _
      · rename_i hok
        rw [hitems _ hok]
        exact .refl _
  · rename_i rest _
    cases depth with
    | zero => exact follows_error _ _
    | succ d =>
      obtain ⟨m, rfl, hinner⟩ := inner d rfl
      dsimp only
      split
      · exact follows_error _ _
      · rename_i hok
        rw [follows_foldMembers (fun name members input => ?_) _ _ _ _ _ hok]
        · exact .refl _
        · cases readColon input with
          | error fault => exact follows_error _ _
          | ok left =>
            dsimp only
            split
            · exact follows_error _ _
            · rename_i hvalue
              rw [hinner left _ hvalue]
              exact .refl _
  · exact .refl _

/-- **A value that is read with some brackets open is read alike with more.** -/
theorem follows_readValueWith {depth more : Nat} (h : depth ≤ more) (input : Input) :
    Follows (readValueWith object depth input) (readValueWith object more input) := by
  induction depth generalizing more input with
  | zero => exact follows_readValueWith_of (fun d hd => absurd hd (Nat.zero_ne_add_one d)) input
  | succ depth ih =>
    obtain ⟨m, rfl⟩ := Nat.exists_eq_add_one.mpr (Nat.zero_lt_of_lt h)
    refine follows_readValueWith_of (fun d hd => ⟨m, rfl, fun input => ?_⟩) input
    exact Nat.succ.inj hd ▸ ih (Nat.le_of_succ_le_succ h) input

end

/-! ### Decoders -/

/-- What a field reads with some brackets open it reads alike with more. -/
def Field.Deepens (field : Field σ) : Prop := ∀ state depth more input, depth ≤ more →
  Follows (field.read state depth input) (field.read state more input)

namespace Decoder

/-- What a decoder reads with some brackets open it reads alike with more. -/
def Deepens (d : Decoder α) : Prop :=
  ∀ depth more input, depth ≤ more → Follows (d.read depth input) (d.read more input)

theorem deepens_refine {d : Decoder α} (h : d.Deepens) (check : α → Except Cause β) :
    (d.refine check).Deepens := by
  intro depth more input hle
  unfold refine
  dsimp only
  cases hread : d.read depth input with
  | error fault => exact follows_error _ _
  | ok read =>
    rw [h depth more input hle read hread]
    exact .refl _

theorem deepens_map {d : Decoder α} (h : d.Deepens) (f : α → β) : (d.map f).Deepens := deepens_refine h _

theorem deepens_integer (expected : String) (low high : Int) : (integer expected low high).Deepens :=
  fun _ _ _ _ => .refl _

theorem deepens_text : text.Deepens := fun _ _ _ _ => .refl _

theorem deepens_value : value.Deepens := fun _ _ input hle => follows_readValueWith hle input

/-- A name may stand in a bracket, which is one bracket and no more. -/
theorem deepens_choice (known : List (String × α)) : (choice known).Deepens := by
  intro depth more input hle
  unfold choice
  dsimp only
  split
  · exact follows_error _ _
  · exact .refl _
  · cases depth with
    | zero => exact follows_error _ _
    | succ depth =>
      obtain ⟨m, rfl⟩ := Nat.exists_eq_add_one.mpr (Nat.zero_lt_of_lt hle)
      exact .refl _
  · exact .refl _

theorem deepens_field {name : String} {d : Decoder β} (h : d.Deepens) {get : σ → Option β}
    {put : σ → β → σ} {mayBeLeftOut : Bool} : (Field.of name d get put mayBeLeftOut).Deepens :=
  fun state depth more input hle =>
    Follows.map (f := fun read : β × Input => (put state read.1, read.2)) (h depth more input hle)

section

variable {fields : List (Field σ)} (hfields : ∀ field ∈ fields, field.Deepens) {depth more : Nat}
  (hle : depth ≤ more)

include hfields hle

theorem follows_readInOrder (length : String) (i : Nat) (state : σ) (input : Input) :
    Follows (readInOrder length depth fields i state input)
      (readInOrder length more fields i state input) := by
  induction fields generalizing i state input with
  | nil => exact .refl _
  | cons field fields ih =>
    obtain ⟨hfield, hrest⟩ := List.forall_mem_cons.mp hfields
    rw [readInOrder, readInOrder]
    split
    · exact follows_error _ _
    · split
      · exact ih hrest i state _
      · exact follows_error _ _
    · rename_i rest _
      cases hread : field.read state depth rest with
      | error fault => exact follows_error _ _
      | ok read =>
        rw [hfield state depth more rest hle read hread]
        exact ih hrest (i + 1) read.1 read.2

theorem follows_readMember (name : String) (state : σ) (input : Input) :
    Follows (readMember fields depth name state input) (readMember fields more name state input) := by
  unfold readMember
  dsimp only
  split
  · rename_i field hfind
    split
    · exact follows_error _ _
    · refine Follows.mapError ?_ _
      split
      · exact follows_error _ _
      · exact hfields field (List.mem_of_find?_eq_some hfind) state depth more _ hle
  · exact .refl _

end

theorem follows_close_error (endsAt : Input → Input) (readClose : Input → Except Fault Input)
    (fault : Fault) (r : Read α) : Follows (close endsAt readClose (.error fault)) r := by
  unfold close
  dsimp only
  split <;> exact follows_error _ _

/-- **A record is read alike with more brackets open if its fields are.** -/
theorem deepens_record (name : String) {fields : List (Field σ)}
    (hfields : ∀ field ∈ fields, field.Deepens) (blank : σ) (finish : σ → Except Cause α) :
    (record name fields blank finish).Deepens := by
  intro depth more input hle
  unfold record
  dsimp only
  split
  · rename_i rest _
    cases depth with
    | zero => exact follows_error _ _
    | succ depth =>
      obtain ⟨m, rfl⟩ := Nat.exists_eq_add_one.mpr (Nat.zero_lt_of_lt hle)
      dsimp only
      cases hread : readInOrder (recordLength name fields) depth fields 0 blank rest with
      | error fault => exact follows_close_error _ _ _ _
      | ok read =>
        rw [follows_readInOrder hfields (Nat.le_of_succ_le_succ hle) _ _ _ _ read hread]
        exact .refl _
  · rename_i rest _
    cases depth with
    | zero => exact follows_error _ _
    | succ depth =>
      obtain ⟨m, rfl⟩ := Nat.exists_eq_add_one.mpr (Nat.zero_lt_of_lt hle)
      have hmember := follows_readMember hfields (Nat.le_of_succ_le_succ hle)
      dsimp only
      cases hread : foldMembers (readMember fields depth) (rest.length + 1) true blank rest with
      | error fault => exact follows_close_error _ _ _ _
      | ok read =>
        rw [follows_foldMembers hmember _ _ _ _ read hread]
        exact .refl _
  · exact .refl _

/-! ### What a text says -/

section

variable {d : Decoder α} {input rest rest' : Input} {a a' : α}

/-- A text starts with a value, however many brackets are open at once, and ends in a rest. -/
def Says (d : Decoder α) (input : Input) (a : α) (rest : Input) : Prop :=
  ∃ depth, d.read depth input = .ok (a, rest)

/-- A text starts with a value in which no more brackets are open at once than a reader takes. -/
def Reaches (d : Decoder α) (input : Input) : Prop := ∃ read, d.read depthLimit input = .ok read

/-- A text starts with one value only. -/
theorem Says.unique (hd : d.Deepens) (h : d.Says input a rest) (h' : d.Says input a' rest') :
    a = a' ∧ rest = rest' := by
  obtain ⟨depth, hread⟩ := h
  obtain ⟨depth', hread'⟩ := h'
  have hmore := hd depth (max depth depth') input (Nat.le_max_left _ _) _ hread
  have hmore' := hd depth' (max depth depth') input (Nat.le_max_right _ _) _ hread'
  exact Prod.mk.inj (Except.ok.inj (hmore.symm.trans hmore'))

/-- A reader with a limit gives what a text says, if it reaches so far. -/
theorem Says.read_of_reaches (hd : d.Deepens) (h : d.Says input a rest) (reaches : d.Reaches input) :
    d.read depthLimit input = .ok (a, rest) := by
  obtain ⟨⟨a', rest'⟩, hread⟩ := reaches
  obtain ⟨rfl, rfl⟩ := h.unique hd ⟨depthLimit, hread⟩
  exact hread

/-- **What the front of a text says is decoded just if the reader reaches so far.** -/
theorem Says.decodeFrontWith_cases (hd : d.Deepens) (h : d.Says input a rest) :
    d.Reaches input ∧ decodeFrontWith d.read input = .ok a ∨
      ¬ d.Reaches input ∧ ∃ report, decodeFrontWith d.read input = .error report := by
  unfold decodeFrontWith
  by_cases reaches : d.Reaches input
  · refine .inl ⟨reaches, ?_⟩
    rw [h.read_of_reaches hd reaches]
  · cases hread : d.read depthLimit input with
    | error fault => exact .inr ⟨reaches, _, rfl⟩
    | ok read => exact absurd ⟨read, hread⟩ reaches

/-- **What a whole text says is decoded just if the reader reaches so far.** -/
theorem Says.decodeWith_cases (hd : d.Deepens) (h : d.Says input a rest) (hend : readEnd rest = .ok ()) :
    d.Reaches input ∧ decodeWith d.read input = .ok a ∨
      ¬ d.Reaches input ∧ ∃ report, decodeWith d.read input = .error report := by
  unfold decodeWith
  by_cases reaches : d.Reaches input
  · refine .inl ⟨reaches, ?_⟩
    rw [h.read_of_reaches hd reaches]
    simp only [hend]
  · cases hread : d.read depthLimit input with
    | error fault => exact .inr ⟨reaches, _, rfl⟩
    | ok read => exact absurd ⟨read, hread⟩ reaches

end

end Decoder
end Json
end DeviceRelay

/-
# Every form that is written is read back

A number is written with the shortest marker that holds it and read back from it. So is a
text of less than `2 ^ 32` bytes. The marker of a list or a map of less than `2 ^ 32` members
tells the reader how many to read, unless as many brackets are open as may be.

Key theorems: `MessagePack.number_bigEndian`, `MessagePack.read_writeNat`,
`MessagePack.read_writeInt`, `MessagePack.read_writeDouble`, `MessagePack.read_writeText`,
`MessagePack.read_listMarker`, `MessagePack.read_mapMarker`.
-/
import DeviceRelay.MessagePack.Reader
import DeviceRelay.Proofs.Number.Double
import DeviceRelay.Proofs.Text.Utf8

namespace DeviceRelay
namespace MessagePack

open Utf8 (toNat_byte)

/-! ### Bytes -/

theorem number_append (bytes : List UInt8) (b : UInt8) :
    number (bytes ++ [b]) = number bytes * 256 + b.toNat := by
  unfold number
  rw [List.foldl_append]
  rfl

/-- The bytes of a number stand for it, as far as they are enough. -/
theorem number_bigEndian (width n : Nat) : number (bigEndian width n) = n % 256 ^ width := by
  induction width generalizing n with
  | zero => exact (Nat.mod_one n).symm
  | succ width ih =>
    have hlow : n % 256 < 256 := Nat.mod_lt _ (by decide)
    rw [bigEndian, number_append, ih, toNat_byte hlow, Nat.pow_succ', Nat.mod_mul, Nat.mul_comm,
      Nat.add_comm]

theorem length_bigEndian (width n : Nat) : (bigEndian width n).length = width := by
  induction width generalizing n with
  | zero => rfl
  | succ width ih => rw [bigEndian, List.length_append, ih, List.length_singleton]

theorem take?_append (bytes rest : List UInt8) :
    take? bytes.length (bytes ++ rest) = some (bytes, rest) := by
  unfold take?
  rw [List.take_left, List.drop_left]
  exact if_pos rfl

theorem readNumber_bigEndian (width n : Nat) (rest : List UInt8) :
    readNumber width (bigEndian width n ++ rest) = some (n % 256 ^ width, rest) := by
  have htake := take?_append (bigEndian width n) rest
  rw [length_bigEndian] at htake
  unfold readNumber
  rw [htake, Option.map_some]
  simp only [number_bigEndian]

/-- The number that a word of so many bytes stands for in two's complement. -/
def signedWord (width n : Nat) : Int :=
  if n % 256 ^ width < twoTo (8 * width - 1) then (n % 256 ^ width : Nat)
  else (n % 256 ^ width : Nat) - twoTo (8 * width)

theorem readSigned_bigEndian (width n : Nat) (rest : List UInt8) :
    readSigned width (bigEndian width n ++ rest) = some (signedWord width n, rest) := by
  unfold readSigned
  rw [readNumber_bigEndian]
  rfl

/-- A negative number is the one that its two's complement stands for. -/
theorem signedWord_complement {width : Nat} (hwidth : 0 < width) {n : Int} (hneg : n < 0)
    (hlow : -(twoTo (8 * width - 1) : Int) ≤ n) :
    signedWord width (n + twoTo (8 * width)).toNat = n := by
  have hbytes : twoTo (8 * width) = 256 ^ width := Nat.pow_mul 2 8 width
  have hhalf : twoTo (8 * width) = 2 * twoTo (8 * width - 1) := by
    rw [← Nat.sub_add_cancel (show 1 ≤ 8 * width by omega), twoTo_add, Nat.mul_comm]
    rfl
  have hword : (n + twoTo (8 * width)).toNat < 256 ^ width := by omega
  have hupper : ¬ (n + twoTo (8 * width)).toNat < twoTo (8 * width - 1) := by omega
  unfold signedWord
  rw [Nat.mod_eq_of_lt hword, if_neg hupper]
  omega

theorem readBlock_bigEndian {width : Nat} {bytes : List UInt8} (h : bytes.length < 256 ^ width)
    (rest : List UInt8) :
    readBlock width (bigEndian width bytes.length ++ (bytes ++ rest)) = some (bytes, rest) := by
  unfold readBlock
  rw [readNumber_bigEndian, Nat.mod_eq_of_lt h]
  exact take?_append bytes rest

/-! ### Plain items -/

/-- A marker that announces no container is read as that of a plain item. -/
theorem read_plain {marker : UInt8} {rest : List UInt8} (h : readContainer marker.toNat rest = none)
    (depth : Nat) : read depth (marker :: rest) = readPlain marker.toNat rest := by
  cases depth with
  | zero => rfl
  | succ depth => rw [read, h]

theorem readContainer_eq_none {marker : Nat} (h : marker < 0x80 ∨ 0xa0 ≤ marker)
    (hlow : marker < 0xc7 ∨ 0xe0 ≤ marker) (rest : List UInt8) :
    readContainer marker rest = none := by
  unfold readContainer
  rw [if_neg (by omega), if_neg (by omega)]
  split <;> first | rfl | omega

variable {marker : UInt8} {width : Nat} (hplain : ∀ bytes, readContainer marker.toNat bytes = none)

include hplain

theorem read_number (item : Nat → Item)
    (hread : ∀ bytes, readPlain marker.toNat bytes =
      (readNumber width bytes).map fun (n, rest) => (item n, rest))
    (n depth : Nat) (rest : List UInt8) :
    read depth (marker :: (bigEndian width n ++ rest)) = some (item (n % 256 ^ width), rest) := by
  rw [read_plain (hplain _), hread, readNumber_bigEndian]
  rfl

/-- A marker before the bytes of a number in two's complement. -/
theorem read_signed (hread : ∀ bytes, readPlain marker.toNat bytes =
      (readSigned width bytes).map fun (n, rest) => (.signed n, rest))
    (n depth : Nat) (rest : List UInt8) :
    read depth (marker :: (bigEndian width n ++ rest)) =
      some (.signed (signedWord width n), rest) := by
  rw [read_plain (hplain _), hread, readSigned_bigEndian]
  rfl

theorem read_block (hread : ∀ bytes, readPlain marker.toNat bytes =
      (readBlock width bytes).map fun (text, rest) => (.text text, rest))
    {text : List UInt8} (h : text.length < 256 ^ width) (depth : Nat) (rest : List UInt8) :
    read depth (marker :: (bigEndian width text.length ++ (text ++ rest))) =
      some (.text text, rest) := by
  rw [read_plain (hplain _), hread, readBlock_bigEndian h]
  rfl

omit hplain

/-! ### Numbers and texts -/

theorem read_writeNat (n depth : Nat) (rest : List UInt8) :
    read depth (writeNat n ++ rest) = some (.unsigned (n % twoTo 64), rest) := by
  have hwide {k : Nat} (hk : k ≤ 64) (h : n < twoTo k) : n % twoTo 64 = n :=
    Nat.mod_eq_of_lt (Nat.lt_of_lt_of_le h (twoTo_le hk))
  have hnumber {marker : UInt8} {width : Nat}
      (hnone : ∀ bytes, readContainer marker.toNat bytes = none)
      (hread : ∀ bytes, readPlain marker.toNat bytes =
        (readNumber width bytes).map fun (n, rest) => (.unsigned n, rest))
      (h : n < 256 ^ width) :
      read depth (marker :: (bigEndian width n ++ rest)) = some (.unsigned n, rest) := by
    rw [read_number hnone .unsigned hread, Nat.mod_eq_of_lt h]
  unfold writeNat
  split
  · rename_i h1
    have hbyte := toNat_byte (show n < 256 by omega)
    have hnone : readContainer (UInt8.ofNat n).toNat rest = none := by
      rw [hbyte]
      exact readContainer_eq_none (Or.inl h1) (Or.inl (by omega)) rest
    refine (read_plain hnone depth).trans ?_
    unfold readPlain
    rw [hbyte, if_pos h1, hwide (by decide : 7 ≤ 64) h1]
  · split
    · rename_i h2
      rw [hwide (by decide) h2]
      exact hnumber (fun _ => rfl) (fun _ => rfl) h2
    · split
      · rename_i h3
        rw [hwide (by decide) h3]
        exact hnumber (fun _ => rfl) (fun _ => rfl) h3
      · split
        · rename_i h4
          rw [hwide (by decide) h4]
          exact hnumber (fun _ => rfl) (fun _ => rfl) h4
        · exact read_number (fun _ => rfl) .unsigned (fun _ => rfl) n depth rest

/-- The item that is read of a whole number, which may not fit 64 bits. -/
def intItem (n : Int) : Item :=
  if 0 ≤ n then .unsigned (n.toNat % twoTo 64) else .signed (signedWord 8 (n + twoTo 64).toNat)

theorem read_writeInt (n : Int) (depth : Nat) (rest : List UInt8) :
    read depth (writeInt n ++ rest) = some (intItem n, rest) := by
  unfold writeInt intItem
  by_cases h0 : 0 ≤ n
  · rw [if_pos h0, if_pos h0]
    exact read_writeNat n.toNat depth rest
  · have hneg : n < 0 := Int.not_le.mp h0
    have hwide {k : Nat} (hk : k ≤ 63) (h : -(twoTo k : Int) ≤ n) :
        signedWord 8 (n + twoTo 64).toNat = n := by
      have hle : (twoTo k : Int) ≤ (twoTo 63 : Int) := Int.ofNat_le.mpr (twoTo_le hk)
      exact signedWord_complement (by decide : 0 < 8) hneg (Int.le_trans (Int.neg_le_neg hle) h)
    have hsigned {marker : UInt8} {width : Nat}
        (hnone : ∀ bytes, readContainer marker.toNat bytes = none)
        (hread : ∀ bytes, readPlain marker.toNat bytes =
          (readSigned width bytes).map fun (n, rest) => (.signed n, rest))
        (hwidth : 0 < width) (h : -(twoTo (8 * width - 1) : Int) ≤ n) :
        read depth (marker :: (bigEndian width (n + twoTo (8 * width)).toNat ++ rest)) =
          some (.signed n, rest) := by
      rw [read_signed hnone hread, signedWord_complement hwidth hneg h]
    rw [if_neg h0, if_neg h0]
    split
    · rename_i h1
      have hbyte := toNat_byte (show (n + 256).toNat < 256 by omega)
      have hnone : readContainer (UInt8.ofNat (n + 256).toNat).toNat rest = none := by
        rw [hbyte]
        exact readContainer_eq_none (Or.inr (by omega)) (Or.inr (by omega)) rest
      refine (read_plain hnone depth).trans ?_
      have hvalue : ((n + 256).toNat : Int) - 256 = n := by omega
      unfold readPlain
      rw [hbyte, if_neg (by omega), if_pos (by omega), hvalue, hwide (by decide : 5 ≤ 63) h1]
    · split
      · rename_i h2
        rw [hwide (by decide : 7 ≤ 63) h2]
        exact hsigned (fun _ => rfl) (fun _ => rfl) (by decide : 0 < 1) h2
      · split
        · rename_i h3
          rw [hwide (by decide) h3]
          exact hsigned (fun _ => rfl) (fun _ => rfl) (by decide : 0 < 2) h3
        · split
          · rename_i h4
            rw [hwide (by decide) h4]
            exact hsigned (fun _ => rfl) (fun _ => rfl) (by decide : 0 < 4) h4
          · exact read_signed (fun _ => rfl) (fun _ => rfl) _ depth rest

theorem read_writeDouble (x : Double) (depth : Nat) (rest : List UInt8) :
    read depth (writeNumber (.double x) ++ rest) = some (.float x, rest) := by
  have hword : x.bits.toNat % 256 ^ 8 = x.bits.toNat := Nat.mod_eq_of_lt x.bits.toNat_lt
  calc read depth (writeNumber (.double x) ++ rest)
      = some (.float ⟨UInt64.ofNat (x.bits.toNat % 256 ^ 8)⟩, rest) :=
        read_number (fun _ => rfl) (fun n => .float ⟨UInt64.ofNat n⟩) (fun _ => rfl) _ depth rest
    _ = some (.float x, rest) := by rw [hword, UInt64.ofNat_toNat]

theorem read_writeText {s : String} (h : (Utf8.encode s.toList).length < twoTo 32) (depth : Nat)
    (rest : List UInt8) :
    read depth (writeText s ++ rest) = some (.text (Utf8.encode s.toList), rest) := by
  unfold writeText textMarker
  dsimp only
  generalize Utf8.encode s.toList = bytes at *
  rw [List.append_assoc]
  split
  · rename_i h1
    have hbyte := toNat_byte (show 0xa0 + bytes.length < 256 by omega)
    have hnone : readContainer (UInt8.ofNat (0xa0 + bytes.length)).toNat (bytes ++ rest) = none := by
      rw [hbyte]
      exact readContainer_eq_none (Or.inr (by omega)) (Or.inl (by omega)) _
    refine (read_plain hnone depth).trans ?_
    unfold readPlain
    rw [hbyte, if_neg (by omega), if_neg (by omega), if_pos (by omega), Nat.add_sub_cancel_left,
      take?_append]
    rfl
  · split
    · rename_i h2
      exact read_block (fun _ => rfl) (fun _ => rfl) h2 depth rest
    · split
      · rename_i h3
        exact read_block (fun _ => rfl) (fun _ => rfl) h3 depth rest
      · exact read_block (fun _ => rfl) (fun _ => rfl) h depth rest

/-! ### Containers -/

/-- A marker that announces a container, and is no marker of a plain item. -/
structure Announces (bytes : List UInt8) (container : Container) : Prop where
  opens : ∃ marker more, bytes = marker :: more ∧
    (∀ rest, readContainer marker.toNat (more ++ rest) = some (container, rest)) ∧
    ∀ rest, readPlain marker.toNat rest = none

theorem announces_number {marker : UInt8} {width n : Nat} {container : Nat → Container}
    (hread : ∀ bytes, readContainer marker.toNat bytes =
      (readNumber width bytes).map fun (n, rest) => (container n, rest))
    (hplain : ∀ rest, readPlain marker.toNat rest = none) (h : n < 256 ^ width) :
    Announces (marker :: bigEndian width n) (container n) := by
  refine ⟨marker, _, rfl, fun rest => ?_, hplain⟩
  rw [hread, readNumber_bigEndian, Nat.mod_eq_of_lt h]
  rfl

theorem announces_listMarker {n : Nat} (h : n < twoTo 32) : Announces (listMarker n) (.list n) := by
  unfold listMarker
  split
  · rename_i h1
    have hbyte := toNat_byte (show 0x90 + n < 256 by omega)
    refine ⟨_, [], rfl, fun rest => ?_, fun rest => ?_⟩
    · unfold readContainer
      rw [hbyte, if_neg (by omega), if_pos (by omega), Nat.add_sub_cancel_left]
      rfl
    · unfold readPlain
      rw [hbyte, if_neg (by omega), if_neg (by omega), if_neg (by omega)]
      split <;> first | rfl | omega
  · split
    · rename_i h2
      exact announces_number (fun _ => rfl) (fun _ => rfl) h2
    · exact announces_number (fun _ => rfl) (fun _ => rfl) h

theorem announces_mapMarker {n : Nat} (h : n < twoTo 32) : Announces (mapMarker n) (.map n) := by
  unfold mapMarker
  split
  · rename_i h1
    have hbyte := toNat_byte (show 0x80 + n < 256 by omega)
    refine ⟨_, [], rfl, fun rest => ?_, fun rest => ?_⟩
    · unfold readContainer
      rw [hbyte, if_pos (by omega), Nat.add_sub_cancel_left]
      rfl
    · unfold readPlain
      rw [hbyte, if_neg (by omega), if_neg (by omega), if_neg (by omega)]
      split <;> first | rfl | omega
  · split
    · rename_i h2
      exact announces_number (fun _ => rfl) (fun _ => rfl) h2
    · exact announces_number (fun _ => rfl) (fun _ => rfl) h

/-- The items of a list are read one bracket deeper, if one more may be open. -/
theorem read_listMarker {n : Nat} (h : n < twoTo 32) (rest : List UInt8) :
    (∀ depth, read (depth + 1) (listMarker n ++ rest) =
      (readMany (read depth) n rest).map fun (items, rest) => (.list items, rest)) ∧
    read 0 (listMarker n ++ rest) = none := by
  obtain ⟨marker, more, hbytes, hopens, hplain⟩ := (announces_listMarker h).opens
  rw [hbytes, List.cons_append]
  refine ⟨fun depth => ?_, hplain _⟩
  rw [read, hopens]

/-- The members of a map are read one bracket deeper, if one more may be open. -/
theorem read_mapMarker {n : Nat} (h : n < twoTo 32) (rest : List UInt8) :
    (∀ depth, read (depth + 1) (mapMarker n ++ rest) =
      (readMany (readPair (read depth)) n rest).map fun (members, rest) => (.map members, rest)) ∧
    read 0 (mapMarker n ++ rest) = none := by
  obtain ⟨marker, more, hbytes, hopens, hplain⟩ := (announces_mapMarker h).opens
  rw [hbytes, List.cons_append]
  refine ⟨fun depth => ?_, hplain _⟩
  rw [read, hopens]

end MessagePack
end DeviceRelay

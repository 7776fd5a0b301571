import Mathlib.Order.Monotone.Basic
import RawHtmlLint.Proofs.Text.Utf8
import RawHtmlLint.Source

/-!
# Bytes and offsets

The table that maps the bytes of a source to its characters has for each byte the character that
holds it. So it never decreases and ends with the number of characters, and what lies before
something in bytes lies before it in characters.

Results:
* `charOffset_eq_ownerOf`: the offset of a byte is that of the character that holds it;
* `charOffset_mono`: a later byte has no earlier character;
* `charOffset_le_size`: no byte is past the end;
* `charOffset_undoes_encoding`: the table and decoding agree, and both undo encoding.
-/

namespace RawHtmlLint

open Expression Text

/-- The entries of the table for the characters from the offset `k` on. -/
theorem getD_owners : ∀ (text : List Char) (k byte : Nat), byte ≤ byteLength text →
    ((text.zipIdx k).flatMap (fun c => List.replicate c.1.utf8Size c.2) ++
      [k + text.length]).getD byte 0 = k + ownerOf text byte
  | [], k, byte, h => by
    obtain rfl := Nat.le_zero.mp h
    rfl
  | c :: text, k, byte, h => by
    rw [List.zipIdx_cons, List.flatMap_cons, List.append_assoc, List.getD_eq_getElem?_getD]
    dsimp only
    rcases Nat.lt_or_ge byte c.utf8Size with hlt | hle
    · rw [List.getElem?_append_left (by simpa using hlt), List.getElem?_replicate, if_pos hlt,
        ownerOf_of_lt hlt]
      rfl
    · have ih := getD_owners text (k + 1) (byte - c.utf8Size) (by rw [byteLength] at h; omega)
      rw [List.getD_eq_getElem?_getD, Nat.add_assoc, Nat.add_comm 1] at ih
      rw [List.getElem?_append_right (by simpa using hle), List.length_replicate, List.length_cons,
        ih, ownerOf_of_le hle]
      omega

theorem size_byteOwners (text : List Char) : (byteOwners text).size = byteLength text + 1 := by
  have hzip : ∀ (text : List Char) (k : Nat),
      ((text.zipIdx k).flatMap fun c => List.replicate c.1.utf8Size c.2).length =
        byteLength text := by
    intro text
    induction text with
    | nil => exact fun _ => rfl
    | cons c text ih =>
      intro k
      rw [List.zipIdx_cons, List.flatMap_cons, List.length_append, List.length_replicate, ih,
        byteLength]
  rw [byteOwners, List.size_toArray, List.length_append, hzip]
  rfl

namespace Source

variable (s : Source)

/-- **The offset of a byte** is that of the character that holds it. -/
theorem charOffset_eq_ownerOf (byte : Nat) : s.charOffset byte = ownerOf s.text byte := by
  have hsize := size_byteOwners s.text
  unfold charOffset
  rw [s.owners_eq, hsize, Nat.add_sub_cancel, Int.toNat_natCast, byteOwners,
    Array.getD_eq_getD_getElem?, List.getElem?_toArray, ← List.getD_eq_getElem?_getD]
  have htable := getD_owners s.text 0 (min byte (byteLength s.text)) (Nat.min_le_right _ _)
  rw [Nat.zero_add, Nat.zero_add] at htable
  rw [htable]
  rcases Nat.le_total byte (byteLength s.text) with hle | hle
  · rw [Nat.min_eq_left hle]
  · rw [Nat.min_eq_right hle, ownerOf_of_byteLength_le (Nat.le_refl _),
      ownerOf_of_byteLength_le hle]

/-- **A later byte has no earlier character.** -/
theorem charOffset_mono {a b : Nat} (h : a ≤ b) : s.charOffset a ≤ s.charOffset b := by
  rw [charOffset_eq_ownerOf, charOffset_eq_ownerOf]
  exact ownerOf_mono s.text h

/-- **No byte is past the end.** -/
theorem charOffset_le_size (byte : Nat) : s.charOffset byte ≤ s.size := by
  rw [charOffset_eq_ownerOf]
  exact ownerOf_le_length s.text byte

/-- The byte is one of those that encode the character at `i`: it comes after the bytes of the
characters before this one. -/
def HoldsByte (i byte : Nat) : Prop :=
  i < s.size ∧ (bytesOf (s.text.take i)).size ≤ byte ∧ byte < (bytesOf (s.text.take (i + 1))).size

theorem charOffset_eq_iff {byte i : Nat} : s.charOffset byte = i ↔
    s.HoldsByte i byte ∨ i = s.size ∧ (bytesOf s.text).size ≤ byte := by
  unfold HoldsByte size
  rw [charOffset_eq_ownerOf, ownerOf_eq_iff]
  simp only [size_bytesOf]
  constructor
  · rintro ⟨hle, hstart, hstop⟩
    rcases Nat.lt_or_eq_of_le hle with hlt | rfl
    · exact .inl ⟨hlt, hstart, hstop hlt⟩
    · rw [List.take_length] at hstart
      exact .inr ⟨rfl, hstart⟩
  · rintro (⟨hlt, hstart, hstop⟩ | ⟨rfl, hpast⟩)
    · exact ⟨Nat.le_of_lt hlt, hstart, fun _ => hstop⟩
    · rw [List.take_length]
      exact ⟨Nat.le_refl _, hpast, fun h => absurd h (Nat.lt_irrefl _)⟩

/-- **The two ways from bytes to characters are the same and undo encoding.** The table answers what
is left of the bytes before, when these are decoded without what is cut off at their end. That is the
character of the byte, or the number of characters past the end. It never decreases, and the bytes of
the first `k` characters lead back to `k`. -/
theorem charOffset_undoes_encoding :
    (∀ byte : Nat, s.charOffset byte = charsWithin (bytesOf s.text) byte) ∧
      (∀ byte i : Nat, s.charOffset byte = i ↔
        s.HoldsByte i byte ∨ i = s.size ∧ (bytesOf s.text).size ≤ byte) ∧
      (Monotone fun byte : Nat => s.charOffset byte) ∧
      ∀ k ≤ s.size, s.charOffset (bytesOf (s.text.take k)).size = k := by
  refine ⟨fun byte => ?_, fun byte i => s.charOffset_eq_iff, fun _ _ => s.charOffset_mono, ?_⟩
  · rw [charOffset_eq_ownerOf, charsWithin_bytesOf]
  · intro k hk
    have howner := ownerOf_byteLength (s.text.take k) (s.text.drop k)
    rw [List.take_append_drop, List.length_take, Nat.min_eq_left (show k ≤ s.text.length from hk),
      ← size_bytesOf] at howner
    rwa [charOffset_eq_ownerOf]

end Source

/-- The second of two bytes belongs to the character that the first one starts. -/
example : [0, 1, 2, 3, 6, 9].map (fun byte => (Source.ofText "" "é😀x".toList).charOffset byte) =
    [0, 0, 1, 1, 2, 3] := by
  decide +kernel

end RawHtmlLint

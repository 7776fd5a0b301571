import Mathlib.Data.List.Forall2
import RawHtmlLint.Script.Expression

/-!
# Bytes and the characters that hold them

A text has as many bytes as its characters together. Each byte is held by one character, and a
byte past the text by none; `ownerOf` is the index of that character, or the number of characters.
Cutting the bytes of a text short leaves just as many whole characters as `ownerOf` says, so the
two ways to get from bytes to characters, by a table and by decoding, are the same.

Results:
* `ownerOf_eq_iff`: the character that holds a byte starts at or before it, and the next one after
  it;
* `decode_utf8Encode`: every text can be read back from its bytes;
* `charsWithin_bytesOf`: the whole characters in the first bytes of a text are those before the
  character that holds the next byte.
-/

namespace RawHtmlLint.Text

/-- The number of bytes of the text. -/
def byteLength : List Char → Nat
  | [] => 0
  | c :: text => c.utf8Size + byteLength text

/-- The index of the character that holds the byte; the number of characters if the text has no
such byte. -/
def ownerOf : List Char → Nat → Nat
  | [], _ => 0
  | c :: text, byte => if byte < c.utf8Size then 0 else ownerOf text (byte - c.utf8Size) + 1

theorem ownerOf_of_lt {c : Char} {text : List Char} {byte : Nat} (h : byte < c.utf8Size) :
    ownerOf (c :: text) byte = 0 := if_pos h

theorem ownerOf_of_le {c : Char} {text : List Char} {byte : Nat} (h : c.utf8Size ≤ byte) :
    ownerOf (c :: text) byte = ownerOf text (byte - c.utf8Size) + 1 := if_neg (Nat.not_lt.mpr h)

theorem byteLength_append : ∀ text after : List Char,
    byteLength (text ++ after) = byteLength text + byteLength after
  | [], after => (Nat.zero_add _).symm
  | c :: text, after => by
    rw [List.cons_append, byteLength, byteLength, byteLength_append text after, Nat.add_assoc]

theorem length_le_byteLength : ∀ text : List Char, text.length ≤ byteLength text
  | [] => Nat.le_refl _
  | c :: text => by
    have hpos := c.utf8Size_pos
    have ih := length_le_byteLength text
    rw [List.length_cons, byteLength]
    omega

/-- **The character that holds a byte** starts at or before it, and the next one after it. -/
theorem ownerOf_eq_iff : ∀ {text : List Char} {byte i : Nat}, ownerOf text byte = i ↔
    i ≤ text.length ∧ byteLength (text.take i) ≤ byte ∧
      (i < text.length → byte < byteLength (text.take (i + 1)))
  | [], byte, i => by
    simp only [ownerOf, List.length_nil, Nat.le_zero, List.take_nil, byteLength]
    constructor
    · rintro rfl
      exact ⟨rfl, Nat.zero_le _, fun h => absurd h (Nat.lt_irrefl 0)⟩
    · rintro ⟨rfl, _⟩
      rfl
  | c :: text, byte, i => by
    rcases Nat.lt_or_ge byte c.utf8Size with hlt | hle
    · rw [ownerOf_of_lt hlt]
      constructor
      · rintro rfl
        exact ⟨Nat.zero_le _, Nat.zero_le _, fun _ => Nat.lt_of_lt_of_le hlt (Nat.le_add_right _ _)⟩
      · rintro ⟨_, hstart, _⟩
        cases i with
        | zero => rfl
        | succ i =>
          rw [List.take_succ_cons, byteLength] at hstart
          omega
    · rw [ownerOf_of_le hle]
      cases i with
      | zero =>
        refine ⟨fun h => absurd h (Nat.succ_ne_zero _), fun ⟨_, _, hstop⟩ => ?_⟩
        have hstop := hstop (Nat.succ_pos _)
        rw [List.take_succ_cons, List.take_zero, byteLength, byteLength] at hstop
        omega
      | succ i =>
        rw [Nat.succ_inj, @ownerOf_eq_iff text, List.take_succ_cons, List.take_succ_cons,
          byteLength, byteLength, List.length_cons]
        refine and_congr Nat.succ_le_succ_iff.symm (and_congr (by omega) ?_)
        rw [Nat.succ_lt_succ_iff]
        exact imp_congr_right fun _ => by omega

theorem ownerOf_le_length (text : List Char) (byte : Nat) : ownerOf text byte ≤ text.length :=
  (ownerOf_eq_iff.mp rfl).1

theorem ownerOf_mono : ∀ (text : List Char) {a b : Nat}, a ≤ b → ownerOf text a ≤ ownerOf text b
  | [], _, _, _ => Nat.le_refl _
  | c :: text, a, b, h => by
    rcases Nat.lt_or_ge a c.utf8Size with hlt | hle
    · rw [ownerOf_of_lt hlt]
      exact Nat.zero_le _
    · rw [ownerOf_of_le hle, ownerOf_of_le (Nat.le_trans hle h)]
      exact Nat.succ_le_succ (ownerOf_mono text (Nat.sub_le_sub_right h _))

/-- No byte past the text has a character. -/
theorem ownerOf_of_byteLength_le {text : List Char} {byte : Nat} (h : byteLength text ≤ byte) :
    ownerOf text byte = text.length := by
  rw [ownerOf_eq_iff, List.take_length]
  exact ⟨Nat.le_refl _, h, fun h => absurd h (Nat.lt_irrefl _)⟩

/-- A byte of the first text, or the one after it, is held by a character up to the next one. -/
theorem ownerOf_append_le : ∀ {text : List Char} (after : List Char) {byte : Nat},
    byte ≤ byteLength text → ownerOf (text ++ after) byte ≤ text.length
  | [], after, byte, h => by
    obtain rfl := Nat.le_zero.mp h
    cases after with
    | nil => exact Nat.le_refl _
    | cons c after => exact Nat.le_of_eq (ownerOf_of_lt c.utf8Size_pos)
  | c :: text, after, byte, h => by
    rw [byteLength] at h
    rw [List.cons_append, List.length_cons]
    rcases Nat.lt_or_ge byte c.utf8Size with hlt | hle
    · rw [ownerOf_of_lt hlt]
      exact Nat.zero_le _
    · rw [ownerOf_of_le hle]
      exact Nat.succ_le_succ (ownerOf_append_le after (by omega))

/-- The byte after those of a part of a text is held by the character after this part. -/
theorem ownerOf_byteLength (before after : List Char) :
    ownerOf (before ++ after) (byteLength before) = before.length := by
  rw [ownerOf_eq_iff, List.take_left, List.length_append]
  refine ⟨Nat.le_add_right _ _, Nat.le_refl _, fun hlt => ?_⟩
  cases after with
  | nil => exact absurd hlt (Nat.lt_irrefl _)
  | cons c after =>
    rw [List.take_length_add_append, byteLength_append, List.take_succ_cons, List.take_zero,
      byteLength, byteLength]
    exact Nat.lt_add_of_pos_right c.utf8Size_pos

/-- Texts with characters of the same sizes have the same bytes at the same characters. -/
theorem ownerOf_congr {text text' : List Char}
    (h : List.Forall₂ (fun c d => c.utf8Size = d.utf8Size) text text') (byte : Nat) :
    ownerOf text byte = ownerOf text' byte := by
  induction h generalizing byte with
  | nil => rfl
  | cons hsize _ ih => rw [ownerOf, ownerOf, hsize, ih]

/-! ## Decoding -/

open Expression

theorem bytesOf_eq (text : List Char) : bytesOf text = text.utf8Encode := by
  rw [bytesOf, String.toUTF8_eq_toByteArray, ← String.utf8Encode_toList, String.toList_ofList]

theorem size_utf8Encode : ∀ text : List Char, text.utf8Encode.size = byteLength text
  | [] => rfl
  | c :: text => by
    rw [List.utf8Encode_cons, ByteArray.size_append, size_utf8Encode text, byteLength,
      List.utf8Encode_singleton]
    simp

theorem size_utf8Encode_singleton (c : Char) : [c].utf8Encode.size = c.utf8Size :=
  size_utf8Encode [c]

theorem size_bytesOf (text : List Char) : (bytesOf text).size = byteLength text := by
  rw [bytesOf_eq, size_utf8Encode]

/-- The first bytes of a text, too few for its first character, start with no character. -/
theorem not_decodes_short {c d : Char} {text : List Char} {n : Nat} (hlt : n < c.utf8Size)
    (hd : ((c :: text).utf8Encode.extract 0 n).utf8DecodeChar? 0 = some d) : False := by
  have hfits := ByteArray.le_size_of_utf8DecodeChar?_eq_some hd
  have hwhole := ByteArray.utf8DecodeChar?_append_eq_some hd
    ((c :: text).utf8Encode.extract n (max n (c :: text).utf8Encode.size))
  rw [← ByteArray.extract_eq_extract_append_extract n (Nat.zero_le n) (Nat.le_max_left _ _),
    ByteArray.extract_zero_max_size, List.utf8DecodeChar?_utf8Encode_cons] at hwhole
  cases hwhole
  rw [ByteArray.size_extract] at hfits
  omega

/-- The first bytes of a text, enough for its first character, are those of this character and
first bytes of the rest. -/
theorem extract_utf8Encode_cons {c : Char} {text : List Char} {n : Nat} (hle : c.utf8Size ≤ n) :
    (c :: text).utf8Encode.extract 0 n =
      [c].utf8Encode ++ text.utf8Encode.extract 0 (n - c.utf8Size) := by
  have hsize := size_utf8Encode_singleton c
  rw [List.utf8Encode_cons, ByteArray.extract_append, hsize, Nat.zero_sub]
  have hmax : n = max n [c].utf8Encode.size := by omega
  rw [hmax, ByteArray.extract_zero_max_size, ← hmax]

/-- Where what is left are the first `n` bytes of a text, and they hold its first character, reading
goes on after this character. -/
theorem readFrom_cons {c : Char} {text : List Char} {bytes : ByteArray} {i n : Nat}
    (h : bytes.extract i bytes.size = (c :: text).utf8Encode.extract 0 n)
    (hle : c.utf8Size ≤ n) :
    (∀ taken, Utf8.readFrom bytes i taken = Utf8.readFrom bytes (i + c.utf8Size) (c :: taken)) ∧
      bytes.extract (i + c.utf8Size) bytes.size = text.utf8Encode.extract 0 (n - c.utf8Size) := by
  have hdecode := ByteArray.utf8DecodeChar?_eq_utf8DecodeChar?_extract (b := bytes) (i := i)
  rw [extract_utf8Encode_cons hle] at h
  rw [h, List.utf8DecodeChar?_utf8Encode_singleton_append] at hdecode
  constructor
  · intro taken
    have hfits := ByteArray.le_size_of_utf8DecodeChar?_eq_some hdecode
    have hpos := c.utf8Size_pos
    rw [Utf8.readFrom, dif_pos (by omega)]
    simp only [hdecode]
  · have hsize := size_utf8Encode_singleton c
    have hcut := congrArg (fun b : ByteArray => b.extract c.utf8Size b.size) h
    rw [ByteArray.extract_append_eq_right hsize.symm ByteArray.size_append,
      ByteArray.extract_extract, ByteArray.size_extract] at hcut
    rw [← hcut]
    congr 1
    omega

/-- Reading from a byte on, where what is left are the first `n` bytes of a text, reads the
characters before the one that holds the byte after these. -/
theorem length_readFrom : ∀ (text : List Char) {bytes : ByteArray} {i n : Nat} {taken : List Char},
    bytes.extract i bytes.size = text.utf8Encode.extract 0 n →
    (Utf8.readFrom bytes i taken).1.length = taken.length + ownerOf text n
  | [], bytes, i, n, taken, h => by
    have hend : min bytes.size bytes.size ≤ i := by
      rw [← ByteArray.extract_eq_empty_iff, h, List.utf8Encode_nil, ByteArray.extract_eq_empty_iff]
      exact Nat.min_le_right _ _
    rw [Utf8.readFrom, dif_neg (by omega), List.length_reverse, ownerOf, Nat.add_zero]
  | c :: text, bytes, i, n, taken, h => by
    rcases Nat.lt_or_ge n c.utf8Size with hlt | hle
    · have hdecode := ByteArray.utf8DecodeChar?_eq_utf8DecodeChar?_extract (b := bytes) (i := i)
      rw [h] at hdecode
      rw [Utf8.readFrom, ownerOf_of_lt hlt]
      split
      · split
        · rename_i d hd
          rw [hdecode] at hd
          exact absurd hd (not_decodes_short hlt)
        · exact List.length_reverse
      · exact List.length_reverse
    · obtain ⟨hread, hrest⟩ := readFrom_cons h hle
      rw [hread, length_readFrom text hrest, ownerOf_of_le hle, List.length_cons]
      omega

/-- Reading from a byte on, where what is left are the bytes of a text, reads this text. -/
theorem readFrom_utf8Encode : ∀ (text : List Char) {bytes : ByteArray} {i : Nat}
    {taken : List Char}, bytes.extract i bytes.size = text.utf8Encode → i ≤ bytes.size →
    Utf8.readFrom bytes i taken = (taken.reverse ++ text, bytes.size)
  | [], bytes, i, taken, h, hi => by
    have hend : min bytes.size bytes.size ≤ i := by
      rw [← ByteArray.extract_eq_empty_iff, h, List.utf8Encode_nil]
    obtain rfl : i = bytes.size := by omega
    rw [Utf8.readFrom, dif_neg (Nat.lt_irrefl _), List.append_nil]
  | c :: text, bytes, i, taken, h, hi => by
    have hsize := congrArg ByteArray.size h
    rw [ByteArray.size_extract, size_utf8Encode, byteLength] at hsize
    have hwhole : (c :: text).utf8Encode.extract 0 (c :: text).utf8Encode.size =
        (c :: text).utf8Encode := ByteArray.extract_zero_size
    obtain ⟨hread, hrest⟩ := readFrom_cons (h.trans hwhole.symm)
      (by rw [size_utf8Encode, byteLength]; omega)
    have hlen : (c :: text).utf8Encode.size - c.utf8Size = text.utf8Encode.size := by
      rw [size_utf8Encode, size_utf8Encode, byteLength]
      omega
    rw [hlen, ByteArray.extract_zero_size] at hrest
    rw [hread, readFrom_utf8Encode text hrest (by omega), List.reverse_cons, List.append_assoc]
    rfl

/-- **Every text can be read back from its bytes.** -/
theorem decode_utf8Encode (text : List Char) : Utf8.decode text.utf8Encode = .ok text := by
  unfold Utf8.decode
  rw [readFrom_utf8Encode text ByteArray.extract_zero_size (Nat.zero_le _)]
  exact if_neg (Nat.lt_irrefl _)

/-- **The whole characters in the first bytes of a text** are those before the character that
holds the next byte. -/
theorem charsWithin_bytesOf (text : List Char) (n : Nat) :
    charsWithin (bytesOf text) n = ownerOf text n := by
  rw [charsWithin, Utf8.decodePrefix, bytesOf_eq, length_readFrom text (n := n)]
  · exact Nat.zero_add _
  · exact ByteArray.extract_zero_size

end RawHtmlLint.Text

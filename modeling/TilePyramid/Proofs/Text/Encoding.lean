import TilePyramid.Text.Utf8

/-!
# Texts as bytes

A text that is written as UTF-8 is read back as it was. A byte of a line feed is written only for a
line feed, so that a text without one is one line. Main statements: `decodeFrom_encode` and
`lines_encode`.
-/

set_option autoImplicit false

namespace TilePyramid.Text

open Utf8 (Bytes)

namespace Utf8

theorem toList_loop_eq (bytes : ByteArray) (index : Nat) (before : Bytes) :
    ByteArray.toList.loop bytes index before = before.reverse ++ bytes.data.toList.drop index := by
  fun_induction ByteArray.toList.loop bytes index before with
  | case1 index before inside ih =>
      have bound : index < bytes.data.toList.length := by simpa using inside
      have byte : bytes.get! index = bytes.data.toList[index] := by
        change bytes.data[index]! = _
        rw [getElem!_pos bytes.data index inside, Array.getElem_toList]
      rw [ih, List.drop_eq_getElem_cons bound, byte, List.reverse_cons, List.append_assoc,
        List.singleton_append]
  | case2 index before outside =>
      have bound : bytes.data.toList.length ≤ index := by simpa using outside
      rw [List.drop_eq_nil_of_le bound, List.append_nil]

/-- A text is written character by character. -/
theorem encode_ofList (letters : List Char) :
    encode (String.ofList letters) = letters.flatMap String.utf8EncodeChar := by
  rw [encode, ByteArray.toList, toList_loop_eq]
  exact List.toList_data_toByteArray

/-- The bytes of a code point, by its size. -/
inductive Spells (point : Nat) : Bytes → Prop where
  | one {first : UInt8} (small : point < 0x80) (lead : first.toNat = point) : Spells point [first]
  | two {first second : UInt8} (large : 0x80 ≤ point) (small : point < 0x800)
      (lead : first.toNat = 0xC0 + point / 64) (last : second.toNat = 0x80 + point % 64) :
      Spells point [first, second]
  | three {first second third : UInt8} (large : 0x800 ≤ point) (small : point < 0x10000)
      (lead : first.toNat = 0xE0 + point / 4096) (next : second.toNat = 0x80 + point / 64 % 64)
      (last : third.toNat = 0x80 + point % 64) : Spells point [first, second, third]
  | four {first second third fourth : UInt8} (large : 0x10000 ≤ point) (small : point < 0x110000)
      (lead : first.toNat = 0xF0 + point / 262144) (next : second.toNat = 0x80 + point / 4096 % 64)
      (further : third.toNat = 0x80 + point / 64 % 64) (last : fourth.toNat = 0x80 + point % 64) :
      Spells point [first, second, third, fourth]

theorem spells_utf8EncodeChar (c : Char) : Spells c.toNat (String.utf8EncodeChar c) := by
  have valid : c.val.toNat < 0xD800 ∨ 0xDFFF < c.val.toNat ∧ c.val.toNat < 0x110000 := c.valid
  have byte {value : Nat} (fits : value < 256) : (UInt8.ofNat value).toNat = value := by
    simpa using fits
  unfold String.utf8EncodeChar
  change Spells c.val.toNat _
  generalize c.val.toNat = point at valid ⊢
  dsimp only
  split
  · exact .one (by omega) (by rw [byte]; omega)
  split
  · exact .two (by omega) (by omega) (by rw [byte] <;> omega) (by rw [byte] <;> omega)
  split
  · exact .three (by omega) (by omega) (by rw [byte] <;> omega) (by rw [byte] <;> omega)
      (by rw [byte] <;> omega)
  · exact .four (by omega) (by omega) (by rw [byte] <;> omega) (by rw [byte] <;> omega)
      (by rw [byte] <;> omega) (by rw [byte] <;> omega)

section Decoding

variable {index start bits read low high missing : Nat} {byte : UInt8} {rest : Bytes}

theorem Lead.ofByte_two (lower : 0xC2 ≤ byte.toNat) (upper : byte.toNat < 0xE0) :
    Lead.ofByte byte = .several (byte.toNat - 0xC0) 0x80 0xBF 1 := by
  rw [ofByte, if_neg (by omega), if_neg (by omega), if_pos upper]

theorem Lead.ofByte_three (lower : 0xE0 ≤ byte.toNat) (upper : byte.toNat < 0xF0) :
    Lead.ofByte byte = .several (byte.toNat - 0xE0) (if byte.toNat = 0xE0 then 0xA0 else 0x80)
      (if byte.toNat = 0xED then 0x9F else 0xBF) 2 := by
  rw [ofByte, if_neg (by omega), if_neg (by omega), if_neg (by omega), if_pos upper]

theorem Lead.ofByte_four (lower : 0xF0 ≤ byte.toNat) (upper : byte.toNat < 0xF5) :
    Lead.ofByte byte = .several (byte.toNat - 0xF0) (if byte.toNat = 0xF0 then 0x90 else 0x80)
      (if byte.toNat = 0xF4 then 0x8F else 0xBF) 3 := by
  rw [ofByte, if_neg (by omega), if_neg (by omega), if_neg (by omega), if_neg (by omega),
    if_pos upper]

theorem decodeFrom_single (ascii : byte.toNat < 0x80) : decodeFrom index .between (byte :: rest) =
    (decodeFrom (index + 1) .between rest).map (Char.ofNat byte.toNat :: ·) := by
  rw [decodeFrom, Lead.ofByte, if_pos ascii]

theorem decodeFrom_several (lead : Lead.ofByte byte = .several bits low high missing) :
    decodeFrom index .between (byte :: rest) =
      decodeFrom (index + 1) (.within index bits 1 low high missing) rest := by
  rw [decodeFrom, lead]

theorem decodeFrom_next (lower : low ≤ byte.toNat) (upper : byte.toNat ≤ high)
    (more : 1 < missing) :
    decodeFrom index (.within start bits read low high missing) (byte :: rest) =
      decodeFrom (index + 1)
        (.within start (bits * 64 + (byte.toNat - 0x80)) (read + 1) 0x80 0xBF (missing - 1)) rest := by
  rw [decodeFrom, if_pos ⟨lower, upper⟩, if_neg (by omega)]

theorem decodeFrom_last (lower : low ≤ byte.toNat) (upper : byte.toNat ≤ high) :
    decodeFrom index (.within start bits read low high 1) (byte :: rest) =
      (decodeFrom (index + 1) .between rest).map
        (Char.ofNat (bits * 64 + (byte.toNat - 0x80)) :: ·) := by
  rw [decodeFrom, if_pos ⟨lower, upper⟩, if_pos (Nat.le_refl 1)]

end Decoding

/-- The bytes of a code point are read as one character. Surrogates are none: the restricted second
byte of `ED` excludes them. -/
theorem Spells.decodeFrom_append {point : Nat} {bytes : Bytes} (spells : Spells point bytes)
    (valid : point < 0xD800 ∨ 0xDFFF < point) (index : Nat) (rest : Bytes) :
    decodeFrom index .between (bytes ++ rest) =
      (decodeFrom (index + bytes.length) .between rest).map (Char.ofNat point :: ·) := by
  cases spells with
  | @one first small lead =>
      rw [List.singleton_append, decodeFrom_single (by omega), lead]
      rfl
  | @two first second large small lead last =>
      have whole : (first.toNat - 0xC0) * 64 + (second.toNat - 0x80) = point := by omega
      rw [List.cons_append, decodeFrom_several (Lead.ofByte_two (by omega) (by omega)),
        List.singleton_append, decodeFrom_last (by omega) (by omega), whole]
      rfl
  | @three first second third large small lead next last =>
      have whole : ((first.toNat - 0xE0) * 64 + (second.toNat - 0x80)) * 64 + (third.toNat - 0x80) =
          point := by omega
      rw [List.cons_append, decodeFrom_several (Lead.ofByte_three (by omega) (by omega)),
        List.cons_append, decodeFrom_next (by split <;> omega) (by split <;> omega) (by omega),
        List.singleton_append, decodeFrom_last (by omega) (by omega), whole]
      rfl
  | @four first second third fourth large small lead next further last =>
      have whole : (((first.toNat - 0xF0) * 64 + (second.toNat - 0x80)) * 64 +
          (third.toNat - 0x80)) * 64 + (fourth.toNat - 0x80) = point := by omega
      rw [List.cons_append, decodeFrom_several (Lead.ofByte_four (by omega) (by omega)),
        List.cons_append, decodeFrom_next (by split <;> omega) (by split <;> omega) (by omega),
        List.cons_append, decodeFrom_next (by omega) (by omega) (by omega),
        List.singleton_append, decodeFrom_last (by omega) (by omega), whole]
      rfl

/-- What is written is read back. -/
theorem decodeFrom_flatMap (letters : List Char) (index : Nat) :
    decodeFrom index .between (letters.flatMap String.utf8EncodeChar) = .ok letters := by
  induction letters generalizing index with
  | nil => rfl
  | cons c rest ih =>
      have valid : c.toNat < 0xD800 ∨ 0xDFFF < c.toNat ∧ c.toNat < 0x110000 := c.valid
      have bytes := spells_utf8EncodeChar c
      rw [List.flatMap_cons, bytes.decodeFrom_append (by omega), ih, Char.ofNat_toNat]
      rfl

theorem decodeFrom_encode (letters : List Char) :
    decodeFrom 0 .between (encode (String.ofList letters)) = .ok letters := by
  rw [encode_ofList, decodeFrom_flatMap]

/-- Only a line feed is written with its byte. -/
theorem eq_of_lineFeed_mem {c : Char} (member : lineFeed ∈ String.utf8EncodeChar c) : c = '\n' := by
  have byte : lineFeed.toNat = 10 := rfl
  have point : c.toNat = 10 := by
    have spells := spells_utf8EncodeChar c
    generalize String.utf8EncodeChar c = bytes at member spells
    cases spells <;> simp only [List.mem_cons, List.not_mem_nil, or_false] at member
    case one small lead => rw [← lead, ← member, byte]
    case two => rcases member with rfl | rfl <;> omega
    case three => rcases member with rfl | rfl | rfl <;> omega
    case four => rcases member with rfl | rfl | rfl | rfl <;> omega
  exact Char.toNat_inj.mp point

end Utf8

/-! ## Lines -/

theorem linesFrom_of_undivided {begun text : Bytes} (undivided : lineFeed ∉ text.dropLast)
    (some : text ≠ []) : linesFrom begun text = [begun.reverse ++ text] := by
  induction text generalizing begun with
  | nil => exact absurd rfl some
  | cons byte rest ih =>
      cases rest with
      | nil =>
          by_cases ends : byte = lineFeed <;> simp [linesFrom, ends]
      | cons next others =>
          simp only [List.dropLast_cons_cons, List.mem_cons, not_or] at undivided
          rw [linesFrom, if_neg (Ne.symm undivided.1), ih undivided.2 (List.cons_ne_nil _ _),
            List.reverse_cons, List.append_assoc, List.singleton_append]

theorem encode_ne_nil {letters : List Char} (some : letters ≠ []) :
    Utf8.encode (String.ofList letters) ≠ [] := by
  intro nothing
  have read : Utf8.decodeFrom 0 .between [] = .ok letters :=
    nothing ▸ Utf8.decodeFrom_encode letters
  cases read
  exact some rfl

/-- A text that holds no line feed is one line, also with a line feed behind it. -/
theorem lines_encode {letters ending : List Char} (some : letters ≠ []) (undivided : '\n' ∉ letters)
    (ends : ending = [] ∨ ending = ['\n']) :
    lines (Utf8.encode (String.ofList (letters ++ ending))) =
      [Utf8.encode (String.ofList (letters ++ ending))] := by
  have unbroken : lineFeed ∉ letters.flatMap String.utf8EncodeChar := by
    intro member
    obtain ⟨c, inside, found⟩ := List.mem_flatMap.mp member
    exact undivided (Utf8.eq_of_lineFeed_mem found ▸ inside)
  refine linesFrom_of_undivided ?_ (encode_ne_nil (List.append_ne_nil_of_left_ne_nil some _))
  obtain rfl | rfl := ends
  · rw [List.append_nil, Utf8.encode_ofList]
    exact fun member => unbroken (List.dropLast_subset _ member)
  · have byte : String.utf8EncodeChar '\n' = [lineFeed] := rfl
    rw [Utf8.encode_ofList, List.flatMap_append, List.flatMap_singleton, byte, List.dropLast_concat]
    exact unbroken

end TilePyramid.Text

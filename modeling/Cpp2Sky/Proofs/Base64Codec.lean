import Cpp2Sky.Base64
import Cpp2Sky.Library.Sextets

/-! The encoder writes the table characters of the sextets of its input, and the
decoder reads sextets back into bytes. -/

namespace Cpp2Sky.Base64
open Sextets

theorem reverseLookup_tableChar : ∀ sextet : UInt8, sextet < 64 → reverseLookup (tableChar sextet) = sextet := by
  decide +kernel

theorem tableChar_lookup : ∀ char : UInt8, reverseLookup char ≠ 64 →
    reverseLookup char < 64 ∧ tableChar (reverseLookup char) = char := by decide +kernel

/-- A letter, a digit, '+' or '/'. -/
def isBase64Char (byte : UInt8) : Bool :=
  'A'.toUInt8 ≤ byte && byte ≤ 'Z'.toUInt8 || 'a'.toUInt8 ≤ byte && byte ≤ 'z'.toUInt8 ||
    '0'.toUInt8 ≤ byte && byte ≤ '9'.toUInt8 || byte = '+'.toUInt8 || byte = '/'.toUInt8

private theorem tableChar_letter : ∀ sextet : UInt8, sextet < 64 → isBase64Char (tableChar sextet) = true := by
  decide +kernel

theorem sextets_letters (input : Bytes) : ∀ char ∈ (sextets input).map tableChar, isBase64Char char = true := by
  intro char member
  obtain ⟨sextet, inside, rfl⟩ := List.mem_map.mp member
  exact tableChar_letter sextet (sextets_lt input sextet inside)

/-- Padding is told from the characters by not being one of them. -/
theorem pad_notMem_letters {chars : Bytes} (letters : ∀ char ∈ chars, isBase64Char char = true) : pad ∉ chars := by
  intro member
  have letter := letters pad member
  revert letter
  decide

def padding (addPadding : Bool) (length : Nat) : Bytes :=
  match addPadding, length % 3 with
  | true, 1 => [pad, pad]
  | true, 2 => [pad]
  | _, _ => []

private theorem encodeLoop_eq (addPadding : Bool) (input : Bytes) (pos : Nat) (aligned : pos % 3 = 0) (ret : Bytes) :
    encodeLoop addPadding input pos 0 ret = ret ++ (sextets input).map tableChar ++ padding addPadding input.length := by
  have second : (pos + 1) % 3 = 1 := by omega
  have third : (pos + 1 + 1) % 3 = 2 := by omega
  induction input using sextets.induct generalizing pos ret with
  | case1 => cases addPadding <;> simp [encodeLoop, encodeLast, aligned, sextets, padding]
  | case2 a => cases addPadding <;> simp [encodeLoop, encodeLast, encodeBase, aligned, second, sextets, padding]
  | case3 a b => cases addPadding <;> simp [encodeLoop, encodeLast, encodeBase, aligned, second, third, sextets, padding]
  | case4 a b c rest ih =>
    have again := ih (pos + 1 + 1 + 1) (by omega) (ret ++ [tableChar (a >>> 2)] ++
      [tableChar ((a &&& 3) <<< 4 ||| b >>> 4)] ++
      [tableChar ((b &&& 15) <<< 2 ||| c >>> 6), tableChar (c &&& 63)]) (by omega) (by omega)
    have padded : padding addPadding (a :: b :: c :: rest).length = padding addPadding rest.length := by
      simp [padding, Nat.add_mod_right, Nat.add_assoc]
    simp only [encodeLoop, encodeBase, aligned, second, third]
    rw [again, padded]
    simp [sextets]

theorem encode_eq (input : Bytes) (addPadding : Bool) :
    encode input addPadding = (sextets input).map tableChar ++ padding addPadding input.length :=
  encodeLoop_eq addPadding input 0 rfl []

@[simp] private theorem orBack_append (ret : Bytes) (last bits : UInt8) :
    orBack (ret ++ [last]) bits = .ok (ret ++ [last ||| bits]) := by
  simp [orBack]

section Steps
variable {last i : Nat} {curChar : UInt8} {rest ret : Bytes}

private theorem decodeLoop_invalid (invalid : reverseLookup curChar = 64) :
    decodeLoop last (curChar :: rest) i ret = .ok none := by
  unfold decodeLoop
  split
  · simp only [decodeBase, invalid, ite_true]
    rfl
  · simp only [decodeLast, invalid, ite_true]

private theorem decodeLoop_last : decodeLoop i (curChar :: rest) i ret = decodeLast curChar i ret := by
  rw [decodeLoop, if_neg (Nat.lt_irrefl i)]

variable (valid : reverseLookup curChar ≠ 64)
include valid

private theorem decodeLoop_first (inside : i < last) (aligned : i % 4 = 0) :
    decodeLoop last (curChar :: rest) i ret = decodeLoop last rest (i + 1) (ret ++ [reverseLookup curChar <<< 2]) := by
  simp [decodeLoop, inside, decodeBase, valid, aligned]

private theorem decodeLoop_second (inside : i < last) (aligned : i % 4 = 1) (back : UInt8) :
    decodeLoop last (curChar :: rest) i (ret ++ [back]) =
      decodeLoop last rest (i + 1) (ret ++ [back ||| reverseLookup curChar >>> 4] ++ [reverseLookup curChar <<< 4]) := by
  simp [decodeLoop, inside, decodeBase, valid, aligned]

private theorem decodeLoop_third (inside : i < last) (aligned : i % 4 = 2) (back : UInt8) :
    decodeLoop last (curChar :: rest) i (ret ++ [back]) =
      decodeLoop last rest (i + 1) (ret ++ [back ||| reverseLookup curChar >>> 2] ++ [reverseLookup curChar <<< 6]) := by
  simp [decodeLoop, inside, decodeBase, valid, aligned]

private theorem decodeLoop_fourth (inside : i < last) (aligned : i % 4 = 3) (back : UInt8) :
    decodeLoop last (curChar :: rest) i (ret ++ [back]) =
      decodeLoop last rest (i + 1) (ret ++ [back ||| reverseLookup curChar]) := by
  simp [decodeLoop, inside, decodeBase, valid, aligned]

/-- A valid character before the last one goes on with a text that is not empty. -/
private theorem decodeLoop_valid (inside : i < last) (started : i % 4 ≠ 0 → ret ≠ []) :
    ∃ ret', ret' ≠ [] ∧ decodeLoop last (curChar :: rest) i ret = decodeLoop last rest (i + 1) ret' := by
  rcases List.eq_nil_or_concat ret with rfl | ⟨front, back, rfl⟩
  · have aligned : i % 4 = 0 := by
      by_contra unaligned
      exact started unaligned rfl
    exact ⟨_, by simp, decodeLoop_first valid inside aligned⟩
  · rw [List.concat_eq_append]
    have positions : i % 4 = 0 ∨ i % 4 = 1 ∨ i % 4 = 2 ∨ i % 4 = 3 := by omega
    rcases positions with aligned | aligned | aligned | aligned
    · exact ⟨_, by simp, decodeLoop_first valid inside aligned⟩
    · exact ⟨_, by simp, decodeLoop_second valid inside aligned back⟩
    · exact ⟨_, by simp, decodeLoop_third valid inside aligned back⟩
    · exact ⟨_, by simp, decodeLoop_fourth valid inside aligned back⟩

end Steps

private theorem decodeLoop_reject (pads chars : Bytes) (i : Nat) (ret : Bytes) (started : i % 4 ≠ 0 → ret ≠ [])
    (invalid : ∃ curChar ∈ chars, reverseLookup curChar = 64) :
    decodeLoop (i + (chars.length - 1)) (chars ++ pads) i ret = .ok none := by
  induction chars generalizing i ret with
  | nil => obtain ⟨_, member, _⟩ := invalid; cases member
  | cons curChar rest ih =>
    by_cases valid : reverseLookup curChar = 64
    · exact decodeLoop_invalid valid
    · obtain ⟨other, member, missing⟩ := invalid
      have later : other ∈ rest := by
        rcases List.mem_cons.mp member with rfl | later
        · exact absurd missing valid
        · exact later
      have longer := List.length_pos_of_mem later
      obtain ⟨ret', started', goes⟩ := @decodeLoop_valid (i + ((curChar :: rest).length - 1)) i curChar
        (rest ++ pads) ret valid (by simp; omega) started
      rw [List.cons_append, goes]
      have again := ih (i + 1) ret' (fun _ => started') ⟨other, later, missing⟩
      rwa [show i + 1 + (rest.length - 1) = i + ((curChar :: rest).length - 1) by simp; omega] at again

private theorem decodeLoop_accept (pads : Bytes) : ∀ (chars : Bytes), chars ≠ [] →
    (∀ curChar ∈ chars, reverseLookup curChar ≠ 64) → ∀ i, i % 4 = 0 → ∀ ret,
    decodeLoop (i + (chars.length - 1)) (chars ++ pads) i ret =
      .ok ((octets (chars.map reverseLookup)).map (ret ++ ·))
  | [c], _, valid, i, aligned, ret => by
    have first := valid c (by simp)
    simp [decodeLoop_last, decodeLast, first, aligned, octets]
  | [c, d], _, valid, i, aligned, ret => by
    have first := valid c (by simp)
    have second := valid d (by simp)
    have next : (i + 1) % 4 = 1 := by omega
    simp only [List.length_cons, List.length_nil, List.cons_append, List.nil_append]
    rw [decodeLoop_first first (by omega) aligned, decodeLoop_last]
    simp only [decodeLast, second, next, orBack_append, octets, List.map_cons, List.map_nil, ite_false]
    split <;> simp
  | [c, d, e], _, valid, i, aligned, ret => by
    have first := valid c (by simp)
    have second := valid d (by simp)
    have third := valid e (by simp)
    have next : (i + 1 + 1) % 4 = 2 := by omega
    simp only [List.length_cons, List.length_nil, List.cons_append, List.nil_append]
    rw [decodeLoop_first first (by omega) aligned, decodeLoop_second second (by omega) (by omega), decodeLoop_last]
    simp only [decodeLast, third, next, orBack_append, octets, List.map_cons, List.map_nil, ite_false]
    split <;> simp
  | [c, d, e, f], _, valid, i, aligned, ret => by
    have first := valid c (by simp)
    have second := valid d (by simp)
    have third := valid e (by simp)
    have fourth := valid f (by simp)
    have next : (i + 1 + 1 + 1) % 4 = 3 := by omega
    simp only [List.length_cons, List.length_nil, List.cons_append, List.nil_append]
    rw [decodeLoop_first first (by omega) aligned, decodeLoop_second second (by omega) (by omega),
      decodeLoop_third third (by omega) (by omega), decodeLoop_last]
    simp only [decodeLast, fourth, next, orBack_append, ite_false, Outcome.ok_bind]
    simp [octets]
  | c :: d :: e :: f :: g :: rest, _, valid, i, aligned, ret => by
    have first := valid c (by simp)
    have second := valid d (by simp)
    have third := valid e (by simp)
    have fourth := valid f (by simp)
    have others := decodeLoop_accept pads (g :: rest) (by simp)
      (fun curChar member => valid curChar (by simp [List.mem_cons.mp member])) (i + 1 + 1 + 1 + 1) (by omega)
    have same : i + ((c :: d :: e :: f :: g :: rest).length - 1) = i + 1 + 1 + 1 + 1 + ((g :: rest).length - 1) := by
      simp; omega
    rw [same]
    simp only [List.cons_append] at others ⊢
    rw [decodeLoop_first first (by simp; omega) aligned, decodeLoop_second second (by simp; omega) (by omega),
      decodeLoop_third third (by simp; omega) (by omega), decodeLoop_fourth fourth (by simp; omega) (by omega), others]
    simp [octets, Function.comp_def]

/-- The bytes of a text without padding, if it is one. -/
def decoded (chars : Bytes) : Option Bytes :=
  if chars.all fun curChar => reverseLookup curChar ≠ 64 then octets (chars.map reverseLookup) else none

theorem unpaddedLength_le (input : Bytes) : unpaddedLength input ≤ input.length := by
  unfold unpaddedLength
  simp only
  split
  · split <;> omega
  · exact Nat.le_refl _

/-- Only padding is left out of a text that has no character left. -/
private theorem unpaddedLength_zero {first : UInt8} {rest : Bytes} (none : unpaddedLength (first :: rest) = 0) :
    first = pad := by
  simp only [unpaddedLength, List.length_cons, Nat.add_sub_cancel] at none
  split at none
  next last =>
    split at none
    next both =>
      obtain ⟨more, before⟩ := both
      obtain ⟨only, rfl⟩ : rest.length = 1 ∧ first = pad := by
        have only : rest.length = 1 := by omega
        simpa [only] using before
      rfl
    next => simpa [none] using last
  next => cases none

private theorem maxLength_eq {n : Nat} (whole : n % 4 ≠ 1) : maxLength n = n * 3 / 4 := by
  unfold maxLength
  split <;> split <;> omega

/-- Where a character is left, the loop reads the text without its padding. -/
private theorem decodeLoop_text (pads chars : Bytes) (nonempty : chars ≠ []) :
    decodeLoop (chars.length - 1) (chars ++ pads) 0 [] = .ok (decoded chars) := by
  simp only [decoded, List.all_eq_true, decide_eq_true_eq]
  have start : chars.length - 1 = 0 + (chars.length - 1) := (Nat.zero_add _).symm
  rw [start]
  split
  next valid => rw [decodeLoop_accept pads chars nonempty valid 0 rfl []]; simp
  next invalid =>
    rw [decodeLoop_reject pads chars 0 [] (by simp)]
    by_contra every
    exact invalid fun curChar member missing => every ⟨curChar, member, missing⟩

theorem decoded_length {chars bytes : Bytes} (text : decoded chars = some bytes) :
    bytes.length = maxLength chars.length := by
  unfold decoded at text
  split at text
  next =>
    obtain ⟨count, whole⟩ := octets_length text
    rw [List.length_map] at count whole
    rw [count, maxLength_eq whole]
  next => cases text

/-- What `decodeWithoutPadding` makes of any input: it drops the padding and
returns the empty text for what is not Base64. -/
theorem decodeWithoutPadding_eq (input : Bytes) :
    decodeWithoutPadding input = .ok ((decoded (input.take (unpaddedLength input))).getD []) := by
  unfold decodeWithoutPadding
  cases input with
  | nil => simp [decoded, octets]
  | cons first rest =>
    rw [if_neg (List.cons_ne_nil first rest)]
    by_cases none : unpaddedLength (first :: rest) = 0
    · -- `last` has wrapped, but the first character already is padding.
      have invalid : reverseLookup first = 64 := by rw [unpaddedLength_zero none]; decide
      simp [decodeLoop_invalid invalid, none, decoded, octets]
    · have inside := unpaddedLength_le (first :: rest)
      have text := decodeLoop_text ((first :: rest).drop (unpaddedLength (first :: rest)))
        ((first :: rest).take (unpaddedLength (first :: rest))) (by simp [none])
      rw [List.take_append_drop, List.length_take_of_le inside] at text
      simp only [lastPosition, none, ite_false, text, Outcome.ok_bind]
      cases bytes : decoded ((first :: rest).take (unpaddedLength (first :: rest))) with
      | none => rfl
      | some bytes =>
        have size := decoded_length bytes
        rw [List.length_take_of_le inside] at size
        simp [size]

theorem padding_cases (addPadding : Bool) (length : Nat) :
    padding addPadding length = [] ∨ padding addPadding length = [pad] ∨ padding addPadding length = [pad, pad] := by
  unfold padding
  split <;> simp

theorem unpaddedLength_append {chars pads : Bytes} (clean : pad ∉ chars)
    (few : pads = [] ∨ pads = [pad] ∨ pads = [pad, pad]) : unpaddedLength (chars ++ pads) = chars.length := by
  have unpadded : chars[chars.length - 1]? ≠ some pad := fun last => clean (List.mem_of_getElem? last)
  unfold unpaddedLength
  rcases few with rfl | rfl | rfl
  · simp [unpadded]
  · have kept : ¬ (0 < chars.length ∧ (chars ++ [pad])[chars.length - 1]? = some pad) := by
      intro ⟨_, last⟩
      rw [List.getElem?_append_left (by omega)] at last
      exact unpadded last
    simp only [List.length_append, List.length_cons, List.length_nil, Nat.zero_add, Nat.add_sub_cancel, kept, ite_false]
    simp
  · simp

theorem decoded_sextets (input : Bytes) : decoded ((sextets input).map tableChar) = some input := by
  have back : ((sextets input).map tableChar).map reverseLookup = sextets input := by
    rw [List.map_map]
    refine (List.map_congr_left fun sextet member => ?_).trans (List.map_id _)
    exact reverseLookup_tableChar sextet (sextets_lt input sextet member)
  have valid : ∀ curChar ∈ (sextets input).map tableChar, reverseLookup curChar ≠ 64 := by
    intro curChar member
    obtain ⟨sextet, inside, rfl⟩ := List.mem_map.mp member
    have small := sextets_lt input sextet inside
    rw [reverseLookup_tableChar sextet small]
    exact (UInt8.ne_of_lt small)
  rw [decoded, if_pos (by simpa using valid), back, octets_sextets]

theorem decode_encode (input : Bytes) (addPadding : Bool) :
    decodeWithoutPadding (encode input addPadding) = .ok input := by
  rw [decodeWithoutPadding_eq, encode_eq, unpaddedLength_append (pad_notMem_letters (sextets_letters input)) (padding_cases _ _),
    List.take_left, decoded_sextets]
  rfl

end Cpp2Sky.Base64

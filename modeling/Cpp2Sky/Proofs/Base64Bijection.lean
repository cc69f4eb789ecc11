import Cpp2Sky.Proofs.HeaderAcceptance

/-! Encoding and decoding are inverse to each other up to the padding. -/

namespace Cpp2Sky.Base64
open Sextets

/-- A text without its at most two trailing padding characters. -/
def stripped (text : Bytes) : Bytes :=
  if [pad, pad] <:+ text then text.dropLast.dropLast
  else if [pad] <:+ text then text.dropLast
  else text

private theorem two_suffix (front : Bytes) (last : UInt8) :
    [pad, pad] <:+ front ++ [last] ↔ last = pad ∧ [pad] <:+ front := by
  constructor
  · intro ⟨before, split⟩
    rw [show [pad, pad] = [pad] ++ [pad] from rfl, ← List.append_assoc] at split
    obtain ⟨rfl, same⟩ := List.append_inj' split rfl
    exact ⟨(List.cons.inj same).1.symm, List.suffix_append _ _⟩
  · rintro ⟨rfl, before, rfl⟩
    exact ⟨before, by simp⟩

private theorem take_unpadded (text : Bytes) : text.take (unpaddedLength text) = stripped text := by
  rcases List.eq_nil_or_concat text with rfl | ⟨front, last, rfl⟩
  · rfl
  rw [List.concat_eq_append]
  have one : [pad] <:+ front ++ [last] ↔ last = pad := by
    simp [List.singleton_suffix_iff_getLast?_eq_some]
  have final : (front ++ [last])[(front ++ [last]).length - 1]? = some last := by simp
  simp only [unpaddedLength, stripped, two_suffix, one, final, Option.some.injEq, List.dropLast_concat]
  by_cases padded : last = pad
  · have second : (0 < front.length ∧ (front ++ [pad])[front.length - 1]? = some pad) ↔ [pad] <:+ front := by
      rw [List.singleton_suffix_iff_getLast?_eq_some, List.getLast?_eq_getElem?]
      by_cases some : 0 < front.length
      · rw [List.getElem?_append_left (by omega), and_iff_right some]
      · simp [List.length_eq_zero_iff.mp (Nat.eq_zero_of_not_pos some)]
    have before : (front ++ [pad]).length - 1 = front.length := by simp
    simp only [padded, ite_true, true_and, before, second]
    split
    · rw [List.take_append_of_le_length (by omega), List.dropLast_eq_take]
    · exact List.take_left
  · simp only [padded, false_and, ite_false, List.take_length]

theorem encode_unpadded (input : Bytes) : encode input false = (sextets input).map tableChar := by
  simp [encode_eq, padding]

/-- The texts of the codec: each value has one, and each text at most one value. -/
theorem decoded_iff {chars bytes : Bytes} : decoded chars = some bytes ↔ encode bytes false = chars := by
  rw [encode_unpadded]
  constructor
  · intro text
    unfold decoded at text
    split at text
    next valid =>
      have valid : ∀ char ∈ chars, reverseLookup char ≠ 64 := by simpa using valid
      have small : ∀ sextet ∈ chars.map reverseLookup, sextet < 64 := by
        intro sextet member
        obtain ⟨char, inside, rfl⟩ := List.mem_map.mp member
        exact (tableChar_lookup char (valid char inside)).1
      rw [sextets_octets small text, List.map_map]
      refine (List.map_congr_left fun char member => ?_).trans (List.map_id _)
      exact (tableChar_lookup char (valid char member)).2
    next => cases text
  · rintro rfl
    exact decoded_sextets bytes

theorem decodes_iff {text bytes : Bytes} (nonempty : bytes ≠ []) :
    decodeWithoutPadding text = .ok bytes ↔ encode bytes false = stripped text := by
  rw [← decoded_iff, ← take_unpadded]
  constructor
  · exact decodes_nonempty nonempty
  · intro decodes
    rw [decodeWithoutPadding_eq, decodes]
    rfl

/-- Which texts are the unpadded encoding of a value that is not empty. -/
theorem encoding_iff (chars : Bytes) :
    (∃ value, value ≠ [] ∧ encode value false = chars) ↔
      chars ≠ [] ∧ (∀ char ∈ chars, char ∈ ascii charTable) ∧ chars.length % 4 ≠ 1 ∧
        leftover (chars.map sextetOf) = 0 := by
  rw [← decoded_isSome, Option.isSome_iff_exists]
  constructor
  · intro ⟨value, nonempty, encodes⟩
    have text := decoded_iff.mpr encodes
    exact ⟨(decoded_nonempty text).mp nonempty, value, text⟩
  · intro ⟨nonempty, value, text⟩
    exact ⟨value, (decoded_nonempty text).mpr nonempty, decoded_iff.mp text⟩

/-- A text decodes to the value that it encodes up to padding, and to the empty
text where it encodes none. -/
theorem decode_bijection :
    (∀ (input : Bytes) (addPadding : Bool), decodeWithoutPadding (encode input addPadding) = .ok input) ∧
    (∀ text, ∃ bytes, decodeWithoutPadding text = .ok bytes ∧
      (bytes ≠ [] → encode bytes false = stripped text) ∧
      (bytes = [] ↔ text = [] ∨ ¬ ∃ value, value ≠ [] ∧ encode value false = stripped text)) ∧
    (∀ chars, (¬ ∃ value, value ≠ [] ∧ encode value false = chars) ↔
      chars = [] ∨ (∃ char ∈ chars, char ∉ ascii charTable) ∨ chars.length % 4 = 1 ∨
        leftover (chars.map sextetOf) ≠ 0) ∧
    (∀ one two bytes, bytes ≠ [] → decodeWithoutPadding one = .ok bytes → decodeWithoutPadding two = .ok bytes →
      stripped one = stripped two) := by
  refine ⟨decode_encode, ?_, ?_, ?_⟩
  · intro text
    refine ⟨_, decodeWithoutPadding_eq text, ?_, ?_⟩
    · intro nonempty
      exact (decodes_iff nonempty).mp (decodeWithoutPadding_eq text)
    · constructor
      · intro nothing
        right
        intro ⟨value, nonempty, encodes⟩
        have decodes := (decodes_iff nonempty).mpr encodes
        rw [decodeWithoutPadding_eq, nothing] at decodes
        exact nonempty (Except.ok.inj decodes).symm
      · rintro (rfl | unencoded)
        · rfl
        · by_contra nonempty
          exact unencoded ⟨_, nonempty, (decodes_iff nonempty).mp (decodeWithoutPadding_eq text)⟩
  · intro chars
    rw [encoding_iff]
    simp only [not_and_or, not_forall, not_not, exists_prop, ne_eq]
  · intro one two bytes nonempty first second
    exact ((decodes_iff nonempty).mp first).symm.trans ((decodes_iff nonempty).mp second)

end Cpp2Sky.Base64

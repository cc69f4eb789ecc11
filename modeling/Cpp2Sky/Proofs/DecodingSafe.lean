import Cpp2Sky.Propagation
import Cpp2Sky.Proofs.Base64Codec

/-! Decoding reads only inside its input, whatever the input is. The decoder with
checked positions never stops, and returns what the decoder on the characters
that are left returns. -/

namespace Cpp2Sky.Base64

private theorem charAt_inside {input : Bytes} {index : Nat} {curChar : UInt8} (present : input[index]? = some curChar) :
    Indexed.charAt input index = .ok curChar := by
  simp only [Indexed.charAt, present]

private theorem charAt_outside {input : Bytes} {index : Nat} (outside : input.length ≤ index) :
    Indexed.charAt input index = .error .outOfBounds := by
  simp only [Indexed.charAt, List.getElem?_eq_none outside]

private theorem indexed_unpaddedLength {input : Bytes} (some : input ≠ []) :
    Indexed.unpaddedLength input = .ok (unpaddedLength input) := by
  have inside : ∀ index, index < input.length → ∃ curChar, input[index]? = .some curChar := by
    intro index bound
    exact ⟨_, List.getElem?_eq_getElem bound⟩
  have length := List.length_pos_iff.mpr some
  obtain ⟨last, final⟩ := inside (input.length - 1) (by omega)
  unfold Indexed.unpaddedLength unpaddedLength
  simp only [charAt_inside final, final, Outcome.ok_bind, Option.some.injEq]
  by_cases padded : last = pad
  · by_cases more : 0 < input.length - 1
    · obtain ⟨before, previous⟩ := inside (input.length - 1 - 1) (by omega)
      simp only [padded, more, charAt_inside previous, previous, Outcome.ok_bind, ite_true, true_and, Option.some.injEq]
      split <;> rfl
    · simp only [padded, more, ite_true, ite_false, false_and, Outcome.pure_eq]
  · simp only [padded, ite_false, Outcome.pure_eq]

/-- Up to `last`, position `i` holds the first of the characters that are left. -/
private theorem indexed_decodeLoop (input : Bytes) (last i : Nat) (ret : Bytes) (bound : i ≤ last) :
    Indexed.decodeLoop input last i ret = decodeLoop last (input.drop i) i ret := by
  induction i, ret using Indexed.decodeLoop.induct last with
  | case1 i ret before ih =>
    rw [Indexed.decodeLoop, if_pos before]
    cases present : input[i]? with
    | none =>
      have outside := List.getElem?_eq_none_iff.mp present
      rw [charAt_outside outside, List.drop_eq_nil_of_le outside]
      rfl
    | some curChar =>
      obtain ⟨inside, rfl⟩ := List.getElem?_eq_some_iff.mp present
      rw [charAt_inside present, List.drop_eq_getElem_cons inside, decodeLoop, if_pos before, Outcome.ok_bind]
      apply congrArg
      funext result
      cases result with
      | none => rfl
      | some ret => exact ih ret before
  | case2 i ret final =>
    obtain rfl : i = last := by omega
    rw [Indexed.decodeLoop, if_neg final]
    cases present : input[i]? with
    | none =>
      have outside := List.getElem?_eq_none_iff.mp present
      rw [charAt_outside outside, List.drop_eq_nil_of_le outside]
      rfl
    | some curChar =>
      obtain ⟨inside, rfl⟩ := List.getElem?_eq_some_iff.mp present
      rw [charAt_inside present, List.drop_eq_getElem_cons inside, decodeLoop, if_neg final, Outcome.ok_bind]

private theorem indexed_decodeWithoutPadding (input : Bytes) :
    Indexed.decodeWithoutPadding input = decodeWithoutPadding input := by
  unfold Indexed.decodeWithoutPadding decodeWithoutPadding
  by_cases empty : input = []
  · rw [if_pos empty, if_pos empty]
  · have start := indexed_decodeLoop input (lastPosition (unpaddedLength input)) 0 [] (Nat.zero_le _)
    rw [List.drop_zero] at start
    rw [if_neg empty, if_neg empty, indexed_unpaddedLength empty, Outcome.ok_bind]
    simp only [start]

/-- No field that is decoded stops the constructor. -/
private theorem new_stop {simpleAtoi : Bytes → Option Int32} {headerValue : Bytes} {stop : Stop}
    (stopped : SpanContextImpl.new simpleAtoi headerValue = .error stop) :
    (∃ message, stop = .exception message) ∨
      fieldsOf expectedFieldCount "Invalid span context format. It must have 8 fields." headerValue = .error stop := by
  rcases Outcome.bind_eq_error.mp stopped with unsplit | ⟨fields, _, rest⟩
  · exact .inr unsplit
  left
  simp only [decodeWithoutPadding_eq, Outcome.ok_bind, Outcome.throw_eq, Outcome.pure_eq] at rest
  split at rest
  · cases rest
    exact ⟨_, rfl⟩
  · split at rest
    next =>
      cases rest
      exact ⟨_, rfl⟩
    next => cases rest

/-- Decoding ends without a read outside the input, a call of `back` on an empty
text or a failed assertion, and so does what the constructor decodes. -/
theorem decoding_safe :
    (∀ input, ∃ bytes, Indexed.decodeWithoutPadding input = .ok bytes ∧ decodeWithoutPadding input = .ok bytes ∧
      (bytes = [] ∨ bytes.length = maxLength (unpaddedLength input))) ∧
    ∀ simpleAtoi headerValue stop, SpanContextImpl.new simpleAtoi headerValue = .error stop →
      (∃ message, stop = .exception message) ∨
        fieldsOf expectedFieldCount "Invalid span context format. It must have 8 fields." headerValue = .error stop := by
  refine ⟨?_, fun _ _ _ => new_stop⟩
  intro input
  refine ⟨_, ?_, decodeWithoutPadding_eq input, ?_⟩
  · rw [indexed_decodeWithoutPadding]
    exact decodeWithoutPadding_eq input
  · cases text : decoded (input.take (unpaddedLength input)) with
    | none => exact .inl rfl
    | some bytes =>
      right
      have size := decoded_length text
      rwa [List.length_take_of_le (unpaddedLength_le input)] at size

end Cpp2Sky.Base64

import Cpp2Sky.Propagation
import Cpp2Sky.Proofs.Base64Codec

/-! How the two constructors split a header. The bound on the index is checked
before each character and not behind the last one, so a header that ends with
the separator after the last field is stored one place too far. -/

namespace Cpp2Sky
open Base64

variable {expected index : Nat} {message : String} {rest value : Bytes} {fields : List Bytes}

theorem length_splitOn (header : Bytes) : (header.splitOn separator).length = header.count separator + 1 := by
  induction header with
  | nil => rfl
  | cons char rest ih =>
    rw [List.splitOn_cons_eq_if_modifyHead, List.count_cons]
    split <;> simp [ih]

private theorem take_set (inside : index < fields.length) :
    (fields.set index value).take (index + 1) = fields.take index ++ [value] := by
  rw [List.take_succ_eq_append_getElem (by simpa using inside), List.take_set_of_le (Nat.le_refl _)]
  simp

/-- As long as the array has room, the loop stores the parts of the header. -/
theorem readFields_within (size : fields.length = expected) (room : index + rest.count separator < expected) :
    readFields expected message rest fields index value =
      .ok (fields.take index ++ (rest.splitOn separator).modifyHead (value ++ ·) ++
        fields.drop (index + rest.count separator + 1), index + rest.count separator) := by
  induction rest generalizing fields index value with
  | nil =>
    have inside : index < fields.length := by simp at room; omega
    simp [readFields, assign, inside, List.set_eq_take_append_cons_drop]
  | cons char rest ih =>
    have inside : index < fields.length := by omega
    rw [readFields, if_neg (by omega)]
    by_cases same : char = separator
    · subst same
      rw [List.count_cons_self] at room ⊢
      rw [if_pos rfl, assign, if_pos inside, Outcome.ok_bind, ih (by simpa using size) (by omega), take_set inside,
        List.drop_set_of_lt (by omega), List.splitOn_cons_eq_if_modifyHead]
      have count : index + 1 + rest.count separator = index + (rest.count separator + 1) := by omega
      simp [count, show (fun part : Bytes => part) = id from rfl]
    · rw [List.count_cons_of_ne same] at room ⊢
      rw [if_neg same, ih size room, List.splitOn_cons_eq_if_modifyHead]
      simp [same, Function.comp_def]

/-- A header with more parts is rejected at the first character behind the last
field. Where there is no such character, the loop ends and stores outside. -/
theorem readFields_over (size : fields.length = expected) (bound : index ≤ expected)
    (full : expected ≤ index + rest.count separator) :
    readFields expected message rest fields index value =
      if index + rest.count separator = expected ∧ rest.getLast?.getD separator = separator then .error .outOfBounds
      else .error (.exception message) := by
  induction rest generalizing fields index value with
  | nil =>
    have whole : index = expected := by simp at full; omega
    simp [readFields, assign, whole, size]
  | cons char rest ih =>
    rw [readFields]
    by_cases beyond : expected ≤ index
    · have first : ¬ (index + (char :: rest).count separator = expected ∧
          (char :: rest).getLast?.getD separator = separator) := by
        intro ⟨count, last⟩
        have member : separator ∈ char :: rest := by
          refine List.mem_of_getLast? (?_ : (char :: rest).getLast? = some separator)
          rw [List.getLast?_cons] at last ⊢
          exact congrArg some last
        have some := List.count_pos_iff.mpr member
        omega
      rw [if_pos beyond, if_neg first]
      rfl
    · have inside : index < fields.length := by omega
      rw [if_neg beyond]
      by_cases same : char = separator
      · subst same
        rw [List.count_cons_self] at full ⊢
        rw [if_pos rfl, assign, if_pos inside, Outcome.ok_bind, ih (by simpa using size) (by omega) (by omega)]
        have count : index + 1 + rest.count separator = index + (rest.count separator + 1) := by omega
        simp [count, List.getLast?_cons]
      · rw [List.count_cons_of_ne same] at full ⊢
        rw [if_neg same, ih size bound full]
        cases last : rest.getLast? with
        | none =>
          obtain rfl := List.getLast?_eq_none_iff.mp last
          exact absurd full (by simp; omega)
        | some other => simp [List.getLast?_cons, last]

/-- The header has exactly that many separators, and ends with one of them. -/
def EndsAfter (count : Nat) (headerValue : Bytes) : Prop :=
  headerValue.count separator = count ∧ headerValue.getLast? = some separator

instance (count : Nat) (headerValue : Bytes) : Decidable (EndsAfter count headerValue) :=
  inferInstanceAs (Decidable (_ ∧ _))

theorem fieldsOf_fit {headerValue : Bytes} (count : headerValue.count separator + 1 = expected) :
    fieldsOf expected message headerValue = .ok (headerValue.splitOn separator) := by
  subst count
  rw [fieldsOf, readFields_within List.length_replicate (by omega), Outcome.ok_bind]
  simp [show (fun part : Bytes => part) = id from rfl]

theorem fieldsOf_few {headerValue : Bytes} (count : headerValue.count separator + 1 < expected) :
    fieldsOf expected message headerValue = .error (.exception message) := by
  rw [fieldsOf, readFields_within List.length_replicate (by omega), Outcome.ok_bind]
  simp only [Nat.zero_add]
  rw [if_pos (by omega)]
  rfl

theorem fieldsOf_over {headerValue : Bytes} (some : 0 < expected) (count : expected ≤ headerValue.count separator) :
    fieldsOf expected message headerValue =
      if EndsAfter expected headerValue then .error .outOfBounds else .error (.exception message) := by
  have member : separator ∈ headerValue := List.count_pos_iff.mp (by omega)
  have last : headerValue.getLast?.getD separator = separator ↔ headerValue.getLast? = Option.some separator := by
    cases found : headerValue.getLast? with
    | none =>
      rw [List.getLast?_eq_none_iff.mp found] at member
      cases member
    | some other => simp
  rw [fieldsOf, readFields_over List.length_replicate (Nat.zero_le _) (by omega)]
  simp only [Nat.zero_add, last]
  by_cases ends : headerValue.count separator = expected ∧ headerValue.getLast? = Option.some separator
  · rw [if_pos ends, if_pos (show EndsAfter expected headerValue from ends)]
    rfl
  · rw [if_neg ends, if_neg (show ¬ EndsAfter expected headerValue from ends)]
    rfl

/-- What a constructor promises about its array of fields: no index outside it,
and an exception for a header with too many fields. -/
structure Bounded {α : Type} (expected : Nat) (headerValue : Bytes) (result : Outcome α) : Prop where
  inside : result ≠ .error .outOfBounds
  rejected : expected ≤ headerValue.count separator → ∃ message, result = .error (.exception message)

section Constructor
variable {α : Type} {headerValue : Bytes} {result : Outcome α}

/-- The part of the constructor behind the loop touches no array. -/
private theorem bounded_iff (some : 0 < expected) (after : List Bytes → Outcome α)
    (whole : result = fieldsOf expected message headerValue >>= after)
    (safe : ∀ fields, after fields ≠ .error .outOfBounds) :
    Bounded expected headerValue result ↔ ¬ EndsAfter expected headerValue := by
  subst whole
  by_cases beyond : expected ≤ headerValue.count separator
  · rw [fieldsOf_over some beyond]
    by_cases ends : EndsAfter expected headerValue
    · rw [if_pos ends]
      exact ⟨fun bounded => absurd rfl bounded.inside, fun inside => absurd ends inside⟩
    · rw [if_neg ends]
      exact ⟨fun _ => ends, fun _ => ⟨by simp, fun _ => ⟨message, rfl⟩⟩⟩
  · have ends : ¬ EndsAfter expected headerValue := fun ends => beyond (Nat.le_of_eq ends.1.symm)
    refine ⟨fun _ => ends, fun _ => ⟨?_, fun full => absurd full beyond⟩⟩
    by_cases fit : headerValue.count separator + 1 = expected
    · rw [fieldsOf_fit fit]
      exact safe _
    · rw [fieldsOf_few (by omega)]
      simp

end Constructor

theorem header_bounded_iff (simpleAtoi : Bytes → Option Int32) (headerValue : Bytes) :
    (Bounded 8 headerValue (SpanContextImpl.new simpleAtoi headerValue) ↔ ¬ EndsAfter 8 headerValue) ∧
    (Bounded 1 headerValue (SpanContextExtensionImpl.new headerValue) ↔ ¬ EndsAfter 1 headerValue) := by
  refine ⟨bounded_iff (by decide) _ rfl fun fields => ?_, bounded_iff (by decide) _ rfl fun fields => ?_⟩
  · simp only [decodeWithoutPadding_eq, Outcome.ok_bind]
    split
    · simp
    · split <;> simp
  · simp only
    split <;> simp

def trailingHeader : Bytes := ascii ['1', '-', '-', '-', '3', '-', '-', '-', '-', '-']

theorem trailing_separator_out_of_bounds :
    SpanContextImpl.new (fun _ => some 3) trailingHeader = .error .outOfBounds ∧
      SpanContextExtensionImpl.new (ascii ['1', '-']) = .error .outOfBounds := by
  decide

end Cpp2Sky

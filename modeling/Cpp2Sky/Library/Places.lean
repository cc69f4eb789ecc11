import Mathlib.Data.List.Basic

/-! An array whose places are written one after the other. -/

namespace Cpp2Sky.Places
variable {α : Type}

/-- An array of that size with its first places written. -/
def filled (size : Nat) (written : List α) : List (Option α) :=
  written.map some ++ List.replicate (size - written.length) none

theorem filled_nil (size : Nat) : filled size ([] : List α) = List.replicate size none := rfl

theorem filled_all {size : Nat} {written : List α} (all : written.length = size) : filled size written = written.map some := by
  simp [filled, all]

theorem filled_length {size : Nat} {written : List α} (room : written.length ≤ size) :
    (filled size written).length = size := by
  simp only [filled, List.length_append, List.length_map, List.length_replicate]
  omega

/-- Writing the place behind those that are written writes one more. -/
theorem filled_set {size : Nat} {written : List α} (room : written.length < size) (value : α) :
    (filled size written).set written.length (some value) = filled size (written ++ [value]) := by
  obtain ⟨left, rest⟩ : ∃ left, size - written.length = left + 1 := ⟨size - written.length - 1, by omega⟩
  have behind : size - (written ++ [value]).length = left := by
    rw [List.length_append, List.length_singleton]
    omega
  have place : written.length = (written.map some).length := List.length_map _ |>.symm
  rw [filled, filled, rest, behind, List.replicate_succ, place, List.set_append_right _ _ (Nat.le_refl _), Nat.sub_self]
  simp

end Cpp2Sky.Places

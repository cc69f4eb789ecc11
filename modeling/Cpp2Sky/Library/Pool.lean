import Mathlib.Algebra.Order.BigOperators.Group.List
import Mathlib.Algebra.Order.Group.Nat
import Mathlib.Tactic.Abel

/-! A pool of threads is a list of program counters. What the threads hold
together is the sum of a weight over the pool, and moving one thread changes
the sum by that thread's weight only. Weights live in any commutative monoid:
numbers of held permits, multisets of carried messages. -/

namespace Cpp2Sky.Pool

universe u v
variable {τ : Type u} {β : Type v}

def total [AddCommMonoid β] (weight : τ → β) (pool : List τ) : β := (pool.map weight).sum

variable [AddCommMonoid β] {weight : τ → β}

@[simp] theorem total_nil : total weight [] = 0 := rfl

@[simp] theorem total_append (first rest : List τ) :
    total weight (first ++ rest) = total weight first + total weight rest := by
  simp [total]

@[simp] theorem total_singleton (thread : τ) : total weight [thread] = weight thread := by
  simp [total]

/-- The thread at an index, with the threads before and after it. -/
theorem split {pool : List τ} {index : Nat} {old : τ} (found : pool[index]? = some old) (new : τ) :
    ∃ before after, pool = before ++ old :: after ∧ pool.set index new = before ++ new :: after := by
  obtain ⟨inside, rfl⟩ := List.getElem?_eq_some_iff.mp found
  refine ⟨pool.take index, pool.drop (index + 1), ?_, ?_⟩
  · rw [List.getElem_cons_drop, List.take_append_drop]
  · exact List.set_eq_take_append_cons_drop.trans (if_pos inside)

theorem total_set {pool : List τ} {index : Nat} {old : τ} (found : pool[index]? = some old) (new : τ) :
    total weight (pool.set index new) + weight old = total weight pool + weight new := by
  obtain ⟨before, after, whole, moved⟩ := split found new
  rw [moved, whole]
  simp only [total, List.map_append, List.map_cons, List.sum_append, List.sum_cons]
  abel

theorem total_eraseIdx {pool : List τ} {index : Nat} {old : τ} (found : pool[index]? = some old) :
    total weight (pool.eraseIdx index) + weight old = total weight pool := by
  induction pool generalizing index with
  | nil => cases found
  | cons thread rest ih =>
    cases index with
    | zero =>
      obtain rfl : thread = old := Option.some.inj found
      exact add_comm ..
    | succ index =>
      have remaining := @ih index found
      simp only [total, List.eraseIdx_cons_succ, List.map_cons, List.sum_cons] at remaining ⊢
      rw [add_assoc, remaining]

theorem total_zero {pool : List τ} (none : ∀ thread ∈ pool, weight thread = 0) : total weight pool = 0 := by
  apply List.sum_eq_zero
  intro value member
  obtain ⟨thread, inside, rfl⟩ := List.mem_map.mp member
  exact none thread inside

theorem weight_le {weight : τ → Nat} {pool : List τ} {thread : τ} (member : thread ∈ pool) :
    weight thread ≤ total weight pool :=
  List.le_sum_of_mem (List.mem_map.mpr ⟨thread, member, rfl⟩)

theorem weight_zero {weight : τ → Nat} {pool : List τ} (none : total weight pool = 0) {thread : τ}
    (member : thread ∈ pool) : weight thread = 0 := by
  have bound : weight thread ≤ total weight pool := weight_le member
  omega

/-! Threads that carry values in order. -/

variable {κ : Type v} {contents : τ → List κ}

theorem flatMap_same {pool : List τ} {index : Nat} {old new : τ} (found : pool[index]? = some old)
    (same : contents new = contents old) : (pool.set index new).flatMap contents = pool.flatMap contents := by
  obtain ⟨before, after, whole, moved⟩ := split found new
  rw [moved, whole]
  simp only [List.flatMap_append, List.flatMap_cons, same]

variable {weight : τ → Nat} (light : ∀ thread, weight thread = 0 → contents thread = [])
include light

theorem flatMap_empty {pool : List τ} (none : total weight pool = 0) : pool.flatMap contents = [] :=
  List.flatMap_eq_nil_iff.mpr fun _ member => light _ (weight_zero none member)

/-- Where one thread has all the weight, the others carry nothing. -/
theorem flatMap_alone {pool : List τ} {index : Nat} {old : τ} (found : pool[index]? = some old)
    (sole : total weight pool ≤ weight old) (new : τ) :
    pool.flatMap contents = contents old ∧ (pool.set index new).flatMap contents = contents new := by
  obtain ⟨before, after, whole, moved⟩ := split found new
  rw [whole, total_append] at sole
  simp only [total, List.map_cons, List.sum_cons] at sole
  have first : before.flatMap contents = [] := flatMap_empty light (show total weight before = 0 by rw [total]; omega)
  have last : after.flatMap contents = [] := flatMap_empty light (show total weight after = 0 by rw [total]; omega)
  rw [moved, whole]
  simp [first, last]

end Cpp2Sky.Pool

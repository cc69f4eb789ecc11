import Mathlib.Data.List.Induction
import Cpp2Sky.Library.Runs

/-! A table whose entries are made one after the other and changed one at a time.
What becomes of an entry depends on how it was made and on its own operations,
so that all entries can be made first, and each be changed without interruption. -/

namespace Cpp2Sky.Entries
open Runs

universe u
variable {σ α γ ο : Type u}

structure Table (σ α : Type u) where
  shared : σ
  entries : List α

inductive Call (γ ο : Type u) where
  | make (creation : γ)
  | on (index : Nat) (operation : ο)

def Call.making : Call γ ο → Bool
  | .make _ => true
  | .on _ _ => false

def Call.onto (index : Nat) : Call γ ο → Option ο
  | .make _ => none
  | .on other operation => if other = index then some operation else none

section Step
variable (make : σ → γ → Option (σ × List α)) (change : α → ο → Option α)

/-- To make entries is up to the shared state alone. -/
def step (table : Table σ α) : Call γ ο → Option (Table σ α)
  | .make creation => (make table.shared creation).map fun (shared, new) => { shared, entries := table.entries ++ new }
  | .on index operation =>
    (table.entries[index]?).bind fun entry =>
      (change entry operation).map fun changed => { table with entries := table.entries.set index changed }

end Step

/-- The calls on entries, one entry after the other. -/
def sorted (calls : List (Call γ ο)) (size : Nat) : List (Call γ ο) :=
  (List.range size).flatMap fun index => (calls.filterMap (Call.onto index)).map (.on index)

variable {make : σ → γ → Option (σ × List α)} {change : α → ο → Option α} {start final : Table σ α}
  {calls : List (Call γ ο)}

/-- The run of the creations alone, and what the operations of each entry make of
what it leaves. -/
structure Made (make : σ → γ → Option (σ × List α)) (change : α → ο → Option α) (start : Table σ α)
    (calls : List (Call γ ο)) (final made : Table σ α) : Prop where
  ran : exec (step make change) start (calls.filter Call.making) = some made
  shared : made.shared = final.shared
  size : made.entries.length = final.entries.length
  unused : ∀ index, final.entries.length ≤ index → calls.filterMap (Call.onto index) = []
  changed : ∀ (index : Nat) (entry : α), made.entries[index]? = some entry → ∃ last, final.entries[index]? = some last ∧
    (calls.filterMap (Call.onto index)).foldlM change entry = some last

private theorem Made.created {made before : Table σ α} {creation : γ} {shared : σ} {new : List α}
    (kept : Made make change start calls before made) (creates : make before.shared creation = some (shared, new)) :
    Made make change start (calls ++ [.make creation]) { shared, entries := before.entries ++ new }
      { shared, entries := made.entries ++ new } := by
  have same (index : Nat) :
      (calls ++ [Call.make creation]).filterMap (Call.onto index) = calls.filterMap (Call.onto index) := by
    rw [List.filterMap_append]
    exact List.append_nil _
  refine ⟨?_, rfl, ?_, ?_, ?_⟩
  · have moved : step make change made (.make creation) = some { shared, entries := made.entries ++ new } := by
      rw [step, kept.shared, creates]
      rfl
    rw [List.filter_append]
    exact exec_concat.mpr ⟨made, kept.ran, moved⟩
  · rw [List.length_append, List.length_append, kept.size]
  · intro index outside
    rw [same]
    apply kept.unused
    rw [List.length_append] at outside
    omega
  · intro index entry present
    rw [same]
    by_cases inside : index < made.entries.length
    · rw [List.getElem?_append_left inside] at present
      obtain ⟨last, found, folded⟩ := kept.changed index entry present
      exact ⟨last, by rw [List.getElem?_append_left (kept.size ▸ inside)]; exact found, folded⟩
    · rw [List.getElem?_append_right (Nat.le_of_not_lt inside), kept.size] at present
      have outside : before.entries.length ≤ index := kept.size ▸ Nat.le_of_not_lt inside
      refine ⟨entry, ?_, ?_⟩
      · rw [List.getElem?_append_right outside]
        exact present
      · rw [kept.unused index outside]
        rfl

private theorem Made.operated {made before : Table σ α} {index : Nat} {operation : ο} {entry changed : α}
    (kept : Made make change start calls before made) (found : before.entries[index]? = some entry)
    (ran : change entry operation = some changed) :
    Made make change start (calls ++ [.on index operation])
      { before with entries := before.entries.set index changed } made := by
  have inside := (List.getElem?_eq_some_iff.mp found).1
  refine ⟨?_, kept.shared, ?_, ?_, ?_⟩
  · rw [List.filter_append]
    simpa [Call.making] using kept.ran
  · rw [List.length_set]
    exact kept.size
  · intro other outside
    rw [List.length_set] at outside
    have elsewhere : index ≠ other := by omega
    simpa [List.filterMap_append, Call.onto, elsewhere] using kept.unused other outside
  · intro other first present
    obtain ⟨last, there, folded⟩ := kept.changed other first present
    by_cases same : index = other
    · subst same
      obtain rfl : entry = last := Option.some.inj (found.symm.trans there)
      refine ⟨changed, List.getElem?_set_self inside, ?_⟩
      simp [List.filterMap_append, Call.onto, List.foldlM_append, folded, ran]
    · refine ⟨last, by rw [List.getElem?_set_ne same]; exact there, ?_⟩
      simpa [List.filterMap_append, Call.onto, same] using folded

/-- Calls on different entries can be taken apart: what a run leaves is what its
creations leave, with each entry changed by its own operations. -/
theorem exec_made (executed : exec (step make change) start calls = some final) :
    ∃ made, Made make change start calls final made := by
  induction calls using List.reverseRecOn generalizing final with
  | nil =>
    cases executed
    refine ⟨start, rfl, rfl, rfl, fun _ _ => rfl, ?_⟩
    intro index entry present
    exact ⟨entry, present, rfl⟩
  | append_singleton calls call ih =>
    obtain ⟨before, ran, moved⟩ := exec_concat.mp executed
    obtain ⟨made, kept⟩ := ih ran
    cases call with
    | make creation =>
      obtain ⟨⟨shared, new⟩, creates, rfl⟩ := Option.map_eq_some_iff.mp moved
      exact ⟨_, kept.created creates⟩
    | on index operation =>
      obtain ⟨entry, found, rest⟩ := Option.bind_eq_some_iff.mp moved
      obtain ⟨changed, ran, rfl⟩ := Option.map_eq_some_iff.mp rest
      exact ⟨made, kept.operated found ran⟩

private theorem exec_on {table : Table σ α} {index : Nat} {operations : List ο} {entry last : α}
    (found : table.entries[index]? = some entry) (folded : operations.foldlM change entry = some last) :
    exec (step make change) table (operations.map (.on index)) =
      some { table with entries := table.entries.set index last } := by
  induction operations generalizing table entry with
  | nil =>
    obtain ⟨inside, rfl⟩ := List.getElem?_eq_some_iff.mp found
    cases folded
    rw [List.set_getElem_self]
    rfl
  | cons operation rest ih =>
    rw [List.foldlM_cons] at folded
    obtain ⟨changed, ran, folded⟩ := Option.bind_eq_some_iff.mp folded
    have inside := (List.getElem?_eq_some_iff.mp found).1
    have moved : step make change table (.on index operation) =
        some { table with entries := table.entries.set index changed } := by
      simp only [step, found, ran, Option.bind_some, Option.map_some]
    have there : (table.entries.set index changed)[index]? = some changed := List.getElem?_set_self inside
    rw [List.map_cons, exec_cons, moved, Option.bind_some, ih there folded]
    simp only [List.set_set]

/-- Entry after entry is changed into what the run left. -/
private theorem exec_rest {made : Table σ α} (kept : Made make change start calls final made) (size : Nat)
    (inside : size ≤ final.entries.length) :
    exec (step make change) made (sorted calls size) =
      some { shared := final.shared, entries := final.entries.take size ++ made.entries.drop size } := by
  induction size with
  | zero =>
    rw [List.take_zero, List.drop_zero, ← kept.shared]
    rfl
  | succ size ih =>
    have room : size < made.entries.length := by rw [kept.size]; omega
    obtain ⟨last, found, folded⟩ := kept.changed size _ (List.getElem?_eq_getElem room)
    have front : (final.entries.take size).length = size := List.length_take_of_le (by omega)
    have split : final.entries.take size ++ made.entries.drop size =
        final.entries.take size ++ made.entries[size] :: made.entries.drop (size + 1) := by
      rw [← List.drop_eq_getElem_cons room]
    have here : (final.entries.take size ++ made.entries.drop size)[size]? = some made.entries[size] := by
      rw [split, List.getElem?_append_right (by omega), front, Nat.sub_self, List.getElem?_cons_zero]
    have grown : sorted calls (size + 1) =
        sorted calls size ++ (calls.filterMap (Call.onto size)).map (.on size) := by
      simp [sorted, List.range_succ]
    have entries : (final.entries.take size ++ made.entries.drop size).set size last =
        final.entries.take (size + 1) ++ made.entries.drop (size + 1) := by
      rw [split, List.set_append_right _ _ (by omega), front, Nat.sub_self, List.set_cons_zero, List.take_add_one, found,
        List.append_assoc]
      rfl
    have changed : exec (step make change)
        { shared := final.shared, entries := final.entries.take size ++ made.entries.drop size }
        ((calls.filterMap (Call.onto size)).map (.on size)) =
          some { shared := final.shared, entries := final.entries.take (size + 1) ++ made.entries.drop (size + 1) } := by
      rw [← entries]
      exact exec_on here folded
    rw [grown, exec_append, ih (by omega), Option.bind_some, changed]

/-- Every run can be carried out in this order, to the same end. -/
theorem exec_sorted (executed : exec (step make change) start calls = some final) :
    exec (step make change) start (calls.filter Call.making ++ sorted calls final.entries.length) = some final := by
  obtain ⟨made, kept⟩ := exec_made executed
  have whole : made.entries.drop final.entries.length = [] := by
    rw [← kept.size]
    exact List.drop_length
  rw [exec_append, kept.ran, Option.bind_some, exec_rest kept _ (Nat.le_refl _), List.take_length, whole, List.append_nil]

/-- Two runs with the same creations and the same operations on each entry end
alike. -/
theorem exec_agree {others : List (Call γ ο)} {last : Table σ α}
    (executed : exec (step make change) start calls = some final)
    (other : exec (step make change) start others = some last)
    (makings : calls.filter Call.making = others.filter Call.making)
    (operations : ∀ index, calls.filterMap (Call.onto index) = others.filterMap (Call.onto index)) : final = last := by
  obtain ⟨made, kept⟩ := exec_made executed
  obtain ⟨made', kept'⟩ := exec_made other
  obtain rfl : made = made' := by
    have same := kept.ran
    rw [makings, kept'.ran] at same
    exact (Option.some.inj same).symm
  have size : final.entries.length = last.entries.length := kept.size.symm.trans kept'.size
  have same := exec_sorted executed
  have order : sorted calls = sorted others := by
    funext size
    simp only [sorted, operations]
  rw [makings, order, size, exec_sorted other] at same
  exact (Option.some.inj same).symm

end Cpp2Sky.Entries

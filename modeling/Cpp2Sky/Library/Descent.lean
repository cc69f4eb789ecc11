import Mathlib.Logic.Relation
import Mathlib.Order.RelClasses

/-! Items that lead to earlier ones. All of them come down to a root, to one only
where each leads to one item, and what is the same along every edge tells the
trees apart as soon as it tells the roots apart. -/

namespace Cpp2Sky.Descent
open Relation

universe u v
variable {α : Type u} {relates : α → α → Prop} {root present : α → Prop} {item other origin last : α}

theorem reaches_root {earlier : α → α → Prop} (wellFounded : WellFounded earlier)
    (down : ∀ item, present item → root item ∨ ∃ parent, present parent ∧ relates item parent ∧ earlier parent item)
    (inside : present item) : ∃ origin, root origin ∧ ReflTransGen relates item origin := by
  induction item using wellFounded.induction with
  | _ item ih =>
    rcases down item inside with top | ⟨parent, there, related, before⟩
    · exact ⟨item, top, .refl⟩
    · obtain ⟨origin, top, path⟩ := ih parent before there
      exact ⟨origin, top, .head related path⟩

theorem root_unique (single : Relator.RightUnique relates) (stops : ∀ origin parent, root origin → ¬ relates origin parent)
    (first : ReflTransGen relates item origin) (second : ReflTransGen relates item last) (top : root origin)
    (bottom : root last) : origin = last := by
  have stays {start final : α} (top : root start) (path : ReflTransGen relates start final) : start = final := by
    rcases path.cases_head with same | ⟨parent, related, _⟩
    · exact same
    · exact absurd related (stops start parent top)
  rcases ReflTransGen.total_of_right_unique single first second with path | path
  · exact stays top path
  · exact (stays bottom path).symm

variable {β : Type v} {label : α → β} (keeps : ∀ child parent, relates child parent → label child = label parent)
include keeps

theorem label_eq (path : ReflTransGen relates item origin) : label item = label origin := by
  induction path with
  | refl => rfl
  | tail _ related ih => exact ih.trans (keeps _ _ related)

/-- A label that no two roots share says which items have a root in common. -/
theorem label_eq_iff (distinct : ∀ origin last, root origin → root last → label origin = label last → origin = last)
    (first : root origin ∧ ReflTransGen relates item origin) (second : root last ∧ ReflTransGen relates other last) :
    label item = label other ↔
      ∃ common, root common ∧ ReflTransGen relates item common ∧ ReflTransGen relates other common := by
  constructor
  · intro same
    have tops : label origin = label last := by
      rw [← label_eq keeps first.2, ← label_eq keeps second.2]
      exact same
    obtain rfl := distinct origin last first.1 second.1 tops
    exact ⟨origin, first.1, first.2, second.2⟩
  · rintro ⟨common, _, path, other_path⟩
    exact (label_eq keeps path).trans (label_eq keeps other_path).symm

end Cpp2Sky.Descent

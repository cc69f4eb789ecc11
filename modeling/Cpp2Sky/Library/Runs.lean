import Mathlib.Data.List.Basic

/-! Runs of a machine given by a partial step function. A run is the list of
actions it took, so that a property of every step can be stated beside a
property of every state, and a concrete run can be evaluated. -/

namespace Cpp2Sky.Runs

universe u v
variable {σ : Type u} {α : Type v}

/-- Take the actions in order; `none` as soon as one of them is not enabled. -/
def exec (step : σ → α → Option σ) : σ → List α → Option σ
  | state, [] => some state
  | state, action :: rest => (step state action).bind fun next => exec step next rest

def Along (step : σ → α → Option σ) (meets : σ → α → Prop) : σ → List α → Prop
  | _, [] => True
  | state, action :: rest =>
    meets state action ∧ ∀ next, step state action = some next → Along step meets next rest

def Reachable (step : σ → α → Option σ) (start final : σ) : Prop :=
  ∃ actions, exec step start actions = some final

variable {step : σ → α → Option σ} {meets : σ → α → Prop}

theorem exec_cons (state : σ) (action : α) (rest : List α) :
    exec step state (action :: rest) = (step state action).bind fun next => exec step next rest := rfl

theorem exec_cons_some {state final : σ} {action : α} {rest : List α}
    (executed : exec step state (action :: rest) = some final) :
    ∃ next, step state action = some next ∧ exec step next rest = some final :=
  Option.bind_eq_some_iff.mp executed

theorem exec_append (state : σ) (first rest : List α) :
    exec step state (first ++ rest) = (exec step state first).bind fun middle => exec step middle rest := by
  induction first generalizing state with
  | nil => rfl
  | cons action first ih =>
    rw [List.cons_append, exec_cons, exec_cons]
    cases step state action with
    | none => rfl
    | some next => exact ih next

theorem exec_concat {start final : σ} {actions : List α} {action : α} :
    exec step start (actions ++ [action]) = some final ↔
      ∃ middle, exec step start actions = some middle ∧ step middle action = some final := by
  rw [exec_append, Option.bind_eq_some_iff]
  refine exists_congr fun middle => and_congr_right fun _ => ?_
  rw [exec_cons]
  cases step middle action <;> simp [exec]

theorem Along.trivial (state : σ) (actions : List α) : Along step (fun _ _ => True) state actions := by
  induction actions generalizing state with
  | nil => exact True.intro
  | cons action rest ih => exact ⟨True.intro, fun next _ => ih next⟩

theorem Along.cons_some {state next : σ} {action : α} {rest : List α} (moved : step state action = some next) :
    Along step meets state (action :: rest) ↔ meets state action ∧ Along step meets next rest := by
  refine and_congr_right fun _ => ⟨fun every => every next moved, fun along other same => ?_⟩
  exact Option.some.inj (moved.symm.trans same) ▸ along

instance Along.decidable [∀ state action, Decidable (meets state action)] :
    (state : σ) → (actions : List α) → Decidable (Along step meets state actions)
  | _, [] => .isTrue True.intro
  | state, action :: rest =>
    match moved : step state action with
    | none =>
      decidable_of_iff (meets state action)
        ⟨fun met => ⟨met, fun _ executed => by rw [moved] at executed; cases executed⟩, And.left⟩
    | some next =>
      have := Along.decidable next rest
      decidable_of_iff _ (Along.cons_some moved).symm

theorem Along.of_actions {meets : α → Prop} (state : σ) {actions : List α} (every : ∀ action ∈ actions, meets action) :
    Along step (fun _ action => meets action) state actions := by
  induction actions generalizing state with
  | nil => exact True.intro
  | cons action rest ih =>
    obtain ⟨first, others⟩ := List.forall_mem_cons.mp every
    exact ⟨first, fun next _ => ih next others⟩

theorem Along.rest {start middle : σ} {first rest : List α} (along : Along step meets start (first ++ rest))
    (executed : exec step start first = some middle) : Along step meets middle rest := by
  induction first generalizing start with
  | nil => exact Option.some.inj executed ▸ along
  | cons action first ih =>
    obtain ⟨next, moved, remaining⟩ := exec_cons_some executed
    exact ih (along.2 next moved) remaining

theorem Along.append {start middle : σ} {first rest : List α} (along : Along step meets start first)
    (executed : exec step start first = some middle) (behind : Along step meets middle rest) :
    Along step meets start (first ++ rest) := by
  induction first generalizing start with
  | nil => exact Option.some.inj executed ▸ behind
  | cons action first ih =>
    obtain ⟨next, moved, remaining⟩ := exec_cons_some executed
    exact (Along.cons_some moved).mpr ⟨along.1, ih (along.2 next moved) remaining⟩

/-- An invariant of the steps that meet a condition holds wherever a run of
such steps leads. -/
theorem invariant {holds : σ → Prop} {start final : σ} {actions : List α}
    (preserved : ∀ state action next, holds state → meets state action → step state action = some next → holds next)
    (initial : holds start) (along : Along step meets start actions)
    (executed : exec step start actions = some final) : holds final := by
  induction actions generalizing start with
  | nil => exact Option.some.inj executed ▸ initial
  | cons action rest ih =>
    obtain ⟨next, moved, remaining⟩ := exec_cons_some executed
    exact ih (preserved start action next initial along.1 moved) (along.2 next moved) remaining

theorem Along.executed {start final : σ} {actions : List α} (executed : exec step start actions = some final) :
    Along step (fun state action => ∃ next, step state action = some next) start actions := by
  induction actions generalizing start with
  | nil => exact True.intro
  | cons action rest ih =>
    obtain ⟨next, moved, remaining⟩ := exec_cons_some executed
    exact (Along.cons_some moved).mpr ⟨⟨next, moved⟩, ih remaining⟩

/-- Two properties of steps agree along a run, where they agree at each step as
long as an invariant lasts and the second one keeps the invariant. -/
theorem along_iff {allowed good : σ → α → Prop} {holds : σ → Prop} {start : σ} {actions : List α}
    (same : ∀ state action, holds state → allowed state action → (good state action ↔ meets state action))
    (kept : ∀ state action next, holds state → allowed state action → meets state action →
      step state action = some next → holds next)
    (initial : holds start) (along : Along step allowed start actions) :
    Along step good start actions ↔ Along step meets start actions := by
  induction actions generalizing start with
  | nil => exact Iff.rfl
  | cons action rest ih =>
    simp only [Along, same start action initial along.1]
    refine and_congr_right fun met => forall_congr' fun next => imp_congr_right fun moved => ?_
    exact ih (kept _ _ _ initial along.1 met moved) (along.2 next moved)

theorem Reachable.refl (start : σ) : Reachable step start start := ⟨[], rfl⟩

theorem Reachable.trans {start middle final : σ} (first : Reachable step start middle)
    (last : Reachable step middle final) : Reachable step start final := by
  obtain ⟨before, executed⟩ := first
  obtain ⟨after, remaining⟩ := last
  exact ⟨before ++ after, by rw [exec_append, executed]; exact remaining⟩

theorem Reachable.next {start middle final : σ} {action : α} (reachable : Reachable step start middle)
    (moved : step middle action = some final) : Reachable step start final :=
  reachable.trans ⟨[action], by rw [exec_cons, moved]; rfl⟩

/-- An invariant of all steps holds in every state that is reached. To keep it
is to be shown only of states that are reached as well. -/
@[elab_as_elim]
theorem Reachable.induct {start : σ} {holds : σ → Prop} {final : σ} (reachable : Reachable step start final)
    (initial : holds start)
    (preserved : ∀ state action next, Reachable step start state → holds state →
      step state action = some next → holds next) : holds final := by
  obtain ⟨actions, executed⟩ := reachable
  let both := fun state => Reachable step start state ∧ holds state
  have kept : ∀ state action next, both state → True → step state action = some next → both next := by
    intro state action next kept _ moved
    exact ⟨kept.1.next moved, preserved state action next kept.1 kept.2 moved⟩
  exact (invariant kept ⟨.refl start, initial⟩ (Along.trivial start actions) executed).2

/-- A run whose steps are all allowed either meets a further condition at every
step and keeps an invariant, or breaks it somewhere and is doomed from there on. -/
theorem kept_or_doomed {allowed : σ → α → Prop} {holds doomed : σ → Prop} {start final : σ} {actions : List α}
    (kept : ∀ state action next, holds state → allowed state action → meets state action →
      step state action = some next → holds next)
    (breach : ∀ state action next, holds state → allowed state action → ¬ meets state action →
      step state action = some next → doomed next)
    (stays : ∀ state action next, doomed state → allowed state action → step state action = some next → doomed next)
    (initial : holds start) (along : Along step allowed start actions)
    (executed : exec step start actions = some final) :
    Along step meets start actions ∧ holds final ∨ ¬ Along step meets start actions ∧ doomed final := by
  induction actions generalizing start with
  | nil => exact .inl ⟨True.intro, Option.some.inj executed ▸ initial⟩
  | cons action rest ih =>
    obtain ⟨next, moved, remaining⟩ := exec_cons_some executed
    rw [Along.cons_some moved]
    by_cases met : meets start action
    · rcases ih (kept _ _ _ initial along.1 met moved) (along.2 next moved) remaining with ⟨every, held⟩ | ⟨broken, lost⟩
      · exact .inl ⟨⟨met, every⟩, held⟩
      · exact .inr ⟨fun whole => broken whole.2, lost⟩
    · have lost := breach _ _ _ initial along.1 met moved
      exact .inr ⟨fun whole => met whole.1, invariant stays lost (along.2 next moved) remaining⟩

end Cpp2Sky.Runs

/-! Texts are the bytes they are made of. A piece of the program either returns or
stops at the first thing that keeps it from returning. -/

namespace Cpp2Sky

abbrev Bytes := List UInt8

def ascii (chars : List Char) : Bytes := chars.map Char.toUInt8

def asciiOf (literal : String) : Bytes := ascii literal.toList

/-- What keeps a call from returning. All but the exception end the program or
leave its behaviour undefined. -/
inductive Stop where
  | exception (message : String)
  | assertion
  | outOfBounds
  /-- `front` or `back` of something empty. -/
  | empty
  /-- A null pointer is dereferenced. -/
  | null
  deriving DecidableEq

abbrev Outcome := Except Stop

instance {α : Type} [DecidableEq α] : DecidableEq (Outcome α)
  | .ok a, .ok b => decidable_of_iff (a = b) ⟨congrArg _, fun same => Except.ok.inj same⟩
  | .error a, .error b => decidable_of_iff (a = b) ⟨congrArg _, fun same => Except.error.inj same⟩
  | .ok _, .error _ | .error _, .ok _ => .isFalse (fun same => by cases same)

namespace Outcome
variable {α β : Type}

@[simp] theorem ok_bind (value : α) (next : α → Outcome β) : (Except.ok value : Outcome α) >>= next = next value := rfl

@[simp] theorem error_bind (stop : Stop) (next : α → Outcome β) :
    (Except.error stop : Outcome α) >>= next = .error stop := rfl

@[simp] theorem throw_eq (stop : Stop) : (throw stop : Outcome α) = .error stop := rfl

@[simp] theorem pure_eq (value : α) : (pure value : Outcome α) = .ok value := rfl

theorem bind_eq_ok {outcome : Outcome α} {next : α → Outcome β} {result : β} :
    outcome >>= next = .ok result ↔ ∃ value, outcome = .ok value ∧ next value = .ok result := by
  cases outcome with
  | error stop => simp
  | ok value => simp

theorem bind_eq_error {outcome : Outcome α} {next : α → Outcome β} {stop : Stop} :
    outcome >>= next = .error stop ↔ outcome = .error stop ∨ ∃ value, outcome = .ok value ∧ next value = .error stop := by
  cases outcome with
  | error other => simp
  | ok value => simp

end Outcome

end Cpp2Sky

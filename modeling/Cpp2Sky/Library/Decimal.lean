import Mathlib.Data.List.DropRight

/-! Decimal numerals as texts: digits behind an optional sign, with ASCII
whitespace around them. -/

namespace Cpp2Sky.Decimal

def plus : UInt8 := 43
def minus : UInt8 := 45

def isSpace (byte : UInt8) : Bool := byte = 32 || 9 ≤ byte && byte ≤ 13

def isDigit (byte : UInt8) : Bool := 48 ≤ byte && byte ≤ 57

def magnitude (digits : List UInt8) : Nat := digits.foldl (fun value digit => 10 * value + (digit.toNat - 48)) 0

def signed (sign : List UInt8) (value : Nat) : Int := if sign = [minus] then -value else value

inductive Numeral (text : List UInt8) (value : Int) : Prop where
  | intro (before sign digits after : List UInt8) (split : text = before ++ (sign ++ digits ++ after))
      (front : ∀ byte ∈ before, isSpace byte = true) (back : ∀ byte ∈ after, isSpace byte = true)
      (signs : sign = [] ∨ sign = [plus] ∨ sign = [minus]) (some : digits ≠ [])
      (numeric : ∀ byte ∈ digits, isDigit byte = true) (denotes : signed sign (magnitude digits) = value)

def splitSign : List UInt8 → List UInt8 × List UInt8
  | [] => ([], [])
  | first :: rest => if first = plus ∨ first = minus then ([first], rest) else ([], first :: rest)

def read (text : List UInt8) : Option Int :=
  let (sign, digits) := splitSign ((text.dropWhile isSpace).rdropWhile isSpace)
  if digits ≠ [] ∧ digits.all isDigit = true then some (signed sign (magnitude digits)) else none

private theorem splitSign_append (core : List UInt8) : (splitSign core).1 ++ (splitSign core).2 = core := by
  cases core with
  | nil => rfl
  | cons first rest =>
    simp only [splitSign]
    split <;> rfl

private theorem splitSign_cases (core : List UInt8) :
    (splitSign core).1 = [] ∨ (splitSign core).1 = [plus] ∨ (splitSign core).1 = [minus] := by
  cases core with
  | nil => exact .inl rfl
  | cons first rest =>
    simp only [splitSign]
    split
    next sign =>
      rcases sign with rfl | rfl
      · exact .inr (.inl rfl)
      · exact .inr (.inr rfl)
    next => exact .inl rfl

theorem digit_code {byte : UInt8} (digit : isDigit byte = true) : 48 ≤ byte.toNat ∧ byte.toNat ≤ 57 := by
  simpa [isDigit, UInt8.le_iff_toNat_le] using digit

private theorem space_code {byte : UInt8} (space : isSpace byte = true) : byte.toNat ≤ 32 := by
  simp only [isSpace, Bool.or_eq_true, decide_eq_true_eq, Bool.and_eq_true, UInt8.le_iff_toNat_le] at space
  rcases space with rfl | ⟨_, high⟩
  · decide
  · exact high.trans (by decide)

private theorem digit_not_space {byte : UInt8} (digit : isDigit byte = true) : isSpace byte ≠ true := by
  intro space
  have low := (digit_code digit).1
  have high := space_code space
  omega

private theorem splitSign_eq {sign digits : List UInt8} (signs : sign = [] ∨ sign = [plus] ∨ sign = [minus])
    (some : digits ≠ []) (numeric : ∀ byte ∈ digits, isDigit byte = true) :
    splitSign (sign ++ digits) = (sign, digits) := by
  rcases signs with rfl | rfl | rfl
  · obtain ⟨first, rest, rfl⟩ := List.exists_cons_of_ne_nil some
    have digit := (digit_code (numeric first List.mem_cons_self)).1
    have unsigned : ¬ (first = plus ∨ first = minus) := by
      rintro (rfl | rfl) <;> exact absurd digit (by decide)
    simp only [List.nil_append, splitSign, unsigned, ite_false]
  · rfl
  · rfl

private theorem dropWhile_front {front rest : List UInt8} (spaces : ∀ byte ∈ front, isSpace byte = true)
    (first : ∀ byte ∈ rest.head?, isSpace byte ≠ true) : (front ++ rest).dropWhile isSpace = rest := by
  rw [List.dropWhile_append_of_pos spaces]
  cases rest with
  | nil => rfl
  | cons byte rest =>
    rw [List.dropWhile_cons_of_neg]
    exact first byte rfl

private theorem rdropWhile_back {front rest : List UInt8} (spaces : ∀ byte ∈ rest, isSpace byte = true)
    (last : ∀ byte ∈ front.getLast?, isSpace byte ≠ true) : (front ++ rest).rdropWhile isSpace = front := by
  rw [List.rdropWhile, List.reverse_append, dropWhile_front, List.reverse_reverse]
  · intro byte member
    exact spaces byte (List.mem_reverse.mp member)
  · rw [List.head?_reverse]
    exact last

private theorem sign_not_space {sign : List UInt8} (signs : sign = [] ∨ sign = [plus] ∨ sign = [minus]) :
    ∀ byte ∈ sign, isSpace byte ≠ true := by
  rcases signs with rfl | rfl | rfl
  · exact List.forall_mem_nil _
  · exact List.forall_mem_singleton.mpr (by decide)
  · exact List.forall_mem_singleton.mpr (by decide)

/-- The reader finds the numeral between the spaces, and nothing else is one. -/
theorem read_iff {text : List UInt8} {value : Int} : read text = some value ↔ Numeral text value := by
  constructor
  · intro found
    simp only [read] at found
    split at found
    next proper =>
      refine .intro (text.takeWhile isSpace) _ _ ((text.dropWhile isSpace).rtakeWhile isSpace) ?_ ?_ ?_
        (splitSign_cases _) proper.1 (List.all_eq_true.mp proper.2) (Option.some.inj found)
      · rw [splitSign_append, List.rdropWhile_append_rtakeWhile, List.takeWhile_append_dropWhile]
      · exact fun _ => List.mem_takeWhile_imp
      · exact fun _ => List.mem_rtakeWhile_imp
    next => cases found
  · rintro ⟨before, sign, digits, after, rfl, front, back, signs, nonempty, numeric, rfl⟩
    have dark : ∀ byte ∈ sign ++ digits, isSpace byte ≠ true := by
      intro byte member
      rcases List.mem_append.mp member with inside | inside
      · exact sign_not_space signs byte inside
      · exact digit_not_space (numeric byte inside)
    have core : ((before ++ (sign ++ digits ++ after)).dropWhile isSpace).rdropWhile isSpace = sign ++ digits := by
      rw [dropWhile_front front, rdropWhile_back back]
      · exact fun byte member => dark byte (List.mem_of_getLast? member)
      · intro byte member
        rw [List.head?_append_of_ne_nil _ (List.append_ne_nil_of_right_ne_nil _ nonempty)] at member
        exact dark byte (List.mem_of_head? member)
    simp only [read, core, splitSign_eq signs nonempty numeric]
    exact if_pos ⟨nonempty, List.all_eq_true.mpr numeric⟩

/-- Without a minus sign the value is not negative. -/
theorem Numeral.natural {text : List UInt8} {value : Int} (numeral : Numeral text value) (unsigned : minus ∉ text) :
    0 ≤ value := by
  obtain ⟨before, sign, digits, after, rfl, _, _, signs, _, _, rfl⟩ := numeral
  have positive : sign ≠ [minus] := by
    rintro rfl
    simp at unsigned
  rw [signed, if_neg positive]
  exact Int.natCast_nonneg _

end Cpp2Sky.Decimal

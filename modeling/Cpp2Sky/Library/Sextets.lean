import Mathlib.Data.List.Basic
import Mathlib.Tactic.MkIffOfInductiveProp

/-! Regrouping bits: three bytes of eight bits are four sextets of six. A last
group of one or two bytes leaves its unused low bits zero. -/

namespace Cpp2Sky.Sextets

def sextets : List UInt8 → List UInt8
  | [] => []
  | [a] => [a >>> 2, (a &&& 3) <<< 4]
  | [a, b] => [a >>> 2, (a &&& 3) <<< 4 ||| b >>> 4, (b &&& 15) <<< 2]
  | a :: b :: c :: rest =>
    a >>> 2 :: ((a &&& 3) <<< 4 ||| b >>> 4) :: ((b &&& 15) <<< 2 ||| c >>> 6) :: (c &&& 63) :: sextets rest

/-- The bytes of a list of sextets, unless its last group is a single sextet or
has unused bits that are not zero. -/
def octets : List UInt8 → Option (List UInt8)
  | [] => some []
  | [_] => none
  | [s, t] => if t &&& 15 = 0 then some [s <<< 2 ||| t >>> 4] else none
  | [s, t, u] => if u &&& 3 = 0 then some [s <<< 2 ||| t >>> 4, t <<< 4 ||| u >>> 2] else none
  | s :: t :: u :: v :: rest =>
    (octets rest).map ([s <<< 2 ||| t >>> 4, t <<< 4 ||| u >>> 2, u <<< 6 ||| v] ++ ·)

instance decidableForallByte {p : UInt8 → Prop} [DecidablePred p] : Decidable (∀ byte, p byte) :=
  decidable_of_iff (∀ n : Fin 256, p (UInt8.ofFin n)) ⟨fun every byte => every byte.toFin, fun every _ => every _⟩

/-- The shifts and masks of a group put the bits of a byte back in place, leave
the unused bits of a last sextet zero, and stay within six bits. -/
@[mk_iff]
structure Regroups (byte : UInt8) : Prop where
  high_low : (byte >>> 2) <<< 2 ||| ((byte &&& 3) <<< 4) >>> 4 = byte
  middle : (byte >>> 4) <<< 4 ||| ((byte &&& 15) <<< 2) >>> 2 = byte
  low_high : (byte >>> 6) <<< 6 ||| (byte &&& 63) = byte
  shift_four : (byte >>> 4) >>> 4 = 0
  shift_six : (byte >>> 6) >>> 2 = 0
  out_four : ((byte &&& 3) <<< 4) <<< 4 = 0
  out_six : ((byte &&& 15) <<< 2) <<< 6 = 0
  clean_four : (byte &&& 3) <<< 4 &&& 15 = 0
  clean_two : (byte &&& 15) <<< 2 &&& 3 = 0
  small : byte >>> 6 = 0 → byte < 64
  high_small : (byte >>> 2) >>> 6 = 0
  left_four : ((byte &&& 3) <<< 4) >>> 6 = 0
  right_four : (byte >>> 4) >>> 6 = 0
  left_two : ((byte &&& 15) <<< 2) >>> 6 = 0
  right_six : (byte >>> 6) >>> 6 = 0
  low_small : (byte &&& 63) >>> 6 = 0

instance : DecidablePred Regroups := fun byte => decidable_of_iff _ (regroups_iff byte).symm

private theorem regroups : ∀ byte, Regroups byte := by decide +kernel

private theorem first_byte (a b : UInt8) : (a >>> 2) <<< 2 ||| ((a &&& 3) <<< 4 ||| b >>> 4) >>> 4 = a := by
  rw [UInt8.shiftRight_or, (regroups b).shift_four, UInt8.or_zero, (regroups a).high_low]

private theorem second_byte (a b c : UInt8) :
    ((a &&& 3) <<< 4 ||| b >>> 4) <<< 4 ||| ((b &&& 15) <<< 2 ||| c >>> 6) >>> 2 = b := by
  rw [UInt8.shiftLeft_or, UInt8.shiftRight_or, (regroups a).out_four, (regroups c).shift_six, UInt8.zero_or, UInt8.or_zero,
    (regroups b).middle]

private theorem third_byte (b c : UInt8) : ((b &&& 15) <<< 2 ||| c >>> 6) <<< 6 ||| (c &&& 63) = c := by
  rw [UInt8.shiftLeft_or, (regroups b).out_six, UInt8.zero_or, (regroups c).low_high]

theorem octets_sextets (bytes : List UInt8) : octets (sextets bytes) = some bytes := by
  induction bytes using sextets.induct with
  | case1 => rfl
  | case2 a => simp only [sextets, octets, (regroups a).clean_four, (regroups a).high_low, ite_true]
  | case3 a b =>
    have second : ((a &&& 3) <<< 4 ||| b >>> 4) <<< 4 ||| ((b &&& 15) <<< 2) >>> 2 = b := by
      rw [UInt8.shiftLeft_or, (regroups a).out_four, UInt8.zero_or, (regroups b).middle]
    simp only [sextets, octets, (regroups b).clean_two, first_byte, second, ite_true]
  | case4 a b c rest ih =>
    simp only [sextets, octets, ih, first_byte, second_byte, third_byte, Option.map_some]
    rfl

theorem sextets_lt (bytes : List UInt8) : ∀ sextet ∈ sextets bytes, sextet < 64 := by
  have second (a b : UInt8) : ((a &&& 3) <<< 4 ||| b >>> 4) >>> 6 = 0 := by
    rw [UInt8.shiftRight_or, (regroups a).left_four, (regroups b).right_four, UInt8.or_zero]
  have third (b c : UInt8) : ((b &&& 15) <<< 2 ||| c >>> 6) >>> 6 = 0 := by
    rw [UInt8.shiftRight_or, (regroups b).left_two, (regroups c).right_six, UInt8.or_zero]
  have small {sextet : UInt8} := (regroups sextet).small
  induction bytes using sextets.induct with
  | case1 => simp [sextets]
  | case2 a => simpa [sextets] using ⟨small (regroups a).high_small, small (regroups a).left_four⟩
  | case3 a b =>
    simpa [sextets] using ⟨small (regroups a).high_small, small (second a b), small (regroups b).left_two⟩
  | case4 a b c rest ih =>
    simpa [sextets] using
      ⟨small (regroups a).high_small, small (second a b), small (third b c), small (regroups c).low_small, ih⟩

/-- Of a value within six bits, two neighbouring bytes take every bit once. -/
@[mk_iff]
structure Splits (sextet : UInt8) : Prop where
  top : (sextet <<< 2) >>> 2 = sextet
  top_low : (sextet <<< 2) &&& 3 = 0
  shift_four : (sextet >>> 4) >>> 2 = 0
  mask_four : (sextet >>> 4) &&& (3 : UInt8) = sextet >>> 4
  four : (sextet >>> 4) <<< 4 ||| (sextet <<< 4) >>> 4 = sextet
  low_four : (sextet <<< 4) &&& 15 = 0
  shift_two : (sextet >>> 2) >>> 4 = 0
  mask_two : (sextet >>> 2) &&& (15 : UInt8) = sextet >>> 2
  two : (sextet >>> 2) <<< 2 ||| (sextet <<< 6) >>> 6 = sextet
  low_two : (sextet <<< 6) &&& 63 = 0
  shift_six : sextet >>> 6 = 0
  mask_six : sextet &&& 63 = sextet
  clean_four : sextet &&& 15 = 0 → (sextet >>> 4) <<< 4 = sextet
  clean_two : sextet &&& 3 = 0 → (sextet >>> 2) <<< 2 = sextet

instance : DecidablePred Splits := fun sextet => decidable_of_iff _ (splits_iff sextet).symm

private theorem splits : ∀ sextet : UInt8, sextet < 64 → Splits sextet := by decide +kernel

private theorem or_mask (a b mask : UInt8) : (a ||| b) &&& mask = (a &&& mask) ||| (b &&& mask) := by
  simp [← UInt8.toBitVec_inj, BitVec.and_or_distrib_right]

private theorem first_sextet {s t : UInt8} (high : Splits s) (low : Splits t) : (s <<< 2 ||| t >>> 4) >>> 2 = s := by
  rw [UInt8.shiftRight_or, high.top, low.shift_four, UInt8.or_zero]

private theorem second_sextet {s t u : UInt8} (high : Splits s) (middle : Splits t) (low : Splits u) :
    ((s <<< 2 ||| t >>> 4) &&& 3) <<< 4 ||| (t <<< 4 ||| u >>> 2) >>> 4 = t := by
  rw [or_mask, high.top_low, middle.mask_four, UInt8.zero_or, UInt8.shiftRight_or, low.shift_two, UInt8.or_zero, middle.four]

private theorem third_sextet {t u v : UInt8} (high : Splits t) (middle : Splits u) (low : Splits v) :
    ((t <<< 4 ||| u >>> 2) &&& 15) <<< 2 ||| (u <<< 6 ||| v) >>> 6 = u := by
  rw [or_mask, high.low_four, middle.mask_two, UInt8.zero_or, UInt8.shiftRight_or, low.shift_six, UInt8.or_zero, middle.two]

private theorem fourth_sextet {u v : UInt8} (high : Splits u) (low : Splits v) : (u <<< 6 ||| v) &&& 63 = v := by
  rw [or_mask, high.low_two, low.mask_six, UInt8.zero_or]

/-- Values within six bits are the sextets of the bytes they make. -/
theorem sextets_octets {values bytes : List UInt8} (small : ∀ sextet ∈ values, sextet < 64)
    (decoded : octets values = some bytes) : sextets bytes = values := by
  induction values using octets.induct generalizing bytes with
  | case1 => cases decoded; rfl
  | case2 => cases decoded
  | case4 s t unclean | case6 s t u unclean => simp [octets, unclean] at decoded
  | case3 s t clean =>
    have high := splits s (small s (by simp))
    have low := splits t (small t (by simp))
    simp only [octets, clean, ite_true, Option.some.injEq] at decoded
    rw [← decoded, sextets, first_sextet high low, or_mask, high.top_low, low.mask_four, UInt8.zero_or,
      low.clean_four clean]
  | case5 s t u clean =>
    have high := splits s (small s (by simp))
    have middle := splits t (small t (by simp))
    have low := splits u (small u (by simp))
    simp only [octets, clean, ite_true, Option.some.injEq] at decoded
    rw [← decoded, sextets, first_sextet high middle, second_sextet high middle low, or_mask, middle.low_four,
      low.mask_two, UInt8.zero_or, low.clean_two clean]
  | case7 s t u v rest ih =>
    have first := splits s (small s (by simp))
    have second := splits t (small t (by simp))
    have third := splits u (small u (by simp))
    have fourth := splits v (small v (by simp))
    obtain ⟨tail, remaining, rfl⟩ := Option.map_eq_some_iff.mp decoded
    have others := ih (fun sextet member => small sextet (by simp [member])) remaining
    simp only [List.cons_append, List.nil_append, sextets]
    rw [first_sextet first second, second_sextet first second third, third_sextet second third fourth,
      fourth_sextet third fourth, others]

/-- Four sextets make three bytes, and a single one over makes none. -/
theorem octets_length {values bytes : List UInt8} (decoded : octets values = some bytes) :
    bytes.length = values.length * 3 / 4 ∧ values.length % 4 ≠ 1 := by
  induction values using octets.induct generalizing bytes with
  | case1 => cases decoded; simp
  | case2 => cases decoded
  | case3 s t clean | case5 s t u clean =>
    simp only [octets, clean, ite_true, Option.some.injEq] at decoded
    simp [← decoded]
  | case4 s t unclean | case6 s t u unclean => simp [octets, unclean] at decoded
  | case7 s t u v rest ih =>
    obtain ⟨tail, remaining, rfl⟩ := Option.map_eq_some_iff.mp decoded
    obtain ⟨count, whole⟩ := ih remaining
    simp only [List.length_append, List.length_cons, List.length_nil]
    omega

/-- The low bits of a last group that no byte takes. -/
def leftover (values : List UInt8) : UInt8 :=
  match values.length % 4 with
  | 2 => values.getLast?.getD 0 &&& 15
  | 3 => values.getLast?.getD 0 &&& 3
  | _ => 0

theorem octets_isSome (values : List UInt8) :
    (octets values).isSome = true ↔ values.length % 4 ≠ 1 ∧ leftover values = 0 := by
  induction values using octets.induct with
  | case1 | case2 => simp [octets, leftover]
  | case3 s t clean | case4 s t clean | case5 s t u clean | case6 s t u clean => simp [octets, leftover, clean]
  | case7 s t u v rest ih =>
    have length : (s :: t :: u :: v :: rest).length % 4 = rest.length % 4 := by
      simp only [List.length_cons]
      omega
    have same : leftover (s :: t :: u :: v :: rest) = leftover rest := by
      rw [leftover, leftover, length]
      cases rest with
      | nil => rfl
      | cons => simp [List.getLast?_cons_cons]
    rw [octets, Option.isSome_map, ih, length, same]

end Cpp2Sky.Sextets

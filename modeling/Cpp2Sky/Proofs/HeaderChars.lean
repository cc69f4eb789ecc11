import Cpp2Sky.Proofs.HeaderRoundTrip
import Cpp2Sky.Proofs.SkipAnalysis

/-! Which bytes a header is made of. The names and the address that it carries may
hold any byte, and none of them gets out of its field. -/

namespace Cpp2Sky
open Base64 Sextets

/-- Characters of the alphabet, with padding only as the last one or two. -/
inductive EncodedField (field : Bytes) : Prop where
  | intro (chars pads : Bytes) (split : field = chars ++ pads) (few : pads = [] ∨ pads = [pad] ∨ pads = [pad, pad])
      (behind : pads ≠ [] → chars ≠ []) (letters : ∀ char ∈ chars, isBase64Char char = true)

theorem encodedField_encode (input : Bytes) (addPadding : Bool) : EncodedField (encode input addPadding) := by
  refine .intro _ _ (encode_eq input addPadding) (padding_cases addPadding input.length) ?_ ?_
  · intro padded empty
    apply padded
    cases input with
    | nil => cases addPadding <;> rfl
    | cons first rest =>
      have some : sextets (first :: rest) ≠ [] := by
        rcases rest with _ | ⟨second, _ | ⟨third, rest⟩⟩ <;> simp [sextets]
      exact absurd (List.map_eq_nil_iff.mp empty) some
  · exact sextets_letters input

theorem EncodedField.bytes {field : Bytes} (encoded : EncodedField field) {byte : UInt8} (member : byte ∈ field) :
    isBase64Char byte = true ∨ byte = pad := by
  obtain ⟨chars, pads, rfl, few, _, letters⟩ := encoded
  rcases List.mem_append.mp member with inside | padded
  · exact .inl (letters byte inside)
  · rcases few with rfl | rfl | rfl
    · cases padded
    all_goals
      right
      simpa using padded

/-- A field of which every byte is in the alphabet is not padded. -/
private theorem encodedField_letters {field : Bytes} (letters : ∀ char ∈ field, isBase64Char char = true) :
    EncodedField field ∧ pad ∉ field := by
  refine ⟨.intro field [] (List.append_nil _).symm (.inl rfl) ?_ letters, pad_notMem_letters letters⟩
  intro padded
  exact absurd rfl padded

private theorem mem_splitOn {header : Bytes} {byte : UInt8} (member : byte ∈ header) :
    byte = separator ∨ ∃ field ∈ header.splitOn separator, byte ∈ field := by
  induction header with
  | nil => cases member
  | cons char rest ih =>
    obtain ⟨first, others, parts⟩ : ∃ first others, rest.splitOn separator = first :: others := by
      apply List.exists_cons_of_ne_nil
      apply List.ne_nil_of_length_pos
      rw [length_splitOn]
      exact Nat.succ_pos _
    by_cases same : char = separator
    · rcases List.mem_cons.mp member with rfl | later
      · exact .inl same
      · refine (ih later).imp id fun ⟨field, present, inside⟩ => ⟨field, ?_, inside⟩
        rw [List.splitOn_cons_eq_if_modifyHead]
        simp [same, present]
    · rw [List.splitOn_cons_eq_if_modifyHead, parts]
      simp only [beq_iff_eq, same, ite_false, List.modifyHead_cons]
      rcases List.mem_cons.mp member with rfl | later
      · exact .inr ⟨_, List.mem_cons_self, List.mem_cons_self⟩
      · refine (ih later).imp id fun ⟨field, present, inside⟩ => ?_
        rw [parts] at present
        rcases List.mem_cons.mp present with rfl | other
        · exact ⟨_, List.mem_cons_self, List.mem_cons_of_mem _ inside⟩
        · exact ⟨field, List.mem_cons_of_mem _ other, inside⟩

structure WellFormed (header : Bytes) : Prop where
  chars : ∀ byte ∈ header, isBase64Char byte = true ∨ byte = pad ∨ byte = separator
  separators : header.count separator = 7
  fields : ∀ field ∈ header.splitOn separator, EncodedField field
  plain : ∀ index, index = 0 ∨ index = 3 → ∀ field, (header.splitOn separator)[index]? = some field → pad ∉ field

theorem headerOf_wellFormed (segment : SegmentObject) {spanId : Int32} (natural : 0 ≤ spanId.toInt)
    (endpoint targetAddress : Bytes) : WellFormed (headerOf segment spanId endpoint targetAddress) := by
  have parts := headerOf_parts segment natural endpoint targetAddress
  have sample : EncodedField (ascii ['1']) ∧ pad ∉ ascii ['1'] := encodedField_letters (by decide +kernel)
  have number := encodedField_letters (toString_letters natural)
  have fields : ∀ field ∈ (headerOf segment spanId endpoint targetAddress).splitOn separator, EncodedField field := by
    rw [parts]
    simp only [List.forall_mem_cons, List.not_mem_nil, false_implies, implies_true, and_true]
    exact ⟨sample.1, encodedField_encode _ _, encodedField_encode _ _, number.1, encodedField_encode _ _,
      encodedField_encode _ _, encodedField_encode _ _, encodedField_encode _ _⟩
  refine ⟨?_, ?_, fields, ?_⟩
  · intro byte member
    rcases mem_splitOn member with separates | ⟨field, present, inside⟩
    · exact .inr (.inr separates)
    · exact ((fields field present).bytes inside).imp id .inl
  · have count := length_splitOn (headerOf segment spanId endpoint targetAddress)
    rw [parts] at count
    exact (Nat.succ_inj.mp count).symm
  · rw [parts]
    rintro index (rfl | rfl) field present
    · cases present
      exact sample.2
    · cases present
      exact number.2

/-- The header of any context is well formed, whatever was written into the names. -/
theorem header_wellFormed {ρ : Type} {uuid : ρ → Bytes × ρ} {context : TracingContextImpl} (alive : Alive uuid context)
    (few : context.spans.length < 2 ^ 31) {targetAddress header : Bytes}
    (created : context.createSW8HeaderValue targetAddress = .ok (some header)) : WellFormed header := by
  obtain ⟨last, first, found, _, _, rfl⟩ := createSW8HeaderValue_some created
  exact headerOf_wellFormed _ (alive.linked.natural few found) _ _

def hostileCalls : List ContextCall :=
  [.createEntrySpan, .span 0 (.startSpan [13, 10, 0, 45, 255] 1), .createExitSpan (.own 0)]

def hostile : TracingContextImpl := (Runs.exec TracingContextImpl.step plainContext hostileCalls).getD plainContext

theorem header_wellFormed_hostile :
    ∃ header, hostile.createSW8HeaderValue [13, 10, 58] = .ok (some header) ∧ WellFormed header := by
  have alive : Alive countUp hostile := (Alive.created plain_created).reached ⟨hostileCalls, rfl⟩
  obtain ⟨header, created⟩ : ∃ header, hostile.createSW8HeaderValue [13, 10, 58] = .ok (some header) := ⟨_, rfl⟩
  exact ⟨header, created, header_wellFormed alive (by decide) created⟩

end Cpp2Sky

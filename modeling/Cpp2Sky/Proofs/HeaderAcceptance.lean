import Mathlib.Data.List.GetD
import Mathlib.Tactic.Tauto
import Cpp2Sky.Library.Decimal
import Cpp2Sky.Proofs.HeaderRoundTrip

/-! Which headers the constructor of `SpanContextImpl` accepts, and what it makes
of them. An encoded field is decoded without a look at whether it can be. -/

namespace Cpp2Sky
open Base64 Sextets

/-- The sextet that a character of the alphabet stands for. -/
def sextetOf (char : UInt8) : UInt8 := UInt8.ofNat ((ascii charTable).idxOf char)

/-- Base64 of at least one byte, with at most two padding characters. -/
inductive ValidBase64 (field : Bytes) : Prop where
  | intro (chars pads : Bytes) (split : field = chars ++ pads) (few : pads = [] ∨ pads = [pad] ∨ pads = [pad, pad])
      (some : chars ≠ []) (letters : ∀ char ∈ chars, char ∈ ascii charTable) (whole : chars.length % 4 ≠ 1)
      (clean : leftover (chars.map sextetOf) = 0)

private theorem sextetOf_tableChar : ∀ sextet : UInt8, sextet < 64 → sextetOf (tableChar sextet) = sextet := by
  decide +kernel

/-- The alphabet is what the table has for the sextets. -/
private theorem letter_iff {char : UInt8} : char ∈ ascii charTable ↔ ∃ sextet < 64, tableChar sextet = char := by
  constructor
  · intro member
    obtain ⟨letter, inside, rfl⟩ := List.mem_map.mp member
    obtain ⟨index, bound, rfl⟩ := List.getElem_of_mem inside
    have few : index < 64 := bound
    have code : (UInt8.ofNat index).toNat = index := UInt8.toNat_ofNat_of_lt' (Nat.lt_trans few (by decide))
    refine ⟨UInt8.ofNat index, ?_, ?_⟩
    · rw [UInt8.lt_iff_toNat_lt, code]
      exact few
    · rw [tableChar, code, List.getD_eq_getElem _ _ bound]
  · rintro ⟨sextet, small, rfl⟩
    have inside : sextet.toNat < charTable.length := UInt8.lt_iff_toNat_lt.mp small
    rw [tableChar, List.getD_eq_getElem _ _ inside]
    exact List.mem_map_of_mem (List.getElem_mem inside)

private theorem letter_valid {char : UInt8} : char ∈ ascii charTable ↔ reverseLookup char ≠ 64 := by
  rw [letter_iff]
  constructor
  · rintro ⟨sextet, small, rfl⟩
    rw [reverseLookup_tableChar sextet small]
    exact UInt8.ne_of_lt small
  · intro valid
    exact ⟨_, tableChar_lookup char valid⟩

private theorem letter_sextet {char : UInt8} (letter : char ∈ ascii charTable) : reverseLookup char = sextetOf char := by
  obtain ⟨sextet, small, rfl⟩ := letter_iff.mp letter
  rw [reverseLookup_tableChar sextet small, sextetOf_tableChar sextet small]

private theorem pad_invalid : reverseLookup pad = 64 := by decide

theorem decoded_isSome {chars : Bytes} :
    (decoded chars).isSome = true ↔
      (∀ char ∈ chars, char ∈ ascii charTable) ∧ chars.length % 4 ≠ 1 ∧ leftover (chars.map sextetOf) = 0 := by
  have letters : (chars.all fun char => reverseLookup char ≠ 64) = true ↔ ∀ char ∈ chars, char ∈ ascii charTable := by
    simp only [List.all_eq_true, decide_eq_true_eq]
    exact forall₂_congr fun char _ => letter_valid.symm
  by_cases valid : ∀ char ∈ chars, char ∈ ascii charTable
  · have same : chars.map reverseLookup = chars.map sextetOf := by
      apply List.map_congr_left
      intro char member
      exact letter_sextet (valid char member)
    rw [decoded, if_pos (letters.mpr valid), octets_isSome, List.length_map, same]
    exact (and_iff_right valid).symm
  · rw [decoded, if_neg (mt letters.mp valid)]
    simp [valid]

private theorem drop_last {field : Bytes} {index : Nat} {byte : UInt8} (present : field[index]? = some byte) :
    field.drop index = byte :: field.drop (index + 1) := by
  obtain ⟨inside, rfl⟩ := List.getElem?_eq_some_iff.mp present
  exact List.drop_eq_getElem_cons inside

private theorem pads_few (field : Bytes) :
    field.drop (unpaddedLength field) = [] ∨ field.drop (unpaddedLength field) = [pad] ∨
      field.drop (unpaddedLength field) = [pad, pad] := by
  simp only [unpaddedLength]
  split
  next last =>
    have some := (List.getElem?_eq_some_iff.mp last).1
    have single : field.drop (field.length - 1) = [pad] := by
      rw [drop_last last, Nat.sub_add_cancel (by omega), List.drop_length]
    split
    next before =>
      have second := drop_last before.2
      rw [Nat.sub_add_cancel (by omega), single] at second
      exact .inr (.inr second)
    next => exact .inr (.inl single)
  next => exact .inl List.drop_length

theorem decoded_nonempty {chars bytes : Bytes} (text : decoded chars = some bytes) : bytes ≠ [] ↔ chars ≠ [] := by
  unfold decoded at text
  split at text
  next =>
    obtain ⟨count, whole⟩ := octets_length text
    rw [List.length_map] at count whole
    rw [← List.length_pos_iff, ← List.length_pos_iff]
    omega
  next => cases text

/-- A text that decodes to at least one byte is not the empty text returned for an error. -/
theorem decodes_nonempty {field bytes : Bytes} (nonempty : bytes ≠ []) (decodes : decodeWithoutPadding field = .ok bytes) :
    decoded (field.take (unpaddedLength field)) = some bytes := by
  rw [decodeWithoutPadding_eq] at decodes
  cases text : decoded (field.take (unpaddedLength field)) with
  | none =>
    rw [text] at decodes
    exact absurd (Except.ok.inj decodes).symm nonempty
  | some other =>
    rw [text] at decodes
    exact congrArg some (Except.ok.inj decodes)

theorem validBase64_iff (field : Bytes) :
    ValidBase64 field ↔ ∃ bytes, decodeWithoutPadding field = .ok bytes ∧ bytes ≠ [] := by
  constructor
  · rintro ⟨chars, pads, rfl, few, nonempty, letters, whole, clean⟩
    have unpadded : pad ∉ chars := fun member => letter_valid.mp (letters pad member) pad_invalid
    obtain ⟨bytes, text⟩ := Option.isSome_iff_exists.mp (decoded_isSome.mpr ⟨letters, whole, clean⟩)
    rw [decodeWithoutPadding_eq, unpaddedLength_append unpadded few, List.take_left, text]
    exact ⟨bytes, rfl, (decoded_nonempty text).mpr nonempty⟩
  · intro ⟨bytes, decodes, nonempty⟩
    have text := decodes_nonempty nonempty decodes
    obtain ⟨letters, whole, clean⟩ := decoded_isSome.mp (Option.isSome_iff_exists.mpr ⟨bytes, text⟩)
    exact .intro _ _ (List.take_append_drop _ _).symm (pads_few field) ((decoded_nonempty text).mp nonempty) letters whole
      clean

section Header
variable {simpleAtoi : Bytes → Option Int32} {headerValue : Bytes}

def headerField (headerValue : Bytes) (index : Nat) : Bytes := (headerValue.splitOn separator).getD index []

/-- What the constructor checks: the number of fields, the sample field and the span id. -/
structure Accepted (simpleAtoi : Bytes → Option Int32) (headerValue : Bytes) (spanId : Int32) : Prop where
  count : headerValue.count separator = 7
  sample : headerField headerValue 0 = ascii ['0'] ∨ headerField headerValue 0 = ascii ['1']
  spanId : simpleAtoi (headerField headerValue 3) = some spanId

structure ParsedFrom (headerValue : Bytes) (context : SpanContextImpl) : Prop where
  sample : context.sample = true
  traceId : decodeWithoutPadding (headerField headerValue 1) = .ok context.traceId
  traceSegmentId : decodeWithoutPadding (headerField headerValue 2) = .ok context.traceSegmentId
  service : decodeWithoutPadding (headerField headerValue 4) = .ok context.service
  serviceInstance : decodeWithoutPadding (headerField headerValue 5) = .ok context.serviceInstance
  endpoint : decodeWithoutPadding (headerField headerValue 6) = .ok context.endpoint
  targetAddress : decodeWithoutPadding (headerField headerValue 7) = .ok context.targetAddress

/-- With eight fields the constructor goes on to check two of them. -/
private theorem new_fit (count : headerValue.count separator = 7) :
    SpanContextImpl.new simpleAtoi headerValue =
      if headerField headerValue 0 ≠ ascii ['0'] ∧ headerField headerValue 0 ≠ ascii ['1'] then
        .error (.exception "Invalid span context format. Sample field must be 0 or 1.")
      else match simpleAtoi (headerField headerValue 3) with
        | none => .error (.exception "Invalid span id format. Span id field must be integer number.")
        | some spanId => do
          let traceId ← decodeWithoutPadding (headerField headerValue 1)
          let traceSegmentId ← decodeWithoutPadding (headerField headerValue 2)
          let service ← decodeWithoutPadding (headerField headerValue 4)
          let serviceInstance ← decodeWithoutPadding (headerField headerValue 5)
          let endpoint ← decodeWithoutPadding (headerField headerValue 6)
          let targetAddress ← decodeWithoutPadding (headerField headerValue 7)
          return { sample := true, traceId, traceSegmentId, spanId, service, serviceInstance, endpoint, targetAddress } := by
  unfold SpanContextImpl.new
  rw [fieldsOf_fit (by rw [count]; rfl), Outcome.ok_bind]
  simp only [decodeWithoutPadding_eq, Outcome.ok_bind]
  rfl

private theorem new_other (count : headerValue.count separator ≠ 7) (context : SpanContextImpl) :
    SpanContextImpl.new simpleAtoi headerValue ≠ .ok context := by
  unfold SpanContextImpl.new
  by_cases few : headerValue.count separator < 7
  · rw [fieldsOf_few (by rw [expectedFieldCount]; omega)]
    simp
  · rw [fieldsOf_over (by decide) (by rw [expectedFieldCount]; omega)]
    split <;> simp

theorem new_ok_iff {context : SpanContextImpl} :
    SpanContextImpl.new simpleAtoi headerValue = .ok context ↔
      Accepted simpleAtoi headerValue context.spanId ∧ ParsedFrom headerValue context := by
  by_cases count : headerValue.count separator = 7
  · rw [new_fit count]
    constructor
    · intro accepted
      split at accepted
      next => cases accepted
      next sample =>
        split at accepted
        next => cases accepted
        next spanId read =>
          simp only [decodeWithoutPadding_eq, Outcome.ok_bind, Outcome.pure_eq] at accepted
          cases accepted
          exact ⟨⟨count, by tauto, read⟩, rfl, by rw [decodeWithoutPadding_eq], by rw [decodeWithoutPadding_eq],
            by rw [decodeWithoutPadding_eq], by rw [decodeWithoutPadding_eq], by rw [decodeWithoutPadding_eq],
            by rw [decodeWithoutPadding_eq]⟩
    · intro ⟨accepted, parsed⟩
      have sample : ¬ (headerField headerValue 0 ≠ ascii ['0'] ∧ headerField headerValue 0 ≠ ascii ['1']) := by
        have either := accepted.sample
        tauto
      simp only [if_neg sample, accepted.spanId, parsed.traceId, parsed.traceSegmentId, parsed.service,
        parsed.serviceInstance, parsed.endpoint, parsed.targetAddress, Outcome.ok_bind, Outcome.pure_eq,
        ← parsed.sample]
  · exact ⟨fun accepted => absurd accepted (new_other count context), fun accepted => absurd accepted.1.count count⟩

theorem Accepted.parses {spanId : Int32} (accepted : Accepted simpleAtoi headerValue spanId) :
    ∃ context, SpanContextImpl.new simpleAtoi headerValue = .ok context ∧ context.spanId = spanId := by
  have text (index : Nat) : ∃ bytes, decodeWithoutPadding (headerField headerValue index) = .ok bytes :=
    ⟨_, decodeWithoutPadding_eq _⟩
  obtain ⟨traceId, first⟩ := text 1
  obtain ⟨traceSegmentId, second⟩ := text 2
  obtain ⟨service, fourth⟩ := text 4
  obtain ⟨serviceInstance, fifth⟩ := text 5
  obtain ⟨endpoint, sixth⟩ := text 6
  obtain ⟨targetAddress, seventh⟩ := text 7
  let context : SpanContextImpl :=
    { sample := true, traceId, traceSegmentId, spanId, service, serviceInstance, endpoint, targetAddress }
  exact ⟨context, new_ok_iff.mpr ⟨accepted, rfl, first, second, fourth, fifth, sixth, seventh⟩, rfl⟩

end Header

/-- The trace id, the segment id, the service, the instance, the endpoint and the
target address as they stand in the header. -/
def encodedFields (headerValue : Bytes) : List Bytes := [1, 2, 4, 5, 6, 7].map (headerField headerValue)

/-- A field of an accepted header that is there is Base64 and has a value. -/
def RejectsMalformed (simpleAtoi : Bytes → Option Int32) (headerValue : Bytes) : Prop :=
  ∀ context, SpanContextImpl.new simpleAtoi headerValue = .ok context →
    ∀ field ∈ encodedFields headerValue, field ≠ [] →
      ValidBase64 field ∧ ∃ bytes, decodeWithoutPadding field = .ok bytes ∧ bytes ≠ []

theorem malformed_rejected_iff (simpleAtoi : Bytes → Option Int32) (headerValue : Bytes) :
    RejectsMalformed simpleAtoi headerValue ↔
      (¬ ∃ spanId, Accepted simpleAtoi headerValue spanId) ∨
        ∀ field ∈ encodedFields headerValue, field ≠ [] → ValidBase64 field := by
  constructor
  · intro rejects
    by_cases accepts : ∃ spanId, Accepted simpleAtoi headerValue spanId
    · obtain ⟨spanId, accepted⟩ := accepts
      obtain ⟨context, parsed, _⟩ := accepted.parses
      exact .inr fun field member nonempty => (rejects context parsed field member nonempty).1
    · exact .inl accepts
  · intro allowed context parsed field member nonempty
    have valid : ValidBase64 field := by
      rcases allowed with rejected | valid
      · exact absurd ⟨_, (new_ok_iff.mp parsed).1⟩ rejected
      · exact valid field member nonempty
    exact ⟨valid, (validBase64_iff field).mp valid⟩

def malformedHeader : Bytes := asciiOf "1-!-MQ==-3-bWVzaA==-aQ==-L2E=-Yg=="

theorem malformed_header_accepted :
    headerField malformedHeader 1 = asciiOf "!" ∧
      ∃ context, SpanContextImpl.new readDecimal malformedHeader = .ok context ∧ context.traceId = [] := by
  refine ⟨by decide, _, rfl, rfl⟩

/-- The documented syntax of `absl::SimpleAtoi` for a number that is to fit. -/
def ReadsNumerals (simpleAtoi : Bytes → Option Int32) : Prop :=
  ∀ (text : Bytes) (value : Int32), simpleAtoi text = some value ↔ Decimal.Numeral text value.toInt

/-- What becomes of the last seven of eight fields. -/
structure Yields (f1 f2 f3 f4 f5 f6 f7 : Bytes) (context : SpanContextImpl) : Prop where
  traceId : decodeWithoutPadding f1 = .ok context.traceId
  traceSegmentId : decodeWithoutPadding f2 = .ok context.traceSegmentId
  spanId : Decimal.Numeral f3 context.spanId.toInt
  natural : 0 ≤ context.spanId.toInt
  service : decodeWithoutPadding f4 = .ok context.service
  serviceInstance : decodeWithoutPadding f5 = .ok context.serviceInstance
  endpoint : decodeWithoutPadding f6 = .ok context.endpoint
  targetAddress : decodeWithoutPadding f7 = .ok context.targetAddress

private theorem rejected_few (simpleAtoi : Bytes → Option Int32) {headerValue : Bytes}
    (few : headerValue.count separator < 7) :
    ∃ message, SpanContextImpl.new simpleAtoi headerValue = .error (.exception message) := by
  unfold SpanContextImpl.new
  rw [fieldsOf_few (by rw [expectedFieldCount]; omega)]
  exact ⟨_, rfl⟩

private theorem rejected_over (simpleAtoi : Bytes → Option Int32) {before after : Bytes}
    (seven : before.count separator = 7) (more : after ≠ []) :
    ∃ message, SpanContextImpl.new simpleAtoi (before ++ separator :: after) = .error (.exception message) := by
  have count : (before ++ separator :: after).count separator = 8 + after.count separator := by
    rw [List.count_append, List.count_cons_self, seven]
    omega
  have beyond : ¬ EndsAfter expectedFieldCount (before ++ separator :: after) := by
    intro ⟨exactly, last⟩
    have none : separator ∉ after := List.count_eq_zero.mp (by rw [count, expectedFieldCount] at exactly; omega)
    rw [List.getLast?_append_of_ne_nil _ (List.cons_ne_nil _ _), List.getLast?_cons] at last
    obtain ⟨final, ends⟩ := List.getLast?_isSome.mpr more |> Option.isSome_iff_exists.mp
    rw [ends] at last
    exact none (List.mem_of_getLast? (ends.trans last))
  unfold SpanContextImpl.new
  rw [fieldsOf_over (by decide) (by rw [count, expectedFieldCount]; omega), if_neg beyond]
  exact ⟨_, rfl⟩

theorem sw8_acceptance {simpleAtoi : Bytes → Option Int32} (reads : ReadsNumerals simpleAtoi) :
    (∀ f0 f1 f2 f3 f4 f5 f6 f7 : Bytes, (∀ field ∈ [f0, f1, f2, f3, f4, f5, f6, f7], separator ∉ field) →
      ((∃ context, SpanContextImpl.new simpleAtoi ([separator].intercalate [f0, f1, f2, f3, f4, f5, f6, f7]) = .ok context) ↔
        (f0 = ascii ['0'] ∨ f0 = ascii ['1']) ∧ ∃ value : Int32, Decimal.Numeral f3 value.toInt) ∧
      ∀ context, SpanContextImpl.new simpleAtoi ([separator].intercalate [f0, f1, f2, f3, f4, f5, f6, f7]) = .ok context →
        Yields f1 f2 f3 f4 f5 f6 f7 context) ∧
    (∀ headerValue : Bytes, headerValue.count separator < 7 →
      ∃ message, SpanContextImpl.new simpleAtoi headerValue = .error (.exception message)) ∧
    ∀ before after : Bytes, before.count separator = 7 → after ≠ [] →
      ∃ message, SpanContextImpl.new simpleAtoi (before ++ separator :: after) = .error (.exception message) := by
  refine ⟨?_, fun _ => rejected_few simpleAtoi, fun _ _ => rejected_over simpleAtoi⟩
  intro f0 f1 f2 f3 f4 f5 f6 f7 free
  have parts := List.splitOn_intercalate separator free (List.cons_ne_nil _ _)
  have count : ([separator].intercalate [f0, f1, f2, f3, f4, f5, f6, f7]).count separator = 7 := by
    have length := length_splitOn ([separator].intercalate [f0, f1, f2, f3, f4, f5, f6, f7])
    rw [parts] at length
    simpa using length.symm
  have field (index : Nat) : headerField ([separator].intercalate [f0, f1, f2, f3, f4, f5, f6, f7]) index =
      [f0, f1, f2, f3, f4, f5, f6, f7].getD index [] := by rw [headerField, parts]
  constructor
  · constructor
    · intro ⟨context, parsed⟩
      obtain ⟨accepted, _⟩ := new_ok_iff.mp parsed
      have sample := accepted.sample
      have read := accepted.spanId
      rw [field] at sample read
      exact ⟨sample, context.spanId, (reads _ _).mp read⟩
    · intro ⟨sample, value, numeral⟩
      have accepted : Accepted simpleAtoi ([separator].intercalate [f0, f1, f2, f3, f4, f5, f6, f7]) value :=
        ⟨count, by rw [field]; exact sample, by rw [field]; exact (reads _ _).mpr numeral⟩
      obtain ⟨context, parsed, _⟩ := accepted.parses
      exact ⟨context, parsed⟩
  · intro context parsed
    obtain ⟨accepted, fields⟩ := new_ok_iff.mp parsed
    obtain ⟨_, traceId, traceSegmentId, service, serviceInstance, endpoint, targetAddress⟩ := fields
    have read := accepted.spanId
    rw [field] at read traceId traceSegmentId service serviceInstance endpoint targetAddress
    have numeral : Decimal.Numeral f3 context.spanId.toInt := (reads _ _).mp read
    have unsigned : separator ∉ f3 := free f3 (by simp)
    exact ⟨traceId, traceSegmentId, numeral, numeral.natural unsigned, service, serviceInstance, endpoint, targetAddress⟩

/-- A reader as documented: a numeral that is out of range is none. -/
def readNumeral (text : Bytes) : Option Int32 :=
  (Decimal.read text).bind fun value => if (Int32.ofInt value).toInt = value then some (Int32.ofInt value) else none

theorem readNumeral_reads : ReadsNumerals readNumeral := by
  intro text value
  rw [← Decimal.read_iff, readNumeral, Option.bind_eq_some_iff]
  constructor
  · intro ⟨number, read, fits⟩
    split at fits
    next same =>
      cases fits
      rw [same]
      exact read
    next => cases fits
  · intro read
    exact ⟨value.toInt, read, by rw [Int32.ofInt_toInt, if_pos rfl]⟩

theorem sw8_acceptance_signed :
    (∃ context, SpanContextImpl.new readNumeral ([separator].intercalate
        [asciiOf "0", [], [], asciiOf " +7 ", [], [], [], []]) = .ok context ∧ 0 ≤ context.spanId.toInt) ∧
      ∃ message, SpanContextImpl.new readNumeral (asciiOf "1---") = .error (.exception message) := by
  obtain ⟨fields, few, _⟩ := sw8_acceptance readNumeral_reads
  obtain ⟨accepts, yields⟩ := fields (asciiOf "0") [] [] (asciiOf " +7 ") [] [] [] [] (by decide)
  obtain ⟨context, parsed⟩ := accepts.mpr ⟨.inl rfl, 7, Decimal.read_iff.mp (by decide +kernel)⟩
  exact ⟨⟨context, parsed, (yields context parsed).natural⟩, few _ (by decide)⟩

end Cpp2Sky

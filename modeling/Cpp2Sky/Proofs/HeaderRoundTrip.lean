import Mathlib.Algebra.Group.Int.Defs
import Mathlib.Algebra.Group.Nat.Defs
import Cpp2Sky.Proofs.HeaderFields
import Cpp2Sky.Proofs.ContextSteps

/-! What `createSW8HeaderValue` writes, the constructor of `SpanContextImpl` reads
back. No encoded field and no span id contains the separator. -/

namespace Cpp2Sky
open Base64 Sextets

/-- `absl::SimpleAtoi` on what `std::to_string` printed. -/
def ReadsBack (simpleAtoi : Bytes → Option Int32) : Prop :=
  ∀ value : Int32, simpleAtoi (stdToString value) = some value

theorem separator_notMem_letters {chars : Bytes} (letters : ∀ char ∈ chars, isBase64Char char = true) :
    separator ∉ chars := by
  intro member
  have letter := letters separator member
  revert letter
  decide

theorem separator_notMem_encode (input : Bytes) (addPadding : Bool) : separator ∉ encode input addPadding := by
  rw [encode_eq]
  intro member
  rcases List.mem_append.mp member with inside | padded
  · exact separator_notMem_letters (sextets_letters input) inside
  · rcases padding_cases addPadding input.length with none | one | two
    · rw [none] at padded; cases padded
    · rw [one] at padded; exact absurd padded (by decide)
    · rw [two] at padded; exact absurd padded (by decide)

theorem digit_code {char : Char} (digit : char.isDigit = true) : 48 ≤ char.toNat ∧ char.toNat ≤ 57 := by
  simp only [Char.isDigit, Bool.and_eq_true, decide_eq_true_eq, UInt32.le_iff_toNat_le] at digit
  exact digit

theorem digit_byte {char : Char} (digit : char.isDigit = true) : char.toUInt8.toNat = char.toNat := by
  have bounds := digit_code digit
  show char.toNat % 256 = char.toNat
  omega

private theorem digit_letter {char : Char} (digit : char.isDigit = true) : isBase64Char char.toUInt8 = true := by
  have bounds := digit_code digit
  have byte := digit_byte digit
  have numeral : '0'.toUInt8 ≤ char.toUInt8 ∧ char.toUInt8 ≤ '9'.toUInt8 := by
    rw [UInt8.le_iff_toNat_le, UInt8.le_iff_toNat_le, byte]
    exact bounds
  simp [isBase64Char, numeral]

/-- Only a negative number is printed with the separator. -/
theorem toString_letters {value : Int32} (natural : 0 ≤ value.toInt) :
    ∀ char ∈ stdToString value, isBase64Char char = true := by
  intro byte member
  rw [stdToString, if_neg (by omega), List.nil_append] at member
  obtain ⟨char, inside, rfl⟩ := List.mem_map.mp member
  exact digit_letter (Nat.isDigit_of_mem_toDigits (by decide) (by decide) inside)

theorem separator_notMem_toString {value : Int32} (natural : 0 ≤ value.toInt) : separator ∉ stdToString value :=
  separator_notMem_letters (toString_letters natural)

def headerOf (segment : SegmentObject) (spanId : Int32) (endpoint targetAddress : Bytes) : Bytes :=
  [separator].intercalate [ascii ['1'], encode segment.traceId, encode segment.traceSegmentId, stdToString spanId,
    encode segment.service, encode segment.serviceInstance, encode endpoint, encode targetAddress]

theorem headerOf_parts (segment : SegmentObject) {spanId : Int32} (natural : 0 ≤ spanId.toInt)
    (endpoint targetAddress : Bytes) :
    (headerOf segment spanId endpoint targetAddress).splitOn separator =
      [ascii ['1'], encode segment.traceId, encode segment.traceSegmentId, stdToString spanId,
        encode segment.service, encode segment.serviceInstance, encode endpoint, encode targetAddress] := by
  refine List.splitOn_intercalate separator ?_ (by simp)
  simp only [List.forall_mem_cons, List.not_mem_nil, false_implies, implies_true, and_true]
  exact ⟨by decide, separator_notMem_encode _ _, separator_notMem_encode _ _, separator_notMem_toString natural,
    separator_notMem_encode _ _, separator_notMem_encode _ _, separator_notMem_encode _ _, separator_notMem_encode _ _⟩

theorem new_headerOf {simpleAtoi : Bytes → Option Int32} (reads : ReadsBack simpleAtoi) (segment : SegmentObject)
    {spanId : Int32} (natural : 0 ≤ spanId.toInt) (endpoint targetAddress : Bytes) :
    SpanContextImpl.new simpleAtoi (headerOf segment spanId endpoint targetAddress) =
      .ok { sample := true, traceId := segment.traceId, traceSegmentId := segment.traceSegmentId, spanId,
            service := segment.service, serviceInstance := segment.serviceInstance, endpoint, targetAddress } := by
  have parts := headerOf_parts segment natural endpoint targetAddress
  have count : (headerOf segment spanId endpoint targetAddress).count separator + 1 = expectedFieldCount := by
    rw [← length_splitOn, parts]
    rfl
  unfold SpanContextImpl.new
  rw [fieldsOf_fit count, parts]
  simp [decode_encode, reads spanId]

/-- A header is returned where the last span is an exit span, and is made of that
span's id and the first span's operation name. -/
theorem createSW8HeaderValue_some {context : TracingContextImpl} {targetAddress header : Bytes}
    (created : context.createSW8HeaderValue targetAddress = .ok (some header)) :
    ∃ last first, context.span (context.spans.length - 1) = .ok last ∧ last.spanStore.spanType = .exit ∧
      context.span 0 = .ok first ∧
      header = headerOf context.segmentStore last.spanStore.spanId first.spanStore.operationName targetAddress := by
  by_cases empty : context.spans = []
  · simp [TracingContextImpl.createSW8HeaderValue, empty] at created
  · unfold TracingContextImpl.createSW8HeaderValue at created
    rw [if_neg empty] at created
    obtain ⟨last, found, rest⟩ := Outcome.bind_eq_ok.mp created
    by_cases exit : last.spanStore.spanType = .exit
    · simp only [exit, ne_eq, not_true_eq_false, ite_false, TracingContextImpl.encodeSpan, if_neg empty] at rest
      obtain ⟨text, encoded, rest⟩ := Outcome.bind_eq_ok.mp rest
      obtain ⟨first, front, text'⟩ := Outcome.bind_eq_ok.mp encoded
      cases rest
      cases text'
      refine ⟨last, first, found, exit, front, ?_⟩
      simp [headerOf, ascii, List.intercalate_cons_cons, separator]
    · simp [exit] at rest

structure ReadFrom (context : TracingContextImpl) (targetAddress : Bytes) (parsed : SpanContextImpl) : Prop where
  traceId : parsed.traceId = context.segmentStore.traceId
  traceSegmentId : parsed.traceSegmentId = context.segmentStore.traceSegmentId
  service : parsed.service = context.segmentStore.service
  serviceInstance : parsed.serviceInstance = context.segmentStore.serviceInstance
  spanId : ∃ last, context.span (context.spans.length - 1) = .ok last ∧ parsed.spanId = last.spanStore.spanId
  endpoint : ∃ first, context.span 0 = .ok first ∧ parsed.endpoint = first.spanStore.operationName
  targetAddress : parsed.targetAddress = targetAddress

theorem Linked.natural {context : TracingContextImpl} (linked : Linked context) (few : context.spans.length < 2 ^ 31)
    {index : Nat} {span : TracingSpanImpl} (found : context.span index = .ok span) : 0 ≤ span.spanStore.spanId.toInt := by
  have object := linked.object found
  have inside := (List.getElem?_eq_some_iff.mp object).1
  rw [linked.number index _ object, Int32.toInt_ofNat_of_lt (by have := linked.size; omega)]
  omega

theorem Linked.header_read {simpleAtoi : Bytes → Option Int32} (reads : ReadsBack simpleAtoi) {context : TracingContextImpl}
    (linked : Linked context) (few : context.spans.length < 2 ^ 31) {targetAddress header : Bytes}
    (created : context.createSW8HeaderValue targetAddress = .ok (some header)) :
    ∃ parsed, SpanContextImpl.new simpleAtoi header = .ok parsed ∧ ReadFrom context targetAddress parsed := by
  obtain ⟨last, first, found, _, front, rfl⟩ := createSW8HeaderValue_some created
  refine ⟨_, new_headerOf reads _ (linked.natural few found) _ _, ?_⟩
  exact ⟨rfl, rfl, rfl, rfl, ⟨last, found, rfl⟩, ⟨first, front, rfl⟩, rfl⟩

theorem sw8_round_trip {ρ : Type} (uuid : ρ → Bytes × ρ) {simpleAtoi : Bytes → Option Int32} (reads : ReadsBack simpleAtoi)
    (serviceName instanceName : Bytes) (parent : Option SpanContextImpl) (extension : Option SpanContextExtensionImpl)
    (random : ρ) {context : TracingContextImpl}
    (reached : (TracingContextImpl.new uuid serviceName instanceName parent extension random).1.Reached context)
    (few : context.spans.length < 2 ^ 31) {targetAddress header : Bytes}
    (created : context.createSW8HeaderValue targetAddress = .ok (some header)) :
    ∃ parsed, SpanContextImpl.new simpleAtoi header = .ok parsed ∧ ReadFrom context targetAddress parsed :=
  (reached.linked (linked_new uuid serviceName instanceName parent extension random)).header_read reads few created

def readDecimal (text : Bytes) : Option Int32 :=
  let negative := text.head? = some separator
  let digits := (if negative then text.drop 1 else text).map fun byte => Char.ofNat byte.toNat
  let magnitude : Int := Nat.ofDigitChars 10 digits 0
  let value := if negative then -magnitude else magnitude
  if digits ≠ [] ∧ digits.all Char.isDigit ∧ -2 ^ 31 ≤ value ∧ value < 2 ^ 31 then some (Int32.ofInt value) else none

private theorem digits_back (magnitude : Nat) :
    (ascii (Nat.toDigits 10 magnitude)).map (fun byte => Char.ofNat byte.toNat) = Nat.toDigits 10 magnitude := by
  rw [ascii, List.map_map]
  refine (List.map_congr_left fun char member => ?_).trans (List.map_id _)
  have code := digit_byte (Nat.isDigit_of_mem_toDigits (by decide) (by decide) member)
  rw [Function.comp_apply, code, Char.ofNat_toNat]
  rfl

theorem readDecimal_reads : ReadsBack readDecimal := by
  intro value
  have low := value.le_toInt
  have high := value.toInt_lt
  have numeric : (Nat.toDigits 10 value.toInt.natAbs).all Char.isDigit = true :=
    List.all_eq_true.mpr fun char member => Nat.isDigit_of_mem_toDigits (by decide) (by decide) member
  by_cases negative : value.toInt < 0
  · have text : stdToString value = separator :: ascii (Nat.toDigits 10 value.toInt.natAbs) := by
      simp only [stdToString, if_pos negative]
      rfl
    have back : -((value.toInt.natAbs : Nat) : Int) = value.toInt := by omega
    simp only [readDecimal, text, List.head?_cons, List.drop_succ_cons, List.drop_zero, ite_true, digits_back,
      Nat.ofDigitChars_ten_toDigits, back]
    rw [if_pos ⟨Nat.toDigits_ne_nil, numeric, low, high⟩, Int32.ofInt_toInt]
  · have text : stdToString value = ascii (Nat.toDigits 10 value.toInt.natAbs) := by
      simp only [stdToString, if_neg negative, List.nil_append]
    have unsigned : (stdToString value).head? ≠ some separator := fun first =>
      separator_notMem_toString (Int.not_lt.mp negative) (List.mem_of_head? first)
    have back : ((value.toInt.natAbs : Nat) : Int) = value.toInt := by omega
    rw [text] at unsigned
    simp only [readDecimal, text, unsigned, ite_false, digits_back, Nat.ofDigitChars_ten_toDigits, back]
    rw [if_pos ⟨Nat.toDigits_ne_nil, numeric, low, high⟩, Int32.ofInt_toInt]

def countUp (next : Nat) : Bytes × Nat := (ascii (Nat.toDigits 10 next), next + 1)

def outgoingCalls : List ContextCall :=
  [.createEntrySpan, .span 0 (.startSpan (ascii ['/', 'a', '-', 'b']) 1), .createExitSpan (.own 0)]

def outgoingStart : TracingContextImpl :=
  (TracingContextImpl.new countUp (ascii ['m', 'e', 's', 'h']) [] none none 10).1

def outgoing : TracingContextImpl := (Runs.exec TracingContextImpl.step outgoingStart outgoingCalls).getD outgoingStart

theorem sw8_round_trip_outgoing :
    ∃ header parsed, outgoing.createSW8HeaderValue [0, 255] = .ok (some header) ∧
      SpanContextImpl.new readDecimal header = .ok parsed ∧ ReadFrom outgoing [0, 255] parsed := by
  obtain ⟨header, created⟩ : ∃ header, outgoing.createSW8HeaderValue [0, 255] = .ok (some header) := ⟨_, rfl⟩
  obtain ⟨parsed, accepted, read⟩ := sw8_round_trip countUp readDecimal_reads (ascii ['m', 'e', 's', 'h']) [] none none 10
    ⟨outgoingCalls, rfl⟩ (by decide) created
  exact ⟨header, parsed, created, accepted, read⟩

end Cpp2Sky

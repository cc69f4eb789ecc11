import Cpp2Sky.Library.Json
import Cpp2Sky.Proofs.ContextView
import Cpp2Sky.Proofs.SkipAnalysis
import Cpp2Sky.Proofs.TextViews

/-! A line of the log: the pattern with its message, the message with its suffix. -/

namespace Cpp2Sky

/-- The id that `logMessage` prints. -/
def TracingContextImpl.lastSpanId (context : TracingContextImpl) : Int32 :=
  (context.view.getLast?).elim (-1) fun span => span.spanStore.spanId

theorem Linked.logMessage_eq {context : TracingContextImpl} (linked : Linked context) (output : Bytes) :
    context.logMessage output = .ok (output ++ asciiOf "\", \"SW_CTX\": [" ++
      asciiOf "\"" ++ context.segmentStore.service ++ asciiOf "\"," ++
      asciiOf "\"" ++ context.segmentStore.serviceInstance ++ asciiOf "\"," ++
      asciiOf "\"" ++ context.segmentStore.traceId ++ asciiOf "\"," ++
      asciiOf "\"" ++ context.segmentStore.traceSegmentId ++ asciiOf "\"," ++
      asciiOf "\"" ++ stdToString context.lastSpanId ++ asciiOf "\"]\x7d") := by
  by_cases empty : context.spans = []
  · have none : context.lastSpanId = -1 := by
      rw [TracingContextImpl.lastSpanId, linked.view_eq_nil.mpr empty]
      rfl
    have printed : asciiOf "\"" ++ stdToString (-1) ++ asciiOf "\"]\x7d" = asciiOf "\"-1\"]\x7d" := by decide
    simp only [TracingContextImpl.logMessage, empty, none, ne_eq, not_true_eq_false, ite_false, ← printed,
      List.append_assoc, Outcome.pure_eq]
  · have last : context.view.getLast? = context.view[context.spans.length - 1]? := by
      rw [List.getLast?_eq_getElem?, linked.view_length]
    have inside : context.spans.length - 1 < context.view.length := by
      have some := List.length_pos_iff.mpr empty
      rw [linked.view_length]
      omega
    have present := List.getElem?_eq_getElem inside
    rw [present] at last
    simp only [TracingContextImpl.logMessage, empty, ne_eq, not_false_eq_true, ite_true, linked.span_iff.mpr present,
      Outcome.ok_bind, Outcome.pure_eq, TracingContextImpl.lastSpanId, last, Option.elim_some]

open Json

/-- The texts of `SW_CTX` before the id of the span. -/
def SegmentObject.names (segment : SegmentObject) : List Bytes :=
  [segment.service, segment.serviceInstance, segment.traceId, segment.traceSegmentId]

/-- A line as the texts that it is pasted together from. -/
theorem Linked.line_eq {context : TracingContextImpl} (linked : Linked context) (level : Level) {output text : Bytes}
    (logged : context.logMessage output = .ok text) :
    formatPattern level text logFormat =
      openBrace :: pasted [(asciiOf "level", level.name), (asciiOf "msg", output)]
        (quoted (asciiOf "SW_CTX") ++ colon :: space :: openBracket ::
          (listed context.segmentStore.names (stdToString context.lastSpanId) ++ [closeBracket, closeBrace])) := by
  have format : formatPattern level text logFormat =
      openBrace :: (quoted (asciiOf "level") ++ colon :: space :: quote :: level.name ++
        quote :: comma :: space :: (quoted (asciiOf "msg") ++ colon :: space :: quote :: (text ++ []))) := rfl
  have key : asciiOf "\", \"SW_CTX\": [" =
    quote :: comma :: space :: (quoted (asciiOf "SW_CTX") ++ [colon, space, openBracket]) := by decide
  have first : asciiOf "\"" = [quote] := by decide
  have next : asciiOf "\"," = [quote, comma] := by decide
  have last : asciiOf "\"]\x7d" = [quote, closeBracket, closeBrace] := by decide
  rw [linked.logMessage_eq output, key, first, next, last] at logged
  rw [format, ← Except.ok.inj logged]
  simp [pasted, quoted, listed, SegmentObject.names]

/-- What a line says when it is read back. -/
def TracingContextImpl.logged (context : TracingContextImpl) (level : Level) (message : Bytes) : Value :=
  .object [(asciiOf "level", .string level.name), (asciiOf "msg", .string message),
    (asciiOf "SW_CTX", .array ((context.segmentStore.names ++ [stdToString context.lastSpanId]).map .string))]

theorem Level.plain (level : Level) : Plain level.name := by
  apply plain_printable
  cases level <;> decide

theorem plain_digit {char : Char} (digit : char.isDigit = true) : Unescaped char.toUInt8 ∧ char.toUInt8 < 0x80 := by
  obtain ⟨low, high⟩ := digit_code digit
  have code := digit_byte digit
  have differs {byte : UInt8} (outside : byte.toNat < 48 ∨ 57 < byte.toNat) : char.toUInt8 ≠ byte := by
    intro same
    rw [← same, code] at outside
    omega
  refine ⟨⟨differs (.inl (by decide)), differs (.inr (by decide)), ?_⟩, ?_⟩
  · rw [UInt8.le_iff_toNat_le, code]
    exact Nat.le_trans (by decide) low
  · rw [UInt8.lt_iff_toNat_lt, code]
    exact Nat.lt_of_le_of_lt high (by decide)

theorem plain_number (value : Int32) : Plain (stdToString value) := by
  apply plain_ascii
  intro byte member
  rcases List.mem_append.mp member with sign | digits
  · split at sign
    · obtain rfl : byte = '-'.toUInt8 := List.mem_singleton.mp sign
      decide
    · cases sign
  · obtain ⟨char, inside, rfl⟩ := List.mem_map.mp digits
    exact plain_digit (Nat.isDigit_of_mem_toDigits (by decide) (by decide) inside)

/-- A line says what it should if the names and what was read of the message are plain, and all of it was read. -/
theorem Linked.parse_iff {context : TracingContextImpl} (linked : Linked context) (level : Level)
    {output message text : Bytes} (begins : output <+: message) (logged : context.logMessage output = .ok text) :
    parse (formatPattern level text logFormat) = some (context.logged level message) ↔
      (Plain output ∧ message = output) ∧ ∀ name ∈ context.segmentStore.names, Plain name := by
  have levelKey : Plain (asciiOf "level") := plain_printable (by decide +kernel)
  have msgKey : Plain (asciiOf "msg") := plain_printable (by decide +kernel)
  have known : Plain (asciiOf "SW_CTX") := plain_printable (by decide +kernel)
  have keys : ∀ text ∈ [(asciiOf "level", level.name), (asciiOf "msg", output)], Plain text.1 :=
    List.forall_mem_cons.mpr ⟨levelKey, List.forall_mem_singleton.mpr msgKey⟩
  have reads : List.Forall₂ (fun text read => text.2 <+: read) [(asciiOf "level", level.name), (asciiOf "msg", output)]
      [level.name, message] := .cons List.prefix_rfl (.cons begins .nil)
  rw [linked.line_eq level logged]
  apply (parse_pasted reads keys known (plain_number context.lastSpanId)).trans
  simp [level.plain, and_assoc]

/-- Of a terminated text all is read, or what stands before a NUL in it. -/
theorem literal_data (message : Bytes) :
    ∃ copied, (StringView.literal message).data = .ok copied ∧ copied.text <+: message ∧
      (copied.text = message ∨ 0 ∈ message) := by
  by_cases member : 0 ∈ message
  · obtain ⟨front, back, rfl, whole⟩ := List.eq_append_cons_of_mem member
    have read := copyCString_eq whole (back ++ [0]) 0
    rw [← List.cons_append, ← List.append_assoc] at read
    exact ⟨_, read, ⟨_, rfl⟩, .inr member⟩
  · exact ⟨_, copyCString_eq member [] 0, List.prefix_rfl, .inl rfl⟩

theorem plain_not_nul {text : Bytes} (plain : Plain text) : 0 ∉ text := by
  intro member
  exact absurd (plain.unescaped 0 member) (by decide)

/-- The line that a message makes says what it should. -/
def TracingContextImpl.WellLogged (context : TracingContextImpl) (level : Level) (message : Bytes) : Prop :=
  ∃ text, (TextCall.logMessage (StringView.literal message)).run context = .ok (context, some text) ∧
    parse (formatPattern level text logFormat) = some (context.logged level message)

theorem log_line_iff {ρ : Type} {uuid : ρ → Bytes × ρ} {context : TracingContextImpl} (alive : Alive uuid context)
    (level : Level) (message : Bytes) :
    context.WellLogged level message ↔ Plain message ∧ ∀ name ∈ context.segmentStore.names, Plain name := by
  have linked := alive.linked
  obtain ⟨copied, read, begins, whole⟩ := literal_data message
  obtain ⟨text, logged⟩ : ∃ text, context.logMessage copied.text = .ok text := ⟨_, linked.logMessage_eq copied.text⟩
  have returned : (TextCall.logMessage (StringView.literal message)).run context = .ok (context, some text) := by
    simp only [TextCall.run, TextCall.convert, read, Outcome.ok_bind, TextCall.map, TextCall.perform, logged, Outcome.pure_eq]
  have line := linked.parse_iff level begins logged
  constructor
  · rintro ⟨other, same, parsed⟩
    obtain rfl : text = other := Option.some.inj (Prod.mk.inj (Except.ok.inj (returned.symm.trans same))).2
    obtain ⟨⟨plain, same⟩, names⟩ := line.mp parsed
    exact ⟨same ▸ plain, names⟩
  · rintro ⟨plain, names⟩
    have all : copied.text = message := whole.resolve_right (plain_not_nul plain)
    exact ⟨text, returned, line.mpr ⟨⟨all.symm ▸ plain, all.symm⟩, names⟩⟩

theorem log_line_iff_sample : plainContext.WellLogged .info (asciiOf "sample") := by
  apply (log_line_iff (.created plain_created) .info (asciiOf "sample")).mpr
  refine ⟨plain_printable (by decide +kernel), ?_⟩
  have printable : (plainContext.segmentStore.names.all fun name =>
      name.all fun byte => decide (Unescaped byte ∧ byte < 0x80)) = true := by decide +kernel
  intro name member
  exact plain_printable (List.all_eq_true.mp printable name member)

/-- The message ends at its own quote. -/
theorem log_line_broken : Alive countUp plainContext ∧
    ∃ text, (TextCall.logMessage (StringView.literal (asciiOf "a\"b"))).run plainContext = .ok (plainContext, some text) ∧
      parse (formatPattern .info text logFormat) = none :=
  ⟨.created plain_created, _, rfl, Option.isNone_iff_eq_none.mp (by decide +kernel)⟩

end Cpp2Sky

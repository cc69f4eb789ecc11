import Cpp2Sky.Proofs.HeaderFields
import Cpp2Sky.Proofs.SkipAnalysis

/-! The sw8-x header, from its text to the spans. Two texts are accepted, and which
of them it was is what every span of the segment shows in the end. -/

namespace Cpp2Sky
open Runs

/-- Everything that the parser answers. -/
def extensionOf (ctx : Bytes) : Outcome SpanContextExtensionImpl :=
  if ctx = ascii ['0'] then .ok { tracingMode := .default }
  else if ctx = ascii ['1'] then .ok { tracingMode := .skip }
  else if EndsAfter 1 ctx then .error .outOfBounds
  else if separator ∈ ctx then .error (.exception "Invalid span context format. It must have 1 fields.")
  else .error (.exception "Invalid span context format. tracing mode field must be 0 or 1.")

private theorem splitOn_whole {ctx : Bytes} (absent : separator ∉ ctx) : ctx.splitOn separator = [ctx] := by
  have free : ∀ field ∈ [ctx], separator ∉ field := by
    intro field member
    rw [List.mem_singleton.mp member]
    exact absent
  simpa using List.splitOn_intercalate separator free (List.cons_ne_nil _ _)

private theorem extension_field {ctx : Bytes} (absent : separator ∉ ctx) :
    SpanContextExtensionImpl.new ctx =
      if ctx ≠ ascii ['0'] ∧ ctx ≠ ascii ['1'] then
        .error (.exception "Invalid span context format. tracing mode field must be 0 or 1.")
      else .ok { tracingMode := if ctx = ascii ['1'] then .skip else .default } := by
  have single : ctx.count separator + 1 = expectedExtensionFieldCount := by
    rw [List.count_eq_zero.mpr absent]
    rfl
  rw [SpanContextExtensionImpl.new, fieldsOf_fit single, splitOn_whole absent, Outcome.ok_bind]
  rfl

theorem createSpanContextExtension_eq (ctx : Bytes) : createSpanContextExtension ctx = extensionOf ctx := by
  rw [createSpanContextExtension, extensionOf]
  by_cases absent : separator ∈ ctx
  · have zero : ctx ≠ ascii ['0'] := by
      rintro rfl
      exact absurd absent (by decide)
    have one : ctx ≠ ascii ['1'] := by
      rintro rfl
      exact absurd absent (by decide)
    have full : expectedExtensionFieldCount ≤ ctx.count separator := List.count_pos_iff.mpr absent
    rw [if_neg zero, if_neg one, SpanContextExtensionImpl.new, fieldsOf_over (by decide) full]
    by_cases ends : EndsAfter 1 ctx
    · rw [if_pos ends, if_pos (show EndsAfter expectedExtensionFieldCount ctx from ends)]
      rfl
    · rw [if_neg ends, if_neg (show ¬ EndsAfter expectedExtensionFieldCount ctx from ends), if_pos absent]
      rfl
  · have ends : ¬ EndsAfter 1 ctx := by
      rintro ⟨count, _⟩
      rw [List.count_eq_zero.mpr absent] at count
      cases count
    rw [extension_field absent]
    by_cases zero : ctx = ascii ['0']
    · subst zero
      rfl
    · by_cases one : ctx = ascii ['1']
      · subst one
        rfl
      · rw [if_pos ⟨zero, one⟩, if_neg zero, if_neg one, if_neg ends, if_neg absent]

/-- Neither the context nor a span is told to skip analysis. -/
def ContextCall.silent : ContextCall → Prop
  | .setSkipAnalysis | .span _ .setSkipAnalysis => False
  | _ => True

private theorem accepted_iff {ctx : Bytes} {extension : SpanContextExtensionImpl}
    (read : createSpanContextExtension ctx = .ok extension) :
    (ctx = ascii ['0'] ∨ ctx = ascii ['1']) ∧ (extension.tracingMode = .skip ↔ ctx = ascii ['1']) := by
  rw [createSpanContextExtension_eq, extensionOf] at read
  split at read
  next zero =>
    cases read
    subst zero
    exact ⟨.inl rfl, by decide⟩
  next =>
    split at read
    next one =>
      cases read
      exact ⟨.inr one, iff_of_true rfl one⟩
    next =>
      split at read
      next => cases read
      next => split at read <;> cases read

/-- Whatever the service does with a context made from an sw8-x header, the
header alone says whether its spans are analysed. -/
theorem extension_decides {ρ : Type} {uuid : ρ → Bytes × ρ} {factory rest : TracingContextFactory ρ} {ctx : Bytes}
    {extension : SpanContextExtensionImpl} {spanContext : Option SpanContextImpl} {start context : TracingContextImpl}
    {calls : List ContextCall} (read : createSpanContextExtension ctx = .ok extension)
    (created : (FactoryCall.createOfExtension spanContext (some extension)).run uuid factory = .ok (start, rest))
    (executed : exec TracingContextImpl.step start calls = some context) (silent : ∀ call ∈ calls, call.silent) :
    (ctx = ascii ['0'] ∨ ctx = ascii ['1']) ∧
      context.createSegmentObject.1.spans.length = context.spans.length ∧
      ∀ store ∈ context.createSegmentObject.1.spans, (store.skipAnalysis = true ↔ ctx = ascii ['1']) := by
  obtain ⟨accepted, mode⟩ := accepted_iff read
  have made := factory_made created
  have linked : Linked context := TracingContextImpl.Reached.linked ⟨calls, executed⟩ made.linked
  refine ⟨accepted, linked.size.symm, ?_⟩
  intro store member
  obtain ⟨index, object⟩ := List.getElem?_of_mem member
  have flagged : start.shouldSkipAnalysis = true ↔ ctx = ascii ['1'] := made.skips.trans mode
  have unset : .setSkipAnalysis ∉ calls := fun member => silent _ member
  have untold : .span index .setSkipAnalysis ∉ calls := fun member => silent _ member
  rw [← flagged, ← linked.skips_object object, skips_iff made.linked made.fresh executed]
  simp only [unset, untold, false_and, or_false]

theorem extension_decides_skip :
    ∃ start context rest, (FactoryCall.createOfExtension none (some { tracingMode := .skip })).run countUp plainFactory =
        .ok (start, rest) ∧ exec TracingContextImpl.step start outgoingCalls = some context ∧
      context.createSegmentObject.1.spans.length = 2 ∧
      ∀ store ∈ context.createSegmentObject.1.spans, store.skipAnalysis = true := by
  have read : createSpanContextExtension (ascii ['1']) = .ok { tracingMode := .skip } := by decide
  have silent : ∀ call ∈ outgoingCalls, call.silent := by simp [outgoingCalls, ContextCall.silent]
  have decides := extension_decides read
    (show (FactoryCall.createOfExtension none (some _)).run countUp plainFactory = .ok (_, _) from rfl)
    (show exec TracingContextImpl.step _ outgoingCalls = some _ from rfl) silent
  exact ⟨_, _, _, rfl, rfl, decides.2.1, fun store member => (decides.2.2 store member).mpr rfl⟩

end Cpp2Sky

import Cpp2Sky.Proofs.ContextSteps

/-! The spans of a context as one list. Handles and objects lie in two containers;
under the links a creation appends to that list and an operation replaces one of
its entries. -/

namespace Cpp2Sky
open Runs

def TracingContextImpl.view (context : TracingContextImpl) : List TracingSpanImpl :=
  List.zipWith (fun handle spanStore => { finished := handle.finished, spanStore }) context.spans
    context.segmentStore.spans

namespace Linked
variable {context : TracingContextImpl} (linked : Linked context)
include linked

theorem view_length : context.view.length = context.spans.length := by
  simp [TracingContextImpl.view, linked.size]

theorem view_stores : context.view.map TracingSpanImpl.spanStore = context.segmentStore.spans := by
  refine List.ext_getElem (by simp [TracingContextImpl.view, linked.size]) fun index _ _ => ?_
  simp [TracingContextImpl.view]

theorem view_finished : context.view.map TracingSpanImpl.finished = context.spans.map SpanHandle.finished := by
  refine List.ext_getElem (by simp [TracingContextImpl.view, linked.size]) fun index _ _ => ?_
  simp [TracingContextImpl.view]

theorem readyToSend_eq : context.readyToSend = context.view.all TracingSpanImpl.finished := by
  have same := congrArg (List.all · id) linked.view_finished
  simpa [TracingContextImpl.readyToSend, List.all_map, Function.comp_def] using same.symm

theorem view_eq_nil : context.view = [] ↔ context.spans = [] := by
  rw [← List.length_eq_zero_iff, linked.view_length, List.length_eq_zero_iff]

theorem span_iff {index : Nat} {span : TracingSpanImpl} :
    context.span index = .ok span ↔ context.view[index]? = some span := by
  cases present : context.spans[index]? with
  | none =>
    have outside : context.view[index]? = none := by
      rw [List.getElem?_eq_none_iff] at present ⊢
      rw [linked.view_length]
      exact present
    simp [TracingContextImpl.span, present, outside]
  | some handle =>
    have place := linked.place index handle present
    cases object : context.segmentStore.spans[index]? with
    | none =>
      have inside := (List.getElem?_eq_some_iff.mp present).1
      rw [List.getElem?_eq_none_iff, ← linked.size] at object
      omega
    | some store => simp [TracingContextImpl.span, TracingContextImpl.view, List.getElem?_zipWith, present, place, object]

theorem view_pushBack (span : TracingSpanImpl) : (context.pushBack span).view = context.view ++ [span] := by
  simp [TracingContextImpl.view, TracingContextImpl.pushBack, List.zipWith_append linked.size]

theorem view_setSpan {index : Nat} {span : TracingSpanImpl} (found : context.span index = .ok span)
    (after : TracingSpanImpl) : (context.setSpan index after).view = context.view.set index after := by
  obtain ⟨handle, present, _, _⟩ := span_found found
  have place := linked.place index handle present
  apply List.ext_getElem?
  intro other
  simp only [TracingContextImpl.view, TracingContextImpl.setSpan, present, place, List.getElem?_zipWith,
    List.getElem?_set, List.length_zipWith, ← linked.size, Nat.min_self]
  by_cases same : index = other
  · subst same
    have inside := (List.getElem?_eq_some_iff.mp present).1
    simp [inside]
  · simp [same]

section Changed
variable {index : Nat} {span changed : TracingSpanImpl} {call : SpanCall} (found : context.span index = .ok span)
  (ran : call.run span = .ok changed)
include found ran

theorem span_changed : (context.setSpan index changed).span index = .ok changed := by
  have inside := (List.getElem?_eq_some_iff.mp (linked.span_iff.mp found)).1
  rw [(linked.changed found ran).span_iff, linked.view_setSpan found, List.getElem?_set_self inside]

theorem span_elsewhere {other : Nat} (elsewhere : index ≠ other) {there : TracingSpanImpl} :
    (context.setSpan index changed).span other = .ok there ↔ context.span other = .ok there := by
  rw [(linked.changed found ran).span_iff, linked.view_setSpan found, List.getElem?_set_ne elsewhere, linked.span_iff]

end Changed

end Linked

end Cpp2Sky

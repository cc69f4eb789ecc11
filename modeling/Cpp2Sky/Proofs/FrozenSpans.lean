import Cpp2Sky.Proofs.ContextView
import Cpp2Sky.Proofs.HeaderRoundTrip

/-! What becomes of a span after `endSpan`. Seven of the mutators assert that
their span is not finished; the other six write to it all the same. -/

namespace Cpp2Sky
open Runs

/-- A call through the handle of a finished span trips the assertion or leaves
the span as it is, and no other call changes it. -/
structure KeepsFinished (before : TracingContextImpl) (call : ContextCall) : Prop where
  trips : ∀ index span write stop, before.span index = .ok span → span.finished = true →
    call = .span index write → call.run before = .error stop → stop = .assertion
  kept : ∀ index span after, before.span index = .ok span → span.finished = true →
    call.run before = .ok after → after.span index = .ok span

/-- The call asserts that the span is not finished, or writes what is there already. -/
def SpanCall.Harmless (store : SpanObject) : SpanCall → Prop
  | .startSpan operationName time => store.operationName = operationName ∧ store.startTime = time
  | .setSpanType spanType => store.spanType = spanType
  | .setSpanLayer spanLayer => store.spanLayer = spanLayer
  | .setErrorStatus => store.isError = true
  | .setSkipAnalysis => store.skipAnalysis = true
  | .addSegmentRef _ => False
  | .endSpan _ | .setParentSpanId _ | .setPeer _ | .addTag _ _ | .addLog _ _ _ | .setComponentId _
  | .setOperationName _ => True

def SparesFinished (before : TracingContextImpl) (call : ContextCall) : Prop :=
  ∀ index span write, before.span index = .ok span → span.finished = true → call = .span index write →
    write.Harmless span.spanStore

private theorem harmless_iff_write (store : SpanObject) (call : SpanCall) :
    call.Harmless store ↔ (call.guarded = false → call.write store = store) := by
  cases store
  cases call with
  | startSpan => simp [SpanCall.Harmless, SpanCall.guarded, SpanCall.write, eq_comm, and_comm]
  | _ => simp [SpanCall.Harmless, SpanCall.guarded, SpanCall.write, eq_comm]

theorem harmless_iff {span : TracingSpanImpl} (finished : span.finished = true) (call : SpanCall) :
    call.Harmless span.spanStore ↔ ∀ after, call.run span = .ok after → after = span := by
  rw [harmless_iff_write]
  obtain ⟨_, store⟩ := span
  subst finished
  constructor
  · intro unwritten after ran
    obtain ⟨allowed, rfl⟩ := run_ok ran
    rw [unwritten (by simpa using allowed)]
    rfl
  · intro same allowed
    have ran := run_eq { finished := true, spanStore := store } call
    rw [allowed, Bool.false_and] at ran
    exact congrArg TracingSpanImpl.spanStore (same _ ran)

private theorem ContextStep.keeps {before after : TracingContextImpl} {call : ContextCall}
    (moves : ContextStep before call after) (linked : Linked before) (spares : SparesFinished before call)
    {index : Nat} {span : TracingSpanImpl} (found : before.span index = .ok span) (finished : span.finished = true) :
    after.span index = .ok span := by
  cases moves with
  | entry | exit =>
    have present := linked.span_iff.mp found
    have inside := (List.getElem?_eq_some_iff.mp present).1
    rw [(linked.pushBack rfl).span_iff, linked.view_pushBack, List.getElem?_append_left inside]
    exact present
  | again | skip => exact found
  | @span place write other changed there ran =>
    by_cases same : place = index
    · subst same
      cases there.symm.trans found
      obtain rfl := (harmless_iff finished write).mp (spares place _ write found finished rfl) changed ran
      exact linked.span_changed found ran
    · exact (linked.span_elsewhere there ran same).mpr found

theorem keepsFinished_iff {before : TracingContextImpl} (linked : Linked before) (call : ContextCall) :
    KeepsFinished before call ↔ SparesFinished before call := by
  constructor
  · intro keeps index span write found finished turn
    subst turn
    apply (harmless_iff finished write).mpr
    intro changed ran
    have returned : (ContextCall.span index write).run before = .ok (before.setSpan index changed) := by
      rw [run_span found, ran, Outcome.ok_bind]
    have kept := keeps.kept index span _ found finished returned
    exact Except.ok.inj ((linked.span_changed found ran).symm.trans kept)
  · intro spares
    refine ⟨?_, ?_⟩
    · intro index span write stop found _ turn stopped
      subst turn
      rw [run_span found] at stopped
      rcases Outcome.bind_eq_error.mp stopped with asserted | ⟨changed, _, returned⟩
      · exact run_stop asserted
      · cases returned
    · intro index span after found finished returned
      exact (context_step_cases (run_step.mpr returned)).keeps linked spares found finished

/-- Where no later call writes to a finished span, what was ready to send stays
as it was, and at most further spans come after it. -/
private theorem ready_reported {ready later : TracingContextImpl} {calls : List ContextCall} (linked : Linked ready)
    (spares : Along TracingContextImpl.step SparesFinished ready calls)
    (executed : exec TracingContextImpl.step ready calls = some later) (complete : ready.readyToSend = true) :
    ready.segmentStore.spans <+: later.segmentStore.spans := by
  have finished (index : Nat) (span : TracingSpanImpl) (present : ready.view[index]? = some span) :
      span.finished = true := by
    rw [linked.readyToSend_eq, List.all_eq_true] at complete
    exact complete span (List.mem_of_getElem? present)
  let kept := fun context : TracingContextImpl =>
    Linked context ∧ ∀ index span, ready.view[index]? = some span → context.span index = .ok span
  have preserved : ∀ before call after, kept before → SparesFinished before call →
      before.step call = some after → kept after := by
    intro before call after kept spares executed
    have moves := context_step_cases executed
    refine ⟨moves.linked kept.1, fun index span present => ?_⟩
    exact moves.keeps kept.1 spares (kept.2 index span present) (finished index span present)
  obtain ⟨after, same⟩ := invariant preserved ⟨linked, fun _ _ => linked.span_iff.mpr⟩ spares executed
  rw [← linked.view_stores, ← after.view_stores]
  refine List.IsPrefix.map _ (List.prefix_iff_getElem?.mpr fun index inside => ?_)
  exact after.span_iff.mp (same index _ (List.getElem?_eq_getElem inside))

theorem finished_frozen_iff {ρ : Type} (uuid : ρ → Bytes × ρ) (serviceName instanceName : Bytes)
    (parent : Option SpanContextImpl) (extension : Option SpanContextExtensionImpl) (random : ρ)
    (calls : List ContextCall) :
    (Along TracingContextImpl.step KeepsFinished
        (TracingContextImpl.new uuid serviceName instanceName parent extension random).1 calls ↔
      Along TracingContextImpl.step SparesFinished
        (TracingContextImpl.new uuid serviceName instanceName parent extension random).1 calls) ∧
    (Along TracingContextImpl.step SparesFinished
        (TracingContextImpl.new uuid serviceName instanceName parent extension random).1 calls →
      ∀ first rest ready later, calls = first ++ rest →
        exec TracingContextImpl.step (TracingContextImpl.new uuid serviceName instanceName parent extension random).1
          first = some ready →
        exec TracingContextImpl.step ready rest = some later → ready.readyToSend = true →
        ready.segmentStore.spans <+: later.createSegmentObject.1.spans) := by
  have linked := linked_new uuid serviceName instanceName parent extension random
  refine ⟨along_iff ?_ ?_ linked (Along.trivial _ calls), ?_⟩
  · intro before call linked _
    exact keepsFinished_iff linked call
  · intro before call after linked _ _ executed
    exact (context_step_cases executed).linked linked
  · intro spares first rest ready later split ran executed complete
    subst split
    have reached : Linked ready := TracingContextImpl.Reached.linked ⟨first, ran⟩ linked
    exact ready_reported reached (spares.rest ran) executed complete

def endedCalls : List ContextCall :=
  [.createEntrySpan, .span 0 (.startSpan (ascii ['/', 'a']) 1), .span 0 (.endSpan 2)]

theorem finished_span_changes :
    ∃ ready later, exec TracingContextImpl.step outgoingStart endedCalls = some ready ∧ ready.readyToSend = true ∧
      ready.step (.span 0 (.startSpan (ascii ['/', 'b']) 3)) = some later ∧
      later.segmentStore.spans ≠ ready.segmentStore.spans :=
  ⟨_, _, rfl, rfl, rfl, by decide⟩

end Cpp2Sky

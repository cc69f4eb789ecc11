import Cpp2Sky.Library.Entries
import Cpp2Sky.Proofs.SegmentTree

/-! The order of the calls on a context. Calls through different handles can be
taken apart, so that a segment depends on the creations in their order and on
what was called through each handle, and on nothing else. -/

namespace Cpp2Sky
open Runs

/-- What the creation of a span reads of its context. -/
structure Frame where
  segment : SegmentObject
  parentSpanContext : Option SpanContextImpl
  parentExtSpanContext : Option SpanContextExtensionImpl
  shouldSkipAnalysis : Bool
  size : Nat

def Frame.span (frame : Frame) (parentSpanId : Int32) (spanType : SpanType) (refs : List SegmentReference) : TracingSpanImpl where
  spanStore := {
    spanId := Int32.ofNat frame.size, componentId := 9000, spanLayer := .http, skipAnalysis := frame.shouldSkipAnalysis
    parentSpanId, spanType, refs }

/-- The id of a parent is its place, wherever it is in the same context. -/
def ParentSpan.id (size : Nat) : ParentSpan → Option Int32
  | .own index => if index < size then some (Int32.ofNat index) else none
  | .other parentSpan => some parentSpan.spanStore.spanId

def Frame.make (frame : Frame) : ContextCall → Option (Frame × List TracingSpanImpl)
  | .createEntrySpan =>
    if frame.size = 0 then
      let refs := frame.parentSpanContext.toList.map TracingSpanImpl.segmentReference
      some ({ frame with size := frame.size + 1 }, [frame.span (-1) .entry refs])
    else some (frame, [])
  | .createExitSpan parent =>
    (parent.id frame.size).map fun spanId => ({ frame with size := frame.size + 1 }, [frame.span spanId .exit []])
  | .setSkipAnalysis => some ({ frame with shouldSkipAnalysis := true }, [])
  | .span _ _ => none

def SpanCall.change (span : TracingSpanImpl) (call : SpanCall) : Option TracingSpanImpl := (call.run span).toOption

def ContextCall.entry : ContextCall → Entries.Call ContextCall SpanCall
  | .span index call => .on index call
  | call => .make call

/-- The call is not one through a handle. -/
def ContextCall.creating : ContextCall → Bool
  | .span _ _ => false
  | .createEntrySpan | .createExitSpan _ | .setSkipAnalysis => true

namespace TracingContextImpl

def frame (context : TracingContextImpl) : Frame where
  segment := { context.segmentStore with spans := [] }
  parentSpanContext := context.parentSpanContext
  parentExtSpanContext := context.parentExtSpanContext
  shouldSkipAnalysis := context.shouldSkipAnalysis
  size := context.spans.length

def table (context : TracingContextImpl) : Entries.Table Frame TracingSpanImpl where
  shared := context.frame
  entries := context.view

end TracingContextImpl

private theorem table_pushBack {context : TracingContextImpl} (linked : Linked context) (span : TracingSpanImpl) :
    (context.pushBack span).table =
      { shared := { context.frame with size := context.frame.size + 1 }, entries := context.view ++ [span] } := by
  have size : (context.pushBack span).spans.length = context.spans.length + 1 := List.length_append
  simp only [TracingContextImpl.table, linked.view_pushBack]
  simp only [TracingContextImpl.frame, size]
  rfl

private theorem table_setSpan {context : TracingContextImpl} (linked : Linked context) {index : Nat} {span : TracingSpanImpl}
    (found : context.span index = .ok span) (after : TracingSpanImpl) :
    (context.setSpan index after).table = { context.table with entries := context.table.entries.set index after } := by
  have frame : (context.setSpan index after).frame = context.frame := by
    unfold TracingContextImpl.frame
    rw [setSpan_length, (setSpan_identity context index after).2]
    unfold TracingContextImpl.setSpan
    split <;> rfl
  simp only [TracingContextImpl.table, linked.view_setSpan found, frame]

private theorem read_id {context : TracingContextImpl} (linked : Linked context) (parent : ParentSpan) :
    (parent.read context).toOption.map (fun span => span.spanStore.spanId) = parent.id context.spans.length := by
  cases parent with
  | other => rfl
  | own index =>
    by_cases inside : index < context.spans.length
    · have present := List.getElem?_eq_getElem (linked.view_length ▸ inside)
      have found := linked.span_iff.mpr present
      rw [ParentSpan.read, found, ParentSpan.id, if_pos inside, ← linked.number index _ (linked.object found)]
      rfl
    · have absent : context.span index = .error .outOfBounds := by
        rw [TracingContextImpl.span, List.getElem?_eq_none (by omega)]
      rw [ParentSpan.read, absent, ParentSpan.id, if_neg inside]
      rfl

/-- A call on a context is a call on its table. -/
private theorem table_step {context : TracingContextImpl} (linked : Linked context) (call : ContextCall) :
    (context.step call).map TracingContextImpl.table = Entries.step Frame.make SpanCall.change context.table call.entry := by
  cases call with
  | createEntrySpan =>
    by_cases first : context.spans = []
    · have moved : context.step .createEntrySpan = some (context.pushBack context.entrySpan) := by
        simp only [run_step, ContextCall.run, TracingContextImpl.createEntrySpan_first first, Outcome.ok_bind, Outcome.pure_eq]
      have size : context.frame.size = 0 := congrArg List.length first
      rw [moved, Option.map_some, table_pushBack linked]
      simp only [ContextCall.entry, Entries.step, TracingContextImpl.table, Frame.make, size, ite_true, Option.map_some]
      rfl
    · have moved : context.step .createEntrySpan = some context := by
        simp only [run_step, ContextCall.run, TracingContextImpl.createEntrySpan_again first, Outcome.ok_bind, Outcome.pure_eq]
      have size : ¬ context.frame.size = 0 := fun none => first (List.eq_nil_of_length_eq_zero none)
      rw [moved]
      simp only [ContextCall.entry, Entries.step, TracingContextImpl.table, Frame.make, size, ite_false, Option.map_some,
        List.append_nil]
  | createExitSpan parent =>
    have id := read_id linked parent
    cases read : parent.read context with
    | error stop =>
      rw [read] at id
      have stuck : context.step (.createExitSpan parent) = none := by
        rw [TracingContextImpl.step, ContextCall.run, read]
        rfl
      have none : parent.id context.frame.size = .none := id.symm
      rw [stuck]
      simp only [ContextCall.entry, Entries.step, TracingContextImpl.table, Frame.make, none, Option.map_none]
    | ok parentSpan =>
      rw [read] at id
      have moved : context.step (.createExitSpan parent) =
          some (context.pushBack (context.exitSpan parentSpan.spanStore.spanId)) := by
        simp only [run_step, ContextCall.run, read, Outcome.ok_bind, TracingContextImpl.createExitSpan_eq, Outcome.pure_eq]
      have names : parent.id context.frame.size = some parentSpan.spanStore.spanId := id.symm
      rw [moved, Option.map_some, table_pushBack linked]
      simp only [ContextCall.entry, Entries.step, TracingContextImpl.table, Frame.make, names, Option.map_some]
      rfl
  | span index call =>
    cases present : context.view[index]? with
    | none =>
      have stuck : context.step (.span index call) = none := by
        cases found : context.span index with
        | error stop =>
          rw [TracingContextImpl.step, ContextCall.run, TracingContextImpl.onSpan, found]
          rfl
        | ok span =>
          rw [linked.span_iff.mp found] at present
          cases present
      rw [stuck]
      simp only [ContextCall.entry, Entries.step, TracingContextImpl.table, present, Option.bind_none, Option.map_none]
    | some span =>
      have found := linked.span_iff.mpr present
      simp only [ContextCall.entry, Entries.step, TracingContextImpl.table, present, Option.bind_some]
      rw [TracingContextImpl.step, run_span found, SpanCall.change]
      cases ran : call.run span with
      | error stop => rfl
      | ok after => exact congrArg some (table_setSpan linked found after)
  | setSkipAnalysis =>
    simp only [ContextCall.entry, Entries.step, TracingContextImpl.table, Frame.make, Option.map_some, List.append_nil]
    rfl

private theorem table_run {start : TracingContextImpl} (linked : Linked start) (calls : List ContextCall) :
    (exec TracingContextImpl.step start calls).map TracingContextImpl.table =
      exec (Entries.step Frame.make SpanCall.change) start.table (calls.map ContextCall.entry) := by
  induction calls generalizing start with
  | nil => rfl
  | cons call rest ih =>
    rw [List.map_cons, exec_cons, exec_cons, ← table_step linked]
    cases moved : start.step call with
    | none => rfl
    | some next => exact ih ((context_step_cases moved).linked linked)

private theorem handles_eq {one two : TracingContextImpl} (linked : Linked one) (other : Linked two)
    (view : one.view = two.view) : one.spans = two.spans := by
  have finished : one.spans.map SpanHandle.finished = two.spans.map SpanHandle.finished := by
    rw [← linked.view_finished, view, other.view_finished]
  have size : one.spans.length = two.spans.length := by simpa using congrArg List.length finished
  apply List.ext_getElem size
  intro index inside outside
  have flags : one.spans[index].finished = two.spans[index].finished := by
    have same := congrArg (·[index]?) finished
    simpa [inside, outside] using same
  have first := linked.place index _ (List.getElem?_eq_getElem inside)
  have last := other.place index _ (List.getElem?_eq_getElem outside)
  calc
    one.spans[index] = { finished := one.spans[index].finished, spanStore := one.spans[index].spanStore } := rfl
    _ = { finished := two.spans[index].finished, spanStore := two.spans[index].spanStore } := by rw [flags, first, last]
    _ = two.spans[index] := rfl

/-- A context is its table. -/
private theorem table_inj {one two : TracingContextImpl} (linked : Linked one) (other : Linked two)
    (same : one.table = two.table) : one = two := by
  have view : one.view = two.view := congrArg Entries.Table.entries same
  have frame : one.frame = two.frame := congrArg Entries.Table.shared same
  have handles := handles_eq linked other view
  have objects : one.segmentStore.spans = two.segmentStore.spans := by
    rw [← linked.view_stores, view, other.view_stores]
  have segment : one.segmentStore = two.segmentStore := by
    calc
      one.segmentStore = { one.frame.segment with spans := one.segmentStore.spans } := rfl
      _ = { two.frame.segment with spans := two.segmentStore.spans } := by rw [frame, objects]
      _ = two.segmentStore := rfl
  have parent : one.parentSpanContext = two.parentSpanContext := congrArg Frame.parentSpanContext frame
  have extension : one.parentExtSpanContext = two.parentExtSpanContext := congrArg Frame.parentExtSpanContext frame
  have skips : one.shouldSkipAnalysis = two.shouldSkipAnalysis := congrArg Frame.shouldSkipAnalysis frame
  calc
    one = ⟨one.parentSpanContext, one.parentExtSpanContext, one.spans, one.segmentStore, one.shouldSkipAnalysis⟩ := rfl
    _ = ⟨two.parentSpanContext, two.parentExtSpanContext, two.spans, two.segmentStore, two.shouldSkipAnalysis⟩ := by
      rw [parent, extension, handles, segment, skips]
    _ = two := rfl

/-- First the creations in their order, then the calls through each handle. -/
def sortedCalls (calls : List ContextCall) (size : Nat) : List ContextCall :=
  calls.filter ContextCall.creating ++
    (List.range size).flatMap fun index => (calls.filterMap (ContextCall.through index)).map (.span index)

private theorem entry_making (call : ContextCall) : call.entry.making = call.creating := by
  cases call <;> rfl

private theorem entry_onto (index : Nat) (call : ContextCall) : call.entry.onto index = call.through index := by
  cases call <;> rfl

private theorem onto_calls (index : Nat) (calls : List ContextCall) :
    (calls.map ContextCall.entry).filterMap (Entries.Call.onto index) = calls.filterMap (ContextCall.through index) := by
  rw [List.filterMap_map]
  exact congrArg (calls.filterMap ·) (funext (entry_onto index))

private theorem making_calls (calls : List ContextCall) :
    (calls.map ContextCall.entry).filter Entries.Call.making = (calls.filter ContextCall.creating).map ContextCall.entry := by
  rw [List.filter_map]
  exact congrArg (fun making => (calls.filter making).map ContextCall.entry) (funext entry_making)

private theorem sorted_calls (calls : List ContextCall) (size : Nat) :
    (calls.map ContextCall.entry).filter Entries.Call.making ++ Entries.sorted (calls.map ContextCall.entry) size =
      (sortedCalls calls size).map ContextCall.entry := by
  simp only [sortedCalls, Entries.sorted, making_calls, onto_calls, List.map_append, List.map_flatMap, List.map_map]
  rfl

/-- Every run of calls can be carried out one span after the other, and any two
runs that differ in the order of calls on different spans end alike. -/
theorem interleavings_agree {ρ : Type} {uuid : ρ → Bytes × ρ} {start context : TracingContextImpl}
    {calls : List ContextCall} (alive : Alive uuid start)
    (executed : exec TracingContextImpl.step start calls = some context) :
    exec TracingContextImpl.step start (sortedCalls calls context.spans.length) = some context ∧
      ∀ others other, exec TracingContextImpl.step start others = some other →
        calls.filter ContextCall.creating = others.filter ContextCall.creating →
        (∀ index, calls.filterMap (ContextCall.through index) = others.filterMap (ContextCall.through index)) →
        context = other := by
  have linked := alive.linked
  have kept : Linked context := TracingContextImpl.Reached.linked ⟨calls, executed⟩ linked
  have ran := table_run linked calls
  rw [executed, Option.map_some] at ran
  constructor
  · have sorted := Entries.exec_sorted ran.symm
    have size : context.table.entries.length = context.spans.length := kept.view_length
    rw [size, sorted_calls, ← table_run linked] at sorted
    obtain ⟨last, reached, same⟩ := Option.map_eq_some_iff.mp sorted
    have after : Linked last := TracingContextImpl.Reached.linked ⟨_, reached⟩ linked
    rw [reached, table_inj after kept same]
  · intro others other other_ran creations through
    have last := table_run linked others
    rw [other_ran, Option.map_some] at last
    have after : Linked other := TracingContextImpl.Reached.linked ⟨others, other_ran⟩ linked
    apply table_inj kept after
    apply Entries.exec_agree ran.symm last.symm
    · rw [making_calls, making_calls, creations]
    · intro index
      rw [onto_calls, onto_calls, through index]

/-- The exit span begins and ends inside the calls on the entry span. -/
def crossedCalls : List ContextCall :=
  [.createEntrySpan, .span 0 (.startSpan (ascii ['/', 'a']) 1), .createExitSpan (.own 0), .span 0 (.addTag [] []),
    .span 1 (.startSpan [] 2), .span 0 .setErrorStatus, .span 1 (.endSpan 3), .span 0 (.endSpan 4)]

theorem interleavings_agree_crossed :
    ∃ context, exec TracingContextImpl.step outgoingStart crossedCalls = some context ∧
      exec TracingContextImpl.step outgoingStart (sortedCalls crossedCalls 2) = some context := by
  let factory : TracingContextFactory Nat :=
    { serviceName := ascii ['m', 'e', 's', 'h'], instanceName := [], randomGenerator := 10 }
  have alive : Alive countUp outgoingStart :=
    .created (show FactoryCall.create.run countUp factory = .ok (outgoingStart, _) from rfl)
  have executed : exec TracingContextImpl.step outgoingStart crossedCalls = some _ := rfl
  exact ⟨_, rfl, (interleavings_agree alive executed).1⟩

end Cpp2Sky

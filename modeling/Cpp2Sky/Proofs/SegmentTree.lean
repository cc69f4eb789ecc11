import Mathlib.Data.List.Induction
import Mathlib.Logic.Relation
import Cpp2Sky.Proofs.ContextView
import Cpp2Sky.Proofs.HeaderRoundTrip

/-! A segment is a tree whose root is its entry span, and each of its objects is
what the calls through its own handle have made of it. -/

namespace Cpp2Sky
open Runs

/-- An exit span has its parent in the same context, and no call writes a parent
id or a type. -/
def ContextCall.shaped : ContextCall → Prop
  | .createExitSpan (.other _) | .span _ (.setParentSpanId _) | .span _ (.setSpanType _) => False
  | _ => True

/-- The call of a span that is made through the handle at some place. -/
def ContextCall.through (index : Nat) : ContextCall → Option SpanCall
  | .span other call => if other = index then some call else none
  | .createEntrySpan | .createExitSpan _ | .setSkipAnalysis => none

/-- The object at one place names the object at the other as its parent. -/
def TracingContextImpl.ParentOf (context : TracingContextImpl) (child parent : Nat) : Prop :=
  ∃ store, context.segmentStore.spans[child]? = some store ∧ store.parentSpanId.toInt = parent

structure SegmentTree (context : TracingContextImpl) : Prop where
  size : context.spans.length = context.segmentStore.spans.length
  number : ∀ (index : Nat) (store : SpanObject), context.segmentStore.spans[index]? = some store →
    store.spanId.toInt = index
  root : ∀ store : SpanObject, context.segmentStore.spans[0]? = some store →
    store.parentSpanId = -1 ∧ store.spanType = .entry
  child : ∀ (index : Nat) (store : SpanObject), context.segmentStore.spans[index]? = some store → 0 < index →
    store.spanType = .exit ∧ 0 ≤ store.parentSpanId.toInt ∧ store.parentSpanId.toInt < store.spanId.toInt
  reaches : ∀ index < context.spans.length, Relation.ReflTransGen context.ParentOf index 0
  entry : context.spans ≠ [] → context.createEntrySpan = .ok (context, none)

/-- The span at some place, as its creation returned it and with the calls
through its handle applied in order, is this one. -/
inductive Grown (start : TracingContextImpl) (calls : List ContextCall) (index : Nat) (last : TracingSpanImpl) :
    Prop where
  | intro {before create after made opened first}
      (split : calls = before ++ create :: after)
      (ran : exec TracingContextImpl.step start before = some made) (place : made.spans.length = index)
      (created : made.step create = some opened) (found : opened.span index = .ok first)
      (applied : (calls.filterMap (ContextCall.through index)).foldlM SpanCall.run first = .ok last) :
      Grown start calls index last

/-- A segment with one object for each span, which has grown through the handle
of that span, and otherwise with what the context began with. -/
structure Mirrors (start : TracingContextImpl) (calls : List ContextCall) (context : TracingContextImpl)
    (segment : SegmentObject) : Prop where
  identity : segment.identity = start.segmentStore.identity
  size : segment.spans.length = context.spans.length
  object : ∀ index < context.spans.length, ∃ last, context.span index = .ok last ∧
    segment.spans[index]? = some last.spanStore ∧ Grown start calls index last

section Tree

/-- Parents come before their children: the root first, and an exit span with a
parent at a smaller place. -/
structure Rooted (context : TracingContextImpl) : Prop where
  root : ∀ span : TracingSpanImpl, context.view[0]? = some span →
    span.spanStore.parentSpanId = -1 ∧ span.spanStore.spanType = .entry
  child : ∀ (index : Nat) (span : TracingSpanImpl), context.view[index]? = some span → 0 < index →
    span.spanStore.spanType = .exit ∧ ∃ parent < index, span.spanStore.parentSpanId = Int32.ofNat parent

private theorem write_shape {index : Nat} {call : SpanCall} (shaped : (ContextCall.span index call).shaped)
    (store : SpanObject) :
    (call.write store).parentSpanId = store.parentSpanId ∧ (call.write store).spanType = store.spanType := by
  cases call with
  | setParentSpanId | setSpanType => exact shaped.elim
  | _ => exact ⟨rfl, rfl⟩

private theorem ContextStep.rooted {before after : TracingContextImpl} {call : ContextCall}
    (moves : ContextStep before call after) (shaped : call.shaped) (linked : Linked before) (kept : Rooted before) :
    Rooted after := by
  cases moves with
  | entry first =>
    have empty := linked.view_eq_nil.mpr first
    refine ⟨fun span present => ?_, fun index span present positive => ?_⟩
    · rw [linked.view_pushBack, empty] at present
      cases present
      exact ⟨rfl, rfl⟩
    · rw [linked.view_pushBack, empty] at present
      have inside := (List.getElem?_eq_some_iff.mp present).1
      simp only [List.nil_append, List.length_singleton] at inside
      omega
  | again => exact kept
  | @exit parent parentSpan found =>
    cases parent with
    | other => exact shaped.elim
    | own place =>
      have parent := linked.span_iff.mp found
      have inside := (List.getElem?_eq_some_iff.mp parent).1
      refine ⟨fun span present => ?_, fun index span present positive => ?_⟩
      · rw [linked.view_pushBack, List.getElem?_append_left (by omega)] at present
        exact kept.root span present
      · rw [linked.view_pushBack] at present
        rcases getElem?_last present with old | ⟨last, rfl⟩
        · exact kept.child index span old positive
        · exact ⟨rfl, place, by omega, linked.number place _ (linked.object found)⟩
  | @span index call span changed found ran =>
    have shape := write_shape shaped span.spanStore
    rw [← run_write ran] at shape
    have old := linked.span_iff.mp found
    refine ⟨fun other present => ?_, fun place other present positive => ?_⟩
    · rw [linked.view_setSpan found] at present
      rcases getElem?_replaced present with ⟨rfl, rfl⟩ | ⟨_, elsewhere⟩
      · rw [shape.1, shape.2]
        exact kept.root span old
      · exact kept.root other elsewhere
    · rw [linked.view_setSpan found] at present
      rcases getElem?_replaced present with ⟨rfl, rfl⟩ | ⟨_, elsewhere⟩
      · rw [shape.1, shape.2]
        exact kept.child index span old positive
      · exact kept.child place other elsewhere positive
  | skip => exact ⟨kept.root, kept.child⟩

theorem rooted_run {start context : TracingContextImpl} {calls : List ContextCall} (linked : Linked start)
    (kept : Rooted start) (shaped : ∀ call ∈ calls, call.shaped)
    (executed : exec TracingContextImpl.step start calls = some context) : Rooted context := by
  have preserved : ∀ before call after, Linked before ∧ Rooted before → ContextCall.shaped call →
      TracingContextImpl.step before call = some after → Linked after ∧ Rooted after := by
    intro before call after kept shaped executed
    have moves := context_step_cases executed
    exact ⟨moves.linked kept.1, moves.rooted shaped kept.1 kept.2⟩
  exact (invariant preserved ⟨linked, kept⟩ (Along.of_actions _ shaped) executed).2

/-- Where every number but zero leads to a smaller one, all of them lead to zero. -/
theorem descends {relates : Nat → Nat → Prop} {size : Nat}
    (down : ∀ index < size, 0 < index → ∃ parent < index, relates index parent) :
    ∀ index < size, Relation.ReflTransGen relates index 0 := by
  intro index
  induction index using Nat.strongRecOn with
  | ind index ih =>
    intro inside
    rcases Nat.eq_zero_or_pos index with rfl | positive
    · exact .refl
    · obtain ⟨parent, smaller, related⟩ := down index inside positive
      exact .head related (ih parent smaller (by omega))

private theorem Rooted.tree {context : TracingContextImpl} (kept : Rooted context) (linked : Linked context)
    (few : context.spans.length < 2 ^ 31) : SegmentTree context := by
  have seen {index : Nat} {store : SpanObject} (object : context.segmentStore.spans[index]? = some store) :
      ∃ span, context.view[index]? = some span ∧ span.spanStore = store := by
    rw [← linked.view_stores, List.getElem?_map] at object
    exact Option.map_eq_some_iff.mp object
  have small {index : Nat} (inside : index < context.spans.length) : (Int32.ofNat index).toInt = index :=
    Int32.toInt_ofNat_of_lt (by omega)
  have number (index : Nat) (store : SpanObject) (object : context.segmentStore.spans[index]? = some store) :
      store.spanId.toInt = index := by
    have inside := (List.getElem?_eq_some_iff.mp object).1
    rw [linked.number index store object, small (linked.size ▸ inside)]
  have child (index : Nat) (store : SpanObject) (object : context.segmentStore.spans[index]? = some store)
      (positive : 0 < index) : store.spanType = .exit ∧ ∃ parent < index, store.parentSpanId.toInt = parent := by
    obtain ⟨span, present, rfl⟩ := seen object
    obtain ⟨type, parent, smaller, names⟩ := kept.child index span present positive
    have inside := linked.view_length ▸ (List.getElem?_eq_some_iff.mp present).1
    exact ⟨type, parent, smaller, by rw [names, small (by omega)]⟩
  refine ⟨linked.size, number, ?_, ?_, descends ?_, ?_⟩
  · intro store object
    obtain ⟨span, present, rfl⟩ := seen object
    exact kept.root span present
  · intro index store object positive
    obtain ⟨type, parent, smaller, names⟩ := child index store object positive
    refine ⟨type, ?_, ?_⟩
    · omega
    · rw [number index store object]
      omega
  · intro index inside positive
    rw [linked.size] at inside
    have object := List.getElem?_eq_getElem inside
    obtain ⟨_, parent, smaller, names⟩ := child index _ object positive
    exact ⟨parent, smaller, _, object, names⟩
  · intro opened
    exact TracingContextImpl.createEntrySpan_again opened

end Tree

section Growth
variable {start : TracingContextImpl} {calls : List ContextCall} {index : Nat} {last : TracingSpanImpl}

private theorem Grown.elsewhere (grown : Grown start calls index last) {call : ContextCall}
    (elsewhere : call.through index = none) : Grown start (calls ++ [call]) index last := by
  obtain @⟨before, create, after, made, opened, first, split, ran, place, created, found, applied⟩ := grown
  have longer : calls ++ [call] = before ++ create :: (after ++ [call]) := by simp [split]
  exact ⟨longer, ran, place, created, found, by simpa [List.filterMap_append, elsewhere] using applied⟩

private theorem Grown.called (grown : Grown start calls index last) {call : SpanCall} {changed : TracingSpanImpl}
    (ran : call.run last = .ok changed) : Grown start (calls ++ [.span index call]) index changed := by
  obtain @⟨before, create, after, made, opened, first, split, made_ran, place, created, found, applied⟩ := grown
  have longer : calls ++ [.span index call] = before ++ create :: (after ++ [.span index call]) := by simp [split]
  refine ⟨longer, made_ran, place, created, found, ?_⟩
  simp [List.filterMap_append, ContextCall.through, List.foldlM_append, applied, ran]

/-- Every span has grown from its creation, and a handle was used only after it. -/
private theorem grown_run {context : TracingContextImpl} (linked : Linked start) (fresh : start.spans = [])
    (executed : exec TracingContextImpl.step start calls = some context) :
    (∀ index, context.view.length ≤ index → calls.filterMap (ContextCall.through index) = []) ∧
      ∀ (index : Nat) (last : TracingSpanImpl), context.view[index]? = some last →
        Grown start calls index last := by
  induction calls using List.reverseRecOn generalizing context with
  | nil =>
    cases executed
    refine ⟨fun _ _ => rfl, fun index last present => ?_⟩
    rw [linked.view_eq_nil.mpr fresh] at present
    cases present
  | append_singleton calls call ih =>
    obtain ⟨before, ran, moved⟩ := exec_concat.mp executed
    obtain ⟨unused, grown⟩ := ih ran
    have kept : Linked before := TracingContextImpl.Reached.linked ⟨calls, ran⟩ linked
    have moves := context_step_cases moved
    have created {span : TracingSpanImpl} (same : context.view = before.view ++ [span])
        (elsewhere : ∀ index, call.through index = none) :
        (∀ index, context.view.length ≤ index → (calls ++ [call]).filterMap (ContextCall.through index) = []) ∧
          ∀ (index : Nat) (last : TracingSpanImpl), context.view[index]? = some last →
            Grown start (calls ++ [call]) index last := by
      refine ⟨fun index outside => ?_, fun index last present => ?_⟩
      · rw [same, List.length_append] at outside
        simp [List.filterMap_append, elsewhere index, unused index (by omega)]
      · have found := (moves.linked kept).span_iff.mpr present
        rw [same] at present
        rcases getElem?_last present with old | ⟨place, rfl⟩
        · exact (grown index last old).elsewhere (elsewhere index)
        · refine ⟨rfl, ran, kept.view_length.symm.trans place.symm, moved, found, ?_⟩
          simp [List.filterMap_append, elsewhere index, unused index (Nat.le_of_eq place.symm)]
    cases moves with
    | entry | exit => exact created (kept.view_pushBack _) fun _ => rfl
    | again | skip =>
      refine ⟨fun index outside => ?_, fun index last present => (grown index last present).elsewhere rfl⟩
      simpa [List.filterMap_append, ContextCall.through] using unused index outside
    | @span place call span changed found ran =>
      have old := kept.span_iff.mp found
      have inside := (List.getElem?_eq_some_iff.mp old).1
      rw [kept.view_setSpan found]
      refine ⟨fun index outside => ?_, fun index last present => ?_⟩
      · rw [List.length_set] at outside
        have elsewhere : place ≠ index := by omega
        simpa [List.filterMap_append, ContextCall.through, elsewhere] using unused index outside
      · rcases getElem?_replaced present with ⟨rfl, rfl⟩ | ⟨elsewhere, other⟩
        · exact (grown place span old).called ran
        · exact (grown index last other).elsewhere (if_neg elsewhere)

end Growth

theorem segment_mirrors_spans {ρ : Type} (uuid : ρ → Bytes × ρ) (serviceName instanceName : Bytes)
    (parent : Option SpanContextImpl) (extension : Option SpanContextExtensionImpl) (random : ρ)
    {context : TracingContextImpl} {calls : List ContextCall}
    (executed : exec TracingContextImpl.step
      (TracingContextImpl.new uuid serviceName instanceName parent extension random).1 calls = some context)
    (shaped : ∀ call ∈ calls, call.shaped) (few : context.spans.length < 2 ^ 31) :
    SegmentTree context ∧
      Mirrors (TracingContextImpl.new uuid serviceName instanceName parent extension random).1 calls context
        context.createSegmentObject.1 := by
  have fresh := linked_new uuid serviceName instanceName parent extension random
  have reached : TracingContextImpl.Reached _ context := ⟨calls, executed⟩
  have linked : Linked context := reached.linked fresh
  have rooted := rooted_run fresh ⟨by simp [TracingContextImpl.view, TracingContextImpl.new], by
    simp [TracingContextImpl.view, TracingContextImpl.new]⟩ shaped executed
  refine ⟨rooted.tree linked few, reached.identity.1, linked.size.symm, ?_⟩
  intro index inside
  have present := List.getElem?_eq_getElem (linked.view_length.symm ▸ inside)
  refine ⟨_, linked.span_iff.mpr present, ?_, (grown_run fresh rfl executed).2 index _ present⟩
  show context.segmentStore.spans[index]? = _
  rw [← linked.view_stores, List.getElem?_map, present, Option.map_some]

theorem segment_mirrors_spans_outgoing :
    SegmentTree outgoing ∧ outgoing.createSegmentObject.1.spans.length = 2 ∧
      ∃ last, outgoing.createSegmentObject.1.spans[1]? = some last.spanStore ∧ last.spanStore.parentSpanId = 0 ∧
        Grown outgoingStart outgoingCalls 1 last := by
  have executed : exec TracingContextImpl.step outgoingStart outgoingCalls = some outgoing := rfl
  have shaped : ∀ call ∈ outgoingCalls, call.shaped := by simp [outgoingCalls, ContextCall.shaped]
  obtain ⟨tree, mirrors⟩ := segment_mirrors_spans countUp (ascii ['m', 'e', 's', 'h']) [] none none 10 executed shaped
    (by decide)
  obtain ⟨last, _, object, made⟩ := mirrors.object 1 (by decide)
  obtain ⟨store, found, parent⟩ :
      ∃ store, outgoing.createSegmentObject.1.spans[1]? = some store ∧ store.parentSpanId = 0 := ⟨_, rfl, rfl⟩
  obtain rfl := Option.some.inj (object.symm.trans found)
  exact ⟨tree, rfl, last, object, parent, made⟩

end Cpp2Sky

import Cpp2Sky.TracingContext

/-! Everything a call on a context can do to its spans. A creation adds one span
at the end, an operation replaces one, and nothing else touches the segment. -/

namespace Cpp2Sky
open Runs

/-- A span as `createSpan` makes it. -/
def TracingContextImpl.newSpan (context : TracingContextImpl) : TracingSpanImpl where
  spanStore := {
    spanId := Int32.ofNat context.spans.length, componentId := 9000, spanLayer := .http
    skipAnalysis := context.shouldSkipAnalysis }

def TracingContextImpl.exitSpan (context : TracingContextImpl) (parentSpanId : Int32) : TracingSpanImpl where
  spanStore := { context.newSpan.spanStore with parentSpanId, spanType := .exit }

def TracingContextImpl.entrySpan (context : TracingContextImpl) : TracingSpanImpl where
  spanStore := { context.newSpan.spanStore with
    parentSpanId := -1, spanType := .entry
    refs := context.parentSpanContext.toList.map TracingSpanImpl.segmentReference }

namespace TracingContextImpl

theorem createSpan_eq (context : TracingContextImpl) :
    context.createSpan = (context.pushBack context.newSpan, context.spans.length) := by
  unfold createSpan newSpan
  cases context.shouldSkipAnalysis <;> rfl

/-- An operation on the last span is an operation before it was added. -/
theorem onSpan_pushBack (context : TracingContextImpl) (span : TracingSpanImpl)
    (operation : TracingSpanImpl → Outcome TracingSpanImpl) :
    (context.pushBack span).onSpan context.spans.length operation =
      operation span >>= fun after => .ok (context.pushBack after) := by
  have found : (context.pushBack span).span context.spans.length = .ok span := by
    simp [TracingContextImpl.span, pushBack]
  rw [onSpan, found, Outcome.ok_bind]
  refine congrArg (operation span >>= ·) (funext fun after => ?_)
  simp [setSpan, pushBack]

private theorem newSpan_parent (context : TracingContextImpl) (parentSpanId : Int32) :
    context.newSpan.setParentSpanId parentSpanId =
      .ok { spanStore := { context.newSpan.spanStore with parentSpanId } } := rfl

theorem createExitSpan_eq (context : TracingContextImpl) (parentSpan : TracingSpanImpl) :
    context.createExitSpan parentSpan =
      .ok (context.pushBack (context.exitSpan parentSpan.spanStore.spanId), context.spans.length) := by
  simp only [createExitSpan, createSpan_eq, onSpan_pushBack, newSpan_parent, Outcome.ok_bind]
  rfl

theorem createEntrySpan_first {context : TracingContextImpl} (first : context.spans = []) :
    context.createEntrySpan = .ok (context.pushBack context.entrySpan, some context.spans.length) := by
  have empty : ¬ context.spans ≠ [] := fun some => some first
  simp only [createEntrySpan, empty, ite_false, createSpan_eq, onSpan_pushBack, newSpan_parent, Outcome.ok_bind]
  cases parent : context.parentSpanContext <;> simp only [pushBack, entrySpan, parent] <;> rfl

theorem createEntrySpan_again {context : TracingContextImpl} (opened : context.spans ≠ []) :
    context.createEntrySpan = .ok (context, none) := by
  simp only [createEntrySpan, opened, ne_eq, not_false_eq_true, ite_true, Outcome.pure_eq]

end TracingContextImpl

inductive ContextStep (before : TracingContextImpl) : ContextCall → TracingContextImpl → Prop where
  | entry (first : before.spans = []) : ContextStep before .createEntrySpan (before.pushBack before.entrySpan)
  | again (opened : before.spans ≠ []) : ContextStep before .createEntrySpan before
  | exit {parent parentSpan} (found : parent.read before = .ok parentSpan) :
      ContextStep before (.createExitSpan parent) (before.pushBack (before.exitSpan parentSpan.spanStore.spanId))
  | span {index call span after} (found : before.span index = .ok span) (ran : SpanCall.run span call = .ok after) :
      ContextStep before (.span index call) (before.setSpan index after)
  | skip : ContextStep before .setSkipAnalysis { before with shouldSkipAnalysis := true }

theorem run_step {before after : TracingContextImpl} {call : ContextCall} :
    before.step call = some after ↔ call.run before = .ok after := by
  unfold TracingContextImpl.step
  cases call.run before with
  | error stop => simp [Except.toOption]
  | ok context => simp [Except.toOption]

/-- A call through a handle is one on its span, which is then written back. -/
theorem run_span {context : TracingContextImpl} {index : Nat} {span : TracingSpanImpl}
    (found : context.span index = .ok span) (call : SpanCall) :
    (ContextCall.span index call).run context = call.run span >>= fun after => .ok (context.setSpan index after) := by
  simp only [ContextCall.run, TracingContextImpl.onSpan, found, Outcome.ok_bind, Outcome.pure_eq]

theorem context_step_cases {before after : TracingContextImpl} {call : ContextCall}
    (executed : before.step call = some after) : ContextStep before call after := by
  have returned : call.run before = .ok after := run_step.mp executed
  cases call with
  | createEntrySpan =>
    by_cases first : before.spans = []
    · simp only [ContextCall.run, TracingContextImpl.createEntrySpan_first first, Outcome.ok_bind] at returned
      cases returned
      exact .entry first
    · simp only [ContextCall.run, TracingContextImpl.createEntrySpan_again first, Outcome.ok_bind] at returned
      cases returned
      exact .again first
  | createExitSpan parent =>
    obtain ⟨parentSpan, found, rest⟩ := Outcome.bind_eq_ok.mp returned
    simp only [TracingContextImpl.createExitSpan_eq, Outcome.ok_bind] at rest
    cases rest
    exact .exit found
  | span index call =>
    obtain ⟨span, found, rest⟩ := Outcome.bind_eq_ok.mp returned
    obtain ⟨changed, ran, rest⟩ := Outcome.bind_eq_ok.mp rest
    cases rest
    exact .span found ran
  | setSkipAnalysis => cases returned; exact .skip

/-- What the constructor writes to a segment. -/
def SegmentObject.identity (segment : SegmentObject) : Bytes × Bytes × Bytes × Bytes :=
  (segment.traceId, segment.traceSegmentId, segment.service, segment.serviceInstance)

/-- The i-th handle refers to the i-th object of the segment, which has span id i. -/
structure Linked (context : TracingContextImpl) : Prop where
  size : context.spans.length = context.segmentStore.spans.length
  place : ∀ (index : Nat) (handle : SpanHandle), context.spans[index]? = some handle → handle.spanStore = index
  number : ∀ (index : Nat) (store : SpanObject), context.segmentStore.spans[index]? = some store → store.spanId = Int32.ofNat index

theorem span_found {context : TracingContextImpl} {index : Nat} {span : TracingSpanImpl}
    (found : context.span index = .ok span) :
    ∃ handle, context.spans[index]? = some handle ∧ handle.finished = span.finished ∧
      context.segmentStore.spans[handle.spanStore]? = some span.spanStore := by
  unfold TracingContextImpl.span at found
  split at found
  next => cases found
  next handle present =>
    split at found
    next => cases found
    next store object =>
      cases found
      exact ⟨handle, present, rfl, object⟩

/-- What a call that returns has written. -/
def SpanCall.write (store : SpanObject) : SpanCall → SpanObject
  | .startSpan operationName time => { store with operationName, startTime := time }
  | .endSpan time => { store with endTime := time }
  | .setParentSpanId parentSpanId => { store with parentSpanId }
  | .setPeer peer => { store with peer }
  | .setSpanType spanType => { store with spanType }
  | .setSpanLayer spanLayer => { store with spanLayer }
  | .setErrorStatus => { store with isError := true }
  | .setSkipAnalysis => { store with skipAnalysis := true }
  | .addTag key value => { store with tags := store.tags ++ [{ key, value }] }
  | .addLog key value time => { store with logs := store.logs ++ [{ time, data := [{ key, value }] }] }
  | .setComponentId componentId => { store with componentId }
  | .setOperationName operationName => { store with operationName }
  | .addSegmentRef spanContext => { store with refs := store.refs ++ [TracingSpanImpl.segmentReference spanContext] }

/-- The calls that assert that their span is not finished. -/
def SpanCall.guarded : SpanCall → Bool
  | .endSpan _ | .setParentSpanId _ | .setPeer _ | .addTag _ _ | .addLog _ _ _ | .setComponentId _
  | .setOperationName _ => true
  | .startSpan _ _ | .setSpanType _ | .setSpanLayer _ | .setErrorStatus | .setSkipAnalysis | .addSegmentRef _ => false

def SpanCall.finishes : SpanCall → Bool
  | .endSpan _ => true
  | _ => false

theorem run_eq (span : TracingSpanImpl) (call : SpanCall) :
    call.run span =
      if call.guarded && span.finished then .error .assertion
      else .ok { finished := span.finished || call.finishes, spanStore := call.write span.spanStore } := by
  obtain ⟨finished, store⟩ := span
  cases finished <;> cases call <;> rfl

theorem run_ok {before after : TracingSpanImpl} {call : SpanCall} (ran : call.run before = .ok after) :
    (call.guarded && before.finished) = false ∧
      after = { finished := before.finished || call.finishes, spanStore := call.write before.spanStore } := by
  rw [run_eq] at ran
  split at ran
  next => cases ran
  next allowed =>
    cases ran
    exact ⟨Bool.eq_false_iff.mpr allowed, rfl⟩

theorem run_write {before after : TracingSpanImpl} {call : SpanCall} (ran : call.run before = .ok after) :
    after.spanStore = call.write before.spanStore := by
  rw [(run_ok ran).2]

theorem run_stop {span : TracingSpanImpl} {call : SpanCall} {stop : Stop} (stopped : call.run span = .error stop) :
    stop = .assertion := by
  rw [run_eq] at stopped
  split at stopped <;> cases stopped
  rfl

@[simp] theorem write_spanId (store : SpanObject) (call : SpanCall) : (call.write store).spanId = store.spanId := by
  cases call <;> rfl

theorem getElem?_last {α : Type} {list : List α} {last found : α} {index : Nat}
    (present : (list ++ [last])[index]? = some found) :
    list[index]? = some found ∨ index = list.length ∧ found = last := by
  by_cases inside : index < list.length
  · rw [List.getElem?_append_left inside] at present
    exact .inl present
  · have only := List.getElem?_append_right (Nat.le_of_not_lt inside) ▸ present
    have first : index - list.length = 0 := by
      have bound := (List.getElem?_eq_some_iff.mp only).1
      simpa using bound
    rw [first] at only
    exact .inr ⟨by omega, (Option.some.inj only).symm⟩

theorem getElem?_replaced {α : Type} {list : List α} {index other : Nat} {new found : α}
    (present : (list.set index new)[other]? = some found) :
    index = other ∧ found = new ∨ index ≠ other ∧ list[other]? = some found := by
  by_cases same : index = other
  · subst same
    have inside := (List.getElem?_eq_some_iff.mp present).1
    rw [List.length_set] at inside
    rw [List.getElem?_set_self inside] at present
    exact .inl ⟨rfl, (Option.some.inj present).symm⟩
  · rw [List.getElem?_set_ne same] at present
    exact .inr ⟨same, present⟩

namespace Linked
variable {context : TracingContextImpl} (linked : Linked context)
include linked

theorem ids : context.segmentStore.spans.map SpanObject.spanId =
    (List.range context.spans.length).map Int32.ofNat := by
  rw [linked.size]
  refine List.ext_getElem (by simp) fun index inside _ => ?_
  simpa using linked.number index _ (List.getElem?_eq_getElem (by simpa using inside))

theorem object {index : Nat} {span : TracingSpanImpl} (found : context.span index = .ok span) :
    context.segmentStore.spans[index]? = some span.spanStore := by
  obtain ⟨handle, present, _, object⟩ := span_found found
  rwa [linked.place index handle present] at object

theorem pushBack {span : TracingSpanImpl} (number : span.spanStore.spanId = Int32.ofNat context.spans.length) :
    Linked (context.pushBack span) := by
  refine ⟨by simp [TracingContextImpl.pushBack, linked.size], ?_, ?_⟩
  · intro index handle present
    rcases getElem?_last present with old | ⟨last, rfl⟩
    · exact linked.place index handle old
    · exact linked.size.symm.trans last.symm
  · intro index store present
    rcases getElem?_last present with old | ⟨last, rfl⟩
    · exact linked.number index store old
    · rw [number, last, linked.size]

/-- Under the links an operation replaces the object of its own handle. -/
theorem setSpan_spans {index : Nat} {span : TracingSpanImpl} (found : context.span index = .ok span)
    (after : TracingSpanImpl) :
    (context.setSpan index after).segmentStore.spans = context.segmentStore.spans.set index after.spanStore := by
  obtain ⟨handle, present, _, _⟩ := span_found found
  simp only [TracingContextImpl.setSpan, present, linked.place index handle present]

theorem setSpan {index : Nat} {span after : TracingSpanImpl} (found : context.span index = .ok span)
    (number : after.spanStore.spanId = span.spanStore.spanId) : Linked (context.setSpan index after) := by
  have object := linked.object found
  have spans := linked.setSpan_spans found after
  obtain ⟨handle, present, _, _⟩ := span_found found
  have handles : (context.setSpan index after).spans = context.spans.set index { handle with finished := after.finished } := by
    simp only [TracingContextImpl.setSpan, present]
  refine ⟨by simp [handles, spans, linked.size], ?_, ?_⟩
  · intro other moved there
    rw [handles] at there
    rcases getElem?_replaced there with ⟨rfl, rfl⟩ | ⟨_, old⟩
    · exact linked.place index handle present
    · exact linked.place other moved old
  · intro other store there
    rw [spans] at there
    rcases getElem?_replaced there with ⟨rfl, rfl⟩ | ⟨_, old⟩
    · exact number.trans (linked.number index _ object)
    · exact linked.number other store old

theorem changed {index : Nat} {span after : TracingSpanImpl} {call : SpanCall} (found : context.span index = .ok span)
    (ran : call.run span = .ok after) : Linked (context.setSpan index after) :=
  linked.setSpan found (by rw [run_write ran, write_spanId])

end Linked

theorem setSpan_identity (context : TracingContextImpl) (index : Nat) (span : TracingSpanImpl) :
    (context.setSpan index span).segmentStore.identity = context.segmentStore.identity ∧
      (context.setSpan index span).parentSpanContext = context.parentSpanContext := by
  unfold TracingContextImpl.setSpan
  split <;> exact ⟨rfl, rfl⟩

theorem ContextStep.linked {before after : TracingContextImpl} {call : ContextCall} (moves : ContextStep before call after)
    (linked : Linked before) : Linked after := by
  cases moves with
  | entry | exit => exact linked.pushBack rfl
  | again => exact linked
  | span found ran => exact linked.changed found ran
  | skip => exact ⟨linked.size, linked.place, linked.number⟩

theorem ContextStep.identity {before after : TracingContextImpl} {call : ContextCall} (moves : ContextStep before call after) :
    after.segmentStore.identity = before.segmentStore.identity ∧ after.parentSpanContext = before.parentSpanContext := by
  cases moves with
  | span found ran => exact setSpan_identity _ _ _
  | _ => exact ⟨rfl, rfl⟩

/-- The kinds of the spans that were created, with those of one more call. -/
def ContextCall.creates (kinds : List SpanType) : ContextCall → List SpanType
  | .createEntrySpan => if kinds = [] then [.entry] else kinds
  | .createExitSpan _ => kinds ++ [.exit]
  | .span _ _ | .setSkipAnalysis => kinds

theorem setSpan_length (context : TracingContextImpl) (index : Nat) (span : TracingSpanImpl) :
    (context.setSpan index span).spans.length = context.spans.length := by
  unfold TracingContextImpl.setSpan
  split
  · rfl
  · exact List.length_set

theorem spans_eq_nil {context : TracingContextImpl} {kinds : List SpanType}
    (count : context.spans.length = kinds.length) : context.spans = [] ↔ kinds = [] := by
  rw [← List.length_eq_zero_iff, count, List.length_eq_zero_iff]

theorem ContextStep.created {before after : TracingContextImpl} {call : ContextCall} {kinds : List SpanType}
    (moves : ContextStep before call after) (count : before.spans.length = kinds.length) :
    after.spans.length = (call.creates kinds).length := by
  cases moves with
  | entry first => simp [ContextCall.creates, TracingContextImpl.pushBack, first, (spans_eq_nil count).mp first]
  | again opened => simpa [ContextCall.creates, mt (spans_eq_nil count).mpr opened] using count
  | exit => simp [ContextCall.creates, TracingContextImpl.pushBack, count]
  | span found ran => exact (setSpan_length _ _ _).trans count
  | skip => exact count

theorem created_run {start context : TracingContextImpl} {calls : List ContextCall} {kinds : List SpanType}
    (count : start.spans.length = kinds.length) (executed : exec TracingContextImpl.step start calls = some context) :
    context.spans.length = (calls.foldl ContextCall.creates kinds).length := by
  induction calls generalizing start kinds with
  | nil => exact Option.some.inj executed ▸ count
  | cons call rest ih =>
    obtain ⟨next, moved, remaining⟩ := exec_cons_some executed
    exact ih ((context_step_cases moved).created count) remaining

def TracingContextImpl.Reached (start context : TracingContextImpl) : Prop := Reachable TracingContextImpl.step start context

theorem linked_empty {context : TracingContextImpl} (spans : context.spans = []) (objects : context.segmentStore.spans = []) :
    Linked context := by
  refine ⟨by rw [spans, objects]; rfl, ?_, ?_⟩
  · intro index handle present
    rw [spans] at present
    cases present
  · intro index store present
    rw [objects] at present
    cases present

theorem linked_new {ρ : Type} (uuid : ρ → Bytes × ρ) (serviceName instanceName : Bytes) (parent : Option SpanContextImpl)
    (extension : Option SpanContextExtensionImpl) (random : ρ) :
    Linked (TracingContextImpl.new uuid serviceName instanceName parent extension random).1 := linked_empty rfl rfl

/-- The extension header said Skip. -/
def FactoryCall.skips : FactoryCall → Prop
  | .createOfExtension _ (some extension) => extension.tracingMode = .skip
  | .createOfExtension _ none | .create | .createOfContext _ => False

/-- What the factory returns. -/
structure Made (call : FactoryCall) (context : TracingContextImpl) : Prop where
  linked : Linked context
  fresh : context.spans = []
  skips : context.shouldSkipAnalysis = true ↔ call.skips

theorem factory_made {ρ : Type} {uuid : ρ → Bytes × ρ} {factory rest : TracingContextFactory ρ} {call : FactoryCall}
    {context : TracingContextImpl} (created : call.run uuid factory = .ok (context, rest)) : Made call context := by
  cases call with
  | create | createOfContext =>
    cases created
    exact ⟨linked_new .., rfl, Bool.false_eq_true.to_iff⟩
  | createOfExtension spanContext extSpanContext =>
    cases extSpanContext with
    | none => cases created
    | some extension =>
      cases mode : extension.tracingMode <;>
        simp only [FactoryCall.run, TracingContextFactory.createOfExtension, mode, reduceCtorEq, ite_true, ite_false] at created
      · cases created
        exact ⟨linked_empty rfl rfl, rfl, by simp [FactoryCall.skips, mode, TracingContextImpl.new]⟩
      · cases created
        exact ⟨linked_empty rfl rfl, rfl, by simp [FactoryCall.skips, mode, TracingContextImpl.setSkipAnalysis]⟩

theorem TracingContextImpl.Reached.linked {start context : TracingContextImpl} (reached : start.Reached context) (linked : Linked start) :
    Linked context :=
  Reachable.induct reached linked fun _ _ _ _ kept executed => (context_step_cases executed).linked kept

theorem TracingContextImpl.Reached.identity {start context : TracingContextImpl} (reached : start.Reached context) :
    context.segmentStore.identity = start.segmentStore.identity ∧ context.parentSpanContext = start.parentSpanContext := by
  refine Reachable.induct reached ⟨rfl, rfl⟩ fun _ _ _ _ kept executed => ?_
  obtain ⟨identity, parent⟩ := (context_step_cases executed).identity
  exact ⟨identity.trans kept.1, parent.trans kept.2⟩

/-- The states that a program brings a context to, also after its segment was moved out. -/
inductive Alive {ρ : Type} (uuid : ρ → Bytes × ρ) : TracingContextImpl → Prop where
  | created {factory rest : TracingContextFactory ρ} {call : FactoryCall} {context : TracingContextImpl}
      (made : call.run uuid factory = .ok (context, rest)) : Alive uuid context
  | called {context next : TracingContextImpl} {call : ContextCall} (alive : Alive uuid context)
      (moved : context.step call = some next) : Alive uuid next
  | reported {context : TracingContextImpl} (alive : Alive uuid context) : Alive uuid context.createSegmentObject.2

theorem Alive.linked {ρ : Type} {uuid : ρ → Bytes × ρ} {context : TracingContextImpl} (alive : Alive uuid context) :
    Linked context := by
  induction alive with
  | created made => exact (factory_made made).linked
  | called _ moved ih => exact (context_step_cases moved).linked ih
  | reported => exact linked_empty rfl rfl

theorem Alive.reached {ρ : Type} {uuid : ρ → Bytes × ρ} {start context : TracingContextImpl} (alive : Alive uuid start)
    (reached : start.Reached context) : Alive uuid context :=
  Reachable.induct reached alive fun _ _ _ _ kept moved => .called kept moved

end Cpp2Sky

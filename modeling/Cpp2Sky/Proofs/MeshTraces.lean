import Mathlib.Data.List.Nodup
import Cpp2Sky.Library.Descent
import Cpp2Sky.Mesh
import Cpp2Sky.Proofs.ReportOnce
import Cpp2Sky.Proofs.SegmentTree

/-! The spans of all services as the collector puts them together. Every
reference is to a span that exists, and every span comes down by parent ids and
references to the first span of the context that began its trace. -/

namespace Cpp2Sky
open Runs Relation

/-- The context has not been reported. -/
def Mesh.live (mesh : Mesh) (place : Nat) : Bool := mesh.nodes[place]?.all fun node => node.collected.isNone

/-- A context is not used after its report, and its calls leave parent ids,
types and references to the creation of spans. -/
def Orderly {ρ : Type} (mesh : Mesh) : MeshCall ρ → Prop
  | .create _ _ _ _ => True
  | .context place call => mesh.live place ∧ call.plain ∧ call.shaped
  | .createSW8HeaderValue place _ =>
    mesh.live place ∧ mesh.nodes[place]?.all fun node => node.context.spans.length < 2 ^ 31
  | .report place _ => mesh.live place

instance : (call : ContextCall) → Decidable (call.plain ∧ call.shaped)
  | .createEntrySpan | .setSkipAnalysis | .createExitSpan (.own _) => .isTrue ⟨True.intro, True.intro⟩
  | .createExitSpan (.other _) => .isFalse And.right
  | .span _ call => match call with
    | .addSegmentRef _ | .setParentSpanId _ => .isFalse And.left
    | .setSpanType _ => .isFalse And.right
    | .startSpan _ _ | .endSpan _ | .setPeer _ | .setSpanLayer _ | .setErrorStatus | .setSkipAnalysis | .addTag _ _
    | .addLog _ _ _ | .setComponentId _ | .setOperationName _ => .isTrue ⟨True.intro, True.intro⟩

instance {ρ : Type} (mesh : Mesh) : (call : MeshCall ρ) → Decidable (Orderly mesh call)
  | .create _ _ _ _ => .isTrue True.intro
  | .context _ _ | .createSW8HeaderValue _ _ => inferInstanceAs (Decidable (_ ∧ _))
  | .report _ _ => inferInstanceAs (Decidable (_ = true))

private theorem Mesh.live.uncollected {mesh : Mesh} {place : Nat} {node : Node} (live : mesh.live place = true)
    (found : mesh.nodes[place]? = some node) : node.collected = none := by
  rw [Mesh.live, found, Option.all_some] at live
  exact Option.isNone_iff_eq_none.mp live

/-- The spans of a segment: an entry span with the references, and exit spans
below it without any. -/
structure Woven (references : List SegmentReference) (spans : List SpanObject) : Prop where
  number : ∀ (index : Nat) (store : SpanObject), spans[index]? = some store → store.spanId = Int32.ofNat index
  first : ∀ store : SpanObject, spans[0]? = some store → store.parentSpanId = -1 ∧ store.refs = references
  child : ∀ (index : Nat) (store : SpanObject), spans[index]? = some store → 0 < index →
    store.refs = [] ∧ ∃ parent < index, store.parentSpanId = Int32.ofNat parent

private theorem write_kept {index : Nat} {call : SpanCall} (plain : (ContextCall.span index call).plain)
    (shaped : (ContextCall.span index call).shaped) (store : SpanObject) :
    (call.write store).spanId = store.spanId ∧ (call.write store).parentSpanId = store.parentSpanId ∧
      (call.write store).refs = store.refs := by
  cases call with
  | setParentSpanId => exact shaped.elim
  | addSegmentRef => exact plain.elim
  | _ => exact ⟨rfl, rfl, rfl⟩

private theorem Woven.replaced {references : List SegmentReference} {spans : List SpanObject} {index : Nat}
    {old new : SpanObject} (kept : Woven references spans) (found : spans[index]? = some old)
    (same : new.spanId = old.spanId ∧ new.parentSpanId = old.parentSpanId ∧ new.refs = old.refs) :
    Woven references (spans.set index new) := by
  obtain ⟨number, parent, refs⟩ := same
  refine ⟨?_, ?_, ?_⟩
  · intro place store present
    rcases getElem?_replaced present with ⟨rfl, rfl⟩ | ⟨_, elsewhere⟩
    · exact number.trans (kept.number index old found)
    · exact kept.number place store elsewhere
  · intro store present
    rcases getElem?_replaced present with ⟨rfl, rfl⟩ | ⟨_, elsewhere⟩
    · rw [parent, refs]
      exact kept.first old found
    · exact kept.first store elsewhere
  · intro place store present positive
    rcases getElem?_replaced present with ⟨rfl, rfl⟩ | ⟨_, elsewhere⟩
    · rw [parent, refs]
      exact kept.child index old found positive
    · exact kept.child place store elsewhere positive

private theorem Woven.opened (references : List SegmentReference) {store : SpanObject} (number : store.spanId = 0)
    (top : store.parentSpanId = -1) (refs : store.refs = references) : Woven references [store] := by
  refine ⟨?_, ?_, ?_⟩
  · intro index found present
    obtain ⟨inside, rfl⟩ := List.getElem?_eq_some_iff.mp present
    obtain rfl : index = 0 := by simpa using inside
    exact number
  · intro found present
    cases present
    exact ⟨top, refs⟩
  · intro index found present positive
    have inside := (List.getElem?_eq_some_iff.mp present).1
    rw [List.length_singleton] at inside
    omega

private theorem Woven.extended {references : List SegmentReference} {spans : List SpanObject} {store : SpanObject}
    {parent : Nat} (kept : Woven references spans) (number : store.spanId = Int32.ofNat spans.length)
    (inside : parent < spans.length) (names : store.parentSpanId = Int32.ofNat parent) (refs : store.refs = []) :
    Woven references (spans ++ [store]) := by
  refine ⟨?_, ?_, ?_⟩
  · intro index found present
    rcases getElem?_last present with old | ⟨rfl, rfl⟩
    · exact kept.number index found old
    · exact number
  · intro found present
    rw [List.getElem?_append_left (by omega)] at present
    exact kept.first found present
  · intro index found present positive
    rcases getElem?_last present with old | ⟨rfl, rfl⟩
    · exact kept.child index found old positive
    · exact ⟨refs, parent, inside, names⟩

/-- What a context is created from. -/
def TracingContextImpl.references (context : TracingContextImpl) : List SegmentReference :=
  context.parentSpanContext.toList.map TracingSpanImpl.segmentReference

private theorem ContextStep.woven {before after : TracingContextImpl} {call : ContextCall}
    (moves : ContextStep before call after) (plain : call.plain) (shaped : call.shaped) (linked : Linked before)
    (kept : Woven before.references before.segmentStore.spans) : Woven after.references after.segmentStore.spans := by
  have references : after.references = before.references := by
    rw [TracingContextImpl.references, moves.identity.2]
    rfl
  rw [references]
  cases moves with
  | entry first =>
    have empty : before.segmentStore.spans = [] := List.eq_nil_of_length_eq_zero (by rw [← linked.size, first]; rfl)
    simp only [TracingContextImpl.pushBack, empty, List.nil_append]
    refine Woven.opened _ ?_ rfl rfl
    simp [TracingContextImpl.entrySpan, TracingContextImpl.newSpan, first]
  | again | skip => exact kept
  | @exit parent parentSpan found =>
    cases parent with
    | other => exact shaped.elim
    | own place =>
      have object := linked.object found
      have number : (before.exitSpan parentSpan.spanStore.spanId).spanStore.spanId =
          Int32.ofNat before.segmentStore.spans.length := congrArg Int32.ofNat linked.size
      exact kept.extended number (List.getElem?_eq_some_iff.mp object).1 (linked.number place _ object) rfl
  | span found ran =>
    rw [linked.setSpan_spans found, run_write ran]
    exact kept.replaced (linked.object found) (write_kept plain shaped _)

section Steps
variable {ρ : Type} {uuid : ρ → Bytes × ρ} {simpleAtoi : Bytes → Option Int32} {before after mesh : Mesh}

inductive MeshStep (uuid : ρ → Bytes × ρ) (simpleAtoi : Bytes → Option Int32) (before : Mesh) : MeshCall ρ → Mesh → Prop where
  | begun {serviceName instanceName random} :
      MeshStep uuid simpleAtoi before (.create serviceName instanceName none random) { before with
        nodes := before.nodes ++
          [{ header := none, context := (TracingContextImpl.new uuid serviceName instanceName none none random).1 }] }
  | joined {serviceName instanceName header random parent} (received : before.receive simpleAtoi header = some parent) :
      MeshStep uuid simpleAtoi before (.create serviceName instanceName (some header) random) { before with
        nodes := before.nodes ++ [{
          header := some header
          context := (TracingContextImpl.new uuid serviceName instanceName (some parent) none random).1 }] }
  | called {place call node context} (found : before.nodes[place]? = some node) (moved : node.context.step call = some context) :
      MeshStep uuid simpleAtoi before (.context place call) { before with
        nodes := before.nodes.set place { node with context } }
  | sent {place targetAddress node text} (found : before.nodes[place]? = some node)
      (returned : node.context.createSW8HeaderValue targetAddress = .ok (some text)) :
      MeshStep uuid simpleAtoi before (.createSW8HeaderValue place targetAddress) { before with
        headers := before.headers ++ [{ text, node := place }] }
  | reported {place ignoreMatcher node} (found : before.nodes[place]? = some node) :
      MeshStep uuid simpleAtoi before (.report place ignoreMatcher) { before with
        nodes := before.nodes.set place { node with
          context := node.context.createSegmentObject.2, collected := some node.context.segmentStore } }
  | unchanged {call} : MeshStep uuid simpleAtoi before call before

theorem mesh_step_cases {call : MeshCall ρ} (executed : before.step uuid simpleAtoi call = some after) :
    MeshStep uuid simpleAtoi before call after := by
  cases call with
  | create serviceName instanceName header random =>
    cases header with
    | none => cases executed; exact .begun
    | some header =>
      obtain ⟨parent, received, rest⟩ := Option.bind_eq_some_iff.mp executed
      cases rest
      exact .joined received
  | context place call =>
    obtain ⟨node, found, rest⟩ := Option.bind_eq_some_iff.mp executed
    obtain ⟨context, moved, rest⟩ := Option.bind_eq_some_iff.mp rest
    cases rest
    exact .called found moved
  | createSW8HeaderValue place targetAddress =>
    obtain ⟨node, found, rest⟩ := Option.bind_eq_some_iff.mp executed
    obtain ⟨header, returned, rest⟩ := Option.bind_eq_some_iff.mp rest
    cases answer : node.context.createSW8HeaderValue targetAddress with
    | error stop => rw [answer] at returned; cases returned
    | ok made =>
      obtain rfl : made = header := by
        rw [answer] at returned
        exact Option.some.inj returned
      cases made with
      | none =>
        cases rest
        simpa using MeshStep.unchanged
      | some text => cases rest; exact .sent found answer
  | report place ignoreMatcher =>
    obtain ⟨node, found, rest⟩ := Option.bind_eq_some_iff.mp executed
    obtain ⟨⟨result, sent⟩, returned, rest⟩ := Option.bind_eq_some_iff.mp rest
    cases answer : TracerImpl.report ignoreMatcher (some node.context) with
    | error stop => rw [answer] at returned; cases returned
    | ok pair =>
      obtain rfl : pair = (result, sent) := by
        rw [answer] at returned
        exact Option.some.inj returned
      rcases report_cases answer with ⟨_, _, rfl⟩ | ⟨_, _, rfl⟩
      · cases rest; exact .unchanged
      · cases rest; exact .reported found

/-- A span of an earlier context is what the parent names. -/
def Mesh.Resolves (mesh : Mesh) (bound : Nat) (parent : SpanContextImpl) : Prop :=
  ∃ place < bound, ∃ node, mesh.nodes[place]? = some node ∧
    node.segment.identity = (parent.traceId, parent.traceSegmentId, parent.service, parent.serviceInstance) ∧
      ∃ index < node.segment.spans.length, parent.spanId = Int32.ofNat index

structure Mesh.Whole (simpleAtoi : Bytes → Option Int32) (mesh : Mesh) : Prop where
  linked : ∀ (place : Nat) (node : Node), mesh.nodes[place]? = some node → node.collected = none → Linked node.context
  woven : ∀ (place : Nat) (node : Node), mesh.nodes[place]? = some node →
    Woven node.context.references node.segment.spans
  root : ∀ (place : Nat) (node : Node), mesh.nodes[place]? = some node → node.header = none →
    node.context.parentSpanContext = none
  joined : ∀ (place : Nat) (node : Node) (header : Nat), mesh.nodes[place]? = some node → node.header = some header →
    ∃ parent, node.context.parentSpanContext = some parent ∧ mesh.receive simpleAtoi header = some parent ∧
      mesh.Resolves place parent ∧ node.segment.traceId = parent.traceId
  headers : ∀ (header : Nat) (parent : SpanContextImpl), mesh.receive simpleAtoi header = some parent →
    mesh.Resolves mesh.nodes.length parent

/-- No context is forgotten, and segments only grow. -/
structure Mesh.Extends (before after : Mesh) : Prop where
  nodes : ∀ (place : Nat) (node : Node), before.nodes[place]? = some node → ∃ later, after.nodes[place]? = some later ∧
    later.segment.identity = node.segment.identity ∧ node.segment.spans.length ≤ later.segment.spans.length
  length : before.nodes.length ≤ after.nodes.length
  headers : before.headers <+: after.headers

theorem Mesh.Resolves.later {bound later : Nat} {parent : SpanContextImpl} (resolves : before.Resolves bound parent)
    (grows : before.Extends after) (more : bound ≤ later) : after.Resolves later parent := by
  obtain ⟨place, inside, node, found, identity, index, there, names⟩ := resolves
  obtain ⟨grown, present, same, longer⟩ := grows.nodes place node found
  exact ⟨place, by omega, grown, present, same.trans identity, index, by omega, names⟩

private theorem receive_later {header : Nat} {parent : SpanContextImpl} (received : before.receive simpleAtoi header = some parent)
    (headers : before.headers <+: after.headers) : after.receive simpleAtoi header = some parent := by
  obtain ⟨sent, found, read⟩ := Option.bind_eq_some_iff.mp received
  obtain ⟨more, same⟩ := headers
  apply Option.bind_eq_some_iff.mpr
  refine ⟨sent, ?_, read⟩
  rw [← same, List.getElem?_append_left (List.getElem?_eq_some_iff.mp found).1]
  exact found

private theorem ContextStep.longer {before after : TracingContextImpl} {call : ContextCall}
    (moves : ContextStep before call after) (linked : Linked before) :
    before.segmentStore.spans.length ≤ after.segmentStore.spans.length := by
  cases moves with
  | entry | exit => simp [TracingContextImpl.pushBack]
  | again | skip => exact Nat.le_refl _
  | span found => exact Nat.le_of_eq (by rw [linked.setSpan_spans found, List.length_set])

private theorem Node.segment_live {node : Node} (pending : node.collected = none) : node.segment = node.context.segmentStore := by
  rw [Node.segment, pending]
  rfl

private theorem Mesh.Extends.appended (mesh : Mesh) (node : Node) :
    mesh.Extends { mesh with nodes := mesh.nodes ++ [node] } := by
  refine ⟨?_, by simp, List.prefix_rfl⟩
  intro place old found
  have inside := (List.getElem?_eq_some_iff.mp found).1
  exact ⟨old, by rw [List.getElem?_append_left inside]; exact found, rfl, Nat.le_refl _⟩

private theorem Mesh.Extends.replaced {place : Nat} {old new : Node} (found : mesh.nodes[place]? = some old)
    (identity : new.segment.identity = old.segment.identity)
    (longer : old.segment.spans.length ≤ new.segment.spans.length) :
    mesh.Extends { mesh with nodes := mesh.nodes.set place new } := by
  have inside := (List.getElem?_eq_some_iff.mp found).1
  refine ⟨?_, by simp, List.prefix_rfl⟩
  intro other node present
  by_cases same : place = other
  · subst same
    obtain rfl : old = node := Option.some.inj (found.symm.trans present)
    exact ⟨new, List.getElem?_set_self inside, identity, longer⟩
  · exact ⟨node, by rw [List.getElem?_set_ne same]; exact present, rfl, Nat.le_refl _⟩

private theorem Mesh.Whole.appended {node : Node} (kept : mesh.Whole simpleAtoi) (linked : Linked node.context)
    (woven : Woven node.context.references node.segment.spans)
    (root : node.header = none → node.context.parentSpanContext = none)
    (joined : ∀ header, node.header = some header → ∃ parent, node.context.parentSpanContext = some parent ∧
      mesh.receive simpleAtoi header = some parent ∧ node.segment.traceId = parent.traceId) :
    Mesh.Whole simpleAtoi { mesh with nodes := mesh.nodes ++ [node] } := by
  have grows := Mesh.Extends.appended mesh node
  refine ⟨?_, ?_, ?_, ?_, ?_⟩
  · intro place other present live
    rcases getElem?_last present with old | ⟨_, rfl⟩
    · exact kept.linked place other old live
    · exact linked
  · intro place other present
    rcases getElem?_last present with old | ⟨_, rfl⟩
    · exact kept.woven place other old
    · exact woven
  · intro place other present
    rcases getElem?_last present with old | ⟨_, rfl⟩
    · exact kept.root place other old
    · exact root
  · intro place other header present source
    rcases getElem?_last present with old | ⟨rfl, rfl⟩
    · obtain ⟨parent, has, received, resolves, traceId⟩ := kept.joined place other header old source
      exact ⟨parent, has, received, resolves.later grows (Nat.le_refl _), traceId⟩
    · obtain ⟨parent, has, received, traceId⟩ := joined header source
      exact ⟨parent, has, received, (kept.headers header parent received).later grows (Nat.le_refl _), traceId⟩
  · intro header parent received
    exact (kept.headers header parent received).later grows grows.length

private theorem Mesh.Whole.replaced {place : Nat} {old new : Node} (kept : mesh.Whole simpleAtoi)
    (found : mesh.nodes[place]? = some old) (identity : new.segment.identity = old.segment.identity)
    (longer : old.segment.spans.length ≤ new.segment.spans.length) (header : new.header = old.header)
    (parent : new.context.parentSpanContext = old.context.parentSpanContext)
    (linked : new.collected = none → Linked new.context) (woven : Woven new.context.references new.segment.spans) :
    Mesh.Whole simpleAtoi { mesh with nodes := mesh.nodes.set place new } := by
  have grows := Mesh.Extends.replaced found identity longer
  refine ⟨?_, ?_, ?_, ?_, ?_⟩
  · intro other node present
    rcases getElem?_replaced present with ⟨_, rfl⟩ | ⟨_, elsewhere⟩
    · exact linked
    · exact kept.linked other node elsewhere
  · intro other node present
    rcases getElem?_replaced present with ⟨_, rfl⟩ | ⟨_, elsewhere⟩
    · exact woven
    · exact kept.woven other node elsewhere
  · intro other node present top
    rcases getElem?_replaced present with ⟨rfl, rfl⟩ | ⟨_, elsewhere⟩
    · rw [parent]
      exact kept.root _ old found (header.symm.trans top)
    · exact kept.root other node elsewhere top
  · intro other node sent present source
    rcases getElem?_replaced present with ⟨rfl, rfl⟩ | ⟨_, elsewhere⟩
    · obtain ⟨up, has, received, resolves, traceId⟩ := kept.joined _ old sent found (header.symm.trans source)
      have same : node.segment.traceId = old.segment.traceId := congrArg Prod.fst identity
      exact ⟨up, parent.trans has, received, resolves.later grows (Nat.le_refl _), same.trans traceId⟩
    · obtain ⟨up, has, received, resolves, traceId⟩ := kept.joined other node sent elsewhere source
      exact ⟨up, has, received, resolves.later grows (Nat.le_refl _), traceId⟩
  · intro sent up received
    exact (kept.headers sent up received).later grows grows.length

private theorem Mesh.Extends.sent (mesh : Mesh) (header : Sent) :
    mesh.Extends { mesh with headers := mesh.headers ++ [header] } :=
  ⟨fun _ node found => ⟨node, found, rfl, Nat.le_refl _⟩, Nat.le_refl _, List.prefix_append _ _⟩

private theorem Mesh.Whole.sent {place : Nat} {node : Node} {targetAddress text : Bytes} (reads : ReadsBack simpleAtoi)
    (kept : mesh.Whole simpleAtoi) (found : mesh.nodes[place]? = some node) (pending : node.collected = none)
    (few : node.context.spans.length < 2 ^ 31) (returned : node.context.createSW8HeaderValue targetAddress = .ok (some text)) :
    Mesh.Whole simpleAtoi { mesh with headers := mesh.headers ++ [{ text, node := place }] } := by
  have linked := kept.linked place node found pending
  have grows := Mesh.Extends.sent mesh { text, node := place }
  refine ⟨kept.linked, kept.woven, kept.root, ?_, ?_⟩
  · intro other child header present source
    obtain ⟨parent, has, received, resolves, traceId⟩ := kept.joined other child header present source
    exact ⟨parent, has, receive_later received grows.headers, resolves.later grows (Nat.le_refl _), traceId⟩
  · intro header parent received
    obtain ⟨sent, present, read⟩ := Option.bind_eq_some_iff.mp received
    rcases getElem?_last present with old | ⟨_, rfl⟩
    · have before : mesh.receive simpleAtoi header = some parent := Option.bind_eq_some_iff.mpr ⟨sent, old, read⟩
      exact (kept.headers header parent before).later grows (Nat.le_refl _)
    · obtain ⟨parsed, accepted, wrote⟩ := linked.header_read reads few returned
      have same : (createSpanContext simpleAtoi text).toOption = some parsed := congrArg Except.toOption accepted
      obtain rfl : parsed = parent := Option.some.inj (same.symm.trans read)
      obtain ⟨last, span, spanId⟩ := wrote.spanId
      have object := linked.object span
      refine ⟨place, (List.getElem?_eq_some_iff.mp found).1, node, found, ?_, ?_⟩
      · rw [Node.segment_live pending, wrote.traceId, wrote.traceSegmentId, wrote.service, wrote.serviceInstance]
        rfl
      · rw [Node.segment_live pending]
        exact ⟨_, (List.getElem?_eq_some_iff.mp object).1, spanId.trans (linked.number _ _ object)⟩

private theorem Woven.empty (references : List SegmentReference) : Woven references [] := by
  refine ⟨?_, ?_, ?_⟩
  · intro index store present
    cases present
  · intro store present
    cases present
  · intro index store present
    cases present

private theorem MeshStep.whole {call : MeshCall ρ} (moves : MeshStep uuid simpleAtoi before call after)
    (reads : ReadsBack simpleAtoi) (orderly : Orderly before call) (kept : before.Whole simpleAtoi) :
    after.Whole simpleAtoi := by
  cases moves with
  | begun =>
    apply kept.appended (linked_new ..) (Woven.empty _) fun _ => rfl
    intro header source
    cases source
  | @joined _ _ header _ parent received =>
    apply kept.appended (linked_new ..) (Woven.empty _)
    · intro top
      cases top
    · intro other source
      obtain rfl : header = other := Option.some.inj source
      exact ⟨parent, rfl, received, rfl⟩
  | @called place call node context found moved =>
    obtain ⟨live, plain, shaped⟩ := orderly
    have pending := Mesh.live.uncollected live found
    have moves := context_step_cases moved
    have linked := kept.linked place node found pending
    have woven := kept.woven place node found
    have now : Node.segment { node with context } = context.segmentStore := Node.segment_live pending
    rw [Node.segment_live pending] at woven
    apply kept.replaced found
    · rw [now, Node.segment_live pending]
      exact moves.identity.1
    · rw [now, Node.segment_live pending]
      exact moves.longer linked
    · rfl
    · exact moves.identity.2
    · exact fun _ => moves.linked linked
    · rw [now]
      exact moves.woven plain shaped linked woven
  | @sent place targetAddress node text found returned =>
    obtain ⟨live, few⟩ := orderly
    rw [found, Option.all_some, decide_eq_true_eq] at few
    exact kept.sent reads found (Mesh.live.uncollected live found) few returned
  | @reported place ignoreMatcher node found =>
    have same : Node.segment { node with
        context := node.context.createSegmentObject.2, collected := some node.context.segmentStore } = node.segment :=
      (Node.segment_live (Mesh.live.uncollected orderly found)).symm
    have woven := kept.woven place node found
    apply kept.replaced found
    · exact congrArg SegmentObject.identity same
    · exact Nat.le_of_eq (congrArg (fun segment => segment.spans.length) same.symm)
    · rfl
    · rfl
    · intro uncollected
      cases uncollected
    · rw [← same] at woven
      exact woven
  | unchanged => exact kept

theorem whole_run {calls : List (MeshCall ρ)} (reads : ReadsBack simpleAtoi)
    (orderly : Along (Mesh.step uuid simpleAtoi) Orderly {} calls)
    (executed : exec (Mesh.step uuid simpleAtoi) {} calls = some mesh) : mesh.Whole simpleAtoi := by
  have preserved : ∀ before call after, Mesh.Whole simpleAtoi before → Orderly before call →
      before.step uuid simpleAtoi call = some after → Mesh.Whole simpleAtoi after := by
    intro before call after kept orderly executed
    exact (mesh_step_cases executed).whole reads orderly kept
  have initial : Mesh.Whole simpleAtoi {} := by
    refine ⟨?_, ?_, ?_, ?_, ?_⟩
    · intro place node present
      cases present
    · intro place node present
      cases present
    · intro place node present
      cases present
    · intro place node header present
      cases present
    · intro header parent received
      cases received
  exact invariant preserved initial orderly executed

end Steps

section Traces
variable {ρ : Type} {uuid : ρ → Bytes × ρ} {simpleAtoi : Bytes → Option Int32} {mesh : Mesh}

/-- The reference says where the span is and in which trace. -/
def Mesh.Refers (mesh : Mesh) (reference : SegmentReference) (parent : Nat × Nat) : Prop :=
  ∃ node up, mesh.nodes[parent.1]? = some node ∧ node.segment.spans[parent.2]? = some up ∧
    node.segment.identity = (reference.traceId, reference.parentTraceSegmentId, reference.parentService,
      reference.parentServiceInstance) ∧ reference.parentSpanId = up.spanId

/-- What the object of a span says of its parent: an id in the segment that they
share, or a reference. -/
def Mesh.ParentOf (mesh : Mesh) (child parent : Nat × Nat) : Prop :=
  ∃ store, mesh.object child = some store ∧
    ((child.1 = parent.1 ∧ ∃ up, mesh.object parent = some up ∧ store.parentSpanId = up.spanId) ∨
      ∃ reference ∈ store.refs, mesh.Refers reference parent)

/-- The first span of a context that was created without a parent. -/
def Mesh.Root (mesh : Mesh) (place : Nat × Nat) : Prop :=
  (mesh.object place).isSome ∧ place.2 = 0 ∧ ∃ node, mesh.nodes[place.1]? = some node ∧ node.header = none

def Mesh.traceId (mesh : Mesh) (place : Nat × Nat) : Option Bytes :=
  mesh.nodes[place.1]?.map fun node => node.segment.traceId

structure Mesh.Traced (mesh : Mesh) : Prop where
  resolves : ∀ (place : Nat × Nat) (store : SpanObject) (reference : SegmentReference), mesh.object place = some store →
    reference ∈ store.refs → ∃ parent, parent.1 < place.1 ∧ mesh.Refers reference parent
  reaches : ∀ place : Nat × Nat, (mesh.object place).isSome →
    ∃ origin, mesh.Root origin ∧ ReflTransGen mesh.ParentOf place origin ∧ mesh.traceId place = mesh.traceId origin

/-- The generated ids tell segments apart, and traces, and 32-bit span ids the
spans of a segment. -/
structure Mesh.Distinct (mesh : Mesh) : Prop where
  few : ∀ node ∈ mesh.nodes, node.segment.spans.length < 2 ^ 31
  segments : (mesh.nodes.map fun node => node.segment.traceSegmentId).Nodup
  traces : ((mesh.nodes.filter fun node => node.header.isNone).map fun node => node.segment.traceId).Nodup

/-- Each span has one parent at most and comes down to one first span, and two
spans are in the same trace if and only if it is the same one. -/
structure Mesh.Separated (mesh : Mesh) : Prop where
  single : Relator.RightUnique mesh.ParentOf
  root : ∀ place origin last : Nat × Nat, mesh.Root origin → mesh.Root last → ReflTransGen mesh.ParentOf place origin →
    ReflTransGen mesh.ParentOf place last → origin = last
  traces : ∀ place other : Nat × Nat, (mesh.object place).isSome → (mesh.object other).isSome →
    (mesh.traceId place = mesh.traceId other ↔
      ∃ common, mesh.Root common ∧ ReflTransGen mesh.ParentOf place common ∧ ReflTransGen mesh.ParentOf other common)

theorem object_found {place : Nat × Nat} {store : SpanObject} (object : mesh.object place = some store) :
    ∃ node, mesh.nodes[place.1]? = some node ∧ node.segment.spans[place.2]? = some store :=
  Option.bind_eq_some_iff.mp object

theorem object_of_found {place : Nat × Nat} {node : Node} {store : SpanObject}
    (found : mesh.nodes[place.1]? = some node) (present : node.segment.spans[place.2]? = some store) :
    mesh.object place = some store :=
  Option.bind_eq_some_iff.mpr ⟨node, found, present⟩

private theorem Mesh.Resolves.refers {bound : Nat} {parent : SpanContextImpl} (whole : mesh.Whole simpleAtoi)
    (resolves : mesh.Resolves bound parent) :
    ∃ place : Nat × Nat, place.1 < bound ∧ mesh.Refers (TracingSpanImpl.segmentReference parent) place := by
  obtain ⟨place, inside, node, found, identity, index, there, names⟩ := resolves
  have present := List.getElem?_eq_getElem there
  have number := (whole.woven place node found).number index _ present
  exact ⟨(place, index), inside, node, _, found, present, identity, names.trans number.symm⟩

/-- Only the first span of a context that has a parent has a reference. -/
private theorem Mesh.Whole.reference {place : Nat × Nat} {store : SpanObject} {reference : SegmentReference}
    (whole : mesh.Whole simpleAtoi) {node : Node} (found : mesh.nodes[place.1]? = some node)
    (present : node.segment.spans[place.2]? = some store) (member : reference ∈ store.refs) :
    place.2 = 0 ∧ ∃ parent, node.context.parentSpanContext = some parent ∧
      reference = TracingSpanImpl.segmentReference parent ∧ mesh.Resolves place.1 parent ∧
        node.segment.traceId = parent.traceId := by
  have woven := whole.woven place.1 node found
  rcases Nat.eq_zero_or_pos place.2 with first | positive
  · rw [first] at present
    rw [(woven.first store present).2, TracingContextImpl.references] at member
    cases source : node.header with
    | none =>
      rw [whole.root place.1 node found source] at member
      cases member
    | some header =>
      obtain ⟨parent, has, _, resolves, traceId⟩ := whole.joined place.1 node header found source
      rw [has] at member
      exact ⟨first, parent, has, List.mem_singleton.mp member, resolves, traceId⟩
  · rw [(woven.child place.2 store present positive).1] at member
    cases member

private theorem Mesh.Whole.down (whole : mesh.Whole simpleAtoi) (place : Nat × Nat) (inside : (mesh.object place).isSome) :
    mesh.Root place ∨ ∃ parent, (mesh.object parent).isSome ∧ mesh.ParentOf place parent ∧
      Prod.Lex (· < ·) (· < ·) parent place := by
  obtain ⟨store, object⟩ := Option.isSome_iff_exists.mp inside
  obtain ⟨node, found, present⟩ := object_found object
  have woven := whole.woven place.1 node found
  rcases Nat.eq_zero_or_pos place.2 with first | positive
  · cases source : node.header with
    | none => exact .inl ⟨inside, first, node, found, source⟩
    | some header =>
      obtain ⟨parent, has, _, resolves, _⟩ := whole.joined place.1 node header found source
      obtain ⟨origin, earlier, refers⟩ := resolves.refers whole
      have member : TracingSpanImpl.segmentReference parent ∈ store.refs := by
        rw [first] at present
        rw [(woven.first store present).2, TracingContextImpl.references, has]
        exact List.mem_singleton_self _
      have related : mesh.ParentOf place origin := ⟨store, object, .inr ⟨_, member, refers⟩⟩
      obtain ⟨other, up, there, span, _⟩ := refers
      refine .inr ⟨origin, ?_, related, ?_⟩
      · rw [object_of_found there span]
        rfl
      · exact Prod.lex_def.mpr (.inl earlier)
  · obtain ⟨_, parent, smaller, names⟩ := woven.child place.2 store present positive
    have bound := (List.getElem?_eq_some_iff.mp present).1
    have up := List.getElem?_eq_getElem (show parent < node.segment.spans.length by omega)
    have above : mesh.object (place.1, parent) = some node.segment.spans[parent] := object_of_found found up
    have number := woven.number parent _ up
    refine .inr ⟨(place.1, parent), ?_, ⟨store, object, .inl ⟨rfl, _, above, names.trans number.symm⟩⟩, ?_⟩
    · rw [above]
      rfl
    · exact Prod.lex_def.mpr (.inr ⟨rfl, smaller⟩)

private theorem Mesh.Whole.traceId (whole : mesh.Whole simpleAtoi) (child parent : Nat × Nat)
    (related : mesh.ParentOf child parent) : mesh.traceId child = mesh.traceId parent := by
  obtain ⟨store, object, same | ⟨reference, member, refers⟩⟩ := related
  · simp only [Mesh.traceId, same.1]
  · obtain ⟨node, found, present⟩ := object_found object
    obtain ⟨_, origin, _, rfl, _, traceId⟩ := whole.reference found present member
    obtain ⟨other, up, there, _, identity, _⟩ := refers
    have above : other.segment.traceId = origin.traceId := congrArg Prod.fst identity
    simp only [Mesh.traceId, found, there, Option.map_some, traceId, above]

theorem Mesh.Whole.traced (whole : mesh.Whole simpleAtoi) : mesh.Traced := by
  refine ⟨?_, ?_⟩
  · intro place store reference object member
    obtain ⟨node, found, present⟩ := object_found object
    obtain ⟨_, parent, _, rfl, resolves, _⟩ := whole.reference found present member
    exact resolves.refers whole
  · intro place inside
    have below : WellFounded fun first last : Nat => first < last := Nat.lt_wfRel.wf
    have wellFounded := below.prod_lex below
    obtain ⟨origin, top, path⟩ := Descent.reaches_root wellFounded whole.down inside
    exact ⟨origin, top, path, Descent.label_eq whole.traceId path⟩

private theorem index_eq {first last : Nat} (few : first < 2 ^ 31) (small : last < 2 ^ 31)
    (same : Int32.ofNat first = Int32.ofNat last) : first = last := by
  have numbers := congrArg Int32.toInt same
  rw [Int32.toInt_ofNat_of_lt few, Int32.toInt_ofNat_of_lt small] at numbers
  exact Int.ofNat.inj numbers

private theorem Mesh.Distinct.context (distinct : mesh.Distinct) {place other : Nat} {node last : Node}
    (found : mesh.nodes[place]? = some node) (present : mesh.nodes[other]? = some last)
    (same : node.segment.traceSegmentId = last.segment.traceSegmentId) : place = other := by
  have inside := (List.getElem?_eq_some_iff.mp found).1
  apply (List.getElem?_inj (by simpa using inside) distinct.segments).mp
  simp only [List.getElem?_map, found, present, Option.map_some, same]

private theorem Mesh.Whole.spanId (whole : mesh.Whole simpleAtoi) (distinct : mesh.Distinct) {place : Nat × Nat} {store : SpanObject}
    (object : mesh.object place = some store) : store.spanId = Int32.ofNat place.2 ∧ place.2 < 2 ^ 31 := by
  obtain ⟨node, found, present⟩ := object_found object
  have inside := (List.getElem?_eq_some_iff.mp present).1
  have few := distinct.few node (List.mem_of_getElem? found)
  exact ⟨(whole.woven place.1 node found).number place.2 store present, by omega⟩

/-- The parent id of a first span is no span's. -/
private theorem Mesh.Whole.top (whole : mesh.Whole simpleAtoi) (distinct : mesh.Distinct) {child parent : Nat × Nat}
    {store up : SpanObject} (object : mesh.object child = some store) (above : mesh.object parent = some up)
    (first : child.2 = 0) : store.parentSpanId ≠ up.spanId := by
  obtain ⟨node, found, present⟩ := object_found object
  rw [first] at present
  obtain ⟨number, small⟩ := whole.spanId distinct above
  intro same
  have numbers := congrArg Int32.toInt (same.trans number)
  rw [((whole.woven child.1 node found).first store present).1, Int32.toInt_ofNat_of_lt small] at numbers
  have negative : (-1 : Int32).toInt = -1 := rfl
  omega

private theorem Mesh.Whole.referred (whole : mesh.Whole simpleAtoi) (distinct : mesh.Distinct) {reference : SegmentReference}
    {parent other : Nat × Nat} (first : mesh.Refers reference parent) (last : mesh.Refers reference other) :
    parent = other := by
  obtain ⟨node, up, found, present, identity, names⟩ := first
  obtain ⟨node', up', found', present', identity', names'⟩ := last
  have segment : node.segment.traceSegmentId = node'.segment.traceSegmentId :=
    congrArg (fun identity => identity.2.1) (identity.trans identity'.symm)
  have context := distinct.context found found' segment
  obtain ⟨number, small⟩ := whole.spanId distinct (object_of_found found present)
  obtain ⟨number', small'⟩ := whole.spanId distinct (object_of_found found' present')
  have ids : Int32.ofNat parent.2 = Int32.ofNat other.2 :=
    number.symm.trans (names.symm.trans (names'.trans number'))
  exact Prod.ext context (index_eq small small' ids)

private theorem Mesh.Whole.single (whole : mesh.Whole simpleAtoi) (distinct : mesh.Distinct) :
    Relator.RightUnique mesh.ParentOf := by
  rintro child parent other ⟨store, object, first⟩ ⟨store', object', last⟩
  obtain rfl : store = store' := Option.some.inj (object.symm.trans object')
  obtain ⟨node, found, present⟩ := object_found object
  rcases first with ⟨beside, up, above, names⟩ | ⟨reference, member, refers⟩
  · rcases last with ⟨beside', up', above', names'⟩ | ⟨reference', member', refers'⟩
    · obtain ⟨number, small⟩ := whole.spanId distinct above
      obtain ⟨number', small'⟩ := whole.spanId distinct above'
      have ids : Int32.ofNat parent.2 = Int32.ofNat other.2 :=
        number.symm.trans (names.symm.trans (names'.trans number'))
      exact Prod.ext (beside.symm.trans beside') (index_eq small small' ids)
    · exact absurd names (whole.top distinct object above (whole.reference found present member').1)
  · obtain ⟨first, sender, has, rfl, _⟩ := whole.reference found present member
    rcases last with ⟨beside', up', above', names'⟩ | ⟨reference', member', refers'⟩
    · exact absurd names' (whole.top distinct object above' first)
    · obtain ⟨_, sender', has', rfl, _⟩ := whole.reference found present member'
      obtain rfl : sender = sender' := Option.some.inj (has.symm.trans has')
      exact whole.referred distinct refers refers'

/-- Neither a parent id nor a reference leads on from a root. -/
private theorem Mesh.Whole.stops (whole : mesh.Whole simpleAtoi) (distinct : mesh.Distinct) (origin parent : Nat × Nat)
    (top : mesh.Root origin) : ¬ mesh.ParentOf origin parent := by
  obtain ⟨_, first, node, found, begun⟩ := top
  rintro ⟨store, object, ⟨_, up, above, names⟩ | ⟨reference, member, _⟩⟩
  · exact whole.top distinct object above first names
  · obtain ⟨node', found', present⟩ := object_found object
    obtain rfl : node = node' := Option.some.inj (found.symm.trans found')
    obtain ⟨_, sender, has, _⟩ := whole.reference found present member
    rw [whole.root origin.1 node found begun] at has
    cases has

theorem Mesh.Whole.separated (whole : mesh.Whole simpleAtoi) (distinct : mesh.Distinct) : mesh.Separated := by
  refine ⟨whole.single distinct, ?_, ?_⟩
  · intro place origin last top bottom path way
    exact Descent.root_unique (whole.single distinct) (whole.stops distinct) path way top bottom
  intro place other inside outside
  obtain ⟨origin, top, path, _⟩ := whole.traced.reaches place inside
  obtain ⟨last, bottom, way, _⟩ := whole.traced.reaches other outside
  apply Descent.label_eq_iff whole.traceId ?_ ⟨top, path⟩ ⟨bottom, way⟩
  rintro first second ⟨_, zero, node, found, begun⟩ ⟨_, zero', node', found', begun'⟩ same
  simp only [Mesh.traceId, found, found', Option.map_some] at same
  have roots : node ∈ mesh.nodes.filter fun node => node.header.isNone := by
    simp [List.mem_of_getElem? found, begun]
  have roots' : node' ∈ mesh.nodes.filter fun node => node.header.isNone := by
    simp [List.mem_of_getElem? found', begun']
  obtain rfl : node = node' := List.inj_on_of_nodup_map distinct.traces roots roots' (Option.some.inj same)
  exact Prod.ext (distinct.context found found' rfl) (zero.trans zero'.symm)

theorem mesh_traces {calls : List (MeshCall ρ)} (reads : ReadsBack simpleAtoi)
    (orderly : Along (Mesh.step uuid simpleAtoi) Orderly {} calls)
    (executed : exec (Mesh.step uuid simpleAtoi) {} calls = some mesh) :
    mesh.Traced ∧ (mesh.Distinct → mesh.Separated) := by
  have whole := whole_run reads orderly executed
  exact ⟨whole.traced, whole.separated⟩

end Traces

/-- The first context is reported before its header is received, twice. -/
def relayedCalls : List (MeshCall Nat) :=
  [.create (ascii ['m', 'e', 's', 'h']) [] none 10, .context 0 .createEntrySpan, .context 0 (.createExitSpan (.own 0)),
    .createSW8HeaderValue 0 [7], .context 0 (.span 1 (.endSpan 5)), .context 0 (.span 0 (.endSpan 6)),
    .report 0 { targetSuffixes := [ascii ['/', 'p', 'i', 'n', 'g']] }, .create [] [] (some 0) 20,
    .create [] [] (some 0) 30, .context 1 .createEntrySpan, .context 2 .createEntrySpan]

def relayed : Mesh := (exec (Mesh.step countUp readDecimal) {} relayedCalls).getD {}

theorem mesh_traces_relayed : relayed.Traced ∧ relayed.Separated ∧ relayed.traceId (1, 0) = relayed.traceId (2, 0) := by
  have executed : exec (Mesh.step countUp readDecimal) {} relayedCalls = some relayed := rfl
  have orderly : Along (Mesh.step countUp readDecimal) Orderly {} relayedCalls := by decide
  obtain ⟨traced, separated⟩ := mesh_traces readDecimal_reads orderly executed
  exact ⟨traced, separated ⟨by decide, by decide, by decide⟩, rfl⟩

end Cpp2Sky

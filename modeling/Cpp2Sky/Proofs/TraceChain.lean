import Cpp2Sky.Proofs.HeaderRoundTrip

/-! A chain of services. Each context is created from the header that the one
before it returned, so its entry span refers to that one and its trace is the
trace of the first. -/

namespace Cpp2Sky
open Runs

/-- The call writes neither a reference nor a parent id. -/
def ContextCall.plain : ContextCall → Prop
  | .span _ (.addSegmentRef _) | .span _ (.setParentSpanId _) => False
  | _ => True

/-- Every entry span has these references, and no other span has any. -/
structure Refers (references : List SegmentReference) (kinds : List SpanType) (context : TracingContextImpl) : Prop where
  refs : context.segmentStore.spans.map SpanObject.refs =
    kinds.map fun kind => if kind = .entry then references else []
  parent : context.parentSpanContext.toList.map TracingSpanImpl.segmentReference = references

private theorem write_refs {index : Nat} {call : SpanCall} (plain : (ContextCall.span index call).plain)
    (store : SpanObject) : (call.write store).refs = store.refs := by
  cases call with
  | addSegmentRef => exact plain.elim
  | _ => rfl

private theorem ContextStep.refers {before after : TracingContextImpl} {call : ContextCall} {kinds : List SpanType}
    {references : List SegmentReference} (moves : ContextStep before call after) (plain : call.plain)
    (linked : Linked before) (kept : Refers references kinds before) : Refers references (call.creates kinds) after := by
  have count : before.spans.length = kinds.length := by
    simpa [linked.size] using congrArg List.length kept.refs
  cases moves with
  | entry first =>
    obtain rfl : kinds = [] := (spans_eq_nil count).mp first
    have none := List.map_eq_nil_iff.mp kept.refs
    refine ⟨?_, kept.parent⟩
    simp [ContextCall.creates, TracingContextImpl.pushBack, TracingContextImpl.entrySpan, none, kept.parent]
  | again opened =>
    simpa [ContextCall.creates, mt (spans_eq_nil count).mpr opened] using kept
  | exit =>
    refine ⟨?_, kept.parent⟩
    simp [ContextCall.creates, TracingContextImpl.pushBack, TracingContextImpl.exitSpan, TracingContextImpl.newSpan, kept.refs]
  | span found ran =>
    refine ⟨Eq.trans ?_ kept.refs, by rw [(setSpan_identity _ _ _).2]; exact kept.parent⟩
    obtain ⟨inside, object⟩ := List.getElem?_eq_some_iff.mp (linked.object found)
    rw [linked.setSpan_spans found, List.map_set, run_write ran, write_refs plain, ← object,
      ← List.map_set, List.set_getElem_self]
  | skip => exact ⟨kept.refs, kept.parent⟩

private theorem refers_run {start context : TracingContextImpl} {calls : List ContextCall} {kinds : List SpanType}
    {references : List SegmentReference} (linked : Linked start) (kept : Refers references kinds start)
    (plain : ∀ call ∈ calls, call.plain) (executed : exec TracingContextImpl.step start calls = some context) :
    Refers references (calls.foldl ContextCall.creates kinds) context := by
  induction calls generalizing start kinds with
  | nil => exact Option.some.inj executed ▸ kept
  | cons call rest ih =>
    obtain ⟨next, moved, remaining⟩ := exec_cons_some executed
    have moves := context_step_cases moved
    obtain ⟨first, others⟩ := List.forall_mem_cons.mp plain
    exact ih (moves.linked linked) (moves.refers first linked kept) others remaining

/-- One context of a chain: as constructed, as it was when its header was made
for an address, and as it is now, with the calls in between. -/
structure Link where
  start : TracingContextImpl
  before : List ContextCall
  made : TracingContextImpl
  address : Bytes
  after : List ContextCall
  now : TracingContextImpl

def Link.kinds (link : Link) : List SpanType := (link.before ++ link.after).foldl ContextCall.creates []

structure Link.Ran (link : Link) : Prop where
  before : exec TracingContextImpl.step link.start link.before = some link.made
  after : exec TracingContextImpl.step link.made link.after = some link.now
  plain : ∀ call ∈ link.before ++ link.after, call.plain

section Chain
variable {ρ : Type} (uuid : ρ → Bytes × ρ) (simpleAtoi : Bytes → Option Int32)

inductive Chain (origin : TracingContextImpl) : List Link → Prop where
  | root {link : Link} (serviceName instanceName : Bytes) (extension : Option SpanContextExtensionImpl) (random : ρ)
      (created : origin = (TracingContextImpl.new uuid serviceName instanceName none extension random).1)
      (start : link.start = origin) (ran : link.Ran) : Chain origin [link]
  | hop {link previous : Link} {rest : List Link} {header : Bytes} {parent : SpanContextImpl}
      (chain : Chain origin (previous :: rest))
      (few : previous.made.spans.length < 2 ^ 31)
      (sent : previous.made.createSW8HeaderValue previous.address = .ok (some header))
      (received : createSpanContext simpleAtoi header = .ok parent)
      (serviceName instanceName : Bytes) (extension : Option SpanContextExtensionImpl) (random : ρ)
      (start : link.start = (TracingContextImpl.new uuid serviceName instanceName (some parent) extension random).1)
      (ran : link.Ran) : Chain origin (link :: previous :: rest)

/-- The reference names the trace and, as they were when the header was made,
the context, its last span and its first. -/
structure Names (reference : SegmentReference) (traceId : Bytes) (previous : Link) : Prop where
  refType : reference.refType = .crossProcess
  traceId : reference.traceId = traceId
  parentTraceSegmentId : reference.parentTraceSegmentId = previous.made.segmentStore.traceSegmentId
  parentService : reference.parentService = previous.made.segmentStore.service
  parentServiceInstance : reference.parentServiceInstance = previous.made.segmentStore.serviceInstance
  parentSpanId : ∃ last, previous.made.span (previous.made.spans.length - 1) = .ok last ∧
    reference.parentSpanId = last.spanStore.spanId
  parentEndpoint : ∃ first, previous.made.span 0 = .ok first ∧ reference.parentEndpoint = first.spanStore.operationName
  networkAddressUsedAtPeer : reference.networkAddressUsedAtPeer = previous.address

/-- The context has the trace id from the start on, its entry span has these
references and its exit spans none. -/
structure Link.Carries (link : Link) (traceId : Bytes) (references : List SegmentReference) : Prop where
  start : link.start.segmentStore.traceId = traceId
  made : link.made.segmentStore.traceId = traceId
  now : link.now.segmentStore.traceId = traceId
  refs : link.now.segmentStore.spans.map SpanObject.refs =
    link.kinds.map fun kind => if kind = .entry then references else []

def Continuous (traceId : Bytes) : List Link → Prop
  | [] => True
  | [root] => root.Carries traceId []
  | link :: previous :: rest =>
    (∃ reference, Names reference traceId previous ∧ link.Carries traceId [reference]) ∧
      Continuous traceId (previous :: rest)

variable {uuid simpleAtoi}

private theorem Link.Ran.carries {link : Link} (ran : link.Ran) (serviceName instanceName : Bytes)
    (parent : Option SpanContextImpl) (extension : Option SpanContextExtensionImpl) (random : ρ)
    (start : link.start = (TracingContextImpl.new uuid serviceName instanceName parent extension random).1) :
    link.Carries link.start.segmentStore.traceId (parent.toList.map TracingSpanImpl.segmentReference) := by
  have linked : Linked link.start := start ▸ linked_new uuid serviceName instanceName parent extension random
  have kept : Refers (parent.toList.map TracingSpanImpl.segmentReference) [] link.start := by
    rw [start]
    exact ⟨rfl, rfl⟩
  have made : link.start.Reached link.made := ⟨link.before, ran.before⟩
  have now : link.start.Reached link.now := made.trans ⟨link.after, ran.after⟩
  have whole : exec TracingContextImpl.step link.start (link.before ++ link.after) = some link.now := by
    rw [exec_append, ran.before]
    exact ran.after
  exact ⟨rfl, congrArg Prod.fst made.identity.1, congrArg Prod.fst now.identity.1,
    (refers_run linked kept ran.plain whole).refs⟩

private theorem Chain.linked {origin : TracingContextImpl} {link : Link} {rest : List Link}
    (chain : Chain uuid simpleAtoi origin (link :: rest)) : Linked link.made := by
  have reached (ran : link.Ran) : link.start.Reached link.made := ⟨link.before, ran.before⟩
  cases chain with
  | root serviceName instanceName extension random created start ran =>
    exact (reached ran).linked (start ▸ created ▸ linked_new uuid serviceName instanceName none extension random)
  | hop _ _ _ _ serviceName instanceName extension random start ran =>
    exact (reached ran).linked (start ▸ linked_new uuid serviceName instanceName _ extension random)

private theorem Continuous.made {traceId : Bytes} {link : Link} {rest : List Link}
    (continuous : Continuous traceId (link :: rest)) : link.made.segmentStore.traceId = traceId := by
  cases rest with
  | nil => exact Link.Carries.made continuous
  | cons previous rest =>
    obtain ⟨⟨_, _, carries⟩, _⟩ := continuous
    exact carries.made

theorem chain_continuous {origin : TracingContextImpl} {links : List Link} (reads : ReadsBack simpleAtoi)
    (chain : Chain uuid simpleAtoi origin links) : Continuous origin.segmentStore.traceId links := by
  induction chain with
  | root serviceName instanceName extension random created start ran =>
    exact start ▸ ran.carries serviceName instanceName none extension random (start.trans created)
  | @hop link previous rest header parent chain few sent received serviceName instanceName extension random start ran ih =>
    obtain ⟨parsed, accepted, read⟩ := chain.linked.header_read reads few sent
    obtain rfl : parsed = parent := Except.ok.inj (accepted.symm.trans received)
    have carries := ran.carries serviceName instanceName (some parsed) extension random start
    have traceId : link.start.segmentStore.traceId = origin.segmentStore.traceId := by
      rw [start]
      exact read.traceId.trans (Continuous.made ih)
    refine ⟨⟨TracingSpanImpl.segmentReference parsed, ?_, traceId ▸ carries⟩, ih⟩
    exact ⟨rfl, read.traceId.trans (Continuous.made ih), read.traceSegmentId, read.service, read.serviceInstance, read.spanId,
      read.endpoint, read.targetAddress⟩

end Chain

def outgoingLink : Link where
  start := outgoingStart
  before := outgoingCalls
  made := outgoing
  address := [0, 255]
  after := []
  now := outgoing

def outgoingHeader : Bytes := headerOf outgoing.segmentStore 1 (ascii ['/', 'a', '-', 'b']) [0, 255]

def incoming : SpanContextImpl where
  sample := true
  traceId := ascii ['1', '0']
  traceSegmentId := ascii ['1', '1']
  spanId := 1
  service := ascii ['m', 'e', 's', 'h']
  serviceInstance := []
  endpoint := ascii ['/', 'a', '-', 'b']
  targetAddress := [0, 255]

theorem incoming_received : createSpanContext readDecimal outgoingHeader = .ok incoming :=
  new_headerOf readDecimal_reads outgoing.segmentStore (by decide) _ _

def relayStart : TracingContextImpl := (TracingContextImpl.new countUp [] [] (some incoming) none 20).1

def relayCalls : List ContextCall := [.createEntrySpan, .createExitSpan (.own 0)]

def relay : TracingContextImpl := (exec TracingContextImpl.step relayStart relayCalls).getD relayStart

def relayLink : Link where
  start := relayStart
  before := relayCalls
  made := relay
  address := [7]
  after := []
  now := relay

theorem relay_chain : Chain countUp readDecimal outgoingStart [relayLink, outgoingLink] := by
  have outgoing_ran : outgoingLink.Ran := ⟨rfl, rfl, by simp [outgoingLink, outgoingCalls, ContextCall.plain]⟩
  have relay_ran : relayLink.Ran := ⟨rfl, rfl, by simp [relayLink, relayCalls, ContextCall.plain]⟩
  have sent : outgoingLink.made.createSW8HeaderValue outgoingLink.address = .ok (some outgoingHeader) := rfl
  refine .hop (.root (ascii ['m', 'e', 's', 'h']) [] none 10 rfl rfl outgoing_ran) ?_ sent incoming_received [] [] none 20
    rfl relay_ran
  decide

theorem chain_continuous_relay : Continuous outgoingStart.segmentStore.traceId [relayLink, outgoingLink] :=
  chain_continuous readDecimal_reads relay_chain

/-- The second context after `createSegmentObject` and with spans created again. -/
def reused : TracingContextImpl := (exec TracingContextImpl.step relay.createSegmentObject.2 relayCalls).getD relay

theorem trace_lost_after_segment :
    ∃ header parent, outgoing.createSW8HeaderValue [0, 255] = .ok (some outgoingHeader) ∧
      createSpanContext readDecimal outgoingHeader = .ok incoming ∧
      exec TracingContextImpl.step relayStart relayCalls = some relay ∧
      exec TracingContextImpl.step relay.createSegmentObject.2 relayCalls = some reused ∧
      reused.createSW8HeaderValue [7] = .ok (some header) ∧ createSpanContext readDecimal header = .ok parent ∧
      (TracingContextImpl.new countUp [] [] (some parent) none 30).1.segmentStore.traceId ≠
        outgoing.segmentStore.traceId := by
  have header : reused.createSW8HeaderValue [7] = .ok (some (headerOf {} 1 [] [7])) := rfl
  refine ⟨_, _, rfl, incoming_received, rfl, rfl, header, new_headerOf readDecimal_reads {} (by decide) _ _, by decide⟩

end Cpp2Sky

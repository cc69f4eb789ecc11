import Cpp2Sky.Library.Runs
import Cpp2Sky.Propagation

/-! source/tracing_context_impl. The messages of language-agent/Tracing.proto are
records with the fields that the source writes; an unset field has its default.
Timestamps are those that `TimePoint::fetch` returned. -/

namespace Cpp2Sky

def stdToString (value : Int32) : Bytes :=
  (if value.toInt < 0 then ascii ['-'] else []) ++ ascii (Nat.toDigits 10 value.toInt.natAbs)

inductive SpanType where
  | entry
  | exit
  | local
  deriving DecidableEq

inductive SpanLayer where
  | unknown
  | database
  | rpcFramework
  | http
  | mq
  | cache
  | faas
  deriving DecidableEq

inductive RefType where
  | crossProcess
  | crossThread
  deriving DecidableEq

structure KeyStringValuePair where
  key : Bytes
  value : Bytes
  deriving DecidableEq

structure Log where
  time : Int64
  data : List KeyStringValuePair
  deriving DecidableEq

structure SegmentReference where
  refType : RefType
  traceId : Bytes
  parentTraceSegmentId : Bytes
  parentSpanId : Int32
  parentService : Bytes
  parentServiceInstance : Bytes
  parentEndpoint : Bytes
  networkAddressUsedAtPeer : Bytes
  deriving DecidableEq

structure SpanObject where
  spanId : Int32 := 0
  parentSpanId : Int32 := 0
  startTime : Int64 := 0
  endTime : Int64 := 0
  refs : List SegmentReference := []
  operationName : Bytes := []
  peer : Bytes := []
  spanType : SpanType := .entry
  spanLayer : SpanLayer := .unknown
  componentId : Int32 := 0
  isError : Bool := false
  tags : List KeyStringValuePair := []
  logs : List Log := []
  skipAnalysis : Bool := false
  deriving DecidableEq

structure SegmentObject where
  traceId : Bytes := []
  traceSegmentId : Bytes := []
  spans : List SpanObject := []
  service : Bytes := []
  serviceInstance : Bytes := []
  deriving DecidableEq

/-- A span with the object that its reference `span_store_` refers to. -/
structure TracingSpanImpl where
  finished : Bool := false
  spanStore : SpanObject
  deriving DecidableEq

namespace TracingSpanImpl

/-- The constructor. -/
def new (spanId : Int32) : TracingSpanImpl := { spanStore := { spanId, componentId := 9000 } }

/-- `assert(!finished_)` before a write to the store. -/
def unfinished (span : TracingSpanImpl) (write : SpanObject → SpanObject) : Outcome TracingSpanImpl :=
  if span.finished then .error .assertion else .ok { span with spanStore := write span.spanStore }

def addLogImpl (span : TracingSpanImpl) (key value : Bytes) (timestamp : Int64) : Outcome TracingSpanImpl :=
  span.unfinished fun store => { store with logs := store.logs ++ [{ time := timestamp, data := [{ key, value }] }] }

def addTag (span : TracingSpanImpl) (key value : Bytes) : Outcome TracingSpanImpl :=
  span.unfinished fun store => { store with tags := store.tags ++ [{ key, value }] }

def startSpanImpl (span : TracingSpanImpl) (operationName : Bytes) (timestamp : Int64) : TracingSpanImpl :=
  { span with spanStore := { span.spanStore with operationName, startTime := timestamp } }

def endSpanImpl (span : TracingSpanImpl) (timestamp : Int64) : Outcome TracingSpanImpl := do
  let span ← span.unfinished fun store => { store with endTime := timestamp }
  return { span with finished := true }

def setComponentId (span : TracingSpanImpl) (componentId : Int32) : Outcome TracingSpanImpl :=
  span.unfinished fun store => { store with componentId }

def setOperationName (span : TracingSpanImpl) (name : Bytes) : Outcome TracingSpanImpl :=
  span.unfinished fun store => { store with operationName := name }

def setParentSpanId (span : TracingSpanImpl) (spanId : Int32) : Outcome TracingSpanImpl :=
  span.unfinished fun store => { store with parentSpanId := spanId }

def setPeer (span : TracingSpanImpl) (remoteAddress : Bytes) : Outcome TracingSpanImpl :=
  span.unfinished fun store => { store with peer := remoteAddress }

def setSpanType (span : TracingSpanImpl) (spanType : SpanType) : TracingSpanImpl :=
  { span with spanStore := { span.spanStore with spanType } }

def setSpanLayer (span : TracingSpanImpl) (spanLayer : SpanLayer) : TracingSpanImpl :=
  { span with spanStore := { span.spanStore with spanLayer } }

def setErrorStatus (span : TracingSpanImpl) : TracingSpanImpl :=
  { span with spanStore := { span.spanStore with isError := true } }

def setSkipAnalysis (span : TracingSpanImpl) : TracingSpanImpl :=
  { span with spanStore := { span.spanStore with skipAnalysis := true } }

def segmentReference (spanContext : SpanContextImpl) : SegmentReference where
  refType := .crossProcess
  traceId := spanContext.traceId
  parentTraceSegmentId := spanContext.traceSegmentId
  parentService := spanContext.service
  parentServiceInstance := spanContext.serviceInstance
  parentSpanId := spanContext.spanId
  parentEndpoint := spanContext.endpoint
  networkAddressUsedAtPeer := spanContext.targetAddress

def addSegmentRef (span : TracingSpanImpl) (spanContext : SpanContextImpl) : TracingSpanImpl :=
  { span with spanStore := { span.spanStore with refs := span.spanStore.refs ++ [segmentReference spanContext] } }

end TracingSpanImpl

/-- An element of `spans_`. The object itself is owned by the segment, and
`span_store_` is its place there. -/
structure SpanHandle where
  finished : Bool
  spanStore : Nat
  deriving DecidableEq

structure TracingContextImpl where
  parentSpanContext : Option SpanContextImpl
  parentExtSpanContext : Option SpanContextExtensionImpl
  spans : List SpanHandle := []
  segmentStore : SegmentObject
  shouldSkipAnalysis : Bool := false
  deriving DecidableEq

namespace TracingContextImpl

/-- The constructor. The trace id is drawn before the segment id, and only where
there is no parent to take it from. -/
def new {ρ : Type} (uuid : ρ → Bytes × ρ) (serviceName instanceName : Bytes)
    (parentSpanContext : Option SpanContextImpl) (parentExtSpanContext : Option SpanContextExtensionImpl)
    (random : ρ) : TracingContextImpl × ρ :=
  let (traceId, random) := match parentSpanContext with
    | some parent => (parent.traceId, random)
    | none => uuid random
  let (traceSegmentId, random) := uuid random
  ({ parentSpanContext, parentExtSpanContext,
     segmentStore := { traceId, traceSegmentId, service := serviceName, serviceInstance := instanceName } }, random)

/-- The span behind the handle at some place in `spans_`. -/
def span (context : TracingContextImpl) (index : Nat) : Outcome TracingSpanImpl :=
  match context.spans[index]? with
  | none => .error .outOfBounds
  | some handle =>
    match context.segmentStore.spans[handle.spanStore]? with
    | none => .error .outOfBounds
    | some spanStore => .ok { finished := handle.finished, spanStore }

/-- What an operation through that handle leaves behind. -/
def setSpan (context : TracingContextImpl) (index : Nat) (span : TracingSpanImpl) : TracingContextImpl :=
  match context.spans[index]? with
  | none => context
  | some handle =>
    { context with
      spans := context.spans.set index { handle with finished := span.finished }
      segmentStore := { context.segmentStore with
        spans := context.segmentStore.spans.set handle.spanStore span.spanStore } }

def onSpan (context : TracingContextImpl) (index : Nat) (operation : TracingSpanImpl → Outcome TracingSpanImpl) :
    Outcome TracingContextImpl := do
  let span ← context.span index
  let span ← operation span
  return context.setSpan index span

/-- The object of a new span is the last of the segment, the span the last of `spans_`. -/
def pushBack (context : TracingContextImpl) (span : TracingSpanImpl) : TracingContextImpl :=
  { context with
    spans := context.spans ++ [{ finished := span.finished, spanStore := context.segmentStore.spans.length }]
    segmentStore := { context.segmentStore with spans := context.segmentStore.spans ++ [span.spanStore] } }

/-- The place of the new span is returned beside the context, here and below. -/
def createSpan (context : TracingContextImpl) : TracingContextImpl × Nat :=
  let currentSpan := (TracingSpanImpl.new (Int32.ofNat context.spans.length)).setSpanLayer .http
  let currentSpan := if context.shouldSkipAnalysis then currentSpan.setSkipAnalysis else currentSpan
  (context.pushBack currentSpan, context.spans.length)

def createExitSpan (context : TracingContextImpl) (parentSpan : TracingSpanImpl) :
    Outcome (TracingContextImpl × Nat) := do
  let (context, currentSpan) := context.createSpan
  let context ← context.onSpan currentSpan fun span => span.setParentSpanId parentSpan.spanStore.spanId
  let context ← context.onSpan currentSpan fun span => .ok (span.setSpanType .exit)
  return (context, currentSpan)

/-- `none` where the source returns null. -/
def createEntrySpan (context : TracingContextImpl) : Outcome (TracingContextImpl × Option Nat) :=
  if context.spans ≠ [] then return (context, none)
  else do
    let (context, currentSpan) := context.createSpan
    let context ← context.onSpan currentSpan fun span => span.setParentSpanId (-1)
    let context ← context.onSpan currentSpan fun span => .ok (span.setSpanType .entry)
    match context.parentSpanContext with
    | none => return (context, some currentSpan)
    | some parent =>
      let context ← context.onSpan currentSpan fun span => .ok (span.addSegmentRef parent)
      return (context, some currentSpan)

def encodeSpan (context : TracingContextImpl) (parentSpan : TracingSpanImpl) (targetAddress : Bytes) :
    Outcome Bytes := do
  let parentSpanId := stdToString parentSpan.spanStore.spanId
  let front ← if context.spans = [] then throw .empty else context.span 0
  let endpoint := front.spanStore.operationName
  return ascii ['1', '-'] ++
    Base64.encode context.segmentStore.traceId ++ ascii ['-'] ++
    Base64.encode context.segmentStore.traceSegmentId ++ ascii ['-'] ++
    parentSpanId ++ ascii ['-'] ++
    Base64.encode context.segmentStore.service ++ ascii ['-'] ++
    Base64.encode context.segmentStore.serviceInstance ++ ascii ['-'] ++
    Base64.encode endpoint ++ ascii ['-'] ++
    Base64.encode targetAddress

def createSW8HeaderValue (context : TracingContextImpl) (targetAddress : Bytes) : Outcome (Option Bytes) := do
  let targetSpan ← if context.spans = [] then throw .empty else context.span (context.spans.length - 1)
  if targetSpan.spanStore.spanType ≠ .exit then return none
  let header ← context.encodeSpan targetSpan targetAddress
  return some header

/-- The segment is moved out, which leaves an empty one behind. -/
def createSegmentObject (context : TracingContextImpl) : SegmentObject × TracingContextImpl :=
  (context.segmentStore, { context with spans := [], segmentStore := {} })

def setSkipAnalysis (context : TracingContextImpl) : TracingContextImpl :=
  { context with shouldSkipAnalysis := true }

def readyToSend (context : TracingContextImpl) : Bool := context.spans.all SpanHandle.finished

end TracingContextImpl

inductive SpanCall where
  | startSpan (operationName : Bytes) (time : Int64)
  | endSpan (time : Int64)
  | setParentSpanId (spanId : Int32)
  | setPeer (remoteAddress : Bytes)
  | setSpanType (spanType : SpanType)
  | setSpanLayer (spanLayer : SpanLayer)
  | setErrorStatus
  | setSkipAnalysis
  | addTag (key value : Bytes)
  | addLog (key value : Bytes) (time : Int64)
  | setComponentId (componentId : Int32)
  | setOperationName (name : Bytes)
  | addSegmentRef (spanContext : SpanContextImpl)
  deriving DecidableEq

def SpanCall.run (span : TracingSpanImpl) : SpanCall → Outcome TracingSpanImpl
  | .startSpan operationName time => .ok (span.startSpanImpl operationName time)
  | .endSpan time => span.endSpanImpl time
  | .setParentSpanId spanId => span.setParentSpanId spanId
  | .setPeer remoteAddress => span.setPeer remoteAddress
  | .setSpanType spanType => .ok (span.setSpanType spanType)
  | .setSpanLayer spanLayer => .ok (span.setSpanLayer spanLayer)
  | .setErrorStatus => .ok span.setErrorStatus
  | .setSkipAnalysis => .ok span.setSkipAnalysis
  | .addTag key value => span.addTag key value
  | .addLog key value time => span.addLogImpl key value time
  | .setComponentId componentId => span.setComponentId componentId
  | .setOperationName name => span.setOperationName name
  | .addSegmentRef spanContext => .ok (span.addSegmentRef spanContext)

/-- The parent given to `createExitSpan`: a span of the same context, or any other. -/
inductive ParentSpan where
  | own (index : Nat)
  | other (parentSpan : TracingSpanImpl)
  deriving DecidableEq

def ParentSpan.read (context : TracingContextImpl) : ParentSpan → Outcome TracingSpanImpl
  | .own index => context.span index
  | .other parentSpan => .ok parentSpan

/-- The calls that change a context, up to `createSegmentObject`. -/
inductive ContextCall where
  | createEntrySpan
  | createExitSpan (parent : ParentSpan)
  | span (index : Nat) (call : SpanCall)
  | setSkipAnalysis
  deriving DecidableEq

def ContextCall.run (context : TracingContextImpl) : ContextCall → Outcome TracingContextImpl
  | .createEntrySpan => do
    let (context, _) ← context.createEntrySpan
    return context
  | .createExitSpan parent => do
    let parentSpan ← parent.read context
    let (context, _) ← context.createExitSpan parentSpan
    return context
  | .span index call => context.onSpan index fun span => call.run span
  | .setSkipAnalysis => .ok context.setSkipAnalysis

/-- One call on a context, `none` where it does not return. -/
def TracingContextImpl.step (context : TracingContextImpl) (call : ContextCall) : Option TracingContextImpl :=
  (call.run context).toOption

structure TracingContextFactory (ρ : Type) where
  serviceName : Bytes
  instanceName : Bytes
  randomGenerator : ρ

namespace TracingContextFactory
variable {ρ : Type} (uuid : ρ → Bytes × ρ) (factory : TracingContextFactory ρ)

def create : TracingContextImpl × TracingContextFactory ρ :=
  let (context, randomGenerator) :=
    TracingContextImpl.new uuid factory.serviceName factory.instanceName none none factory.randomGenerator
  (context, { factory with randomGenerator })

def createOfContext (spanContext : Option SpanContextImpl) : TracingContextImpl × TracingContextFactory ρ :=
  let (context, randomGenerator) :=
    TracingContextImpl.new uuid factory.serviceName factory.instanceName spanContext none factory.randomGenerator
  (context, { factory with randomGenerator })

def createOfExtension (spanContext : Option SpanContextImpl) (extSpanContext : Option SpanContextExtensionImpl) :
    Outcome (TracingContextImpl × TracingContextFactory ρ) :=
  let (context, randomGenerator) :=
    TracingContextImpl.new uuid factory.serviceName factory.instanceName spanContext extSpanContext factory.randomGenerator
  match extSpanContext with
  | none => throw .null
  | some extension =>
    let context := if extension.tracingMode = .skip then context.setSkipAnalysis else context
    return (context, { factory with randomGenerator })

end TracingContextFactory

/-- The overloads of `TracingContextFactory::create`. -/
inductive FactoryCall where
  | create
  | createOfContext (spanContext : Option SpanContextImpl)
  | createOfExtension (spanContext : Option SpanContextImpl) (extSpanContext : Option SpanContextExtensionImpl)
  deriving DecidableEq

def FactoryCall.run {ρ : Type} (uuid : ρ → Bytes × ρ) (factory : TracingContextFactory ρ) :
    FactoryCall → Outcome (TracingContextImpl × TracingContextFactory ρ)
  | .create => .ok (factory.create uuid)
  | .createOfContext spanContext => .ok (factory.createOfContext uuid spanContext)
  | .createOfExtension spanContext extSpanContext => factory.createOfExtension uuid spanContext extSpanContext

end Cpp2Sky

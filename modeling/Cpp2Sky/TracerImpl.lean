import Cpp2Sky.AsyncClient
import Cpp2Sky.Tracer

/-! A tracer with its reporter: the constructors, `init` and the destructor of
source/tracer_impl, and `report` with the `sendMessage` that it ends in. The
threads of the reporter go on between any two calls of the application. -/

namespace Cpp2Sky

/-- A proto3 enumeration keeps the numbers that it has no name for. -/
inductive Protocol where
  | grpc
  | rest
  | unrecognized (value : Int32)
  deriving DecidableEq

/-- What a tracer reads of cpp2sky/config.proto. -/
structure TracerConfig where
  protocol : Protocol
  serviceName : Bytes
  instanceName : Bytes
  ignoreOperationNameSuffix : List Bytes

structure TracerImpl (ρ : Type) where
  tracer : Tracer ρ
  asyncClient : AsyncClient.State SegmentObject

/-- A client of the caller's, or one that `init` creates. -/
def TracerImpl.init (config : TracerConfig) :
    Option (AsyncClient.State SegmentObject) → Outcome (AsyncClient.State SegmentObject × SuffixMatcher)
  | some asyncClient => return (asyncClient, { targetSuffixes := config.ignoreOperationNameSuffix })
  | none =>
    if config.protocol ≠ .grpc then throw (.exception "Only GRPC is supported.")
    else return (AsyncClient.constructed, { targetSuffixes := config.ignoreOperationNameSuffix })

def TracerImpl.new {ρ : Type} (config : TracerConfig) (asyncClient : Option (AsyncClient.State SegmentObject))
    (randomGenerator : ρ) : Outcome (TracerImpl ρ) := do
  let (asyncClient, ignoreMatcher) ← TracerImpl.init config asyncClient
  return {
    tracer := { serviceName := config.serviceName, instanceName := config.instanceName, ignoreMatcher, randomGenerator }
    asyncClient }

/-- `report` is called by one of the threads that send messages. -/
inductive TracerImplCall where
  | newContext (span : Option SpanContextImpl)
  | context (index : Nat) (call : ContextCall)
  | report (thread : Nat) (context : Option Nat)
  | destructor
  | reporter (action : AsyncClient.Action SegmentObject)
  deriving DecidableEq

def TracerImpl.step {ρ : Type} (uuid : ρ → Bytes × ρ) (tracerImpl : TracerImpl ρ) : TracerImplCall → Option (TracerImpl ρ)
  | .newContext span => do
    let tracer ← tracerImpl.tracer.step uuid (.newContext span)
    return { tracerImpl with tracer }
  | .context index call => do
    let tracer ← tracerImpl.tracer.step uuid (.context index call)
    return { tracerImpl with tracer }
  | .report thread context => do
    let tracer ← tracerImpl.tracer.step uuid (.report context)
    match tracer.handed[tracerImpl.tracer.handed.length]? with
    | none => return { tracerImpl with tracer }
    | some handed =>
      let asyncClient ← AsyncClient.step tracerImpl.asyncClient (.call thread handed.segment)
      return { tracer, asyncClient }
  | .destructor => do
    let asyncClient ← AsyncClient.step tracerImpl.asyncClient .reset
    return { tracerImpl with asyncClient }
  -- Nothing but `report` and the destructor calls the client.
  | .reporter (.call _ _) | .reporter .reset => none
  | .reporter action => do
    let asyncClient ← AsyncClient.step tracerImpl.asyncClient action
    return { tracerImpl with asyncClient }

end Cpp2Sky

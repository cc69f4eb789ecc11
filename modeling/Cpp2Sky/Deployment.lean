import Cpp2Sky.Mesh
import Cpp2Sky.TracerImpl

/-! Services with a tracer each, whose reporters send to one collector. A service
receives headers that any of them returned before. Beside the tracers stands in
which order their contexts were created, and from which headers. -/

namespace Cpp2Sky

/-- A context by its service and its place there. -/
structure Origin where
  service : Nat
  context : Nat
  header : Option Nat
  deriving DecidableEq

def Origin.key (origin : Origin) : Nat × Nat := (origin.service, origin.context)

structure Deployment (ρ : Type) where
  services : List (TracerImpl ρ) := []
  origins : List Origin := []
  headers : List Sent := []

inductive DeploymentCall (ρ : Type) where
  | createInsecureGrpcTracer (config : TracerConfig) (random : ρ)
  | newContext (service : Nat) (header : Option Nat)
  | createSW8HeaderValue (service context : Nat) (targetAddress : Bytes)
  /-- The other calls of a service, and the steps of its reporter. -/
  | tracer (service : Nat) (call : TracerImplCall)

namespace Deployment
variable {ρ : Type} (uuid : ρ → Bytes × ρ) (simpleAtoi : Bytes → Option Int32) (deployment : Deployment ρ)

/-- The place of a context in the order of creation. -/
def place (service context : Nat) : Nat := deployment.origins.findIdx fun origin => origin.key = (service, context)

/-- What a service makes of the header of a request. -/
def receive : Option Nat → Option (Option SpanContextImpl)
  | none => some none
  | some header => do
    let sent ← deployment.headers[header]?
    let parent ← (createSpanContext simpleAtoi sent.text).toOption
    return some parent

def step : DeploymentCall ρ → Option (Deployment ρ)
  | .createInsecureGrpcTracer config random => do
    let tracerImpl ← (TracerImpl.new config none random).toOption
    return { deployment with services := deployment.services ++ [tracerImpl] }
  | .newContext service header => do
    let tracerImpl ← deployment.services[service]?
    let span ← deployment.receive simpleAtoi header
    let moved ← tracerImpl.step uuid (.newContext span)
    return { deployment with
      services := deployment.services.set service moved
      origins := deployment.origins ++ [{ service, context := tracerImpl.tracer.contexts.length, header }] }
  | .createSW8HeaderValue service context targetAddress => do
    let tracerImpl ← deployment.services[service]?
    let tracked ← tracerImpl.tracer.contexts[context]?
    let header ← (tracked.context.createSW8HeaderValue targetAddress).toOption
    return { deployment with
      headers := deployment.headers ++ header.toList.map fun text => { text, node := deployment.place service context } }
  -- A parent comes from a header only.
  | .tracer _ (.newContext _) => none
  | .tracer service call => do
    let tracerImpl ← deployment.services[service]?
    let moved ← tracerImpl.step uuid call
    return { deployment with services := deployment.services.set service moved }

end Deployment

/-- The segment that a tracer has handed over for a context. -/
def Tracer.collected {ρ : Type} (tracer : Tracer ρ) (index : Nat) : Option SegmentObject :=
  (tracer.handed.find? fun handed => handed.index = index).map Handed.segment

/-- A context as it stands among those of all services. -/
def Tracer.node {ρ : Type} (tracer : Tracer ρ) (index : Nat) (header : Option Nat) : Option Node :=
  tracer.contexts[index]?.map fun tracked =>
    { header, context := tracked.context, collected := tracer.collected index }

def Deployment.node {ρ : Type} (deployment : Deployment ρ) (origin : Origin) : Option Node := do
  let tracerImpl ← deployment.services[origin.service]?
  tracerImpl.tracer.node origin.context origin.header

/-- The contexts of all services without their reporters. -/
def Deployment.mesh {ρ : Type} (deployment : Deployment ρ) : Mesh where
  nodes := deployment.origins.filterMap deployment.node
  headers := deployment.headers

end Cpp2Sky

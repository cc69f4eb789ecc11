import Cpp2Sky.Tracer

/-! Services that trace each other's requests. Contexts are created in any of
them, without a parent or from a header that any context returned before, and a
header can be lost, delayed and received more than once. Beside a context stands
which header it is from and what its report has handed over. -/

namespace Cpp2Sky

structure Node where
  header : Option Nat
  context : TracingContextImpl
  collected : Option SegmentObject := none

/-- A header with the place of the context that returned it. -/
structure Sent where
  text : Bytes
  node : Nat

structure Mesh where
  nodes : List Node := []
  headers : List Sent := []

/-- Contexts and headers are known by their places, in the order of creation. -/
inductive MeshCall (ρ : Type) where
  | create (serviceName instanceName : Bytes) (header : Option Nat) (random : ρ)
  | context (node : Nat) (call : ContextCall)
  | createSW8HeaderValue (node : Nat) (targetAddress : Bytes)
  | report (node : Nat) (ignoreMatcher : SuffixMatcher)

section Step
variable {ρ : Type} (uuid : ρ → Bytes × ρ) (simpleAtoi : Bytes → Option Int32)

/-- The parent that a service reads from a header. -/
def Mesh.receive (mesh : Mesh) (header : Nat) : Option SpanContextImpl := do
  let sent ← mesh.headers[header]?
  (createSpanContext simpleAtoi sent.text).toOption

def Mesh.step (mesh : Mesh) : MeshCall ρ → Option Mesh
  | .create serviceName instanceName none random =>
    let (context, _) := TracingContextImpl.new uuid serviceName instanceName none none random
    some { mesh with nodes := mesh.nodes ++ [{ header := none, context }] }
  | .create serviceName instanceName (some header) random => do
    let parent ← mesh.receive simpleAtoi header
    let (context, _) := TracingContextImpl.new uuid serviceName instanceName (some parent) none random
    return { mesh with nodes := mesh.nodes ++ [{ header := some header, context }] }
  | .context place call => do
    let node ← mesh.nodes[place]?
    let context ← node.context.step call
    return { mesh with nodes := mesh.nodes.set place { node with context } }
  | .createSW8HeaderValue place targetAddress => do
    let node ← mesh.nodes[place]?
    let header ← (node.context.createSW8HeaderValue targetAddress).toOption
    return { mesh with headers := mesh.headers ++ header.toList.map fun text => { text, node := place } }
  | .report place ignoreMatcher => do
    let node ← mesh.nodes[place]?
    let (_, sent) ← (TracerImpl.report ignoreMatcher (some node.context)).toOption
    return sent.elim mesh fun (segment, context) =>
      { mesh with nodes := mesh.nodes.set place { node with context, collected := some segment } }

end Step

/-- The segment as the collector has it, or as it is so far. -/
def Node.segment (node : Node) : SegmentObject := node.collected.getD node.context.segmentStore

/-- The object of a span, by the places of its context and in its segment. -/
def Mesh.object (mesh : Mesh) (place : Nat × Nat) : Option SpanObject := do
  let node ← mesh.nodes[place.1]?
  node.segment.spans[place.2]?

end Cpp2Sky

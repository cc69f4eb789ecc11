import Cpp2Sky.StringView
import Cpp2Sky.TraceLog

/-! The entry points of cpp2sky/tracing_context.h, its guards among them. -/

namespace Cpp2Sky

/-- The constructor of `StartEntrySpan`, with the place of its span. -/
def startEntrySpan (context : TracingContextImpl) (operationName : Bytes) (time : Int64) :
    Outcome (TracingContextImpl × Nat) := do
  let (context, span) ← context.createEntrySpan
  match span with
  | none => throw .null
  | some span => do
    let context ← context.onSpan span fun span => .ok (span.startSpanImpl operationName time)
    return (context, span)

/-- The constructor of `StartExitSpan`. -/
def startExitSpan (context : TracingContextImpl) (parentSpan : TracingSpanImpl) (operationName : Bytes) (time : Int64) :
    Outcome (TracingContextImpl × Nat) := do
  let (context, span) ← context.createExitSpan parentSpan
  let context ← context.onSpan span fun span => .ok (span.startSpanImpl operationName time)
  return (context, span)

/-- The calls that take texts, as views of them or as what was made of the views. -/
inductive TextCall (τ : Type) where
  | startSpan (span : Nat) (operationName : τ) (time : Int64)
  | addTag (span : Nat) (key value : τ)
  | addLog (span : Nat) (key value : τ) (time : Int64)
  | setPeer (span : Nat) (remoteAddress : τ)
  | setOperationName (span : Nat) (name : τ)
  | createSW8HeaderValue (targetAddress : τ)
  | logMessage (message : τ)
  | startEntrySpan (operationName : τ) (time : Int64)
  | startExitSpan (parentSpan : ParentSpan) (operationName : τ) (time : Int64)
  deriving DecidableEq

namespace TextCall

def map {τ υ : Type} (f : τ → υ) : TextCall τ → TextCall υ
  | .startSpan span operationName time => .startSpan span (f operationName) time
  | .addTag span key value => .addTag span (f key) (f value)
  | .addLog span key value time => .addLog span (f key) (f value) time
  | .setPeer span remoteAddress => .setPeer span (f remoteAddress)
  | .setOperationName span name => .setOperationName span (f name)
  | .createSW8HeaderValue targetAddress => .createSW8HeaderValue (f targetAddress)
  | .logMessage message => .logMessage (f message)
  | .startEntrySpan operationName time => .startEntrySpan (f operationName) time
  | .startExitSpan parentSpan operationName time => .startExitSpan parentSpan (f operationName) time

/-- What each entry point makes of its views. -/
def convert : TextCall StringView → Outcome (TextCall Copied)
  | .startSpan span operationName time => do return .startSpan span (← operationName.toStdString) time
  | .addTag span key value => do return .addTag span (← key.toStdString) (← value.toStdString)
  | .addLog span key value time => do return .addLog span (← key.toStdString) (← value.toStdString) time
  | .setPeer span remoteAddress => do return .setPeer span (← remoteAddress.toStdString)
  | .setOperationName span name => do return .setOperationName span (← name.toStdString)
  | .createSW8HeaderValue targetAddress => do return .createSW8HeaderValue (← targetAddress.toStdString)
  | .logMessage message => do return .logMessage (← message.data)
  | .startEntrySpan operationName time => do return .startEntrySpan (← operationName.data) time
  | .startExitSpan parentSpan operationName time => do return .startExitSpan parentSpan (← operationName.data) time

/-- The call itself, with the text that it returns. -/
def perform (context : TracingContextImpl) : TextCall Bytes → Outcome (TracingContextImpl × Option Bytes)
  | .startSpan span operationName time => do
    let context ← context.onSpan span fun span => .ok (span.startSpanImpl operationName time)
    return (context, none)
  | .addTag span key value => do
    let context ← context.onSpan span fun span => span.addTag key value
    return (context, none)
  | .addLog span key value time => do
    let context ← context.onSpan span fun span => span.addLogImpl key value time
    return (context, none)
  | .setPeer span remoteAddress => do
    let context ← context.onSpan span fun span => span.setPeer remoteAddress
    return (context, none)
  | .setOperationName span name => do
    let context ← context.onSpan span fun span => span.setOperationName name
    return (context, none)
  | .createSW8HeaderValue targetAddress => do
    let header ← context.createSW8HeaderValue targetAddress
    return (context, header)
  | .logMessage message => do
    let output ← context.logMessage message
    return (context, some output)
  | .startEntrySpan operationName time => do
    let (context, _) ← Cpp2Sky.startEntrySpan context operationName time
    return (context, none)
  | .startExitSpan parentSpan operationName time => do
    let parentSpan ← parentSpan.read context
    let (context, _) ← Cpp2Sky.startExitSpan context parentSpan operationName time
    return (context, none)

def run (context : TracingContextImpl) (call : TextCall StringView) : Outcome (TracingContextImpl × Option Bytes) := do
  let copied ← call.convert
  (copied.map Copied.text).perform context

end TextCall

/-- A program with a context: the spans it holds, a span of a segment that was
moved out being no longer one of the context, and the guards that are open. -/
structure Session where
  context : TracingContextImpl
  spans : List ParentSpan := []
  guards : List Nat := []
  deriving DecidableEq

inductive ApiCall where
  | createEntrySpan
  | createExitSpan (parentSpan : Nat)
  | startEntrySpan (operationName : Bytes) (time : Int64)
  | startExitSpan (parentSpan : Nat) (operationName : Bytes) (time : Int64)
  /-- The destructor of a guard. -/
  | endGuard (guard : Nat) (time : Int64)
  | createSW8HeaderValue (targetAddress : Bytes)
  | readyToSend
  | logMessage (message : Bytes)
  | createSegmentObject
  deriving DecidableEq

namespace Session

def parent (session : Session) (span : Nat) : Outcome TracingSpanImpl :=
  match session.spans[span]? with
  | none => throw .outOfBounds
  | some parentSpan => parentSpan.read session.context

def onSpan (session : Session) (span : Nat) (operation : TracingSpanImpl → Outcome TracingSpanImpl) : Outcome Session :=
  match session.spans[span]? with
  | none => throw .outOfBounds
  | some (.own index) => do
    let context ← session.context.onSpan index operation
    return { session with context }
  | some (.other moved) => do
    let moved ← operation moved
    return { session with spans := session.spans.set span (.other moved) }

def created (session : Session) (context : TracingContextImpl) (span : Nat) : Session :=
  { session with context, spans := session.spans ++ [.own span] }

def guarded (session : Session) : Session := { session with guards := session.guards ++ [session.spans.length - 1] }

/-- The spans of the context go along with its segment. -/
def detached (session : Session) : List ParentSpan :=
  session.spans.map fun span =>
    match span.read session.context with
    | .ok moved => .other moved
    | .error _ => span

end Session

/-- One call, with the text that it returns. -/
def ApiCall.run (session : Session) : ApiCall → Outcome (Session × Option Bytes)
  | .createEntrySpan => do
    let (context, span) ← session.context.createEntrySpan
    match span with
    | none => return ({ session with context }, none)
    | some span => return (session.created context span, none)
  | .createExitSpan parentSpan => do
    let parentSpan ← session.parent parentSpan
    let (context, span) ← session.context.createExitSpan parentSpan
    return (session.created context span, none)
  | .startEntrySpan operationName time => do
    let (context, span) ← Cpp2Sky.startEntrySpan session.context operationName time
    return ((session.created context span).guarded, none)
  | .startExitSpan parentSpan operationName time => do
    let parentSpan ← session.parent parentSpan
    let (context, span) ← Cpp2Sky.startExitSpan session.context parentSpan operationName time
    return ((session.created context span).guarded, none)
  | .endGuard guard time =>
    match session.guards[guard]? with
    | none => throw .outOfBounds
    | some span => do
      let session ← session.onSpan span fun span => span.endSpanImpl time
      return ({ session with guards := session.guards.eraseIdx guard }, none)
  | .createSW8HeaderValue targetAddress => do
    let header ← session.context.createSW8HeaderValue targetAddress
    return (session, header)
  | .readyToSend => return (session, none)
  | .logMessage message => do
    let output ← session.context.logMessage message
    return (session, some output)
  | .createSegmentObject =>
    return ({ session with context := session.context.createSegmentObject.2, spans := session.detached }, none)

def Session.step (session : Session) (call : ApiCall) : Option Session := ((call.run session).map Prod.fst).toOption

end Cpp2Sky

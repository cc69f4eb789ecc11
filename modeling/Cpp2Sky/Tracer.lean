import Cpp2Sky.TracingContext

/-! source/tracer_impl and source/matchers. A program holds a tracer and handles
on its contexts. Beside them stands what no call reads: the calls each context
has taken, what was handed to the async client, and what `report` answered. -/

namespace Cpp2Sky

structure SuffixMatcher where
  targetSuffixes : List Bytes

def SuffixMatcher.match (matcher : SuffixMatcher) (target : Bytes) : Bool :=
  matcher.targetSuffixes.any fun ignoreSuffix => ignoreSuffix.isSuffixOf target

/-- The result, and the segment for `sendMessage` with what is left of its context. -/
def TracerImpl.report (ignoreMatcher : SuffixMatcher) :
    Option TracingContextImpl → Outcome (Bool × Option (SegmentObject × TracingContextImpl))
  | none => return (false, none)
  | some context =>
    if !context.readyToSend then return (false, none)
    else do
      let ignored ← if context.spans ≠ [] then do
          let front ← context.span 0
          pure (ignoreMatcher.match front.spanStore.operationName)
        else pure false
      if ignored then return (false, none)
      else return (true, some context.createSegmentObject)

/-- A context with its state after the constructor and the calls since. -/
structure Tracked where
  constructed : TracingContextImpl
  calls : List ContextCall
  context : TracingContextImpl

/-- A segment with the place of its context and the calls before it was made. -/
structure Handed where
  index : Nat
  constructed : TracingContextImpl
  calls : List ContextCall
  segment : SegmentObject

/-- `again` tells whether the context was handed over before. -/
structure Reply where
  again : Bool
  result : Bool
  sent : Bool
  deriving DecidableEq

structure Tracer (ρ : Type) where
  serviceName : Bytes
  instanceName : Bytes
  ignoreMatcher : SuffixMatcher
  randomGenerator : ρ
  contexts : List Tracked := []
  handed : List Handed := []
  replies : List Reply := []

/-- Handles are places in `contexts`; any number of them may be the same. A span
handle that is older than a report leads into the segment handed over, so that
it changes no context. -/
inductive TracerCall where
  | newContext (span : Option SpanContextImpl)
  | context (index : Nat) (call : ContextCall)
  | report (context : Option Nat)
  deriving DecidableEq

def Tracer.reported {ρ : Type} (tracer : Tracer ρ) (index : Nat) : Prop := index ∈ tracer.handed.map Handed.index

instance {ρ : Type} (tracer : Tracer ρ) (index : Nat) : Decidable (tracer.reported index) :=
  inferInstanceAs (Decidable (_ ∈ _))

def Tracer.step {ρ : Type} (uuid : ρ → Bytes × ρ) (tracer : Tracer ρ) : TracerCall → Option (Tracer ρ)
  | .newContext span =>
    let (context, randomGenerator) :=
      TracingContextImpl.new uuid tracer.serviceName tracer.instanceName span none tracer.randomGenerator
    some { tracer with
      randomGenerator, contexts := tracer.contexts ++ [{ constructed := context, calls := [], context }] }
  | .context index call => do
    let tracked ← tracer.contexts[index]?
    let context ← tracked.context.step call
    return { tracer with
      contexts := tracer.contexts.set index { tracked with calls := tracked.calls ++ [call], context } }
  | .report none => do
    let (result, sent) ← (TracerImpl.report tracer.ignoreMatcher none).toOption
    return { tracer with replies := tracer.replies ++ [{ again := false, result, sent := sent.isSome }] }
  | .report (some index) => do
    let tracked ← tracer.contexts[index]?
    let (result, sent) ← (TracerImpl.report tracer.ignoreMatcher (some tracked.context)).toOption
    let reply := { again := decide (tracer.reported index), result, sent := sent.isSome }
    let handed := sent.toList.map fun sent =>
      { index, constructed := tracked.constructed, calls := tracked.calls, segment := sent.1 }
    let context := sent.elim tracked.context Prod.snd
    return { tracer with
      contexts := tracer.contexts.set index { tracked with context }
      handed := tracer.handed ++ handed, replies := tracer.replies ++ [reply] }

end Cpp2Sky

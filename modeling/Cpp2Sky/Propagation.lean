import Cpp2Sky.Base64

/-! source/propagation_impl.cc. `absl::SimpleAtoi` on an `int32_t` is a parameter,
`none` where it returns false. -/

namespace Cpp2Sky
open Base64

inductive TracingMode where
  | default
  | skip
  deriving DecidableEq

structure SpanContextImpl where
  sample : Bool
  traceId : Bytes
  traceSegmentId : Bytes
  spanId : Int32
  service : Bytes
  serviceInstance : Bytes
  endpoint : Bytes
  targetAddress : Bytes
  deriving DecidableEq

structure SpanContextExtensionImpl where
  tracingMode : TracingMode
  deriving DecidableEq

def expectedFieldCount : Nat := 8

def expectedExtensionFieldCount : Nat := 1

def separator : UInt8 := '-'.toUInt8

def assign (fields : List Bytes) (index : Nat) (value : Bytes) : Outcome (List Bytes) :=
  if index < fields.length then .ok (fields.set index value) else .error .outOfBounds

/-- The loop of both constructors over what is left of the header, and the
assignment behind it, with `current_field_idx` as it is then. -/
def readFields (expected : Nat) (message : String) :
    Bytes → List Bytes → Nat → Bytes → Outcome (List Bytes × Nat)
  | [], fields, currentFieldIdx, value => do
    let fields ← assign fields currentFieldIdx value
    return (fields, currentFieldIdx)
  | char :: rest, fields, currentFieldIdx, value =>
    if expected ≤ currentFieldIdx then throw (.exception message)
    else if char = separator then do
      let fields ← assign fields currentFieldIdx value
      readFields expected message rest fields (currentFieldIdx + 1) []
    else readFields expected message rest fields currentFieldIdx (value ++ [char])

def fieldsOf (expected : Nat) (message : String) (headerValue : Bytes) : Outcome (List Bytes) := do
  let (fields, currentFieldIdx) ← readFields expected message headerValue (List.replicate expected []) 0 []
  if currentFieldIdx ≠ expected - 1 then throw (.exception message)
  return fields

/-- The constructor. -/
def SpanContextImpl.new (simpleAtoi : Bytes → Option Int32) (headerValue : Bytes) : Outcome SpanContextImpl := do
  let fields ← fieldsOf expectedFieldCount "Invalid span context format. It must have 8 fields." headerValue
  let field (index : Nat) := fields.getD index []
  if field 0 ≠ ascii ['0'] ∧ field 0 ≠ ascii ['1'] then
    throw (.exception "Invalid span context format. Sample field must be 0 or 1.")
  let traceId ← decodeWithoutPadding (field 1)
  let traceSegmentId ← decodeWithoutPadding (field 2)
  match simpleAtoi (field 3) with
  | none => throw (.exception "Invalid span id format. Span id field must be integer number.")
  | some spanId =>
    let service ← decodeWithoutPadding (field 4)
    let serviceInstance ← decodeWithoutPadding (field 5)
    let endpoint ← decodeWithoutPadding (field 6)
    let targetAddress ← decodeWithoutPadding (field 7)
    return { sample := true, traceId, traceSegmentId, spanId, service, serviceInstance, endpoint, targetAddress }

/-- The constructor. -/
def SpanContextExtensionImpl.new (headerValue : Bytes) : Outcome SpanContextExtensionImpl := do
  let fields ← fieldsOf expectedExtensionFieldCount "Invalid span context format. It must have 1 fields." headerValue
  let field (index : Nat) := fields.getD index []
  if field 0 ≠ ascii ['0'] ∧ field 0 ≠ ascii ['1'] then
    throw (.exception "Invalid span context format. tracing mode field must be 0 or 1.")
  return { tracingMode := if field 0 = ascii ['1'] then .skip else .default }

def createSpanContext (simpleAtoi : Bytes → Option Int32) (ctx : Bytes) : Outcome SpanContextImpl :=
  SpanContextImpl.new simpleAtoi ctx

def createSpanContextExtension (ctx : Bytes) : Outcome SpanContextExtensionImpl := SpanContextExtensionImpl.new ctx

end Cpp2Sky

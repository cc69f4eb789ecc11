import Cpp2Sky.TracingContext

/-! cpp2sky/trace_log.h and `TracingContextImpl::logMessage`. A line is begun by the
pattern that spdlog formats and ended by the message itself. -/

namespace Cpp2Sky

/-- `spdlog::level::level_enum`. -/
inductive Level where
  | trace
  | debug
  | info
  | warn
  | err
  | critical
  | off
  deriving DecidableEq

/-- What spdlog prints for `%l`. -/
def Level.name : Level → Bytes
  | .trace => asciiOf "trace"
  | .debug => asciiOf "debug"
  | .info => asciiOf "info"
  | .warn => asciiOf "warning"
  | .err => asciiOf "error"
  | .critical => asciiOf "critical"
  | .off => asciiOf "off"

def spdlogLogFormat : Bytes := asciiOf "\x7b\"level\": \"%^%l%$\", \"msg\": \"%v"

def logFormat : Bytes := spdlogLogFormat

/-- The pattern formatter of spdlog, as far as this format goes: `%l` is the level,
`%v` the message, and the range of colours `%^` to `%$` prints nothing. -/
def formatPattern (level : Level) (message : Bytes) : Bytes → Bytes
  | [] => []
  | [char] => [char]
  | char :: flag :: rest =>
    if char ≠ '%'.toUInt8 then char :: formatPattern level message (flag :: rest)
    else if flag = 'l'.toUInt8 then level.name ++ formatPattern level message rest
    else if flag = 'v'.toUInt8 then message ++ formatPattern level message rest
    else if flag = '^'.toUInt8 ∨ flag = '$'.toUInt8 then formatPattern level message rest
    else char :: flag :: formatPattern level message rest

/-- `output` is what `message.data()` was read as. -/
def TracingContextImpl.logMessage (context : TracingContextImpl) (output : Bytes) : Outcome Bytes := do
  let output := output ++ asciiOf "\", \"SW_CTX\": ["
  let output := output ++ asciiOf "\"" ++ context.segmentStore.service ++ asciiOf "\","
  let output := output ++ asciiOf "\"" ++ context.segmentStore.serviceInstance ++ asciiOf "\","
  let output := output ++ asciiOf "\"" ++ context.segmentStore.traceId ++ asciiOf "\","
  let output := output ++ asciiOf "\"" ++ context.segmentStore.traceSegmentId ++ asciiOf "\","
  if context.spans ≠ [] then do
    let back ← context.span (context.spans.length - 1)
    return output ++ asciiOf "\"" ++ stdToString back.spanStore.spanId ++ asciiOf "\"]\x7d"
  else return output ++ asciiOf "\"-1\"]\x7d"

end Cpp2Sky

import Cpp2Sky.Proofs.LogLine
import Cpp2Sky.Proofs.SkipAnalysis

/-! Which calls of the tracing API are defined in which states. Two of them need
something that they do not test: a header a last span, an entry guard no span. -/

namespace Cpp2Sky
open Runs

/-- The call neither looks for a span in an empty list nor uses a span that is not
there, a header is none where no exit span is there to name, and a second entry
guard leaves the context as it is. -/
structure Defined (session : Session) (call : ApiCall) : Prop where
  nonempty : call.run session ≠ .error .empty
  nonnull : call.run session ≠ .error .null
  nullopt : ∀ targetAddress, call = .createSW8HeaderValue targetAddress →
    (∀ span ∈ session.context.view, span.spanStore.spanType ≠ .exit) → call.run session = .ok (session, none)
  harmless : ∀ operationName time, call = .startEntrySpan operationName time → session.context.spans ≠ [] →
    ∃ after, call.run session = .ok after ∧ after.1.context = session.context

/-- A header is asked for where there is a span, an entry guard opened where there is none. -/
def InOrder (session : Session) : ApiCall → Prop
  | .createSW8HeaderValue _ => session.context.spans ≠ []
  | .startEntrySpan _ _ => session.context.spans = []
  | _ => True

instance (session : Session) (call : ApiCall) : Decidable (InOrder session call) := by
  cases call with
  | createSW8HeaderValue => exact inferInstanceAs (Decidable (_ ≠ _))
  | startEntrySpan => exact inferInstanceAs (Decidable (_ = _))
  | _ => exact inferInstanceAs (Decidable True)

section Context
variable {context : TracingContextImpl}

theorem startEntrySpan_first (first : context.spans = []) (operationName : Bytes) (time : Int64) :
    startEntrySpan context operationName time =
      .ok (context.pushBack (context.entrySpan.startSpanImpl operationName time), context.spans.length) := by
  simp only [startEntrySpan, TracingContextImpl.createEntrySpan_first first, Outcome.ok_bind,
    TracingContextImpl.onSpan_pushBack, Outcome.pure_eq]

theorem startEntrySpan_again (opened : context.spans ≠ []) (operationName : Bytes) (time : Int64) :
    startEntrySpan context operationName time = .error .null := by
  simp only [startEntrySpan, TracingContextImpl.createEntrySpan_again opened, Outcome.ok_bind, Outcome.throw_eq]

theorem startExitSpan_eq (parentSpan : TracingSpanImpl) (operationName : Bytes) (time : Int64) :
    startExitSpan context parentSpan operationName time =
      .ok (context.pushBack ((context.exitSpan parentSpan.spanStore.spanId).startSpanImpl operationName time),
        context.spans.length) := by
  simp only [startExitSpan, TracingContextImpl.createExitSpan_eq, Outcome.ok_bind, TracingContextImpl.onSpan_pushBack,
    Outcome.pure_eq]

theorem createSW8HeaderValue_empty (none : context.spans = []) (targetAddress : Bytes) :
    context.createSW8HeaderValue targetAddress = .error .empty := by
  simp only [TracingContextImpl.createSW8HeaderValue, none, ite_true, Outcome.throw_eq, Outcome.error_bind]

theorem Linked.span_lt (linked : Linked context) {index : Nat} (inside : index < context.spans.length) :
    ∃ span, context.span index = .ok span ∧ span ∈ context.view := by
  have present := List.getElem?_eq_getElem (linked.view_length ▸ inside)
  exact ⟨_, linked.span_iff.mpr present, List.getElem_mem _⟩

/-- With a span there is an answer, and it is none unless the last span is an exit span. -/
theorem Linked.createSW8HeaderValue (linked : Linked context) (opened : context.spans ≠ []) (targetAddress : Bytes) :
    ∃ header, context.createSW8HeaderValue targetAddress = .ok header ∧
      ((∀ span ∈ context.view, span.spanStore.spanType ≠ .exit) → header = none) := by
  have some := List.length_pos_iff.mpr opened
  obtain ⟨last, found, member⟩ := linked.span_lt (show context.spans.length - 1 < context.spans.length by omega)
  obtain ⟨first, front, _⟩ := linked.span_lt some
  by_cases exit : last.spanStore.spanType = .exit
  · obtain ⟨header, encoded⟩ : ∃ header, context.encodeSpan last targetAddress = .ok header := by
      simp only [TracingContextImpl.encodeSpan, opened, front, ite_false, Outcome.ok_bind, Outcome.pure_eq,
        Except.ok.injEq, exists_eq']
    refine ⟨header, ?_, fun none => absurd exit (none last member)⟩
    simp only [TracingContextImpl.createSW8HeaderValue, opened, found, encoded, exit, ne_eq, not_true_eq_false,
      ite_false, Outcome.ok_bind, Outcome.pure_eq]
  · refine ⟨none, ?_, fun _ => rfl⟩
    simp only [TracingContextImpl.createSW8HeaderValue, opened, found, exit, ne_eq, not_false_eq_true, ite_true, ite_false,
      Outcome.ok_bind, Outcome.pure_eq]

theorem span_stop {index : Nat} {stop : Stop} (stopped : context.span index = .error stop) : stop = .outOfBounds := by
  unfold TracingContextImpl.span at stopped
  split at stopped
  next => cases stopped; rfl
  next =>
    split at stopped <;> cases stopped
    rfl

end Context

/-- The two ways to leave the program that no order of calls brings about. -/
def Stop.benign : Stop → Prop
  | .empty | .null => False
  | .exception _ | .assertion | .outOfBounds => True

private theorem parent_stop {session : Session} {span : Nat} {stop : Stop} (stopped : session.parent span = .error stop) :
    stop.benign := by
  unfold Session.parent at stopped
  split at stopped
  next => cases stopped; exact True.intro
  next parentSpan _ =>
    cases parentSpan with
    | own index => exact span_stop stopped ▸ True.intro
    | other => cases stopped

private theorem endSpan_stop {session : Session} {span : Nat} {time : Int64} {stop : Stop}
    (stopped : (session.onSpan span fun span => span.endSpanImpl time) = .error stop) : stop.benign := by
  have asserts {span : TracingSpanImpl} (stopped : span.endSpanImpl time = .error stop) : stop.benign := by
    have ends : (SpanCall.endSpan time).run span = .error stop := stopped
    rw [run_stop ends]
    exact True.intro
  unfold Session.onSpan at stopped
  split at stopped
  next => cases stopped; exact True.intro
  next index _ =>
    rcases Outcome.bind_eq_error.mp stopped with inside | ⟨_, _, rest⟩
    · rcases Outcome.bind_eq_error.mp inside with missing | ⟨span, _, rest⟩
      · exact span_stop missing ▸ True.intro
      · rcases Outcome.bind_eq_error.mp rest with asserted | ⟨_, _, rest⟩
        · exact asserts asserted
        · cases rest
    · cases rest
  next moved _ =>
    rcases Outcome.bind_eq_error.mp stopped with asserted | ⟨_, _, rest⟩
    · exact asserts asserted
    · cases rest

private theorem run_benign {session : Session} (linked : Linked session.context) {call : ApiCall}
    (inOrder : InOrder session call) {stop : Stop} (stopped : call.run session = .error stop) : stop.benign := by
  cases call with
  | createEntrySpan =>
    by_cases first : session.context.spans = []
    · simp only [ApiCall.run, TracingContextImpl.createEntrySpan_first first, Outcome.ok_bind] at stopped
      cases stopped
    · simp only [ApiCall.run, TracingContextImpl.createEntrySpan_again first, Outcome.ok_bind] at stopped
      cases stopped
  | createExitSpan parentSpan =>
    rcases Outcome.bind_eq_error.mp stopped with missing | ⟨_, _, rest⟩
    · exact parent_stop missing
    · simp only [TracingContextImpl.createExitSpan_eq, Outcome.ok_bind] at rest
      cases rest
  | startEntrySpan operationName time =>
    simp only [ApiCall.run, startEntrySpan_first inOrder, Outcome.ok_bind] at stopped
    cases stopped
  | startExitSpan parentSpan operationName time =>
    rcases Outcome.bind_eq_error.mp stopped with missing | ⟨_, _, rest⟩
    · exact parent_stop missing
    · simp only [startExitSpan_eq, Outcome.ok_bind] at rest
      cases rest
  | endGuard guard time =>
    simp only [ApiCall.run] at stopped
    split at stopped
    next => cases stopped; exact True.intro
    next =>
      rcases Outcome.bind_eq_error.mp stopped with ended | ⟨_, _, rest⟩
      · exact endSpan_stop ended
      · cases rest
  | createSW8HeaderValue targetAddress =>
    obtain ⟨header, created, _⟩ := linked.createSW8HeaderValue inOrder targetAddress
    simp only [ApiCall.run, created, Outcome.ok_bind] at stopped
    cases stopped
  | readyToSend | createSegmentObject => cases stopped
  | logMessage message =>
    rcases Outcome.bind_eq_error.mp stopped with logged | ⟨_, _, rest⟩
    · rw [linked.logMessage_eq] at logged
      cases logged
    · cases rest

theorem defined_iff {session : Session} (linked : Linked session.context) (call : ApiCall) :
    Defined session call ↔ InOrder session call := by
  constructor
  · intro defined
    cases call with
    | createSW8HeaderValue targetAddress =>
      intro none
      apply defined.nonempty
      simp only [ApiCall.run, createSW8HeaderValue_empty none, Outcome.error_bind]
    | startEntrySpan operationName time =>
      by_contra opened
      apply defined.nonnull
      simp only [ApiCall.run, startEntrySpan_again opened, Outcome.error_bind]
    | _ => exact True.intro
  · intro inOrder
    refine ⟨fun stopped => run_benign linked inOrder stopped, fun stopped => run_benign linked inOrder stopped, ?_, ?_⟩
    · intro targetAddress turn without
      subst turn
      obtain ⟨header, created, none⟩ := linked.createSW8HeaderValue inOrder targetAddress
      simp only [ApiCall.run, created, none without, Outcome.ok_bind, Outcome.pure_eq]
    · intro operationName time turn opened
      subst turn
      exact absurd inOrder opened

private theorem session_step {before after : Session} {call : ApiCall} (executed : before.step call = some after) :
    ∃ text, call.run before = .ok (after, text) := by
  unfold Session.step at executed
  cases ran : call.run before with
  | error stop => rw [ran] at executed; cases executed
  | ok result =>
    rw [ran] at executed
    cases executed
    exact ⟨result.2, rfl⟩

private theorem linked_onSpan {before after : Session} {span : Nat} {time : Int64} (linked : Linked before.context)
    (ended : (before.onSpan span fun span => span.endSpanImpl time) = .ok after) : Linked after.context := by
  unfold Session.onSpan at ended
  split at ended
  next => cases ended
  next index _ =>
    obtain ⟨context, changed, rest⟩ := Outcome.bind_eq_ok.mp ended
    cases rest
    have called : before.context.step (.span index (.endSpan time)) = some context := run_step.mpr changed
    exact (context_step_cases called).linked linked
  next moved _ =>
    obtain ⟨moved, _, rest⟩ := Outcome.bind_eq_ok.mp ended
    cases rest
    exact linked

private theorem linked_step {before after : Session} {call : ApiCall} (linked : Linked before.context)
    (executed : before.step call = some after) : Linked after.context := by
  obtain ⟨text, ran⟩ := session_step executed
  cases call with
  | createEntrySpan =>
    by_cases first : before.context.spans = []
    · simp only [ApiCall.run, TracingContextImpl.createEntrySpan_first first, Outcome.ok_bind] at ran
      cases ran
      exact linked.pushBack rfl
    · simp only [ApiCall.run, TracingContextImpl.createEntrySpan_again first, Outcome.ok_bind] at ran
      cases ran
      exact linked
  | createExitSpan parentSpan =>
    obtain ⟨parentSpan, _, rest⟩ := Outcome.bind_eq_ok.mp ran
    simp only [TracingContextImpl.createExitSpan_eq, Outcome.ok_bind] at rest
    cases rest
    exact linked.pushBack rfl
  | startEntrySpan operationName time =>
    by_cases first : before.context.spans = []
    · simp only [ApiCall.run, startEntrySpan_first first, Outcome.ok_bind] at ran
      cases ran
      exact linked.pushBack rfl
    · simp only [ApiCall.run, startEntrySpan_again first, Outcome.error_bind] at ran
      cases ran
  | startExitSpan parentSpan operationName time =>
    obtain ⟨parentSpan, _, rest⟩ := Outcome.bind_eq_ok.mp ran
    simp only [startExitSpan_eq, Outcome.ok_bind] at rest
    cases rest
    exact linked.pushBack rfl
  | endGuard guard time =>
    simp only [ApiCall.run] at ran
    split at ran
    next => cases ran
    next span _ =>
      obtain ⟨ended, changed, rest⟩ := Outcome.bind_eq_ok.mp ran
      cases rest
      have kept : Linked ended.context := linked_onSpan linked changed
      exact kept
  | createSW8HeaderValue | logMessage =>
    obtain ⟨_, _, rest⟩ := Outcome.bind_eq_ok.mp ran
    cases rest
    exact linked
  | readyToSend =>
    cases ran
    exact linked
  | createSegmentObject =>
    cases ran
    exact linked_empty rfl rfl

theorem api_defined_iff {ρ : Type} {uuid : ρ → Bytes × ρ} {factory rest : TracingContextFactory ρ} {made : FactoryCall}
    {start : TracingContextImpl} (created : made.run uuid factory = .ok (start, rest)) (calls : List ApiCall) :
    Along Session.step Defined { context := start } calls ↔ Along Session.step InOrder { context := start } calls := by
  let linked := fun session : Session => Linked session.context
  have initial : linked { context := start } := (factory_made created).linked
  refine along_iff ?_ ?_ initial (Along.trivial _ calls)
  · intro session call linked _
    exact defined_iff linked call
  · intro before call after linked _ _ executed
    exact linked_step linked executed

def plainCalls : List ApiCall :=
  [.startEntrySpan (ascii ['/', 'a']) 1, .createEntrySpan, .startExitSpan 0 (ascii ['/', 'b']) 2, .createSW8HeaderValue [],
    .endGuard 1 3, .createSegmentObject, .endGuard 0 4, .createEntrySpan, .createSW8HeaderValue []]

theorem api_defined_iff_plain : Along Session.step Defined { context := plainContext } plainCalls :=
  (api_defined_iff plain_created plainCalls).mpr (by decide)

theorem api_undefined :
    (ApiCall.createSW8HeaderValue []).run { context := plainContext } = .error .empty ∧
      ∃ session, Session.step { context := plainContext } (.startEntrySpan [] 1) = some session ∧
        (ApiCall.startEntrySpan [] 2).run session = .error .null :=
  ⟨rfl, _, rfl, rfl⟩

end Cpp2Sky

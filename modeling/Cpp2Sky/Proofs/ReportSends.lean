import Cpp2Sky.Proofs.ContextView
import Cpp2Sky.Proofs.ReportOnce

/-! What one report does. Either one whole segment is handed over or nothing has
happened, and what a context was refused for can be made good. -/

namespace Cpp2Sky
open Runs

/-- Every span was ended. -/
def TracingContextImpl.Complete (context : TracingContextImpl) : Prop :=
  ∀ index span, context.span index = .ok span → span.finished = true

/-- There is a first span, and its name ends with one of the suffixes. -/
def Ignored (suffixes : List Bytes) (context : TracingContextImpl) : Prop :=
  ∃ first, context.span 0 = .ok first ∧ ∃ suffix ∈ suffixes, suffix <:+ first.spanStore.operationName

/-- The calls that end the given spans at the given times. -/
def endCalls (ends : List (Nat × Int64)) : List ContextCall := ends.map fun (index, time) => .span index (.endSpan time)

/-- One end for every span that has none yet. -/
structure Missing (context : TracingContextImpl) (ends : List (Nat × Int64)) : Prop where
  once : (ends.map Prod.fst).Nodup
  open_ : ∀ index, index ∈ ends.map Prod.fst ↔ ∃ span, context.span index = .ok span ∧ span.finished = false

def SpanObject.ended (ends : List (Nat × Int64)) (index : Nat) (store : SpanObject) : SpanObject :=
  { store with endTime := (ends.lookup index).getD store.endTime }

theorem Linked.complete_iff {context : TracingContextImpl} (linked : Linked context) :
    context.Complete ↔ context.readyToSend = true := by
  rw [linked.readyToSend_eq, List.all_eq_true]
  constructor
  · intro complete span member
    obtain ⟨index, present⟩ := List.mem_iff_getElem?.mp member
    exact complete index span (linked.span_iff.mpr present)
  · intro every index span found
    exact every span (List.mem_of_getElem? (linked.span_iff.mp found))

theorem ignores_iff {matcher : SuffixMatcher} {context : TracingContextImpl} :
    matcher.ignores context = true ↔ Ignored matcher.targetSuffixes context := by
  unfold SuffixMatcher.ignores Ignored
  cases context.span 0 with
  | error stop => simp
  | ok first => simp [SuffixMatcher.match, List.any_eq_true, List.isSuffixOf_iff_suffix]

theorem withholds_iff {matcher : SuffixMatcher} {context : TracingContextImpl} (linked : Linked context) :
    matcher.withholds context = false ↔ context.Complete ∧ ¬ Ignored matcher.targetSuffixes context := by
  rw [linked.complete_iff, ← ignores_iff, SuffixMatcher.withholds, Bool.or_eq_false_iff, Bool.not_eq_false',
    Bool.not_eq_true]

/-- What one of the spans is after the calls. -/
private def endedSpan (ends : List (Nat × Int64)) (index : Nat) (span : TracingSpanImpl) : TracingSpanImpl where
  finished := span.finished || decide (index ∈ ends.map Prod.fst)
  spanStore := span.spanStore.ended ends index

private theorem ended_next {ends : List (Nat × Int64)} {index : Nat} (once : index ∉ ends.map Prod.fst) (time : Int64)
    (span : TracingSpanImpl) :
    endedSpan ends index { finished := true, spanStore := { span.spanStore with endTime := time } } =
      endedSpan ((index, time) :: ends) index span := by
  have last : ends.lookup index = none := by
    rw [List.lookup_eq_none_iff]
    intro pair member
    exact bne_iff_ne.mpr fun same => once (List.mem_map.mpr ⟨pair, member, same.symm⟩)
  have first : ((index, time) :: ends).lookup index = some time := List.lookup_cons_self
  have named : index ∈ ((index, time) :: ends).map Prod.fst := List.mem_cons_self
  simp only [endedSpan, SpanObject.ended, last, first, named, decide_true, Bool.true_or, Bool.or_true, Option.getD_none,
    Option.getD_some]

private theorem ended_other {ends : List (Nat × Int64)} {index other : Nat} (elsewhere : index ≠ other) (time : Int64)
    (span : TracingSpanImpl) : endedSpan ends other span = endedSpan ((index, time) :: ends) other span := by
  have later : ((index, time) :: ends).lookup other = ends.lookup other := by
    rw [List.lookup_cons, beq_false_of_ne (Ne.symm elsewhere)]
  have named : other ∈ ((index, time) :: ends).map Prod.fst ↔ other ∈ ends.map Prod.fst := by
    rw [List.map_cons, List.mem_cons]
    exact or_iff_right (Ne.symm elsewhere)
  simp only [endedSpan, SpanObject.ended, later, named]

/-- Calls that end spans which are open return, and change nothing but these. -/
private theorem ends_run {context : TracingContextImpl} (linked : Linked context) {ends : List (Nat × Int64)}
    (once : (ends.map Prod.fst).Nodup)
    (unfinished : ∀ index ∈ ends.map Prod.fst, ∃ span, context.span index = .ok span ∧ span.finished = false) :
    ∃ later, exec TracingContextImpl.step context (endCalls ends) = some later ∧
      later.view = context.view.mapIdx (endedSpan ends) := by
  induction ends generalizing context with
  | nil =>
    refine ⟨context, rfl, ?_⟩
    have same (index : Nat) : endedSpan [] index = id := by
      funext span
      simp [endedSpan, SpanObject.ended]
    exact List.ext_getElem? fun index => by simp [same]
  | cons pair ends ih =>
    obtain ⟨index, time⟩ := pair
    obtain ⟨fresh, once⟩ := List.nodup_cons.mp once
    obtain ⟨span, found, open_⟩ := unfinished index List.mem_cons_self
    let changed : TracingSpanImpl := { finished := true, spanStore := { span.spanStore with endTime := time } }
    have ran : (SpanCall.endSpan time).run span = .ok changed := by
      rw [run_eq, open_]
      rfl
    have moved : context.step (.span index (.endSpan time)) = some (context.setSpan index changed) := by
      rw [run_step, run_span found, ran, Outcome.ok_bind]
    have next := linked.changed found ran
    have view := linked.view_setSpan found changed
    have still : ∀ other ∈ ends.map Prod.fst, ∃ span,
        (context.setSpan index changed).span other = .ok span ∧ span.finished = false := by
      intro other member
      obtain ⟨span, there, open_⟩ := unfinished other (List.mem_cons_of_mem _ member)
      have elsewhere : index ≠ other := fun same => fresh (same ▸ member)
      exact ⟨span, (linked.span_elsewhere found ran elsewhere).mpr there, open_⟩
    obtain ⟨later, executed, ended⟩ := ih next once still
    refine ⟨later, ?_, ?_⟩
    · exact (exec_cons _ _ _).trans (by rw [moved]; exact executed)
    · rw [ended, view]
      apply List.ext_getElem?
      intro other
      have present := linked.span_iff.mp found
      rw [List.getElem?_mapIdx, List.getElem?_mapIdx]
      by_cases same : index = other
      · subst same
        rw [List.getElem?_set_self (List.getElem?_eq_some_iff.mp present).1, present]
        exact congrArg some (ended_next fresh time span)
      · rw [List.getElem?_set_ne same]
        exact congrArg (Option.map · _) (funext fun span => ended_other same time span)

theorem segment_eq {segment other : SegmentObject} (identity : segment.identity = other.identity) :
    segment = { other with spans := segment.spans } := by
  obtain ⟨traceId, rest⟩ := Prod.mk.inj identity
  obtain ⟨traceSegmentId, rest⟩ := Prod.mk.inj rest
  obtain ⟨service, serviceInstance⟩ := Prod.mk.inj rest
  rw [← traceId, ← traceSegmentId, ← service, ← serviceInstance]

/-- The missing calls return, and the context is complete after them. -/
theorem missing_run {context : TracingContextImpl} (linked : Linked context) {ends : List (Nat × Int64)}
    (missing : Missing context ends) :
    ∃ later, exec TracingContextImpl.step context (endCalls ends) = some later ∧ later.Complete ∧
      later.segmentStore =
        { context.segmentStore with spans := context.segmentStore.spans.mapIdx (SpanObject.ended ends) } := by
  obtain ⟨later, executed, view⟩ := ends_run linked missing.once fun index => (missing.open_ index).mp
  have reached : context.Reached later := ⟨_, executed⟩
  have after : Linked later := reached.linked linked
  refine ⟨later, executed, ?_, ?_⟩
  · intro index span found
    rw [after.span_iff, view, List.getElem?_mapIdx, Option.map_eq_some_iff] at found
    obtain ⟨old, present, rfl⟩ := found
    cases finished : old.finished with
    | true => simp only [endedSpan, finished, Bool.true_or]
    | false =>
      have named := (missing.open_ index).mpr ⟨old, linked.span_iff.mpr present, finished⟩
      simp only [endedSpan, named, decide_true, Bool.or_true]
  · have spans : later.segmentStore.spans = context.segmentStore.spans.mapIdx (SpanObject.ended ends) := by
      rw [← after.view_stores, ← linked.view_stores, view]
      apply List.ext_getElem?
      intro index
      simp [List.getElem?_mapIdx, Function.comp_def, endedSpan]
    rw [← spans]
    exact segment_eq reached.identity.1

theorem Linked.ignored_iff {context : TracingContextImpl} (linked : Linked context) (suffixes : List Bytes) :
    Ignored suffixes context ↔
      ∃ store, context.segmentStore.spans[0]? = some store ∧ ∃ suffix ∈ suffixes, suffix <:+ store.operationName := by
  rw [← linked.view_stores, List.getElem?_map]
  constructor
  · intro ⟨first, found, suffix⟩
    exact ⟨_, by rw [linked.span_iff.mp found]; rfl, suffix⟩
  · intro ⟨store, object, suffix⟩
    obtain ⟨first, present, rfl⟩ := Option.map_eq_some_iff.mp object
    exact ⟨first, linked.span_iff.mpr present, suffix⟩

private theorem ended_ignored {context later : TracingContextImpl} (linked : Linked context) (after : Linked later)
    {ends : List (Nat × Int64)}
    (ended : later.segmentStore =
      { context.segmentStore with spans := context.segmentStore.spans.mapIdx (SpanObject.ended ends) })
    (suffixes : List Bytes) : Ignored suffixes later ↔ Ignored suffixes context := by
  rw [linked.ignored_iff, after.ignored_iff, ended]
  simp only [List.getElem?_mapIdx, Option.map_eq_some_iff]
  constructor
  · rintro ⟨_, ⟨store, object, rfl⟩, suffix⟩
    exact ⟨store, object, suffix⟩
  · intro ⟨store, object, suffix⟩
    exact ⟨_, ⟨store, object, rfl⟩, suffix⟩

section Tracer
variable {ρ : Type} {uuid : ρ → Bytes × ρ} {tracer : Tracer ρ} {index : Nat} {tracked : Tracked}

private theorem report_returns (matcher : SuffixMatcher) {context : TracingContextImpl} (linked : Linked context) :
    ∃ answer, TracerImpl.report matcher (some context) = .ok answer := by
  cases answered : TracerImpl.report matcher (some context) with
  | ok answer => exact ⟨answer, rfl⟩
  | error stop =>
    simp only [TracerImpl.report] at answered
    split at answered
    next => cases answered
    next =>
      split at answered
      next opened =>
        -- Only the look at the first span could fail.
        have inside : 0 < context.view.length := linked.view_length ▸ List.length_pos_iff.mpr opened
        rw [linked.span_iff.mpr (List.getElem?_eq_getElem inside)] at answered
        simp only [Outcome.ok_bind, Outcome.pure_eq] at answered
        split at answered <;> cases answered
      next => cases answered

private theorem report_step (uuid : ρ → Bytes × ρ) (found : tracer.contexts[index]? = some tracked) (linked : Linked tracked.context) :
    ∃ after, tracer.step uuid (.report (some index)) = some after := by
  obtain ⟨answer, returned⟩ := report_returns tracer.ignoreMatcher linked
  simp only [Tracer.step, found, Option.bind_eq_bind, Option.bind_some, returned]
  exact ⟨_, rfl⟩

/-- The calls on one context leave the rest of the tracer alone. -/
private theorem context_run (uuid : ρ → Bytes × ρ) {calls : List ContextCall} {later : TracingContextImpl}
    (found : tracer.contexts[index]? = some tracked)
    (executed : exec TracingContextImpl.step tracked.context calls = some later) :
    ∃ after, exec (Tracer.step uuid) tracer (calls.map (.context index)) = some after ∧
      after.handed = tracer.handed ∧ after.replies = tracer.replies ∧ after.ignoreMatcher = tracer.ignoreMatcher ∧
      ∃ last, after.contexts[index]? = some last ∧ last.context = later := by
  induction calls generalizing tracer tracked with
  | nil => exact ⟨tracer, rfl, rfl, rfl, rfl, tracked, found, Option.some.inj executed⟩
  | cons call rest ih =>
    obtain ⟨next, moved, remaining⟩ := exec_cons_some executed
    let after : Tracer ρ := { tracer with
      contexts := tracer.contexts.set index { tracked with calls := tracked.calls ++ [call], context := next } }
    have stepped : tracer.step uuid (.context index call) = some after := by
      simp only [Tracer.step, found, moved, Option.bind_eq_bind, Option.bind_some]
      rfl
    have inside := (List.getElem?_eq_some_iff.mp found).1
    have present : after.contexts[index]? = some { tracked with calls := tracked.calls ++ [call], context := next } :=
      List.getElem?_set_self inside
    obtain ⟨final, executed, same⟩ := ih present remaining
    exact ⟨final, by rw [List.map_cons, exec_cons, stepped]; exact executed, same⟩

/-- What one report of a context answers and does, and what a second one does
once the missing calls were made. -/
structure ReportSends (uuid : ρ → Bytes × ρ) (tracer : Tracer ρ) (index : Nat) (context : TracingContextImpl) : Prop where
  answers : ∃ after reply, tracer.step uuid (.report (some index)) = some after ∧
    after.replies = tracer.replies ++ [reply] ∧
    (reply.result = true ↔ context.Complete ∧ ¬ Ignored tracer.ignoreMatcher.targetSuffixes context) ∧
    (reply.result = true → ∃ handed, after.handed = tracer.handed ++ [handed] ∧ handed.segment = context.segmentStore) ∧
    (reply.result = false → after.handed = tracer.handed ∧ after.contexts = tracer.contexts)
  later : ¬ context.Complete → ¬ Ignored tracer.ignoreMatcher.targetSuffixes context →
    ∀ ends, Missing context ends → ∃ final replies handed,
      exec (Tracer.step uuid) tracer
        ([.report (some index)] ++ (endCalls ends).map (.context index) ++ [.report (some index)]) = some final ∧
      final.replies = tracer.replies ++ replies ∧ replies.map Reply.result = [false, true] ∧
      final.handed = tracer.handed ++ [handed] ∧
      handed.segment =
        { context.segmentStore with spans := context.segmentStore.spans.mapIdx (SpanObject.ended ends) }

private theorem report_answers (uuid : ρ → Bytes × ρ) (found : tracer.contexts[index]? = some tracked) (linked : Linked tracked.context) :
    ∃ after reply, tracer.step uuid (.report (some index)) = some after ∧
      after.replies = tracer.replies ++ [reply] ∧ after.ignoreMatcher = tracer.ignoreMatcher ∧
      (reply.result = true ↔ tracked.context.Complete ∧ ¬ Ignored tracer.ignoreMatcher.targetSuffixes tracked.context) ∧
      (reply.result = true →
        ∃ handed, after.handed = tracer.handed ++ [handed] ∧ handed.segment = tracked.context.segmentStore) ∧
      (reply.result = false → after.handed = tracer.handed ∧ after.contexts = tracer.contexts) := by
  obtain ⟨after, executed⟩ := report_step uuid found linked
  refine ⟨after, ?_⟩
  cases tracer_step_cases executed with
  | @withheld _ other there withheld =>
    obtain rfl := Option.some.inj (found.symm.trans there)
    have refused : ¬ (tracked.context.Complete ∧
        ¬ Ignored tracer.ignoreMatcher.targetSuffixes tracked.context) := by
      intro allowed
      rw [(withholds_iff linked).mpr allowed] at withheld
      cases withheld
    exact ⟨_, executed, rfl, rfl, iff_of_false Bool.false_ne_true refused, nofun, fun _ => ⟨rfl, rfl⟩⟩
  | @handed _ other there accepted =>
    obtain rfl := Option.some.inj (found.symm.trans there)
    exact ⟨_, executed, rfl, rfl, iff_of_true rfl ((withholds_iff linked).mp accepted), fun _ => ⟨_, rfl, rfl⟩, nofun⟩

private theorem report_later (uuid : ρ → Bytes × ρ) (found : tracer.contexts[index]? = some tracked)
    (linked : Linked tracked.context) (incomplete : ¬ tracked.context.Complete)
    (unignored : ¬ Ignored tracer.ignoreMatcher.targetSuffixes tracked.context) {ends : List (Nat × Int64)}
    (missing : Missing tracked.context ends) :
    ∃ final replies handed,
      exec (Tracer.step uuid) tracer
        ([.report (some index)] ++ (endCalls ends).map (.context index) ++ [.report (some index)]) = some final ∧
      final.replies = tracer.replies ++ replies ∧ replies.map Reply.result = [false, true] ∧
      final.handed = tracer.handed ++ [handed] ∧
      handed.segment = { tracked.context.segmentStore with
        spans := tracked.context.segmentStore.spans.mapIdx (SpanObject.ended ends) } := by
  obtain ⟨refused, first, moved, answered, same, sends, _, keeps⟩ := report_answers uuid found linked
  have no : first.result = false := by
    rw [← Bool.not_eq_true, sends]
    exact fun allowed => incomplete allowed.1
  obtain ⟨handed, contexts⟩ := keeps no
  obtain ⟨later, ran, complete, ended⟩ := missing_run linked missing
  obtain ⟨middle, called, middleHanded, middleReplies, middleMatcher, last, there, rfl⟩ :=
    context_run uuid (contexts ▸ found) ran
  have after : Linked last.context := TracingContextImpl.Reached.linked ⟨_, ran⟩ linked
  obtain ⟨final, second, reported, finalAnswered, _, resends, whole, _⟩ := report_answers uuid there after
  have yes : second.result = true := by
    rw [resends, middleMatcher, same, ended_ignored linked after ended]
    exact ⟨complete, unignored⟩
  obtain ⟨sent, finalHanded, segment⟩ := whole yes
  refine ⟨final, [first, second], sent, ?_, ?_, ?_, ?_, segment.trans ended⟩
  · rw [exec_append, exec_append, exec_cons, moved]
    simp only [exec, Option.bind_some, called, reported]
  · rw [finalAnswered, middleReplies, answered, List.append_assoc]
    rfl
  · rw [List.map_cons, List.map_cons, no, yes]
    rfl
  · rw [finalHanded, middleHanded, handed]

theorem report_sends (uuid : ρ → Bytes × ρ) (tracer : Tracer ρ) :
    (∃ after reply, tracer.step uuid (.report none) = some after ∧ after.replies = tracer.replies ++ [reply] ∧
      reply.result = false ∧ after.handed = tracer.handed ∧ after.contexts = tracer.contexts) ∧
    ∀ index tracked, tracer.contexts[index]? = some tracked → Alive uuid tracked.context →
      ReportSends uuid tracer index tracked.context := by
  refine ⟨⟨_, _, rfl, rfl, rfl, rfl, rfl⟩, fun index tracked found alive => ⟨?_, ?_⟩⟩
  · obtain ⟨after, reply, moved, answered, _, rest⟩ := report_answers uuid found alive.linked
    exact ⟨after, reply, moved, answered, rest⟩
  · intro incomplete unignored ends missing
    exact report_later uuid found alive.linked incomplete unignored missing

/-- The contexts of a tracer are among these. -/
theorem tracer_alive {start final : Tracer ρ} {calls : List TracerCall} (fresh : start.contexts = [])
    (executed : exec (Tracer.step uuid) start calls = some final) :
    ∀ tracked ∈ final.contexts, Alive uuid tracked.context := by
  have replaced {contexts : List Tracked} {index : Nat} {last : Tracked}
      (alive : ∀ tracked ∈ contexts, Alive uuid tracked.context) (new : Alive uuid last.context) :
      ∀ tracked ∈ contexts.set index last, Alive uuid tracked.context := by
    intro tracked member
    rcases List.mem_or_eq_of_mem_set member with old | rfl
    · exact alive tracked old
    · exact new
  refine Reachable.induct ⟨calls, executed⟩ (by simp [fresh]) fun before call after _ alive stepped => ?_
  cases tracer_step_cases stepped with
  | @created span context randomGenerator built =>
    intro tracked member
    rcases List.mem_append.mp member with old | new
    · exact alive tracked old
    · obtain rfl := List.mem_singleton.mp new
      let factory : TracingContextFactory ρ :=
        { serviceName := before.serviceName, instanceName := before.instanceName, randomGenerator := before.randomGenerator }
      have made : (FactoryCall.createOfContext span).run uuid factory = .ok (context, { factory with randomGenerator }) := by
        simp only [FactoryCall.run, TracingContextFactory.createOfContext, factory, built]
      exact .created made
  | @called index call tracked context found moved =>
    exact replaced alive (.called (alive tracked (List.mem_of_getElem? found)) moved)
  | null | withheld => exact alive
  | @handed index tracked found => exact replaced alive (.reported (alive tracked (List.mem_of_getElem? found)))

end Tracer

def openRun : List TracerCall :=
  [.newContext none, .context 0 .createEntrySpan, .context 0 (.createExitSpan (.own 0)), .context 0 (.span 0 (.endSpan 5))]

theorem report_sends_open :
    ∃ tracer tracked, exec (Tracer.step countUp) freshTracer openRun = some tracer ∧
      tracer.contexts[0]? = some tracked ∧ Missing tracked.context [(1, 6)] ∧
      ReportSends countUp tracer 0 tracked.context := by
  obtain ⟨tracer, tracked, executed, found, missing⟩ : ∃ tracer tracked,
      exec (Tracer.step countUp) freshTracer openRun = some tracer ∧ tracer.contexts[0]? = some tracked ∧
        Missing tracked.context [(1, 6)] := by
    refine ⟨_, _, rfl, rfl, by decide, ?_⟩
    rintro (_ | _ | index)
    · exact iff_of_false (by decide) (by rintro ⟨_, found, unfinished⟩; cases found; cases unfinished)
    · exact iff_of_true (by decide) ⟨_, rfl, rfl⟩
    · exact iff_of_false (by simp) (by rintro ⟨_, found, _⟩; cases found)
  have alive := tracer_alive rfl executed tracked (List.mem_of_getElem? found)
  exact ⟨tracer, tracked, executed, found, missing, (report_sends countUp tracer).2 0 tracked found alive⟩

end Cpp2Sky

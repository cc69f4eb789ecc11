import Cpp2Sky.Proofs.TraceChain
import Cpp2Sky.Tracer

/-! What a tracer hands over. `report` tells a context that it has emptied from
a new one by its spans alone, and to `readyToSend` and to the emptiness test both
look the same. -/

namespace Cpp2Sky
open Runs

variable {ρ : Type} {uuid : ρ → Bytes × ρ}

/-- The name of the first span ends with an ignored suffix. -/
def SuffixMatcher.ignores (matcher : SuffixMatcher) (context : TracingContextImpl) : Bool :=
  match context.span 0 with
  | .ok front => matcher.match front.spanStore.operationName
  | .error _ => false

def SuffixMatcher.withholds (matcher : SuffixMatcher) (context : TracingContextImpl) : Bool :=
  !context.readyToSend || matcher.ignores context

/-- The segment is that of its context after the calls on it: it has what the
constructor gave it, and the spans that were created, by their numbers. -/
structure Handed.Whole (handed : Handed) : Prop where
  context : ∃ context, exec TracingContextImpl.step handed.constructed handed.calls = some context ∧
    handed.segment = context.segmentStore
  identity : handed.segment.identity = handed.constructed.segmentStore.identity
  spans : handed.segment.spans.map SpanObject.spanId =
    (List.range (handed.calls.foldl ContextCall.creates []).length).map Int32.ofNat

structure Tracer.ReportedOnce (tracer : Tracer ρ) : Prop where
  once : (tracer.handed.map Handed.index).Nodup
  whole : ∀ handed ∈ tracer.handed, handed.Whole
  refused : ∀ reply ∈ tracer.replies, reply.again = true → reply.result = false ∧ reply.sent = false

/-- A context that was handed over is only reported again while a span created
since is unfinished, or while it is ignored. -/
def ReportsNew (tracer : Tracer ρ) : TracerCall → Prop
  | .report (some index) => tracer.reported index →
    tracer.contexts[index]?.all fun tracked => tracer.ignoreMatcher.withholds tracked.context
  | _ => True

instance (tracer : Tracer ρ) : (call : TracerCall) → Decidable (ReportsNew tracer call)
  | .report (some _) => inferInstanceAs (Decidable (_ → _))
  | .report none | .newContext _ | .context _ _ => .isTrue True.intro

theorem report_cases {matcher : SuffixMatcher} {context : TracingContextImpl} {result : Bool}
    {sent : Option (SegmentObject × TracingContextImpl)}
    (returned : TracerImpl.report matcher (some context) = .ok (result, sent)) :
    (matcher.withholds context = true ∧ result = false ∧ sent = none) ∨
      (matcher.withholds context = false ∧ result = true ∧ sent = some context.createSegmentObject) := by
  unfold TracerImpl.report at returned
  cases ready : context.readyToSend with
  | false =>
    simp only [ready, Bool.not_false, ite_true, Outcome.pure_eq, Except.ok.injEq, Prod.mk.injEq] at returned
    exact .inl ⟨by simp [SuffixMatcher.withholds, ready], returned.1.symm, returned.2.symm⟩
  | true =>
    simp only [ready, Bool.not_true, Bool.false_eq_true, ite_false] at returned
    have withholds : matcher.withholds context = matcher.ignores context := by simp [SuffixMatcher.withholds, ready]
    by_cases empty : context.spans = []
    · have ignores : matcher.ignores context = false := by
        simp [SuffixMatcher.ignores, TracingContextImpl.span, empty]
      simp only [ne_eq, empty, not_true_eq_false, ite_false] at returned
      cases returned
      exact .inr ⟨withholds.trans ignores, rfl, rfl⟩
    · simp only [ne_eq, empty, not_false_eq_true, ite_true] at returned
      obtain ⟨front, read, rest⟩ := Outcome.bind_eq_ok.mp returned
      have ignores : matcher.ignores context = matcher.match front.spanStore.operationName := by
        simp [SuffixMatcher.ignores, read]
      cases ignored : matcher.match front.spanStore.operationName with
      | false =>
        simp only [ignored] at rest
        cases rest
        exact .inr ⟨withholds.trans (ignores.trans ignored), rfl, rfl⟩
      | true =>
        simp only [ignored] at rest
        cases rest
        exact .inl ⟨withholds.trans (ignores.trans ignored), rfl, rfl⟩

def Tracked.hand (tracked : Tracked) (index : Nat) : Handed where
  index := index
  constructed := tracked.constructed
  calls := tracked.calls
  segment := tracked.context.segmentStore

inductive TracerStep (uuid : ρ → Bytes × ρ) (before : Tracer ρ) : TracerCall → Tracer ρ → Prop where
  | created {span context randomGenerator}
      (new : TracingContextImpl.new uuid before.serviceName before.instanceName span none before.randomGenerator =
        (context, randomGenerator)) :
      TracerStep uuid before (.newContext span) { before with
        randomGenerator, contexts := before.contexts ++ [{ constructed := context, calls := [], context }] }
  | called {index call tracked context} (found : before.contexts[index]? = some tracked)
      (moved : tracked.context.step call = some context) :
      TracerStep uuid before (.context index call) { before with
        contexts := before.contexts.set index { tracked with calls := tracked.calls ++ [call], context } }
  | null :
      TracerStep uuid before (.report none) { before with
        replies := before.replies ++ [{ again := false, result := false, sent := false }] }
  | withheld {index tracked} (found : before.contexts[index]? = some tracked)
      (withheld : before.ignoreMatcher.withholds tracked.context = true) :
      TracerStep uuid before (.report (some index)) { before with
        replies := before.replies ++ [{ again := decide (before.reported index), result := false, sent := false }] }
  | handed {index tracked} (found : before.contexts[index]? = some tracked)
      (accepted : before.ignoreMatcher.withholds tracked.context = false) :
      TracerStep uuid before (.report (some index)) { before with
        contexts := before.contexts.set index { tracked with context := tracked.context.createSegmentObject.2 }
        handed := before.handed ++ [tracked.hand index]
        replies := before.replies ++ [{ again := decide (before.reported index), result := true, sent := true }] }

theorem tracer_step_cases {before after : Tracer ρ} {call : TracerCall}
    (executed : before.step uuid call = some after) : TracerStep uuid before call after := by
  cases call with
  | newContext span => cases executed; exact .created rfl
  | context index call =>
    obtain ⟨tracked, found, rest⟩ := Option.bind_eq_some_iff.mp executed
    obtain ⟨context, moved, rest⟩ := Option.bind_eq_some_iff.mp rest
    cases rest
    exact .called found moved
  | report context =>
    cases context with
    | none => cases executed; exact .null
    | some index =>
      obtain ⟨tracked, found, rest⟩ := Option.bind_eq_some_iff.mp executed
      obtain ⟨⟨result, sent⟩, returned, rest⟩ := Option.bind_eq_some_iff.mp rest
      cases answer : TracerImpl.report before.ignoreMatcher (some tracked.context) with
      | error stop => rw [answer] at returned; cases returned
      | ok pair =>
        obtain rfl : pair = (result, sent) := by
          rw [answer] at returned
          exact Option.some.inj returned
        rcases report_cases answer with ⟨withheld, rfl, rfl⟩ | ⟨accepted, rfl, rfl⟩
        · cases rest
          have same : before.contexts.set index tracked = before.contexts := by
            obtain ⟨inside, rfl⟩ := List.getElem?_eq_some_iff.mp found
            exact List.set_getElem_self inside
          simp only [Option.elim_none, Option.toList_none, List.map_nil, List.append_nil, same]
          exact .withheld found withheld
        · cases rest
          exact .handed found accepted

/-- The context is what its calls have made of it. -/
structure Tracked.Follows (tracked : Tracked) : Prop where
  linked : Linked tracked.constructed
  fresh : tracked.constructed.spans = []
  executed : exec TracingContextImpl.step tracked.constructed tracked.calls = some tracked.context

/-- A context that was not handed over still follows its calls. -/
structure Tracer.Honest (tracer : Tracer ρ) : Prop extends tracer.ReportedOnce where
  inside : ∀ index, tracer.reported index → index < tracer.contexts.length
  follows : ∀ (index : Nat) (tracked : Tracked), tracer.contexts[index]? = some tracked →
    ¬ tracer.reported index → tracked.Follows

def Tracer.Doubled (tracer : Tracer ρ) : Prop := ¬ (tracer.handed.map Handed.index).Nodup

theorem Tracked.Follows.whole {tracked : Tracked} (follows : tracked.Follows) (index : Nat) :
    (tracked.hand index).Whole := by
  have reached : tracked.constructed.Reached tracked.context := ⟨tracked.calls, follows.executed⟩
  have created : tracked.context.spans.length = (tracked.calls.foldl ContextCall.creates []).length :=
    created_run (by rw [follows.fresh]; rfl) follows.executed
  exact ⟨⟨_, follows.executed, rfl⟩, reached.identity.1, created ▸ (reached.linked follows.linked).ids⟩

theorem Tracked.Follows.next {tracked : Tracked} {call : ContextCall} {context : TracingContextImpl}
    (follows : tracked.Follows) (moved : tracked.context.step call = some context) :
    Tracked.Follows { tracked with calls := tracked.calls ++ [call], context } := by
  refine ⟨follows.linked, follows.fresh, ?_⟩
  rw [exec_append, follows.executed]
  exact (exec_cons _ _ _).trans (by rw [moved]; rfl)

/-- A report that meets the condition and is accepted is the first of its context. -/
private theorem ReportsNew.first {tracer : Tracer ρ} {index : Nat} {tracked : Tracked}
    (new : ReportsNew tracer (.report (some index))) (found : tracer.contexts[index]? = some tracked)
    (accepted : tracer.ignoreMatcher.withholds tracked.context = false) : ¬ tracer.reported index := by
  intro reported
  have withheld := new reported
  rw [found, Option.all_some, accepted] at withheld
  cases withheld

section Step
variable {before after : Tracer ρ} {call : TracerCall} (moves : TracerStep uuid before call after)
include moves

private theorem TracerStep.hands (new : ReportsNew before call) :
    after.handed = before.handed ∨ ∃ (index : Nat) (tracked : Tracked), before.contexts[index]? = some tracked ∧
      ¬ before.reported index ∧ after.handed = before.handed ++ [tracked.hand index] := by
  cases moves with
  | @handed index tracked found accepted =>
    exact .inr ⟨index, tracked, found, new.first found accepted, rfl⟩
  | _ => exact .inl rfl

private theorem TracerStep.once (kept : before.Honest) (new : ReportsNew before call) :
    (after.handed.map Handed.index).Nodup := by
  rcases moves.hands new with same | ⟨index, tracked, _, unreported, handed⟩
  · rw [same]
    exact kept.once
  · rw [handed, List.map_append, List.map_singleton]
    refine List.nodup_append.mpr ⟨kept.once, List.pairwise_singleton _ _, ?_⟩
    intro other old last there same
    subst same
    rw [List.mem_singleton.mp there] at old
    exact unreported old

private theorem TracerStep.whole (kept : before.Honest) (new : ReportsNew before call) :
    ∀ handed ∈ after.handed, handed.Whole := by
  rcases moves.hands new with same | ⟨index, tracked, found, unreported, appended⟩
  · rw [same]
    exact kept.whole
  · rw [appended]
    intro handed member
    rcases List.mem_append.mp member with old | new
    · exact kept.whole handed old
    · obtain rfl := List.mem_singleton.mp new
      exact (kept.follows index tracked found unreported).whole index

private theorem TracerStep.refused (kept : before.Honest) (new : ReportsNew before call) :
    ∀ reply ∈ after.replies, reply.again = true → reply.result = false ∧ reply.sent = false := by
  have append (last : Reply) (refused : last.again = true → last.result = false ∧ last.sent = false) :
      ∀ reply ∈ before.replies ++ [last], reply.again = true → reply.result = false ∧ reply.sent = false := by
    intro reply member again
    rcases List.mem_append.mp member with old | new
    · exact kept.refused reply old again
    · obtain rfl := List.mem_singleton.mp new
      exact refused again
  cases moves with
  | created | called => exact kept.refused
  | null | withheld => exact append _ (by simp)
  | @handed index tracked found accepted =>
    apply append
    intro again
    exact absurd (of_decide_eq_true again) (new.first found accepted)

private theorem TracerStep.inside (kept : before.Honest) (index : Nat) (reported : after.reported index) :
    index < after.contexts.length := by
  have bound := kept.inside index
  cases moves with
  | created =>
    have inside := bound reported
    simp only [List.length_append, List.length_singleton]
    omega
  | called =>
    rw [List.length_set]
    exact bound reported
  | null | withheld => exact bound reported
  | @handed reports tracked found accepted =>
    rw [List.length_set]
    simp only [Tracer.reported, List.map_append, List.mem_append, List.map_singleton, List.mem_singleton] at reported
    rcases reported with old | rfl
    · exact bound old
    · exact (List.getElem?_eq_some_iff.mp found).1

private theorem TracerStep.follows (kept : before.Honest) (index : Nat) (tracked : Tracked)
    (present : after.contexts[index]? = some tracked) (unreported : ¬ after.reported index) : tracked.Follows := by
  cases moves with
  | @created span context randomGenerator built =>
    rcases getElem?_last present with old | ⟨_, rfl⟩
    · exact kept.follows index tracked old unreported
    · obtain rfl : context = (TracingContextImpl.new uuid before.serviceName before.instanceName span none
        before.randomGenerator).1 := by rw [built]
      exact ⟨linked_new _ _ _ _ _ _, rfl, rfl⟩
  | @called other call changed context found moved =>
    rcases getElem?_replaced present with ⟨rfl, rfl⟩ | ⟨_, elsewhere⟩
    · exact (kept.follows other changed found unreported).next moved
    · exact kept.follows index tracked elsewhere unreported
  | null | withheld => exact kept.follows index tracked present unreported
  | @handed other =>
    simp only [Tracer.reported, List.map_append, List.mem_append, List.map_singleton, List.mem_singleton,
      not_or] at unreported
    obtain ⟨old, different⟩ := unreported
    have elsewhere : other ≠ index := Ne.symm different
    rw [List.getElem?_set_ne elsewhere] at present
    exact kept.follows index tracked present old

theorem TracerStep.honest (kept : before.Honest) (new : ReportsNew before call) : after.Honest :=
  ⟨⟨moves.once kept new, moves.whole kept new, moves.refused kept new⟩, moves.inside kept, moves.follows kept⟩

/-- A context that is handed over again is in the history twice. -/
private theorem TracerStep.doubles (again : ¬ ReportsNew before call) : after.Doubled := by
  cases moves with
  | @handed index tracked found accepted =>
    have reported : before.reported index := Classical.byContradiction fun fresh => again fun old => absurd old fresh
    intro once
    rw [List.map_append, List.map_singleton] at once
    exact (List.nodup_append.mp once).2.2 index reported index (List.mem_singleton_self index) rfl
  | withheld found withheld =>
    refine absurd (fun _ => ?_) again
    rw [found, Option.all_some, withheld]
  | created | called | null => exact absurd True.intro again

private theorem TracerStep.doubled (doubled : before.Doubled) : after.Doubled := by
  cases moves with
  | handed =>
    intro once
    rw [List.map_append] at once
    exact doubled (List.nodup_append.mp once).1
  | _ => exact doubled

end Step

theorem honest_fresh {tracer : Tracer ρ} (contexts : tracer.contexts = []) (handed : tracer.handed = [])
    (replies : tracer.replies = []) : tracer.Honest := by
  refine ⟨⟨?_, ?_, ?_⟩, ?_, ?_⟩ <;> simp [Tracer.reported, contexts, handed, replies]

theorem honest_run {start tracer : Tracer ρ} {calls : List TracerCall} (fresh : start.Honest)
    (along : Along (Tracer.step uuid) ReportsNew start calls) (executed : exec (Tracer.step uuid) start calls = some tracer) :
    tracer.Honest := by
  have preserved : ∀ (before : Tracer ρ) call after, before.Honest → ReportsNew before call →
      before.step uuid call = some after → after.Honest := by
    intro before call after kept new moved
    exact (tracer_step_cases moved).honest kept new
  exact invariant preserved fresh along executed

/-- Each context is handed over at most once and whole, and refused afterwards,
in exactly the runs whose reports meet the condition. -/
theorem reported_once_iff {serviceName instanceName : Bytes} {ignoreMatcher : SuffixMatcher} {randomGenerator : ρ}
    {tracer : Tracer ρ} {calls : List TracerCall}
    (executed : exec (Tracer.step uuid) { serviceName, instanceName, ignoreMatcher, randomGenerator } calls = some tracer) :
    tracer.ReportedOnce ↔
      Along (Tracer.step uuid) ReportsNew { serviceName, instanceName, ignoreMatcher, randomGenerator } calls := by
  have initial : Tracer.Honest { serviceName, instanceName, ignoreMatcher, randomGenerator } := by
    refine ⟨⟨List.nodup_nil, ?_, ?_⟩, ?_, ?_⟩ <;> simp [Tracer.reported]
  have kept : ∀ (before : Tracer ρ) call after, before.Honest → True → ReportsNew before call →
      before.step uuid call = some after → after.Honest := by
    intro before call after kept _ new executed
    exact (tracer_step_cases executed).honest kept new
  have breach : ∀ (before : Tracer ρ) call after, before.Honest → True → ¬ ReportsNew before call →
      before.step uuid call = some after → after.Doubled := by
    intro before call after _ _ again executed
    exact (tracer_step_cases executed).doubles again
  have stays : ∀ (before : Tracer ρ) call after, before.Doubled → True →
      before.step uuid call = some after → after.Doubled := by
    intro before call after doubled _ executed
    exact (tracer_step_cases executed).doubled doubled
  rcases kept_or_doomed kept breach stays initial (Along.trivial _ calls) executed
    with ⟨along, honest⟩ | ⟨broken, doubled⟩
  · exact iff_of_true honest.toReportedOnce along
  · exact iff_of_false (fun once => doubled once.once) broken

/-- A report, one of the emptied context while a span created since is open, and
one of null. -/
def reportedRun : List TracerCall :=
  [.newContext none, .context 0 .createEntrySpan, .context 0 (.span 0 (.endSpan 5)), .report (some 0),
    .context 0 .createEntrySpan, .report (some 0), .report none]

def freshTracer : Tracer Nat where
  serviceName := ascii ['m', 'e', 's', 'h']
  instanceName := []
  ignoreMatcher := { targetSuffixes := [ascii ['/', 'p', 'i', 'n', 'g']] }
  randomGenerator := 10

theorem reported_once_open_span :
    ∃ tracer, exec (Tracer.step countUp) freshTracer reportedRun = some tracer ∧ tracer.handed.length = 1 ∧
      tracer.replies = [⟨false, true, true⟩, ⟨true, false, false⟩, ⟨false, false, false⟩] ∧ tracer.ReportedOnce :=
  ⟨_, rfl, rfl, rfl,
    (reported_once_iff (show exec (Tracer.step countUp) freshTracer reportedRun = some _ from rfl)).mpr (by decide)⟩

def repeatedRun : List TracerCall :=
  [.newContext none, .context 0 .createEntrySpan, .context 0 (.span 0 (.endSpan 5)), .report (some 0), .report (some 0)]

theorem reported_again_empty :
    ∃ tracer, exec (Tracer.step countUp) freshTracer repeatedRun = some tracer ∧
      tracer.handed.map Handed.index = [0, 0] ∧ (tracer.handed.map Handed.segment).getLast? = some {} ∧
      tracer.replies = [⟨false, true, true⟩, ⟨true, true, true⟩] ∧ ¬ tracer.ReportedOnce :=
  ⟨_, rfl, rfl, rfl, rfl, fun reported => absurd reported.once (by decide)⟩

end Cpp2Sky

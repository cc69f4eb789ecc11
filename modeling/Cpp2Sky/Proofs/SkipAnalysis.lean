import Mathlib.Tactic.Tauto
import Cpp2Sky.Proofs.ContextView
import Cpp2Sky.Proofs.HeaderRoundTrip

/-! Which spans of a segment skip analysis. The flag of the context is copied to
a span at its creation and never again. -/

namespace Cpp2Sky
open Runs

/-- As documented: a call on the context makes all spans skip analysis, and
without one exactly those skip it that were told so. -/
def SkipCovers (made : FactoryCall) (calls : List ContextCall) (segment : SegmentObject) : Prop :=
  ∀ (index : Nat) (store : SpanObject), segment.spans[index]? = some store →
    (store.skipAnalysis = true ↔
      (made.skips ∨ .setSkipAnalysis ∈ calls) ∨ .span index .setSkipAnalysis ∈ calls)

/-- The number of spans created before the first `setSkipAnalysis` of the context. -/
def createdBeforeSkip (calls : List ContextCall) : Nat :=
  ((calls.takeWhile (· ≠ .setSkipAnalysis)).foldl ContextCall.creates []).length

/-- The flag is set before the first span, or the spans that are older are told
to skip analysis through their own handles. -/
def SkipsInTime (made : FactoryCall) (calls : List ContextCall) : Prop :=
  ¬ made.skips → .setSkipAnalysis ∈ calls → ∀ index < createdBeforeSkip calls, .span index .setSkipAnalysis ∈ calls

/-- What the span at some place has, or would have if it were created next. -/
def TracingContextImpl.skips (context : TracingContextImpl) (index : Nat) : Bool :=
  (context.view[index]?).elim context.shouldSkipAnalysis fun span => span.spanStore.skipAnalysis

private theorem write_skipAnalysis (store : SpanObject) (call : SpanCall) :
    (call.write store).skipAnalysis = true ↔ store.skipAnalysis = true ∨ call = .setSkipAnalysis := by
  cases call <;> simp [SpanCall.write]

private theorem Linked.skips_pushBack {context : TracingContextImpl} (linked : Linked context) {span : TracingSpanImpl}
    (copied : span.spanStore.skipAnalysis = context.shouldSkipAnalysis) (index : Nat) :
    (context.pushBack span).skips index = context.skips index := by
  have flag : (context.pushBack span).shouldSkipAnalysis = context.shouldSkipAnalysis := rfl
  rw [TracingContextImpl.skips, TracingContextImpl.skips, linked.view_pushBack, flag]
  rcases Nat.lt_trichotomy index context.view.length with old | rfl | beyond
  · rw [List.getElem?_append_left old]
  · rw [List.getElem?_concat_length, List.getElem?_eq_none (Nat.le_refl _)]
    exact copied
  · have outside : (context.view ++ [span]).length ≤ index := by
      rw [List.length_append]
      exact beyond
    rw [List.getElem?_eq_none outside, List.getElem?_eq_none (by omega)]

private theorem setSpan_flag (context : TracingContextImpl) (index : Nat) (span : TracingSpanImpl) :
    (context.setSpan index span).shouldSkipAnalysis = context.shouldSkipAnalysis := by
  unfold TracingContextImpl.setSpan
  split <;> rfl

private theorem Linked.skips_setSpan {context : TracingContextImpl} (linked : Linked context) {place : Nat}
    {span changed : TracingSpanImpl} {write : SpanCall} (found : context.span place = .ok span)
    (ran : write.run span = .ok changed) (index : Nat) :
    (context.setSpan place changed).skips index = true ↔
      context.skips index = true ∨ place = index ∧ write = .setSkipAnalysis := by
  have present := linked.span_iff.mp found
  rw [TracingContextImpl.skips, TracingContextImpl.skips, linked.view_setSpan found, setSpan_flag]
  by_cases same : place = index
  · subst same
    rw [List.getElem?_set_self (List.getElem?_eq_some_iff.mp present).1, present]
    simp only [Option.elim_some, run_write ran, write_skipAnalysis, true_and]
  · rw [List.getElem?_set_ne same]
    simp only [same, false_and, or_false]

private theorem ContextStep.flag {before after : TracingContextImpl} {call : ContextCall}
    (moves : ContextStep before call after) (set : before.shouldSkipAnalysis = true) :
    after.shouldSkipAnalysis = true := by
  cases moves with
  | skip => rfl
  | span => exact (setSpan_flag _ _ _).trans set
  | _ => exact set

private theorem ContextStep.skips {before after : TracingContextImpl} {call : ContextCall}
    (moves : ContextStep before call after) (linked : Linked before)
    (known : call = .setSkipAnalysis → before.shouldSkipAnalysis = true) (index : Nat) :
    after.skips index = true ↔ before.skips index = true ∨ call = .span index .setSkipAnalysis := by
  cases moves with
  | entry | exit =>
    rw [linked.skips_pushBack rfl]
    simp
  | again => simp
  | skip =>
    have same : { before with shouldSkipAnalysis := true } = before := by rw [← known rfl]
    simp [same]
  | span found ran =>
    rw [linked.skips_setSpan found ran, ContextCall.span.injEq]

/-- Once the flag is as it will stay, only the handle of a span can change what
the span has. -/
theorem skips_run {start context : TracingContextImpl} {calls : List ContextCall} (linked : Linked start)
    (known : .setSkipAnalysis ∈ calls → start.shouldSkipAnalysis = true)
    (executed : exec TracingContextImpl.step start calls = some context) (index : Nat) :
    context.skips index = true ↔ start.skips index = true ∨ .span index .setSkipAnalysis ∈ calls := by
  induction calls generalizing start with
  | nil =>
    cases executed
    simp
  | cons call rest ih =>
    obtain ⟨next, moved, remaining⟩ := exec_cons_some executed
    have moves := context_step_cases moved
    have still : .setSkipAnalysis ∈ rest → next.shouldSkipAnalysis = true :=
      fun later => moves.flag (known (List.mem_cons_of_mem call later))
    have first : call = .setSkipAnalysis → start.shouldSkipAnalysis = true :=
      fun turn => known (turn ▸ List.mem_cons_self)
    rw [ih (moves.linked linked) still remaining, moves.skips linked first, List.mem_cons, or_assoc,
      eq_comm (a := call)]

private theorem spans_grow {start context : TracingContextImpl} {calls : List ContextCall}
    (executed : exec TracingContextImpl.step start calls = some context) :
    start.spans.length ≤ context.spans.length := by
  refine Reachable.induct ⟨calls, executed⟩ (Nat.le_refl _) fun before call after _ kept executed => ?_
  apply Nat.le_trans kept
  cases context_step_cases executed with
  | entry | exit => simp [TracingContextImpl.pushBack]
  | again | skip => exact Nat.le_refl _
  | span => exact Nat.le_of_eq (setSpan_length _ _ _).symm

/-- The state in which the flag is first set, with as many spans as were created
until then. -/
private theorem first_skip {start context : TracingContextImpl} {calls : List ContextCall} (fresh : start.spans = [])
    (executed : exec TracingContextImpl.step start calls = some context) (set : .setSkipAnalysis ∈ calls) :
    ∃ before after middle, calls = before ++ .setSkipAnalysis :: after ∧ .setSkipAnalysis ∉ before ∧
      exec TracingContextImpl.step start before = some middle ∧ middle.spans.length = createdBeforeSkip calls ∧
      exec TracingContextImpl.step middle.setSkipAnalysis after = some context := by
  obtain ⟨before, after, split, unset⟩ := List.eq_append_cons_of_mem set
  subst split
  rw [exec_append, Option.bind_eq_some_iff] at executed
  obtain ⟨middle, ran, rest⟩ := executed
  have others : ∀ call ∈ before, decide (call ≠ .setSkipAnalysis) = true := by
    intro call member
    exact decide_eq_true fun same => unset (same ▸ member)
  have first : (before ++ .setSkipAnalysis :: after).takeWhile (· ≠ .setSkipAnalysis) = before := by
    rw [List.takeWhile_append_of_pos others]
    simp
  have count : middle.spans.length = createdBeforeSkip (before ++ .setSkipAnalysis :: after) := by
    rw [createdBeforeSkip, first]
    exact created_run (by rw [fresh]; rfl) ran
  exact ⟨before, after, middle, rfl, unset, ran, count, rest⟩

private theorem createdBeforeSkip_le {start context : TracingContextImpl} {calls : List ContextCall}
    (fresh : start.spans = []) (executed : exec TracingContextImpl.step start calls = some context)
    (set : .setSkipAnalysis ∈ calls) : createdBeforeSkip calls ≤ context.spans.length := by
  obtain ⟨before, after, middle, _, _, _, count, rest⟩ := first_skip fresh executed set
  have grows : middle.setSkipAnalysis.spans.length ≤ context.spans.length := spans_grow rest
  exact count ▸ grows

theorem Linked.skips_object {context : TracingContextImpl} (linked : Linked context) {index : Nat}
    {store : SpanObject} (object : context.segmentStore.spans[index]? = some store) :
    context.skips index = store.skipAnalysis := by
  rw [← linked.view_stores, List.getElem?_map] at object
  obtain ⟨span, present, rfl⟩ := Option.map_eq_some_iff.mp object
  rw [TracingContextImpl.skips, present]
  rfl

private theorem skips_setFlag (context : TracingContextImpl) (index : Nat) :
    context.setSkipAnalysis.skips index = true ↔ context.skips index = true ∨ context.view.length ≤ index := by
  have view : context.setSkipAnalysis.view = context.view := rfl
  have flag : context.setSkipAnalysis.shouldSkipAnalysis = true := rfl
  rw [TracingContextImpl.skips, TracingContextImpl.skips, view, flag]
  by_cases inside : index < context.view.length
  · have before : ¬ context.view.length ≤ index := Nat.not_le.mpr inside
    rw [List.getElem?_eq_getElem inside]
    simp [before]
  · rw [List.getElem?_eq_none (Nat.le_of_not_lt inside)]
    simp [Nat.le_of_not_lt inside]

/-- A span is told to skip analysis, or it was created once the context was told to. -/
theorem skips_iff {start context : TracingContextImpl} {calls : List ContextCall} (linked : Linked start)
    (fresh : start.spans = []) (executed : exec TracingContextImpl.step start calls = some context) (index : Nat) :
    context.skips index = true ↔ start.shouldSkipAnalysis = true ∨ .span index .setSkipAnalysis ∈ calls ∨
      .setSkipAnalysis ∈ calls ∧ createdBeforeSkip calls ≤ index := by
  have initial : start.skips index = start.shouldSkipAnalysis := by
    rw [TracingContextImpl.skips, linked.view_eq_nil.mpr fresh]
    rfl
  by_cases set : .setSkipAnalysis ∈ calls
  · obtain ⟨before, after, middle, rfl, unset, ran, count, rest⟩ := first_skip fresh executed set
    have reached : Linked middle := TracingContextImpl.Reached.linked ⟨before, ran⟩ linked
    have flagged : Linked middle.setSkipAnalysis := ⟨reached.size, reached.place, reached.number⟩
    rw [skips_run flagged (fun _ => rfl) rest, skips_setFlag, skips_run linked (fun early => absurd early unset) ran,
      initial, reached.view_length, count]
    simp only [List.mem_append, List.mem_cons, reduceCtorEq, false_or, true_or, or_true, true_and]
    tauto
  · rw [skips_run linked (fun early => absurd early set) executed, initial]
    simp only [set, false_and, or_false]

theorem skip_covers_iff {ρ : Type} {uuid : ρ → Bytes × ρ} {factory rest : TracingContextFactory ρ} {made : FactoryCall}
    {start context : TracingContextImpl} {calls : List ContextCall}
    (created : made.run uuid factory = .ok (start, rest))
    (executed : exec TracingContextImpl.step start calls = some context) :
    SkipCovers made calls context.createSegmentObject.1 ↔ SkipsInTime made calls := by
  have start := factory_made created
  have linked : Linked context := TracingContextImpl.Reached.linked ⟨calls, executed⟩ start.linked
  have skips (index : Nat) (store : SpanObject) (object : context.segmentStore.spans[index]? = some store) :
      store.skipAnalysis = true ↔ made.skips ∨ .span index .setSkipAnalysis ∈ calls ∨
        .setSkipAnalysis ∈ calls ∧ createdBeforeSkip calls ≤ index := by
    rw [← start.skips, ← skips_iff start.linked start.fresh executed, linked.skips_object object]
  constructor
  · intro covers late set index early
    have created := createdBeforeSkip_le start.fresh executed set
    have inside : index < context.segmentStore.spans.length := by
      rw [← linked.size]
      exact Nat.lt_of_lt_of_le early created
    have object := List.getElem?_eq_getElem inside
    have told := (covers index _ object).mpr (.inl (.inr set))
    rcases (skips index _ object).mp told with whole | asked | ⟨_, new⟩
    · exact absurd whole late
    · exact asked
    · omega
  · intro intime index store object
    rw [skips index store object]
    constructor
    · rintro (whole | asked | ⟨set, _⟩)
      · exact .inl (.inl whole)
      · exact .inr asked
      · exact .inl (.inr set)
    · rintro ((whole | set) | asked)
      · exact .inl whole
      · by_cases late : made.skips
        · exact .inl late
        · by_cases early : index < createdBeforeSkip calls
          · exact .inr (.inl (intime late set index early))
          · exact .inr (.inr ⟨set, Nat.le_of_not_lt early⟩)
      · exact .inr (.inl asked)

def plainFactory : TracingContextFactory Nat where
  serviceName := ascii ['m', 'e', 's', 'h']
  instanceName := []
  randomGenerator := 10

def plainContext : TracingContextImpl := (plainFactory.create countUp).1

theorem plain_created :
    FactoryCall.create.run countUp plainFactory = .ok (plainContext, (plainFactory.create countUp).2) := rfl

def skippedCalls : List ContextCall :=
  [.createEntrySpan, .span 0 .setSkipAnalysis, .setSkipAnalysis, .createExitSpan (.own 0)]

theorem skip_covers_iff_own_call :
    ∃ context, exec TracingContextImpl.step plainContext skippedCalls = some context ∧
      SkipCovers .create skippedCalls context.createSegmentObject.1 := by
  obtain ⟨context, executed⟩ : ∃ context, exec TracingContextImpl.step plainContext skippedCalls = some context := ⟨_, rfl⟩
  refine ⟨context, executed, (skip_covers_iff plain_created executed).mpr ?_⟩
  intro _ _ index early
  have single : createdBeforeSkip skippedCalls = 1 := by decide
  obtain rfl : index = 0 := by omega
  decide

def lateCalls : List ContextCall := [.createEntrySpan, .setSkipAnalysis, .createExitSpan (.own 0)]

theorem entry_span_not_skipped :
    ∃ context, exec TracingContextImpl.step plainContext lateCalls = some context ∧ .setSkipAnalysis ∈ lateCalls ∧
      context.createSegmentObject.1.spans.map SpanObject.skipAnalysis = [false, true] :=
  ⟨_, rfl, by decide, rfl⟩

end Cpp2Sky

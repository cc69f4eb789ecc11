import Mathlib.Data.List.Nodup
import Cpp2Sky.Library.Pool
import Cpp2Sky.Proofs.FreshIds
import Cpp2Sky.Proofs.ReportOnce

/-! The identifiers of a tracer on one thread. Its contexts take what the generator
returns in order, none is left out and none is used twice, and two of the segments
that it hands over have the same id only where the random bytes repeat. -/

namespace Cpp2Sky
open Runs RandomGenerator

variable {fillings : Nat → Buffer} {before after tracer : Tracer RandomGenerator.State} {call : TracerCall}

/-- What the constructor took from the generator. -/
def Tracked.drawn (tracked : Tracked) : List Bytes :=
  (if tracked.constructed.parentSpanContext.isNone then [tracked.constructed.segmentStore.traceId] else []) ++
    [tracked.constructed.segmentStore.traceSegmentId]

/-- The bytes of two calls differ in no bit that their identifiers keep. -/
def Repeats (fillings : Nat → Buffer) (one two : Nat) : Prop :=
  ∀ j, j < 16 → Agree j (chunk (fillings (one / 128)) (16 * (one % 128)) j) (chunk (fillings (two / 128)) (16 * (two % 128)) j)

structure Tracer.Identified (fillings : Nat → Buffer) (tracer : Tracer RandomGenerator.State) (count : Nat) : Prop where
  used : Used fillings count tracer.randomGenerator
  drawn : tracer.contexts.flatMap Tracked.drawn = (List.range count).map (identifierOf fillings)
  traces : ∀ tracked ∈ tracer.contexts, ∀ parent, tracked.constructed.parentSpanContext = some parent →
    tracked.constructed.segmentStore.traceId = parent.traceId
  handed : ∀ handed ∈ tracer.handed, ∃ tracked, tracer.contexts[handed.index]? = some tracked ∧
    handed.constructed = tracked.constructed

/-- A context that is called or reported keeps what it was constructed with. -/
private theorem Tracer.Identified.replaced {count index : Nat} {old new : Tracked} (kept : before.Identified fillings count)
    (found : before.contexts[index]? = some old) (contexts : after.contexts = before.contexts.set index new)
    (same : new.constructed = old.constructed) (random : after.randomGenerator = before.randomGenerator)
    (handed : ∀ handed ∈ after.handed, handed ∈ before.handed ∨ handed.index = index ∧ handed.constructed = old.constructed) :
    after.Identified fillings count := by
  have inside := (List.getElem?_eq_some_iff.mp found).1
  refine ⟨random ▸ kept.used, ?_, ?_, ?_⟩
  · have drawn : new.drawn = old.drawn := by simp only [Tracked.drawn, same]
    rw [contexts, Pool.flatMap_same found drawn]
    exact kept.drawn
  · intro tracked member
    rw [contexts] at member
    rcases List.mem_or_eq_of_mem_set member with there | rfl
    · exact kept.traces tracked there
    · rw [same]
      exact kept.traces old (List.mem_of_getElem? found)
  · intro segment member
    rw [contexts]
    rcases handed segment member with there | ⟨rfl, constructed⟩
    · obtain ⟨tracked, present, constructed⟩ := kept.handed segment there
      by_cases here : index = segment.index
      · subst here
        obtain rfl : old = tracked := Option.some.inj (found.symm.trans present)
        exact ⟨new, List.getElem?_set_self inside, constructed.trans same.symm⟩
      · exact ⟨tracked, by rw [List.getElem?_set_ne here]; exact present, constructed⟩
    · exact ⟨new, List.getElem?_set_self inside, constructed.trans same.symm⟩

private theorem Tracer.Identified.appended {count more : Nat} {new : Tracked} {random : RandomGenerator.State}
    (kept : before.Identified fillings count) (used : Used fillings (count + more) random)
    (drawn : new.drawn = (List.range' count more).map (identifierOf fillings))
    (trace : ∀ parent, new.constructed.parentSpanContext = some parent →
      new.constructed.segmentStore.traceId = parent.traceId) :
    Tracer.Identified fillings { before with randomGenerator := random, contexts := before.contexts ++ [new] }
      (count + more) := by
  refine ⟨used, ?_, ?_, ?_⟩
  · have range : List.range (count + more) = List.range count ++ List.range' count more := by
      rw [List.range_eq_range', List.range_eq_range', List.range'_append_1.symm, Nat.zero_add]
    rw [List.flatMap_append, kept.drawn, range, List.map_append, ← drawn]
    simp
  · intro tracked member
    rcases List.mem_append.mp member with there | last
    · exact kept.traces tracked there
    · rw [List.mem_singleton.mp last]
      exact trace
  · intro segment member
    obtain ⟨tracked, present, constructed⟩ := kept.handed segment member
    have inside := (List.getElem?_eq_some_iff.mp present).1
    exact ⟨tracked, by rw [List.getElem?_append_left inside]; exact present, constructed⟩

private theorem TracerStep.identified {count : Nat} (moves : TracerStep (nextId fillings) before call after)
    (kept : before.Identified fillings count) : ∃ more, after.Identified fillings (count + more) := by
  cases moves with
  | @created span context randomGenerator built =>
    obtain ⟨made, next, returned, ids⟩ := context_ids kept.used before.serviceName before.instanceName span none
    rw [returned] at built
    obtain ⟨rfl, rfl⟩ := Prod.mk.inj built
    have parent : made.parentSpanContext = span := (congrArg (fun made => made.1.parentSpanContext) returned).symm
    cases span with
    | none =>
      obtain ⟨traceId, segmentId, used⟩ := ids
      refine ⟨2, kept.appended used ?_ ?_⟩
      · simp [Tracked.drawn, parent, traceId, segmentId, List.range'_succ]
      · intro other has
        rw [parent] at has
        cases has
    | some span =>
      obtain ⟨traceId, segmentId, used⟩ := ids
      refine ⟨1, kept.appended used ?_ ?_⟩
      · simp [Tracked.drawn, parent, segmentId]
      · intro other has
        obtain rfl : span = other := Option.some.inj (parent.symm.trans has)
        exact traceId
  | called found =>
    exact ⟨0, kept.replaced found rfl rfl rfl fun handed member => .inl member⟩
  | null => exact ⟨0, kept.used, kept.drawn, kept.traces, kept.handed⟩
  | withheld => exact ⟨0, kept.used, kept.drawn, kept.traces, kept.handed⟩
  | @handed index tracked found =>
    refine ⟨0, kept.replaced found rfl rfl rfl ?_⟩
    intro segment member
    rcases List.mem_append.mp member with old | new
    · exact .inl old
    · rw [List.mem_singleton.mp new]
      exact .inr ⟨rfl, rfl⟩

private theorem segmentIds_sublist (contexts : List Tracked) :
    (contexts.map fun tracked => tracked.constructed.segmentStore.traceSegmentId).Sublist (contexts.flatMap Tracked.drawn) := by
  induction contexts with
  | nil => exact List.Sublist.refl _
  | cons tracked rest ih =>
    have own : [tracked.constructed.segmentStore.traceSegmentId].Sublist tracked.drawn := List.sublist_append_right _ _
    exact own.append ih

private theorem identifierOf_eq_iff {one two : Nat} :
    identifierOf fillings one = identifierOf fillings two ↔ Repeats fillings one two := identifier_eq_iff

private theorem Tracer.Identified.distinct {count : Nat} (identified : tracer.Identified fillings count) :
    (tracer.contexts.flatMap Tracked.drawn).Nodup ↔
      ∀ one two, one < count → two < count → Repeats fillings one two → one = two := by
  rw [identified.drawn, List.nodup_map_iff_inj_on List.nodup_range]
  simp only [List.mem_range, identifierOf_eq_iff]
  exact ⟨fun distinct one two first last => distinct one first two last,
    fun distinct one first two last => distinct one two first last⟩

private theorem Tracer.Identified.segmentIds {count : Nat} (identified : tracer.Identified fillings count)
    (honest : tracer.Honest) (distinct : (tracer.contexts.flatMap Tracked.drawn).Nodup) :
    (tracer.handed.map fun handed => handed.segment.traceSegmentId).Nodup := by
  have ids := distinct.sublist (segmentIds_sublist tracer.contexts)
  have once : tracer.handed.Pairwise fun first last => first.index ≠ last.index := List.pairwise_map.mp honest.once
  apply List.pairwise_map.mpr
  apply once.imp_of_mem
  intro first last member there different same
  obtain ⟨tracked, found, constructed⟩ := identified.handed first member
  obtain ⟨other, present, constructed'⟩ := identified.handed last there
  have segmentId := congrArg (fun identity => identity.2.1) (honest.whole first member).identity
  have segmentId' := congrArg (fun identity => identity.2.1) (honest.whole last there).identity
  have inside := (List.getElem?_eq_some_iff.mp found).1
  apply different
  apply (List.getElem?_inj (by simpa using inside) ids).mp
  simp only [List.getElem?_map, found, present, Option.map_some, ← constructed, ← constructed']
  exact congrArg some (segmentId.symm.trans (same.trans segmentId'))

/-- In every run the contexts have taken the first identifiers of the generator,
each once, and these differ exactly where the random bytes do. -/
theorem ids_drawn {serviceName instanceName : Bytes} {ignoreMatcher : SuffixMatcher} {calls : List TracerCall}
    (executed : exec (Tracer.step (nextId fillings))
      { serviceName, instanceName, ignoreMatcher, randomGenerator := initial } calls = some tracer) :
    ∃ count, tracer.Identified fillings count ∧
      ((tracer.contexts.flatMap Tracked.drawn).Nodup ↔
        ∀ one two, one < count → two < count → Repeats fillings one two → one = two) ∧
      (Along (Tracer.step (nextId fillings)) ReportsNew
          { serviceName, instanceName, ignoreMatcher, randomGenerator := initial } calls →
        (tracer.contexts.flatMap Tracked.drawn).Nodup →
        (tracer.handed.map fun handed => handed.segment.traceSegmentId).Nodup) := by
  have identified : ∃ count, tracer.Identified fillings count := by
    refine Reachable.induct ⟨calls, executed⟩ ⟨0, used_initial, rfl, ?_, ?_⟩ ?_
    · intro tracked member
      cases member
    · intro handed member
      cases member
    · intro before call after _ kept moved
      obtain ⟨count, kept⟩ := kept
      obtain ⟨more, next⟩ := (tracer_step_cases moved).identified kept
      exact ⟨count + more, next⟩
  obtain ⟨count, identified⟩ := identified
  refine ⟨count, identified, identified.distinct, ?_⟩
  intro along distinct
  exact identified.segmentIds (honest_run (honest_fresh rfl rfl rfl) along executed) distinct

/-- The byte of each place is its own number, modulo 256, in every filling. -/
def countedFilling : Buffer := { bytes := (List.range bufferSize).map UInt8.ofNat, size := by simp }

def drawnCalls : List TracerCall := [.newContext none, .newContext none, .report (some 1)]

theorem ids_drawn_counted :
    ∃ tracer count, exec (Tracer.step (nextId fun _ => countedFilling))
        { serviceName := [], instanceName := [], ignoreMatcher := ⟨[]⟩, randomGenerator := initial } drawnCalls = some tracer ∧
      tracer.contexts.length = 2 ∧ tracer.Identified (fun _ => countedFilling) count := by
  obtain ⟨tracer, executed, size⟩ : ∃ tracer, exec (Tracer.step (nextId fun _ => countedFilling))
      { serviceName := [], instanceName := [], ignoreMatcher := ⟨[]⟩, randomGenerator := initial } drawnCalls = some tracer ∧
        tracer.contexts.length = 2 := ⟨_, rfl, rfl⟩
  obtain ⟨count, identified, _⟩ := ids_drawn executed
  exact ⟨tracer, count, executed, size, identified⟩

end Cpp2Sky

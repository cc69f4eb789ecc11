import Cpp2Sky.Proofs.ReportOnce
import Cpp2Sky.Proofs.ReporterLosses
import Cpp2Sky.TracerImpl

/-! From a report to the stream. A segment that a tracer hands over is in one
place at a time, it is written once at most, and nothing else is ever written. -/

namespace Cpp2Sky
open Runs

namespace AsyncClient
variable {M : Type} {before after moved : State M}

/-- A call that has begun and is not counted yet. -/
def Sender.arrives : Sender M → Multiset M
  | .total message => {message}
  | .outside | .size _ | .overflow _ | .push _ | .once _ => 0

def State.arriving (state : State M) : Multiset M := Pool.total Sender.arrives state.senders

def Action.brings : Action M → Multiset M
  | .call _ message => {message}
  | .spawn | .sender _ | .deliver _ _ | .drain | .loop | .reset | .resetter => 0

private theorem after_arrives (following : Option (Once M)) : (Sender.after following).arrives = 0 := by
  cases following <;> rfl

private theorem thread_arrives {thread : Nat} {old new : Sender M} {brought : Multiset M}
    (found : before.senders[thread]? = some old) (senders : after.senders = before.senders.set thread new)
    (balance : (after.submitted : Multiset M) + new.arrives = before.submitted + old.arrives + brought) :
    (after.submitted : Multiset M) + after.arriving = before.submitted + before.arriving + brought := by
  have moved : after.arriving + old.arrives = before.arriving + new.arrives := by
    rw [State.arriving, senders]
    exact Pool.total_set found new
  apply add_right_cancel (b := old.arrives)
  calc
    (after.submitted : Multiset M) + after.arriving + old.arrives = after.submitted + new.arrives + before.arriving := by
      rw [add_assoc, moved]
      abel
    _ = before.submitted + before.arriving + brought + old.arrives := by
      rw [balance]
      abel

private theorem Step.arrives {action : Action M} (moves : Step before action after) :
    (after.submitted : Multiset M) + after.arriving = before.submitted + before.arriving + action.brings := by
  cases moves with
  | spawn => simp [State.arriving, Sender.arrives, Action.brings]
  | call found =>
    refine thread_arrives found rfl ?_
    simp only [Sender.arrives, Action.brings, add_zero]
  | total found =>
    refine thread_arrives found rfl ?_
    simp only [Sender.arrives, Action.brings, add_zero, ← Multiset.coe_add, Multiset.coe_singleton]
  | full found | room found | overflow found | push found => exact thread_arrives found rfl (add_zero _).symm
  | senderOnce found once =>
    refine thread_arrives found (by rw [once.framed.senders]) ?_
    simp only [after_arrives, once.framed.submitted]
    exact (add_zero _).symm
  | loopOnce turn once =>
    simp only [State.arriving, once.framed.senders, once.framed.submitted]
    exact (add_zero _).symm
  | lateStart turn dead old => rcases old with rfl | rfl <;> exact (add_zero _).symm
  | _ => exact (add_zero _).symm

/-- The messages that were written or still can be. -/
def State.writable (state : State M) : Multiset M :=
  state.written.map Prod.snd + state.messageBuffer + Pool.total Sender.carries state.senders + state.loop.popped

/-- The part of them that no thread holds. -/
private def State.passed (state : State M) : Multiset M := state.written.map Prod.snd + state.messageBuffer

private theorem OnceStep.passes {position following} (once : OnceStep before position moved following) :
    moved.passed + (Sender.after following).carries = before.passed + position.carries := by
  cases once with
  | @pop message rest buffer =>
    simp only [State.passed, Sender.after, Sender.carries, Once.carries, buffer, ← Multiset.cons_coe,
      ← Multiset.singleton_add]
    abel
  | write active live =>
    simp only [State.passed, Sender.after, Sender.carries, Once.carries, List.map_append, List.map_cons, List.map_nil,
      ← Multiset.coe_add, Multiset.coe_singleton]
    abel
  | _ => rfl

private theorem thread_writable {thread : Nat} {old new : Sender M} (found : before.senders[thread]? = some old)
    (senders : after.senders = before.senders.set thread new) (loop : after.loop = before.loop)
    (bounded : after.passed + new.carries + before.submitted ≤ before.passed + old.carries + after.submitted) :
    after.writable + before.submitted ≤ before.writable + after.submitted := by
  have carried : Pool.total Sender.carries after.senders + old.carries =
      Pool.total Sender.carries before.senders + new.carries := senders ▸ Pool.total_set found new
  have bounded := add_le_add_left bounded (Pool.total Sender.carries before.senders + before.loop.popped)
  apply le_of_add_le_add_right (a := old.carries)
  calc
    after.writable + before.submitted + old.carries =
        after.passed + (Pool.total Sender.carries after.senders + old.carries) + before.loop.popped + before.submitted := by
      simp only [State.writable, State.passed, loop]
      abel
    _ = after.passed + new.carries + before.submitted +
        (Pool.total Sender.carries before.senders + before.loop.popped) := by
      rw [carried]
      abel
    _ ≤ before.passed + old.carries + after.submitted +
        (Pool.total Sender.carries before.senders + before.loop.popped) := bounded
    _ = before.writable + after.submitted + old.carries := by
      simp only [State.writable, State.passed]
      abel

private theorem loop_writable (senders : after.senders = before.senders)
    (bounded : after.passed + after.loop.popped + before.submitted ≤ before.passed + before.loop.popped + after.submitted) :
    after.writable + before.submitted ≤ before.writable + after.submitted := by
  have bounded := add_le_add_left bounded (Pool.total Sender.carries before.senders)
  calc
    after.writable + before.submitted =
        after.passed + after.loop.popped + before.submitted + Pool.total Sender.carries before.senders := by
      simp only [State.writable, State.passed, senders]
      abel
    _ ≤ before.passed + before.loop.popped + after.submitted + Pool.total Sender.carries before.senders := bounded
    _ = before.writable + after.submitted := by
      simp only [State.writable, State.passed]
      abel

private theorem once_popped (following : Option (Once M)) :
    ((Loop.after following).popped : Multiset M) = (Sender.after following).carries := by
  cases following with
  | none => rfl
  | some position => cases position <;> rfl

private theorem position_popped (position : Once M) : (position.popped : Multiset M) = position.carries := by
  cases position <;> rfl

private theorem Step.writable {action : Action M} (moves : Step before action after) :
    after.writable + before.submitted ≤ before.writable + after.submitted := by
  cases moves with
  | spawn => simp [State.writable, Sender.carries]
  | call found => exact thread_writable found rfl rfl (le_refl _)
  | full found | room found => exact thread_writable found rfl rfl (le_refl _)
  | total found =>
    refine thread_writable found rfl rfl (le_of_eq ?_)
    simp only [State.passed, Sender.carries, ← Multiset.coe_add, Multiset.coe_singleton]
    abel
  | overflow found =>
    refine thread_writable found rfl rfl (add_le_add_left ?_ _)
    simp only [Sender.carries, add_zero]
    exact Multiset.le_add_right _ _
  | push found =>
    refine thread_writable found rfl rfl (le_of_eq ?_)
    simp only [State.passed, Sender.carries, Once.carries, ← Multiset.coe_add, Multiset.coe_singleton]
    abel
  | senderOnce found once =>
    refine thread_writable found (by rw [once.framed.senders]) once.framed.loop (le_of_eq ?_)
    have passes := once.passes
    simp only [State.passed, Sender.carries, once.framed.submitted] at passes ⊢
    rw [passes]
  | loopOnce turn once =>
    refine loop_writable once.framed.senders (le_of_eq ?_)
    have passes := once.passes
    have held : (before.loop.popped : Multiset M) = _ := congrArg (fun loop : Loop M => (loop.popped : Multiset M)) turn
    simp only [State.passed, once.framed.submitted, once_popped, held] at passes ⊢
    rw [passes, ← position_popped]
    rfl
  | @deliver index ok operation waiting found =>
    have light : (operation.callback ok).popped = before.loop.popped := by
      rw [waiting]
      cases operation <;> rfl
    exact loop_writable rfl (le_of_eq (congrArg (fun popped : List M => before.passed + popped + before.submitted) light))
  | sent turn | lost turn | checkReset turn | checkOk turn | checkFailed turn | loopIdle turn | isBusy turn | restart turn =>
    exact loop_writable rfl (le_of_eq (by rw [turn]; rfl))
  | drain waiting => exact loop_writable rfl (le_of_eq (by rw [waiting]; rfl))
  | clear turn =>
    exact loop_writable rfl (add_le_add_left (add_le_add_left (add_le_add_right (Multiset.zero_le _) _) _) _)
  | lateStart turn dead old =>
    rcases old with rfl | rfl <;> exact loop_writable rfl (le_of_eq (by rw [turn]; rfl))
  | notBusy | reset | store | exitAgain | exit | shutdown | join | resetStream => exact le_refl _

theorem Reaches.writable {state : State M} (reached : Reaches state) : state.writable ≤ state.submitted := by
  refine Reachable.induct reached ?_ ?_
  · rw [constructed_eq]
    exact le_refl _
  · intro before action after _ kept executed
    have moved := (step_cases executed).2.writable
    apply le_of_add_le_add_right (a := (before.submitted : Multiset M))
    calc
      after.writable + before.submitted ≤ before.writable + after.submitted := moved
      _ ≤ before.submitted + after.submitted := add_le_add_left kept _
      _ = after.submitted + before.submitted := add_comm _ _

end AsyncClient

variable {ρ : Type} {uuid : ρ → Bytes × ρ}

/-- The condition on reports, in a program that runs beside its reporter. -/
def TracerImpl.ReportsNew (tracerImpl : TracerImpl ρ) : TracerImplCall → Prop
  | .report _ context => Cpp2Sky.ReportsNew tracerImpl.tracer (.report context)
  | .newContext _ | .context _ _ | .destructor | .reporter _ => True

instance (tracerImpl : TracerImpl ρ) : (call : TracerImplCall) → Decidable (tracerImpl.ReportsNew call)
  | .report _ _ => inferInstanceAs (Decidable (Cpp2Sky.ReportsNew _ _))
  | .newContext _ | .context _ _ | .destructor | .reporter _ => .isTrue True.intro

def Tracer.segments (tracer : Tracer ρ) : Multiset SegmentObject := tracer.handed.map Handed.segment

/-- The written messages are segments that were handed over, each at most once;
and until the client is reset every segment that was handed over is somewhere. -/
structure TracerImpl.Delivers (tracerImpl : TracerImpl ρ) : Prop where
  written : ∃ delivered : List Handed, delivered.Sublist tracerImpl.tracer.handed ∧
    (delivered.map Handed.segment).Perm (tracerImpl.asyncClient.written.map Prod.snd)
  located : tracerImpl.asyncClient.clientReset = false → tracerImpl.tracer.segments =
    tracerImpl.asyncClient.arriving + tracerImpl.asyncClient.carried + tracerImpl.asyncClient.placed
  rested : tracerImpl.asyncClient.clientReset = false → tracerImpl.asyncClient.AtRest → tracerImpl.tracer.segments =
    tracerImpl.asyncClient.sent + tracerImpl.asyncClient.dropped + tracerImpl.asyncClient.messageBuffer

structure Tracer.HandsOver (tracer : Tracer ρ) : Prop where
  once : (tracer.handed.map Handed.index).Nodup
  whole : ∀ handed ∈ tracer.handed, handed.Whole

inductive TracerImplStep (uuid : ρ → Bytes × ρ) (before : TracerImpl ρ) : TracerImplCall → TracerImpl ρ → Prop where
  | silent {call inner tracer} (moves : TracerStep uuid before.tracer inner tracer)
      (same : tracer.handed = before.tracer.handed)
      (new : before.ReportsNew call → Cpp2Sky.ReportsNew before.tracer inner) :
      TracerImplStep uuid before call { before with tracer }
  | handed {thread context tracer handed asyncClient} (moves : TracerStep uuid before.tracer (.report context) tracer)
      (appended : tracer.handed = before.tracer.handed ++ [handed])
      (sent : AsyncClient.step before.asyncClient (.call thread handed.segment) = some asyncClient) :
      TracerImplStep uuid before (.report thread context) { tracer, asyncClient }
  | reporter {call action asyncClient} (moved : AsyncClient.step before.asyncClient action = some asyncClient)
      (brings : action.brings = 0) : TracerImplStep uuid before call { before with asyncClient }

private theorem TracerStep.appends {before after : Tracer ρ} {call : TracerCall} (moves : TracerStep uuid before call after) :
    after.handed = before.handed ∨ ∃ handed, after.handed = before.handed ++ [handed] := by
  cases moves with
  | handed => exact .inr ⟨_, rfl⟩
  | _ => exact .inl rfl

theorem tracerImpl_step_cases {before after : TracerImpl ρ} {call : TracerImplCall}
    (executed : before.step uuid call = some after) : TracerImplStep uuid before call after := by
  cases call with
  | newContext span =>
    cases executed
    exact .silent (.created rfl) rfl fun _ => True.intro
  | context index call =>
    obtain ⟨tracer, moved, rest⟩ := Option.bind_eq_some_iff.mp executed
    cases rest
    have moves := tracer_step_cases moved
    have same : tracer.handed = before.tracer.handed := by
      cases moves
      rfl
    exact .silent moves same fun _ => True.intro
  | report thread context =>
    obtain ⟨tracer, moved, rest⟩ := Option.bind_eq_some_iff.mp executed
    have moves := tracer_step_cases moved
    rcases moves.appends with same | ⟨handed, appended⟩
    · rw [same, List.getElem?_length] at rest
      cases rest
      exact .silent moves same id
    · rw [appended, List.getElem?_concat_length] at rest
      obtain ⟨asyncClient, sent, rest⟩ := Option.bind_eq_some_iff.mp rest
      cases rest
      exact .handed moves appended sent
  | destructor =>
    obtain ⟨asyncClient, moved, rest⟩ := Option.bind_eq_some_iff.mp executed
    cases rest
    exact .reporter moved rfl
  | reporter action =>
    cases action with
    | call | reset => cases executed
    | _ =>
      obtain ⟨asyncClient, moved, rest⟩ := Option.bind_eq_some_iff.mp executed
      cases rest
      exact .reporter moved rfl

/-- The client is in a state that it reaches by itself, and a segment that was
handed over is counted there or about to be. -/
structure TracerImpl.Joined (tracerImpl : TracerImpl ρ) : Prop where
  client : AsyncClient.Reaches tracerImpl.asyncClient
  segments : tracerImpl.tracer.segments = tracerImpl.asyncClient.submitted + tracerImpl.asyncClient.arriving

theorem TracerImplStep.joined {before after : TracerImpl ρ} {call : TracerImplCall}
    (moves : TracerImplStep uuid before call after) (kept : before.Joined) : after.Joined := by
  cases moves with
  | silent _ same =>
    refine ⟨kept.client, ?_⟩
    rw [Tracer.segments, same]
    exact kept.segments
  | handed _ appended sent =>
    refine ⟨Reachable.next kept.client sent, ?_⟩
    have arrived := (AsyncClient.step_cases sent).2.arrives
    rw [← kept.segments] at arrived
    rw [arrived, Tracer.segments, appended, List.map_append, ← Multiset.coe_add]
    rfl
  | reporter moved brings =>
    refine ⟨Reachable.next kept.client moved, ?_⟩
    have arrived := (AsyncClient.step_cases moved).2.arrives
    rw [brings, add_zero, ← kept.segments] at arrived
    exact arrived.symm

theorem TracerImpl.Joined.delivers {tracerImpl : TracerImpl ρ} (joined : tracerImpl.Joined) : tracerImpl.Delivers := by
  have located : tracerImpl.asyncClient.clientReset = false → tracerImpl.tracer.segments =
      tracerImpl.asyncClient.arriving + tracerImpl.asyncClient.carried + tracerImpl.asyncClient.placed := by
    intro unset
    rw [joined.segments, joined.client.everywhere unset]
    abel
  refine ⟨?_, located, ?_⟩
  · have bounded : (tracerImpl.asyncClient.written.map Prod.snd : Multiset SegmentObject) ≤ tracerImpl.tracer.segments := by
      calc
        (tracerImpl.asyncClient.written.map Prod.snd : Multiset SegmentObject) ≤ tracerImpl.asyncClient.writable := by
          rw [AsyncClient.State.writable, add_assoc, add_assoc]
          exact Multiset.le_add_right _ _
        _ ≤ tracerImpl.asyncClient.submitted := joined.client.writable
        _ ≤ tracerImpl.tracer.segments := by
          rw [joined.segments]
          exact Multiset.le_add_right _ _
    obtain ⟨segments, same, inside⟩ := Multiset.coe_le.mp bounded
    obtain ⟨delivered, sublist, rfl⟩ := List.sublist_map_iff.mp inside
    exact ⟨delivered, sublist, same⟩
  · intro unset rest
    have arriving : tracerImpl.asyncClient.arriving = 0 := rest.between.outside rfl
    rw [located unset, arriving, rest.between.carried, rest.placed, add_zero, zero_add]

theorem TracerImplStep.honest {before after : TracerImpl ρ} {call : TracerImplCall}
    (moves : TracerImplStep uuid before call after) (new : before.ReportsNew call) (kept : before.tracer.Honest) :
    after.tracer.Honest := by
  cases moves with
  | silent moves _ reports => exact moves.honest kept (reports new)
  | handed moves => exact moves.honest kept new
  | reporter => exact kept

theorem TracerImpl.constructed {config : TracerConfig} {random : ρ} {start : TracerImpl ρ}
    (made : TracerImpl.new config none random = .ok start) : start.Joined ∧ start.tracer.Honest := by
  by_cases protocol : config.protocol ≠ .grpc
  · rw [TracerImpl.new, TracerImpl.init, if_pos protocol] at made
    cases made
  · rw [TracerImpl.new, TracerImpl.init, if_neg protocol] at made
    cases made
    refine ⟨⟨.refl _, ?_⟩, honest_fresh rfl rfl rfl⟩
    rw [AsyncClient.constructed_eq]
    rfl

theorem segments_delivered {config : TracerConfig} {random : ρ} {start tracerImpl : TracerImpl ρ}
    {calls : List TracerImplCall} (made : TracerImpl.new config none random = .ok start)
    (executed : exec (TracerImpl.step uuid) start calls = some tracerImpl) :
    tracerImpl.Delivers ∧ (Along (TracerImpl.step uuid) TracerImpl.ReportsNew start calls → tracerImpl.tracer.HandsOver) := by
  obtain ⟨joined, honest⟩ := TracerImpl.constructed made
  constructor
  · have kept : tracerImpl.Joined := Reachable.induct ⟨calls, executed⟩ joined fun before call after _ kept moved =>
      (tracerImpl_step_cases moved).joined kept
    exact kept.delivers
  · intro along
    have preserved : ∀ (before : TracerImpl ρ) call after, before.tracer.Honest → before.ReportsNew call →
        before.step uuid call = some after → after.tracer.Honest := by
      intro before call after kept new moved
      exact (tracerImpl_step_cases moved).honest new kept
    have kept := invariant preserved honest along executed
    exact ⟨kept.once, kept.whole⟩

def meshConfig : TracerConfig where
  protocol := .grpc
  serviceName := ascii ['m', 'e', 's', 'h']
  instanceName := []
  ignoreOperationNameSuffix := [ascii ['/', 'p', 'i', 'n', 'g']]

/-- The stream becomes ready while the context is made, and the segment goes out. -/
def deliveringRun : List TracerImplCall :=
  [.reporter .spawn, .newContext none, .reporter (.deliver 0 true), .context 0 .createEntrySpan, .reporter .loop,
    .reporter .loop, .context 0 (.span 0 (.endSpan 5)), .report 0 (some 0), .reporter (.sender 0), .reporter (.sender 0),
    .reporter (.sender 0), .reporter (.sender 0), .reporter (.sender 0), .reporter (.sender 0), .reporter (.sender 0)]

theorem segments_delivered_mesh :
    ∃ start tracerImpl, TracerImpl.new meshConfig none 10 = .ok start ∧
      exec (TracerImpl.step countUp) start deliveringRun = some tracerImpl ∧
      tracerImpl.asyncClient.written.map Prod.snd = tracerImpl.tracer.handed.map Handed.segment ∧
      tracerImpl.tracer.handed.length = 1 ∧ tracerImpl.Delivers ∧ tracerImpl.tracer.HandsOver := by
  have delivered := segments_delivered (show TracerImpl.new meshConfig none 10 = .ok _ from rfl)
    (show exec (TracerImpl.step countUp) _ deliveringRun = some _ from rfl)
  exact ⟨_, _, rfl, rfl, rfl, rfl, delivered.1, delivered.2 (by decide)⟩

end Cpp2Sky

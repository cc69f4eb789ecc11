import Cpp2Sky.Library.Session
import Cpp2Sky.Proofs.ReporterQueue

/-! What gRPC sees of the reporter before its reset. The StartCalls, the Writes
and their reports are a run of the session machine, whatever the threads do. -/

namespace Cpp2Sky.AsyncClient
open Runs Session

variable {M : Type}

def Operation.reports : Operation M → Bool → Event M
  | .startCall stream, ok => .connected stream ok
  | .write stream message, ok => .written stream message ok

def Once.shows (state : State M) : Once M → List (Event M)
  | .write message => state.activeStream.toList.map fun stream => .write stream message
  | .exchange | .assertStream | .popFront | .markIdle => []

def Sender.shows (state : State M) : Sender M → List (Event M)
  | .once position => position.shows state
  | .outside | .total _ | .size _ | .overflow _ | .push _ => []

def Loop.shows (state : State M) : Loop M → List (Event M)
  | .once position => position.shows state
  | .startStream => [.connect state.streams]
  | .next | .count _ _ | .check _ | .markIdle | .assertBusy | .finished => []

/-- What a step starts on the completion queue, or is told by it. -/
def State.shows (state : State M) : Action M → List (Event M)
  | .sender thread => state.senders[thread]?.elim [] (Sender.shows state)
  | .loop => state.loop.shows state
  | .deliver index ok => state.outstanding[index]?.toList.map fun operation => operation.reports ok
  | .spawn | .call _ _ | .drain | .reset | .resetter => []

/-- In the callback of an operation that failed. -/
def Loop.broken : Loop M → Bool
  | .count _ false | .check false | .assertBusy | .startStream => true
  | .next | .count _ true | .check true | .markIdle | .once _ | .finished => false

/-- Acknowledged, and not counted yet. -/
def Loop.counting : Loop M → List M
  | .count message true => [message]
  | .next | .count _ false | .check _ | .markIdle | .once _ | .assertBusy | .startStream | .finished => []

def Operation.phase : Operation M → Phase M
  | .startCall stream => .connecting stream
  | .write stream message => .writing stream message

/-- The session that the reporter is in on some stream. -/
def State.phase (state : State M) (stream : Nat) : Phase M :=
  match state.outstanding with
  | operation :: _ => operation.phase
  | [] => if state.loop.broken then .broken stream else .ready stream

/-- The last stream that was created is the active one. -/
structure State.InSession (state : State M) (stream : Nat) : Prop where
  reached : Reaches state
  unset : state.clientReset = false
  active : state.activeStream = some stream
  streams : state.streams = stream + 1

private theorem phase_idle {state : State M} {stream : Nat} (none : state.outstanding = []) :
    state.phase stream = if state.loop.broken then .broken stream else .ready stream := by
  rw [State.phase, none]

/-- A step shows nothing where no operation and no new stream is involved. -/
private theorem phase_same {before after : State M} (stream : Nat) (outstanding : after.outstanding = before.outstanding)
    (loop : after.loop.broken = before.loop.broken) : after.phase stream = before.phase stream := by
  rw [State.phase, State.phase, outstanding, loop]

/-- A thread at its Write has the permit, so the session waits for a message. -/
private theorem phase_ready {state : State M} {stream : Nat} (sole : state.permits ≤ 1) (held : 0 < state.holders) :
    state.outstanding = [] ∧ state.phase stream = .ready stream := by
  simp only [State.permits, State.operations] at sole
  have none : state.outstanding = [] := List.eq_nil_of_length_eq_zero (by omega)
  have whole : state.loop.broken = false := by
    cases turn : state.loop with
    | count message ok => cases ok <;> first | rfl | (rw [turn] at sole; simp only [Loop.handles] at sole; omega)
    | check ok => cases ok <;> first | rfl | (rw [turn] at sole; simp only [Loop.handles] at sole; omega)
    | assertBusy | startStream => rw [turn] at sole; simp only [Loop.handles] at sole; omega
    | _ => rfl
  exact ⟨none, by rw [phase_idle none, whole]; rfl⟩

private theorem once_shows {before moved after : State M} {position following} {stream : Nat}
    (once : OnceStep before position moved following) (healthy : moved.fault = none) (sole : before.permits ≤ 1)
    (held : position.holds ≤ before.holders) (active : before.activeStream = some stream)
    (outstanding : after.outstanding = moved.outstanding) (loop : after.loop.broken = before.loop.broken) :
    Accepts Session.Step (before.phase stream) (position.shows before) (after.phase stream) := by
  cases once with
  | write current live =>
    obtain ⟨none, ready⟩ : before.outstanding = [] ∧ before.phase stream = .ready stream := phase_ready sole held
    obtain rfl := Option.some.inj (current.symm.trans active)
    rw [ready, State.phase, outstanding, none]
    simp only [Once.shows, current]
    exact .one .write
  | absent | late | null => cases healthy
  | _ =>
    rw [phase_same stream outstanding loop]
    exact .done

private theorem State.InSession.silent {before after : State M} {stream : Nat} {action : Action M}
    (session : before.InSession stream) (reached : Reaches after) (unset : after.clientReset = false)
    (shows : before.shows action = []) (outstanding : after.outstanding = before.outstanding)
    (loop : after.loop.broken = before.loop.broken) (active : after.activeStream = before.activeStream)
    (streams : after.streams = before.streams) :
    ∃ next, Accepts Session.Step (before.phase stream) (before.shows action) (after.phase next) ∧ after.InSession next := by
  refine ⟨stream, ?_, reached, unset, active.trans session.active, streams.trans session.streams⟩
  rw [shows, phase_same stream outstanding loop]
  exact .done

private theorem once_streams {before moved : State M} {position following}
    (once : OnceStep before position moved following) : moved.streams = before.streams := by
  cases once <;> rfl

private theorem after_broken (following : Option (Once M)) : (Loop.after following).broken = false := by
  cases following <;> rfl

private theorem callback_broken (operation : Operation M) (ok : Bool) : (operation.callback ok).broken = !ok := by
  cases operation <;> cases ok <;> rfl

private theorem reports_step (operation : Operation M) (ok : Bool) :
    Session.Step operation.phase (operation.reports ok)
      (if !ok then .broken operation.stream else .ready operation.stream) := by
  cases operation with
  | startCall stream =>
    cases ok with
    | true => exact .connected
    | false => exact .refused
  | write stream message =>
    cases ok with
    | true => exact .written
    | false => exact .lost

private theorem Step.session {before after : State M} {stream : Nat} {action : Action M} (moves : Step before action after)
    (session : before.InSession stream) (reached : Reaches after) (unset : after.clientReset = false) :
    ∃ next, Accepts Session.Step (before.phase stream) (before.shows action) (after.phase next) ∧ after.InSession next := by
  have sole := session.reached.sound.permits_le
  have healthy := reached.sound.healthy unset
  have kept := session.reached.sound.lifecycle (session.reached.sound.healthy session.unset)
  cases moves with
  | spawn | call | reset => exact session.silent reached unset rfl rfl rfl rfl rfl
  | total found | full found | room found | overflow found | push found =>
    exact session.silent reached unset (by simp [State.shows, found, Sender.shows]) rfl rfl rfl rfl
  | @senderOnce thread position moved following found once =>
    have held : position.holds ≤ before.holders := (thread_le found).trans (Nat.le_add_right _ _)
    have shows : before.shows (.sender thread) = position.shows before := by simp [State.shows, found, Sender.shows]
    refine ⟨stream, ?_, reached, unset, once.framed.activeStream.trans session.active, (once_streams once).trans session.streams⟩
    rw [shows]
    exact once_shows once healthy sole held session.active rfl (by rw [once.framed.loop])
  | @loopOnce position moved following turn once =>
    have held : position.holds ≤ before.holders := by
      simp only [State.holders, turn, Loop.holds]
      omega
    have shows : before.shows .loop = position.shows before := by simp [State.shows, turn, Loop.shows]
    refine ⟨stream, ?_, reached, unset, once.framed.activeStream.trans session.active, (once_streams once).trans session.streams⟩
    rw [shows]
    exact once_shows once healthy sole held session.active rfl (by rw [turn]; exact after_broken following)
  | @deliver index ok operation waiting found =>
    obtain ⟨only, empty⟩ := outstanding_one sole found
    have current : operation.stream = stream :=
      Option.some.inj (((session.reached.sound.streaming session.unset).active operation (List.mem_of_getElem? found)).symm.trans
        session.active)
    refine ⟨stream, ?_, reached, unset, session.active, session.streams⟩
    have shows : before.shows (.deliver index ok) = [operation.reports ok] := by simp [State.shows, found]
    have first : before.phase stream = operation.phase := by rw [State.phase, only]
    rw [shows, first, phase_idle empty]
    simp only [State.reported, callback_broken, ← current]
    exact .one (reports_step operation ok)
  | drain waiting none dead => exact absurd dead (kept.not_shut session.unset)
  | sent turn | lost turn | checkOk turn | checkFailed turn | isBusy turn | loopIdle turn =>
    exact session.silent reached unset (by simp [State.shows, turn, Loop.shows]) rfl (by simp [turn, Loop.broken]) rfl rfl
  | checkReset turn set =>
    rw [session.unset] at set
    cases set
  | notBusy => cases healthy
  | restart turn live =>
    have none := outstanding_nil sole (by rw [turn]; rfl)
    have shows : before.shows .loop = [.connect (stream + 1)] := by simp [State.shows, turn, Loop.shows, session.streams]
    have first : before.phase stream = .broken stream := by
      rw [phase_idle none, turn]
      rfl
    have last : State.phase { before.withStream with loop := .next } (stream + 1) = .connecting (stream + 1) := by
      simp [State.phase, State.withStream, none, Operation.phase, session.streams]
    refine ⟨stream + 1, ?_, reached, unset, ?_, ?_⟩
    · rw [shows, first, last]
      exact .one .connect
    · exact congrArg some session.streams
    · exact congrArg (· + 1) session.streams
  | lateStart turn dead => exact absurd dead (kept.not_shut session.unset)
  | store => cases unset
  | clear turn | exitAgain turn | exit turn | shutdown turn | join turn | resetStream turn =>
    rcases kept.uncalled session.unset with outside | storing
    · cases outside.symm.trans turn
    · cases storing.symm.trans turn

/-- A step of a run that ends before the reset. -/
def Early (state : State M) (action : Action M) : Prop :=
  Reaches state ∧ ∀ next, step state action = some next → next.clientReset = false

private theorem early_run {start state : State M} {actions : List (Action M)} (reached : Reaches start)
    (executed : exec step start actions = some state) (unset : state.clientReset = false) :
    start.clientReset = false ∧ Along step Early start actions := by
  induction actions generalizing start with
  | nil => exact ⟨Option.some.inj executed ▸ unset, True.intro⟩
  | cons action rest ih =>
    obtain ⟨next, moved, remaining⟩ := exec_cons_some executed
    obtain ⟨still, early⟩ := ih (reached.next moved) remaining
    refine ⟨(step_cases moved).2.unset still, (Along.cons_some moved).mpr ⟨⟨reached, ?_⟩, early⟩⟩
    intro other same
    exact Option.some.inj (moved.symm.trans same) ▸ still

private theorem once_wrote {before moved : State M} {position following}
    (once : OnceStep before position moved following) (healthy : moved.fault = none) :
    moved.written = before.written ++ (position.shows before).filterMap Event.wrote := by
  cases once with
  | write active => simp [Once.shows, active, Event.wrote]
  | absent | late | null => cases healthy
  | _ => exact (List.append_nil _).symm

private theorem once_unacknowledged (state : State M) (position : Once M) :
    (position.shows state).filterMap Event.acknowledged = [] := by
  cases position <;> simp [Once.shows, Event.acknowledged, List.filterMap_map, Function.comp_def]

private theorem Step.records {before after : State M} {action : Action M} (moves : Step before action after)
    (healthy : after.fault = none) :
    after.written = before.written ++ (before.shows action).filterMap Event.wrote ∧
      after.sent ++ after.loop.counting =
        before.sent ++ before.loop.counting ++ (before.shows action).filterMap Event.acknowledged := by
  have silent {shown : List (Event M)} (none : shown = []) {written : List (Nat × M)} {sent : List M} :
      written = written ++ shown.filterMap Event.wrote ∧ sent = sent ++ shown.filterMap Event.acknowledged := by
    rw [none]
    exact ⟨(List.append_nil _).symm, (List.append_nil _).symm⟩
  cases moves with
  | spawn | call | reset | store | clear | exitAgain | exit | shutdown | join | resetStream => exact silent rfl
  | drain waiting =>
    rw [waiting]
    exact silent rfl
  | total found | full found | room found | overflow found | push found =>
    exact silent (by simp [State.shows, found, Sender.shows])
  | @senderOnce thread position moved following found once =>
    have shows : before.shows (.sender thread) = position.shows before := by simp [State.shows, found, Sender.shows]
    rw [shows, once_unacknowledged, List.append_nil]
    have wrote : moved.written = _ := once_wrote once healthy
    exact ⟨wrote, by rw [once.framed.sent, once.framed.loop]⟩
  | @loopOnce position moved following turn once =>
    have shows : before.shows .loop = position.shows before := by simp [State.shows, turn, Loop.shows]
    have idle : (Loop.after following).counting = [] := by cases following <;> rfl
    have wrote : moved.written = _ := once_wrote once healthy
    rw [shows, once_unacknowledged, List.append_nil]
    refine ⟨wrote, ?_⟩
    rw [once.framed.sent, idle, turn]
    rfl
  | @deliver index ok operation waiting found =>
    have shows : before.shows (.deliver index ok) = [operation.reports ok] := by simp [State.shows, found]
    rw [shows, waiting]
    cases operation <;> cases ok <;> simp [State.reported, Operation.reports, Operation.callback, Event.wrote, Event.acknowledged, Loop.counting]
  | sent turn =>
    simp [State.shows, turn, Loop.shows, Loop.counting]
  | restart turn => simp [State.shows, turn, Loop.shows, Loop.counting, Event.wrote, Event.acknowledged, State.withStream]
  | lost turn | checkReset turn | checkOk turn | checkFailed turn | loopIdle turn | isBusy turn =>
    simp [State.shows, turn, Loop.shows, Loop.counting]
  | notBusy | lateStart => cases healthy

/-- What gRPC saw of a run before the reset. -/
def history (actions : List (Action M)) : List (Event M) := shown step State.shows constructed actions

private theorem session_run {state : State M} {actions : List (Action M)}
    (executed : exec step constructed actions = some state) (unset : state.clientReset = false) :
    ∃ stream, state.InSession stream ∧ Accepts Session.Step (.connecting 0) (history actions) (state.phase stream) ∧
      (history actions).filterMap Event.wrote = state.written ∧
      (history actions).filterMap Event.acknowledged = state.sent ++ state.loop.counting := by
  have early := (early_run (.refl constructed) executed unset).2
  have simulated : ∀ (before : State M) action after phase, (∃ stream, before.InSession stream ∧ phase = before.phase stream) →
      Early before action → step before action = some after →
      ∃ next, Accepts Session.Step phase (before.shows action) next ∧
        ∃ stream, after.InSession stream ∧ next = after.phase stream := by
    intro before action after phase ⟨stream, session, same⟩ early executed
    subst same
    obtain ⟨next, accepted, follows⟩ := (step_cases executed).2.session session (early.1.next executed) (early.2 after executed)
    exact ⟨_, accepted, next, follows, rfl⟩
  have recorded : ∀ (before : State M) action after, Early before action → step before action = some after →
      after.written = before.written ++ (before.shows action).filterMap Event.wrote ∧
        after.sent ++ after.loop.counting =
          before.sent ++ before.loop.counting ++ (before.shows action).filterMap Event.acknowledged := by
    intro before action after early executed
    have reached : Reaches after := early.1.next executed
    exact (step_cases executed).2.records (reached.sound.healthy (early.2 after executed))
  have initial : ∃ stream, (constructed : State M).InSession stream ∧ Phase.connecting 0 = (constructed : State M).phase stream := by
    refine ⟨0, ⟨.refl constructed, ?_, ?_, ?_⟩, ?_⟩ <;> rw [constructed_eq] <;> rfl
  obtain ⟨after, accepted, stream, session, rfl⟩ := simulates simulated initial early executed
  have written := collects (fun before action after early executed => (recorded before action after early executed).1) early executed
  have sent := collects (fun before action after early executed => (recorded before action after early executed).2) early executed
  have none : (constructed : State M).written = [] ∧ (constructed : State M).sent ++ (constructed : State M).loop.counting = [] := by
    rw [constructed_eq]
    exact ⟨rfl, rfl⟩
  rw [none.1, List.nil_append] at written
  rw [none.2, List.nil_append] at sent
  exact ⟨stream, session, accepted, written.symm, sent.symm⟩

private theorem counting_ready {state : State M} (sole : state.permits ≤ 1) {message : M} (counting : state.loop.counting = [message])
    (stream : Nat) : state.phase stream = .ready stream := by
  cases turn : state.loop with
  | count message ok =>
    have none := outstanding_nil sole (by rw [turn]; rfl)
    cases ok with
    | true => rw [phase_idle none, turn]; rfl
    | false => rw [turn] at counting; cases counting
  | _ => rw [turn] at counting; cases counting

private theorem counting_cases (position : Loop M) : position.counting = [] ∨ ∃ message, position.counting = [message] := by
  cases position with
  | count message ok => cases ok <;> simp [Loop.counting]
  | _ => exact .inl rfl

private theorem phase_owed {state : State M} {stream : Nat} (session : state.InSession stream) :
    (state.phase stream).owed ≤ stream + 1 := by
  unfold State.phase
  split
  next operation rest only =>
    have current := (session.reached.sound.streaming session.unset).active operation (by rw [only]; exact List.mem_cons_self)
    obtain rfl := Option.some.inj (session.active.symm.trans current)
    cases operation <;> simp [Operation.phase, Phase.owed, Operation.stream]
  next => split <;> simp [Phase.owed]

/-- A run before the reset as gRPC sees it is one session: its writes are the
messages handed to Write, and its acknowledgements those counted as sent. They
come in the order of acceptance, each stream costs one message at most, and no
stream is used after it failed. -/
structure State.Conveyed (state : State M) (history : List (Event M)) : Prop where
  session : ∃ stream, state.activeStream = some stream ∧ Accepts Session.Step (.connecting 0) history (state.phase stream)
  written : history.filterMap Event.wrote = state.written
  acknowledged : history.filterMap Event.acknowledged = state.sent ++ state.loop.counting
  ordered : (state.sent ++ state.loop.counting).Sublist state.accepted
  losses : state.written.length ≤ state.sent.length + state.streams
  abandoned : ∀ first event rest, history = first ++ event :: rest → event.failed = true →
    ∀ later ∈ rest, event.stream < later.stream

theorem sessions_followed {state : State M} {actions : List (Action M)}
    (executed : exec step constructed actions = some state) (unset : state.clientReset = false) :
    state.Conveyed (history actions) := by
  obtain ⟨stream, session, accepted, written, acknowledged⟩ := session_run executed unset
  refine ⟨⟨stream, session.active, accepted⟩, written, acknowledged, ?_, ?_, ?_⟩
  · have handed : (state.written.map Prod.snd).Sublist state.accepted := by
      rw [← session.reached.channel unset]
      exact state.channel.handed_prefix.sublist
    have answered := acknowledged_sublist accepted
    rw [written, acknowledged] at answered
    exact ((List.sublist_append_left _ _).trans answered).trans handed
  · have lost := losses_le accepted
    have owed := phase_owed session
    rw [written, acknowledged, List.length_append] at lost
    rcases counting_cases state.loop with none | ⟨message, counting⟩
    · rw [none, List.length_nil] at lost
      have streams := session.streams
      omega
    · -- A message that is being counted has left its stream ready for the next one.
      rw [counting_ready session.reached.sound.permits_le counting, counting, List.length_singleton] at lost
      have streams := session.streams
      simp only [Phase.owed] at lost
      omega
  · intro first event rest whole failed
    rw [whole] at accepted
    exact failed_last accepted failed

theorem sessions_followed_reconnect :
    ∃ state : State Nat, exec step constructed reconnectRun = some state ∧ state.Conveyed (history reconnectRun) :=
  ⟨_, rfl, sessions_followed (show exec step constructed reconnectRun = some _ from rfl) rfl⟩

end Cpp2Sky.AsyncClient

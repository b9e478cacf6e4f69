import RoomServer.Service.Transactions

/-!
# What a task plans to send

A handler does not look at what the connections answer: it leaves the same service, and makes
the same deliveries to the connections in the same order, whatever they answer.  So a task is a
plan, which is the service it leaves and a list of deliveries, and the answers only decide what
the deliveries come to.
-/

namespace RoomServer

/-- A frame that is to be offered to a connection. -/
structure Delivery where
  connection : ConnId
  frame : Frame
  fits : Codec.Fits frame

/-- The frame is a snapshot of the state of a room. -/
def Frame.IsSnapshot (f : Frame) : Prop := f.type = MessageType.stateSnapshot.toU16

instance (f : Frame) : Decidable f.IsSnapshot := inferInstanceAs (Decidable (_ = _))

namespace Delivery

/-- What a delivery comes to: a snapshot is not forced on the connection, and any other frame
that is refused has the connection closed. -/
def outcome (answers : Answers) (events : List Event) (delivery : Delivery) : List Event :=
  let c := delivery.connection
  let bytes := Codec.frameBytes delivery.frame
  if delivery.frame.IsSnapshot then
    if answers.underBackpressure events c then
      [.skipped c]
    else
      [.sent c bytes (answers.send events c bytes)]
  else if answers.send events c bytes then
    [.sent c bytes true]
  else
    [.sent c bytes false, .closeRequested c]

/-- The events when deliveries are made one after the other behind the events so far. -/
def perform (answers : Answers) (events : List Event) (deliveries : List Delivery) : List Event :=
  deliveries.foldl (fun events delivery => events ++ delivery.outcome answers events) events

theorem perform_append (answers : Answers) (events : List Event)
    (deliveries deliveries' : List Delivery) :
  perform answers events (deliveries ++ deliveries')
    = perform answers (perform answers events deliveries) deliveries'
  := List.foldl_append

end Delivery

namespace RoomService

open Delivery

/-! ### Frames -/

/-- The events are those of deliveries that do not depend on the answers. -/
def Scripted (events : Answers → List Event → List Event) : Prop :=
  ∃ deliveries, ∀ answers es, events answers es = perform answers es deliveries

theorem Scripted.comp {events events' : Answers → List Event → List Event} (h : Scripted events)
    (h' : Scripted events') :
  Scripted fun answers es => events' answers (events answers es)
  := by
  obtain ⟨deliveries, hdeliveries⟩ := h
  obtain ⟨deliveries', hdeliveries'⟩ := h'
  use deliveries ++ deliveries'
  intro answers es
  dsimp only
  rw [hdeliveries', hdeliveries, perform_append]

/-- The handler leaves a service and makes deliveries that do not depend on the answers. -/
def Planned (handler : Answers → RoomService × List Event) : Prop :=
  ∃ service deliveries, ∀ answers, handler answers = (service, perform answers [] deliveries)

theorem Scripted.planned {events : Answers → List Event → List Event} (h : Scripted events)
    (service : RoomService) :
  Planned fun answers => (service, events answers [])
  := by
  obtain ⟨deliveries, hdeliveries⟩ := h
  use service, deliveries
  intro answers
  dsimp only
  rw [hdeliveries]

variable (service : RoomService) (connection : ConnectionPtr) (payload : Bytes)

end RoomService

end RoomServer

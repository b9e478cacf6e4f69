import RoomServer.Service.Outcomes

/-!
# The handlers as transactions

Every task of a coherent service is a sequence of transactions, those its outcome tells.
-/

namespace RoomServer

/-- The name the player asks for, when the task is a request to join. -/
def requestedName (payload : Bytes) : Bytes :=
  match Protocol.decodeJoinRequest payload with
  | none => []
  | some request => request.playerName

def Task.requestedName : Task → Bytes
  | .frame _ _ payload _ _ => RoomServer.requestedName payload
  | _ => []

/-- The token generated for a task. -/
def Task.token : Task → Bytes
  | .frame _ _ _ token _ => token
  | _ => []

namespace RoomService

/-- The outcome of a task, the service and the events, is one of transactions. -/
def Transacts (name fresh : Bytes) (service : RoomService)
    (outcome : RoomService × List Event) : Prop :=
  Transactions name fresh service outcome.2 outcome.1

theorem Transaction.transacts {name fresh : Bytes} {service service' : RoomService}
    {es : List Event}
    (h : Transaction name fresh service es service') :
  Transacts name fresh service (service', es)
  := .single h

theorem transacts_quiet {name fresh : Bytes} {service : RoomService} {es : List Event}
    (h : Quiet es) :
  Transacts name fresh service (service, es)
  := (Transaction.quiet h).transacts

variable {service : RoomService} {L : Ledger}

/-! ### Requests -/

section Requests

variable {name fresh : Bytes} {c : ConnId} {service' : RoomService} {es : List Event}

theorem JoinOutcome.transacts {payload token : Bytes}
    (h : JoinOutcome service c payload token service' es) :
  Transactions (requestedName payload) token service es service'
  := by
  cases h with
  | denied _ hes => apply (Transaction.quiet hes.quiet).transacts
  | undone _ _ hroom hadmits =>
    apply (Transaction.skipId hroom hadmits.next_ne_zero quiet_nil).transacts
  | @committed request _ _ _ _ _ hrequest hc hroom hadmits hwelcomes hroom' hresponse hes hes' =>
    have hname : requestedName payload = request.playerName := by rw [requestedName, hrequest]
    rw [hname]
    apply (Transaction.enrol hroom hadmits.name_fits hadmits.waiting hadmits.size_lt
      hadmits.next_ne_zero _ hc hwelcomes.token_ne_nil hwelcomes.token_new hresponse hes
      hes').transacts
    cases hroom' with
    | waits => exact .inl rfl
    | starts _ hstart => exact .inr ⟨hstart, rfl⟩

theorem ResumeOutcome.transacts {payload : Bytes} {now : Int}
    (h : ResumeOutcome service c payload now service' es) :
  Transactions name fresh service es service'
  := by
  cases h with
  | denied _ hes => apply transacts_quiet hes.quiet
  | ignored => apply transacts_quiet quiet_nil
  | undone => apply transacts_quiet quiet_nil
  | committed _ hc hsession hwaits hroom hmember hresponse hes =>
    apply (Transaction.bind hsession hwaits.1 hc hroom hmember hresponse hes).transacts

/-- The bindings that are left when a session ends lead to the other sessions. -/
theorem lookup_erase_binding (hL : service.Represents L) {token : Bytes}
    (hbinding : service.sessionManager.bindings.lookup c = some token) (c' : ConnId) (t : Bytes) :
  (service.sessionManager.bindings.erase c).lookup c' = some t
    ↔ t ≠ token ∧ service.sessionManager.bindings.lookup c' = some t
  := by
  rw [lookup_erase_bound hbinding fun _ => hL.eq_of_binding hbinding]
  split
  · next heq => simp [heq]
  · next hne => simp [hne]

theorem LeaveOutcome.transacts (hL : service.Represents L)
    (h : LeaveOutcome service c service' es) :
  Transactions name fresh service es service'
  := by
  cases h with
  | denied hes => apply transacts_quiet hes.quiet
  | left hbinding hsession hconn hroom hes hes' =>
    apply (Transaction.remove hsession hroom (lookup_erase_binding hL hbinding)
      (hes.quiet (by decide)) hes').transacts

theorem ChatOutcome.quiet (h : ChatOutcome service c es) :
  Quiet es
  := by
  cases h with
  | denied hes => apply hes.quiet
  | said _ _ _ _ _ _ hes => apply hes.quiet (by decide)

theorem CommandOutcome.transacts {requestType : MessageType}
    (h : CommandOutcome service c requestType service' es) :
  Transactions name fresh service es service'
  := by
  cases h with
  | denied hes => apply transacts_quiet hes.quiet
  | collected _ _ hroom => apply (Transaction.submit hroom _ quiet_nil).transacts

end Requests

/-! ### Tasks -/

theorem Removals.transacts {service' : RoomService} {name fresh : Bytes} {es : List Event}
    (h : Removals service service' es) (hL : service.Represents L) :
  Transactions name fresh service es service'
  := by
  induction h generalizing L with
  | nil => exact .nil
  | cons hsession hoffline hroom hes _ ih =>
    have hremove : Transaction name fresh _ ([] ++ _) _ :=
      .remove hsession hroom (lookup_binding_offline hL hsession hoffline) quiet_nil hes
    exact .cons hremove rfl (ih (removed_represents hL hsession hoffline hroom))

/-- Every task of a coherent service is a sequence of transactions. -/
theorem run_transacts (hL : service.Represents L) (answers : Answers) (task : Task) :
  Transacts task.requestedName task.token service (service.run answers task)
  := by
  have houtcome := run_outcome hL answers task
  rw [Transacts]
  generalize (service.run answers task).1 = service' at houtcome ⊢
  generalize (service.run answers task).2 = es at houtcome ⊢
  cases houtcome with
  | idle => apply transacts_quiet quiet_nil
  | join htask h =>
    subst htask
    apply h.transacts
  | resume h => apply h.transacts
  | leave h => apply h.transacts hL
  | chat h => apply transacts_quiet h.quiet
  | command h => apply h.transacts
  | closed hbinding hsession hroom hmember =>
    apply (Transaction.unbind hbinding hsession hroom hmember _).transacts
  | tick _ _ hes => apply (Transaction.tick hes.quiet).transacts
  | timeouts h => apply h.transacts hL

end RoomService

end RoomServer

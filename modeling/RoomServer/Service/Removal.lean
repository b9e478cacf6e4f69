import RoomServer.Net.Closing
import RoomServer.Service.Server

/-!
# The removal of connections

Close is the last word on a connection when no frame that could bind it is decoded after it has
left the connected state: in such runs a removed connection is never bound again, and every
online session is bound to a connection the server still has.
-/

namespace RoomServer

/-! ### Who is bound -/

namespace SessionManager

variable {manager manager' manager'' : SessionManager} {connection : ConnectionPtr}

/-- At most the given connection is bound anew. -/
def BindsOnly (connection : ConnectionPtr) (manager manager' : SessionManager) : Prop :=
  ∀ c ∈ manager'.bindings, c ∈ manager.bindings ∨ connection = some c

theorem bindsOnly_of_subset (h : ∀ c ∈ manager'.bindings, c ∈ manager.bindings) :
  BindsOnly connection manager manager'
  := fun c hc => .inl (h c hc)

theorem bindsOnly_refl : BindsOnly connection manager manager := bindsOnly_of_subset fun _ => id

theorem BindsOnly.trans (h : BindsOnly connection manager manager')
    (h' : BindsOnly connection manager' manager'') :
  BindsOnly connection manager manager''
  := by
  intro c hc
  rcases h' c hc with hc | hc
  · apply h c hc
  · exact .inr hc

theorem BindsOnly.of_none (h : BindsOnly none manager manager') :
  BindsOnly connection manager manager'
  := by
  intro c hc
  rcases h c hc with hc | ⟨⟨⟩⟩
  exact .inl hc

theorem bindsOnly_insert {c : ConnId} {token : Bytes} {sessions : UnorderedMap Bytes Session} :
  BindsOnly (some c) manager { manager with
    sessions, bindings := manager.bindings.insert c token }
  := by
  intro c' hc'
  rcases AList.mem_insert _ |>.mp hc' with rfl | hc'
  · exact .inr rfl
  · exact .inl hc'

theorem bindsOnly_erase {c : ConnId} {sessions : UnorderedMap Bytes Session} :
  BindsOnly connection manager { manager with
    sessions, bindings := manager.bindings.erase c }
  := bindsOnly_of_subset fun _ hc' => (AList.mem_erase.mp hc').2

theorem create_bindsOnly (manager : SessionManager) (token : Bytes) (connection : ConnectionPtr)
    (r : UInt32) (p : UInt64) :
  BindsOnly connection manager (manager.create token connection r p).2
  := by
  obtain ⟨-, hsame⟩ | ⟨c, rfl, -, -, -, hcreate⟩ := manager.create_cases token connection r p
  · rw [hsame]
    exact bindsOnly_refl
  · rw [hcreate]
    exact bindsOnly_insert

theorem resume_bindsOnly (manager : SessionManager) (connection : ConnectionPtr) (token : Bytes)
    (now : Int) :
  BindsOnly connection manager (manager.resume connection token now).2
  := by
  cases connection with
  | none => exact bindsOnly_refl
  | some c =>
    obtain ⟨-, hresume⟩ | ⟨-, -, state, -, hresume⟩ | ⟨session, -, -, -, hresume⟩ :=
      manager.resume_cases c token now
    · rw [hresume]
      exact bindsOnly_refl
    · rw [hresume]
      exact bindsOnly_refl
    · rw [hresume]
      exact bindsOnly_insert

theorem rollbackResume_bindsOnly (manager : SessionManager) (connection : ConnectionPtr) :
  BindsOnly connection manager (manager.rollbackResume connection).2
  := by
  cases connection with
  | none => exact bindsOnly_refl
  | some c =>
    rw [rollbackResume]
    dsimp only
    split
    · exact bindsOnly_refl
    split
    · exact bindsOnly_refl
    split
    · exact bindsOnly_refl
    · exact bindsOnly_erase

theorem detach_bindsOnly (manager : SessionManager) (connection' : ConnectionPtr) (now : Int) :
  BindsOnly connection manager (manager.detach connection' now).2
  := by
  cases connection' with
  | none => exact bindsOnly_refl
  | some c =>
    rw [detach]
    split
    · exact bindsOnly_refl
    split
    · exact bindsOnly_refl
    · dsimp only
      split
      · exact bindsOnly_refl
      · exact bindsOnly_erase

theorem eraseExpired_bindsOnly (manager : SessionManager) (token : Bytes) (now : Int) :
  BindsOnly connection manager (manager.eraseExpired token now).2
  := by
  rw [eraseExpired]
  split
  · exact bindsOnly_refl
  split
  · exact bindsOnly_refl
  split <;> exact bindsOnly_refl

theorem eraseByConnection_bindsOnly (manager : SessionManager) (connection' : ConnectionPtr) :
  BindsOnly connection manager (manager.eraseByConnection connection').2
  := by
  cases connection' with
  | none => exact bindsOnly_refl
  | some c =>
    rw [eraseByConnection]
    split
    · exact bindsOnly_refl
    split
    · exact bindsOnly_refl
    · exact bindsOnly_erase

end SessionManager

namespace RoomService

open SessionManager (BindsOnly bindsOnly_refl)

variable {service service' : RoomService}

theorem rollbackJoin_bindsOnly (service : RoomService) (connection : ConnectionPtr)
    (r : UInt32) (p : UInt64) :
  BindsOnly connection service.sessionManager
    (service.rollbackJoin connection r p).sessionManager
  := by
  rw [rollbackJoin]
  dsimp only
  split
  · apply SessionManager.eraseByConnection_bindsOnly _ _
  · exact bindsOnly_refl

theorem handleJoin_bindsOnly (service : RoomService) (answers : Answers) (token : Bytes)
    (connection : ConnectionPtr) (payload : Bytes) :
  BindsOnly connection service.sessionManager
    (service.handleJoin answers token connection payload).1.sessionManager
  := by
  rw [handleJoin]
  split
  · exact bindsOnly_refl
  split
  · exact bindsOnly_refl
  · dsimp only
    split
    · exact bindsOnly_refl
    have hcreate := service.sessionManager.create_bindsOnly token connection
    split
    · apply hcreate _ _
    split
    · split
      · apply (hcreate _ _).trans (rollbackJoin_bindsOnly _ connection _ _)
      · apply hcreate _ _
    · apply (hcreate _ _).trans (rollbackJoin_bindsOnly _ connection _ _)
  · exact bindsOnly_refl

theorem handleResume_bindsOnly (service : RoomService) (answers : Answers) (now : Int)
    (connection : ConnectionPtr) (payload : Bytes) :
  BindsOnly connection service.sessionManager
    (service.handleResume answers now connection payload).1.sessionManager
  := by
  rw [handleResume]
  split
  · exact bindsOnly_refl
  · next request _ =>
    have hresume := service.sessionManager.resume_bindsOnly connection request.token now
    dsimp only
    split
    · exact hresume
    split
    · apply hresume.trans (SessionManager.rollbackResume_bindsOnly _ connection)
    split
    · apply hresume.trans (SessionManager.rollbackResume_bindsOnly _ connection)
    · exact hresume

theorem handleLeave_bindsOnly (service : RoomService) (answers : Answers)
    (connection : ConnectionPtr) (payload : Bytes) :
  BindsOnly none service.sessionManager
    (service.handleLeave answers connection payload).1.sessionManager
  := by
  rw [handleLeave]
  split
  · exact bindsOnly_refl
  split
  · exact bindsOnly_refl
  · dsimp only
    have herase : BindsOnly none _ _ :=
      service.sessionManager.eraseByConnection_bindsOnly connection
    split
    · exact bindsOnly_refl
    split
    · exact herase
    split
    · exact herase
    · exact herase

theorem handleChat_bindsOnly (service : RoomService) (answers : Answers)
    (connection : ConnectionPtr) (payload : Bytes) :
  BindsOnly none service.sessionManager
    (service.handleChat answers connection payload).1.sessionManager
  := by
  rw [handleChat]
  split
  · exact bindsOnly_refl
  split
  · exact bindsOnly_refl
  · dsimp only
    split
    · exact bindsOnly_refl
    split <;> exact bindsOnly_refl

theorem handleCommand_bindsOnly (service : RoomService) (answers : Answers)
    (connection : ConnectionPtr) (requestType : MessageType)
    (command : RoomManager → UInt32 → UInt64 → RoomManager.CommandResult × RoomManager) :
  BindsOnly none service.sessionManager
    (service.handleCommand answers connection requestType command).1.sessionManager
  := by
  rw [handleCommand]
  split
  · exact bindsOnly_refl
  · dsimp only
    split <;> exact bindsOnly_refl

theorem handleConnectionClosed_bindsOnly (service : RoomService) (connection : ConnectionPtr)
    (now : Int) :
  BindsOnly none service.sessionManager
    (service.handleConnectionClosed connection now).sessionManager
  := by
  rw [handleConnectionClosed]
  split
  · exact bindsOnly_refl
  · dsimp only
    split
    · exact bindsOnly_refl
    split
    · exact bindsOnly_refl
    · apply SessionManager.detach_bindsOnly _ connection now

theorem removeExpired_bindsOnly (answers : Answers) (now : Int)
    (expired : List SessionManager.ExpiredSession) (service : RoomService)
    (events : List Event) :
  BindsOnly none service.sessionManager
    (removeExpired answers now service events expired).1.sessionManager
  := by
  induction expired generalizing service events with
  | nil => exact bindsOnly_refl
  | cons item expired ih =>
    rw [removeExpired]
    dsimp only
    split
    · apply ih _ _
    have herase : BindsOnly none _ _ :=
      service.sessionManager.eraseExpired_bindsOnly item.token now
    split
    · apply herase.trans (ih _ _)
    split
    · apply herase.trans (ih _ _)
    · apply herase.trans (ih _ _)

/-- A frame of this type asks to bind its connection. -/
def Binds (type : UInt16) : Prop :=
  MessageType.ofU16 type = some .join ∨ MessageType.ofU16 type = some .resume

instance (type : UInt16) : Decidable (Binds type) := inferInstanceAs (Decidable (_ ∨ _))

/-- A frame binds at most its own connection, and only a request to join or to resume does. -/
theorem frame_bindsOnly (service : RoomService) (answers : Answers) (c : ConnId) (type : UInt16)
    (payload token : Bytes) (now : Int) :
  BindsOnly (if Binds type then some c else none) service.sessionManager
    (service.run answers (.frame (some c) type payload token now)).1.sessionManager
  := by
  generalize hbinder : (if Binds type then some c else none) = binder
  have hself : Binds type → binder = some c := by
    intro htype
    rw [← hbinder, if_pos htype]
  rw [run, handleFrameInLoop, if_neg (show ¬(some c).isNone = true by simp)]
  split
  · next htype =>
    rw [hself (.inl htype)]
    apply service.handleJoin_bindsOnly answers token (some c) payload
  · apply (service.handleLeave_bindsOnly answers (some c) payload).of_none
  · apply (service.handleChat_bindsOnly answers (some c) payload).of_none
  · rw [handleMove]
    split
    · exact bindsOnly_refl
    · apply (service.handleCommand_bindsOnly answers (some c) .move _).of_none
  · rw [handleAttack]
    split
    · exact bindsOnly_refl
    · apply (service.handleCommand_bindsOnly answers (some c) .attack _).of_none
  · next htype =>
    rw [hself (.inr htype)]
    apply service.handleResume_bindsOnly answers now (some c) payload
  · exact bindsOnly_refl

/-- A connection that is closed is not bound. -/
theorem notMem_handleConnectionClosed {L : Ledger} (hL : service.Represents L) (c : ConnId)
    (now : Int) :
  c ∉ (service.handleConnectionClosed (some c) now).sessionManager.bindings
  := by
  obtain ⟨hbinding, hsame⟩ | ⟨token, session, room, member, -, -, -, -, hclosed⟩ :=
    handleConnectionClosed_cases hL c now
  · rw [hsame, AList.mem_iff_lookup, hbinding]
    rintro ⟨token, ⟨⟩⟩
  · rw [hclosed, AList.mem_erase]
    exact fun h => h.1 rfl

end RoomService

/-! ### The callbacks -/

namespace Peer

open IoRun (Caller)

variable {peer : Peer} {events : UInt32} {callers : List Caller}

/-- A heartbeat is refused, or an acknowledgement is to be sent. -/
theorem handleHeartbeat_cases (peer : Peer) (now : Int) (payload : Bytes) :
  (∃ peer', peer.handleHeartbeat now payload = (some false, peer')
      ∧ (peer' = peer ∨ peer' = peer.refreshPeerActivity now))
    ∨ ∃ frame, peer.handleHeartbeat now payload = (none, { peer.refreshPeerActivity now with
      io := (peer.refreshPeerActivity now).io.send frame, decoding := .acking })
  := by
  rw [handleHeartbeat]
  split
  · exact .inl ⟨_, rfl, .inl rfl⟩
  dsimp only
  split
  · exact .inl ⟨_, rfl, .inr rfl⟩
  split
  · exact .inl ⟨_, rfl, .inr rfl⟩
  · exact .inr ⟨_, rfl⟩

/-- A frame is refused, an acknowledgement is to be sent, or the frame is posted. -/
theorem handleDecodedFrame_cases (peer : Peer) (c : ConnId) (now : Int) (type : UInt16)
    (payload : Bytes) :
  (∃ peer', peer.handleDecodedFrame c now type payload = (some false, [], peer')
      ∧ (peer' = peer ∨ peer' = peer.refreshPeerActivity now))
    ∨ (∃ frame, peer.handleDecodedFrame c now type payload
      = (none, [], { peer.refreshPeerActivity now with
        io := (peer.refreshPeerActivity now).io.send frame, decoding := .acking }))
    ∨ peer.handleDecodedFrame c now type payload
      = (some true, [.frame c type payload], peer.refreshPeerActivity now)
  := by
  rw [handleDecodedFrame]
  split
  · obtain ⟨peer', heq, hpeer'⟩ | ⟨frame, heq⟩ := peer.handleHeartbeat_cases now payload
    · rw [heq]
      exact .inl ⟨peer', rfl, hpeer'⟩
    · rw [heq]
      exact .inr (.inl ⟨frame, rfl⟩)
  · exact .inr (.inr rfl)
  · exact .inr (.inr rfl)
  · exact .inr (.inr rfl)
  · exact .inr (.inr rfl)
  · exact .inr (.inr rfl)
  · exact .inr (.inr rfl)
  · exact .inl ⟨peer, rfl, .inl rfl⟩

theorem answer_leads (hpc : peer.io.pc = .ready)
    (hcallers : peer.io.callers = .handleEvent events :: callers) (b : Bool) :
  IoRun.system.Leads peer.io (peer.answer events callers b).io
  := by
  apply System.Leads.refl.step (ℓ := IoRun.Label.resume b)
  exact ⟨hpc, .handleEvent events, callers, hcallers, trivial, rfl⟩

/-- The message callback is code of others in the thread of the connection. -/
theorem handleMessage_leads (c : ConnId) (now : Int) (hpc : peer.io.pc = .ready)
    (hcallers : peer.io.callers = .handleEvent events :: callers) :
  IoRun.system.Leads peer.io (peer.handleMessage c now events callers).2.io
  := by
  have hcallback : peer.io.AtCallback := ⟨hpc, _, _, hcallers, trivial⟩
  rw [handleMessage]
  split
  · split
    · apply answer_leads hpc hcallers true
    · apply answer_leads hpc hcallers false
    · next type payload rest _ =>
      dsimp only
      have hbuffer := (System.Leads.refl (S := IoRun.system)).step
        (ℓ := IoRun.Label.setReadBuffer rest) ⟨hcallback, rfl⟩
      have hrefresh := hbuffer.step (ℓ := IoRun.Label.refreshPeerActivity now) ⟨hcallback, rfl⟩
      obtain ⟨peer', heq, rfl | rfl⟩ | ⟨frame, heq⟩ | heq := handleDecodedFrame_cases
        { peer with
          io := { peer.io with connection := { peer.io.connection with readBuffer := rest } } }
        c now type payload
      · rw [heq]
        apply hbuffer.step (ℓ := IoRun.Label.resume false)
          ⟨hpc, .handleEvent events, callers, hcallers, trivial, rfl⟩
      · rw [heq]
        apply hrefresh.step (ℓ := IoRun.Label.resume false)
          ⟨hpc, .handleEvent events, callers, hcallers, trivial, rfl⟩
      · rw [heq]
        apply hrefresh.step (ℓ := IoRun.Label.send frame) ⟨hcallback, rfl⟩
      · rw [heq]
        exact hrefresh
  · split
    · exact .refl
    · exact System.Leads.refl.step (ℓ := IoRun.Label.requestClose) ⟨hcallback, rfl⟩
  · apply answer_leads hpc hcallers false

/-- The callback is about to handle a frame that asks to bind the connection. -/
def DecodesBinding (peer : Peer) : Prop :=
  peer.decoding = .next ∧ ∃ type payload rest,
    Codec.next peer.io.connection.readBuffer = .frame type payload rest
      ∧ RoomService.Binds type

/-- The message callback posts nothing, or a frame; one that asks to bind the connection only
when it has decoded it. -/
theorem handleMessage_posts (peer : Peer) (c : ConnId) (now : Int) (events : UInt32)
    (callers : List Caller) :
  (peer.handleMessage c now events callers).1 = []
    ∨ ∃ type payload, (peer.handleMessage c now events callers).1 = [.frame c type payload]
      ∧ (RoomService.Binds type → peer.DecodesBinding)
  := by
  rw [handleMessage]
  split
  · next hdecoding =>
    split
    · exact .inl rfl
    · exact .inl rfl
    · next type payload rest hnext =>
      dsimp only
      obtain ⟨peer', heq, -⟩ | ⟨frame, heq⟩ | heq := handleDecodedFrame_cases
        { peer with
          io := { peer.io with connection := { peer.io.connection with readBuffer := rest } } }
        c now type payload
      · rw [heq]
        exact .inl rfl
      · rw [heq]
        exact .inl rfl
      · rw [heq]
        exact .inr ⟨type, payload, rfl, fun hbinds =>
          ⟨hdecoding, type, payload, rest, hnext, hbinds⟩⟩
  · split <;> exact .inl rfl
  · exact .inl rfl

theorem handleMessage_fd (peer : Peer) (c : ConnId) (now : Int) (events : UInt32)
    (callers : List Caller) :
  (peer.handleMessage c now events callers).2.fd = peer.fd
  := by
  rw [handleMessage]
  split
  · split
    · rfl
    · rfl
    · next type payload rest _ =>
      dsimp only
      obtain ⟨peer', heq, rfl | rfl⟩ | ⟨frame, heq⟩ | heq := handleDecodedFrame_cases
        { peer with
          io := { peer.io with connection := { peer.io.connection with readBuffer := rest } } }
        c now type payload
      all_goals
        rw [heq]
        rfl
  · split <;> rfl
  · rfl

end Peer

/-! ### The invariant -/

/-- The task asks to bind the connection. -/
def BaseTask.Asks (task : BaseTask) (c : ConnId) : Prop :=
  ∃ type payload, task = .frame c type payload ∧ RoomService.Binds type

namespace Server

variable {server server' : Server} {c : ConnId} {peer : Peer}

/-- The server has every connection that was not removed.  A connection that is removed, or is
to be removed, has left the connected state, and no frame behind its removal asks to bind it. -/
structure Inv (server : Server) : Prop where
  represents : ∃ L, server.service.Represents L
  running : ∀ c peer, server.peers c = some peer → IoRun.system.Reachable peer.io
  kept : ∀ c peer, server.peers c = some peer → c ∉ server.removed →
    server.connections.lookup peer.fd = some c
  gone : ∀ c ∈ server.removed, c ∉ server.service.sessionManager.bindings
    ∧ ∃ peer, server.peers c = some peer ∧ peer.io.Left
  leaving : ∀ c, .removeConnection c ∈ server.tasks →
    ∃ peer, server.peers c = some peer ∧ peer.io.Left
  posted : ∀ c type payload, .frame c type payload ∈ server.tasks → (server.peers c).isSome
  last : server.tasks.Pairwise fun task task' => ∀ c, task = .removeConnection c → ¬task'.Asks c
  never : ∀ c ∈ server.removed, ∀ task ∈ server.tasks, ¬task.Asks c
  bound : ∀ c ∈ server.service.sessionManager.bindings, (server.peers c).isSome

/-- What a connection posts to the base loop in a step. -/
inductive Posts (c : ConnId) (io : IoRun) : List BaseTask → Prop
  | nothing : Posts c io []
  | frame (type : UInt16) (payload : Bytes)
      (h : RoomService.Binds type → io.connection.state = .connected) :
      Posts c io [.frame c type payload]
  | remove (h : .handleClose ∈ io.callers) : Posts c io [.removeConnection c]

theorem left_of_leads {io io' : IoRun} (hio : IoRun.system.Reachable io) (hleft : io.Left)
    (h : IoRun.system.Leads io io') :
  io'.Left
  := by
  have htidy := (IoRun.refines_of_reachable hio).1
  apply IoRun.left_of_phase (Outbox.closed_of_leads (IoRun.phase_of_left hleft)
    (IoRun.leads_outbox htidy h)).1

theorem not_left_of_connected {io : IoRun} (h : io.connection.state = .connected) : ¬io.Left := by
  rw [IoRun.Left, h]
  simp

@[simp]
theorem peers_setPeer (server : Server) (c : ConnId) (peer : Peer) (c' : ConnId) :
  (server.setPeer c peer).peers c' = if c' = c then some peer else server.peers c'
  := Function.update_apply _ _ _ _

/-- A connection that goes on is still there, and stays closed if it is. -/
theorem setPeer_keeps {peer' : Peer} (hrunning : IoRun.system.Reachable peer.io)
    (hpeer : server.peers c = some peer) (hleads : IoRun.system.Leads peer.io peer'.io)
    (c' : ConnId) :
  ((server.peers c').isSome → ((server.setPeer c peer').peers c').isSome)
    ∧ ((∃ p, server.peers c' = some p ∧ p.io.Left)
      → ∃ p, (server.setPeer c peer').peers c' = some p ∧ p.io.Left)
  := by
  rw [peers_setPeer]
  split
  · next heq =>
    refine ⟨fun _ => rfl, ?_⟩
    rintro ⟨p, hp, hleft⟩
    rw [heq, hpeer, Option.some.injEq] at hp
    rw [← hp] at hleft
    exact ⟨peer', rfl, left_of_leads hrunning hleft hleads⟩
  · exact ⟨id, id⟩

/-- What is posted asks to bind a connection only while this is connected. -/
theorem Posts.connected_of_asks {io : IoRun} {tasks : List BaseTask} (h : Posts c io tasks)
    {task : BaseTask} (htask : task ∈ tasks) {c' : ConnId} (hasks : task.Asks c') :
  c' = c ∧ io.connection.state = .connected
  := by
  obtain ⟨type, payload, rfl, hbinds⟩ := hasks
  cases h with
  | nothing => cases htask
  | frame type' payload' hconnected =>
    rw [List.mem_singleton, BaseTask.frame.injEq] at htask
    obtain ⟨rfl, rfl, rfl⟩ := htask
    exact ⟨rfl, hconnected hbinds⟩
  | remove hclosing => simp at htask

/-- A connection is to be removed when it closes. -/
theorem Posts.closing_of_remove {io : IoRun} {tasks : List BaseTask} (h : Posts c io tasks)
    {c' : ConnId} (htask : .removeConnection c' ∈ tasks) :
  c' = c ∧ .handleClose ∈ io.callers
  := by
  cases h with
  | nothing => cases htask
  | frame type payload _ => simp at htask
  | remove hclosing =>
    rw [List.mem_singleton, BaseTask.removeConnection.injEq] at htask
    exact ⟨htask, hclosing⟩

theorem Posts.eq_of_frame {io : IoRun} {tasks : List BaseTask} (h : Posts c io tasks)
    {c' : ConnId} {type : UInt16} {payload : Bytes} (htask : .frame c' type payload ∈ tasks) :
  c' = c
  := by
  cases h with
  | nothing => cases htask
  | frame type' payload' _ =>
    rw [List.mem_singleton, BaseTask.frame.injEq] at htask
    exact htask.1
  | remove hclosing => simp at htask

/-- A step of a connection keeps the invariant. -/
theorem Inv.act (h : server.Inv) (hpeer : server.peers c = some peer) (peer' : Peer)
    (hfd : peer'.fd = peer.fd) (hleads : IoRun.system.Leads peer.io peer'.io)
    {tasks : List BaseTask} (hposts : Posts c peer.io tasks) :
  Inv { server.setPeer c peer' with tasks := server.tasks ++ tasks }
  := by
  have hrunning := h.running c peer hpeer
  have hkeeps := setPeer_keeps hrunning hpeer hleads
  -- A connection that asks to be bound is neither removed nor to be removed.
  have hnotLeft : ∀ c' task, task ∈ tasks → task.Asks c' →
      ¬∃ p, server.peers c' = some p ∧ p.io.Left := by
    rintro c' task htask hask ⟨p, hp, hleft⟩
    obtain ⟨rfl, hconnected⟩ := hposts.connected_of_asks htask hask
    rw [hpeer, Option.some.injEq] at hp
    rw [← hp] at hleft
    apply not_left_of_connected hconnected hleft
  constructor
  · apply h.represents
  · intro c' p hp
    rw [show _ = (server.setPeer c peer').peers c' from rfl, peers_setPeer] at hp
    split at hp
    · cases hp
      apply System.Reachable.leads hrunning hleads
    · apply h.running c' p hp
  · intro c' p hp hremoved
    rw [show _ = (server.setPeer c peer').peers c' from rfl, peers_setPeer] at hp
    split at hp
    · next heq =>
      cases hp
      rw [hfd, heq]
      rw [heq] at hremoved
      apply h.kept c peer hpeer hremoved
    · apply h.kept c' p hp hremoved
  · intro c' hc'
    exact ⟨(h.gone c' hc').1, (hkeeps c').2 (h.gone c' hc').2⟩
  · intro c' hc'
    rcases List.mem_append.mp hc' with hc' | hc'
    · apply (hkeeps c').2 (h.leaving c' hc')
    · obtain ⟨rfl, hclosing⟩ := hposts.closing_of_remove hc'
      refine ⟨peer', by simp, ?_⟩
      apply left_of_leads hrunning (IoRun.left_of_closing hrunning hclosing) hleads
  · intro c' type payload hc'
    rcases List.mem_append.mp hc' with hc' | hc'
    · apply (hkeeps c').1 (h.posted c' type payload hc')
    · rw [hposts.eq_of_frame hc']
      apply (hkeeps c).1 (by rw [hpeer]; rfl)
  · apply List.pairwise_append.mpr
    refine ⟨h.last, ?_, ?_⟩
    · cases hposts <;> simp
    · rintro task htask task' htask' c' rfl hask
      apply hnotLeft c' task' htask' hask (h.leaving c' htask)
  · intro c' hc' task htask hask
    rcases List.mem_append.mp htask with htask | htask
    · apply h.never c' hc' task htask hask
    · apply hnotLeft c' task htask hask (h.gone c' hc').2
  · intro c' hc'
    apply (hkeeps c').1 (h.bound c' hc')

/-- What changes only the service, and binds no connection, keeps the invariant. -/
theorem Inv.service (h : server.Inv) {service : RoomService}
    (hrepresents : ∃ L, service.Represents L)
    (hbinds : SessionManager.BindsOnly none server.service.sessionManager service.sessionManager) :
  Inv { server with service }
  := by
  have hbound : ∀ c ∈ service.sessionManager.bindings,
      c ∈ server.service.sessionManager.bindings := by
    intro c hc
    rcases hbinds c hc with hc | ⟨⟨⟩⟩
    exact hc
  refine { h with represents := hrepresents, gone := ?_, bound := ?_ }
  · intro c hc
    exact ⟨fun hmem => (h.gone c hc).1 (hbound c hmem), (h.gone c hc).2⟩
  · intro c hc
    apply h.bound c (hbound c hc)

/-- The first task of the base loop is taken from its queue. -/
theorem Inv.tail (h : server.Inv) {task : BaseTask} {tasks : List BaseTask}
    (htasks : server.tasks = task :: tasks) :
  Inv { server with tasks }
  := by
  have hmem : ∀ {task'}, task' ∈ tasks → task' ∈ server.tasks := by
    intro task' htask'
    rw [htasks]
    apply List.mem_cons_of_mem _ htask'
  refine { h with leaving := ?_, posted := ?_, last := ?_, never := ?_ }
  · intro c hc
    apply h.leaving c (hmem hc)
  · intro c type payload hc
    apply h.posted c type payload (hmem hc)
  · have hlast := h.last
    rw [htasks] at hlast
    apply (List.pairwise_cons.mp hlast).2
  · intro c hc task' htask'
    apply h.never c hc task' (hmem htask')

/-- A frame may bind its connection, which is not removed. -/
theorem Inv.frame (h : server.Inv) (answers : Answers) {type : UInt16} {payload : Bytes}
    (token : Bytes) (now : Int) {tasks : List BaseTask}
    (htasks : server.tasks = .frame c type payload :: tasks) :
  Inv ({ server with tasks }.runTask answers token now (.frame c type payload))
  := by
  have htail := h.tail htasks
  have hfirst : .frame c type payload ∈ server.tasks := by
    rw [htasks]
    apply List.mem_cons_self
  have hbinds := server.service.frame_bindsOnly answers c type payload token now
  obtain ⟨L, hL⟩ := h.represents
  refine { htail with represents := ?_, gone := ?_, bound := ?_ }
  · apply (RoomService.run_transacts hL answers _).represents hL
  · intro c' hc'
    refine ⟨?_, (h.gone c' hc').2⟩
    intro hmem
    rcases hbinds c' hmem with hmem | hself
    · apply (h.gone c' hc').1 hmem
    · split at hself
      · next htype =>
        cases hself
        apply h.never c hc' _ hfirst ⟨type, payload, rfl, htype⟩
      · cases hself
  · intro c' hmem
    rcases hbinds c' hmem with hmem | hself
    · apply h.bound c' hmem
    · split at hself
      · cases hself
        apply h.posted c type payload hfirst
      · cases hself

/-- A removal unbinds its connection, which no task behind it asks to bind again. -/
theorem Inv.remove (h : server.Inv) (answers : Answers) (now : Int) {tasks : List BaseTask}
    (htasks : server.tasks = .removeConnection c :: tasks) :
  Inv ({ server with tasks }.removeConnectionInLoop c now)
  := by
  have htail := h.tail htasks
  have hfirst : .removeConnection c ∈ server.tasks := by
    rw [htasks]
    apply List.mem_cons_self
  have hlast := h.last
  rw [htasks, List.pairwise_cons] at hlast
  rw [removeConnectionInLoop]
  split
  · exact htail
  next peer hpeer =>
  split
  swap
  · exact htail
  next hlookup =>
  obtain ⟨L, hL⟩ := h.represents
  have hqueue := (System.Leads.refl (S := IoRun.system) (s := peer.io)).step
    (ℓ := IoRun.Label.queueInLoop .connectDestroyed) ⟨rfl, rfl⟩
  let peer' : Peer := { peer with
    io := { peer.io with
      pendingFunctors := peer.io.pendingFunctors ++ [.connectDestroyed] } }
  have hleads : IoRun.system.Leads peer.io peer'.io := hqueue
  have hact := htail.act hpeer peer' rfl hleads .nothing
  rw [List.append_nil] at hact
  have hclosed := hact.service
    ((RoomService.run_transacts hL answers (.connectionClosed (some c) now)).represents hL)
    (server.service.handleConnectionClosed_bindsOnly (some c) now)
  refine { hclosed with kept := ?_, gone := ?_, never := ?_ }
  · intro c' p hp hremoved
    rw [List.mem_cons, not_or] at hremoved
    have hkept := hclosed.kept c' p hp hremoved.2
    change (server.connections.erase peer.fd).lookup p.fd = some c'
    rw [AList.lookup_erase_eq_ite, if_neg]
    · exact hkept
    · intro hfd
      change server.connections.lookup p.fd = some c' at hkept
      rw [hfd, hlookup, Option.some.injEq] at hkept
      apply hremoved.1 hkept.symm
  · intro c' hc'
    rcases List.mem_cons.mp hc' with rfl | hc'
    · refine ⟨RoomService.notMem_handleConnectionClosed hL c' now, ?_⟩
      apply (setPeer_keeps (h.running c' peer hpeer) hpeer hleads c').2 (h.leaving c' hfirst)
    · apply hclosed.gone c' hc'
  · intro c' hc' task htask
    rcases List.mem_cons.mp hc' with rfl | hc'
    · apply hlast.1 task htask c' rfl
    · apply hclosed.never c' hc' task htask

/-- A connection that is accepted is a new one. -/
theorem Inv.accept (h : server.Inv) (hc : server.peers c = none) (fd : Nat) (now : Int) :
  (server.handleAccept c fd now).Inv
  := by
  rw [handleAccept]
  split
  · exact h
  next hfd =>
  have hne : ∀ c', (server.peers c').isSome → c' ≠ c := by
    rintro c' hsome rfl
    rw [hc] at hsome
    cases hsome
  have hpeers : ∀ c', c' ≠ c → (server.setPeer c (newPeer fd now)).peers c' = server.peers c' := by
    intro c' hc'
    rw [peers_setPeer, if_neg hc']
  have hsome : ∀ c', (server.peers c').isSome →
      ((server.setPeer c (newPeer fd now)).peers c').isSome := by
    intro c' hsome
    rwa [hpeers c' (hne c' hsome)]
  have hleft : ∀ c', (∃ p, server.peers c' = some p ∧ p.io.Left) →
      ∃ p, (server.setPeer c (newPeer fd now)).peers c' = some p ∧ p.io.Left := by
    rintro c' ⟨p, hp, hleft⟩
    exact ⟨p, by rw [hpeers c' (hne c' (by rw [hp]; rfl)), hp], hleft⟩
  refine { h with running := ?_, kept := ?_, gone := ?_, leaving := ?_, posted := ?_, bound := ?_ }
  · intro c' p hp
    rw [show _ = (server.setPeer c (newPeer fd now)).peers c' from rfl, peers_setPeer] at hp
    split at hp
    · cases hp
      have hfresh : IoRun.system.Reachable
          ⟨.new now, 0, .ready, [], [], [], [], false, [], [], 0, []⟩ :=
        .initial ⟨now, false, rfl⟩
      apply hfresh.step (ℓ := IoRun.Label.queueInLoop .connectEstablished) trivial ⟨rfl, rfl⟩
    · apply h.running c' p hp
  · intro c' p hp hremoved
    rw [show _ = (server.setPeer c (newPeer fd now)).peers c' from rfl, peers_setPeer] at hp
    change (server.connections.insert fd c).lookup p.fd = some c'
    rw [AList.lookup_insert_eq_ite]
    split at hp
    · next heq =>
      cases hp
      rw [if_pos (show (newPeer fd now).fd = fd from rfl), heq]
    · have hkept := h.kept c' p hp hremoved
      rw [if_neg, hkept]
      intro heq
      apply hfd (AList.mem_iff_lookup.mpr ⟨c', heq ▸ hkept⟩)
  · intro c' hc'
    exact ⟨(h.gone c' hc').1, hleft c' (h.gone c' hc').2⟩
  · intro c' hc'
    apply hleft c' (h.leaving c' hc')
  · intro c' type payload hc'
    apply hsome c' (h.posted c' type payload hc')
  · intro c' hc'
    apply hsome c' (h.bound c' hc')

theorem Inv.reorder (h : server.Inv) {service : RoomService} {connections : UnorderedMap Nat ConnId}
    (hservice : server.service.Reordered service)
    (hconnections : server.connections.Similar connections) :
  Inv { server with service, connections }
  := by
  obtain ⟨L, hL⟩ := h.represents
  have hmem : ∀ c, c ∈ service.sessionManager.bindings
      ↔ c ∈ server.service.sessionManager.bindings := fun c => (hservice.bindings.mem_iff c).symm
  refine { h with
    represents := ⟨L, hL.reorder hservice⟩, kept := ?_, gone := ?_, bound := ?_ }
  · intro c p hp hremoved
    apply (hconnections p.fd).symm.trans (h.kept c p hp hremoved)
  · intro c hc
    exact ⟨fun h' => (h.gone c hc).1 ((hmem c).mp h'), (h.gone c hc).2⟩
  · intro c hc
    apply h.bound c ((hmem c).mp hc)

/-! ### Runs -/

/-- A frame that asks to bind its connection is decoded while the connection is connected. -/
def StillConnected (server : Server) : Label → Prop
  | .message c _ => ∀ peer, server.peers c = some peer → peer.DecodesBinding →
      peer.io.connection.state = .connected
  | _ => True

theorem inv_of_started (h : server.Started) : server.Inv := by
  obtain ⟨service, hservice, rfl⟩ := h
  have hinv : (∃ L, service.Represents L) ∧ service.sessionManager.bindings = ∅ := by
    apply hservice.invariant
    · rintro service ⟨reconnectTimeout, rfl⟩
      exact ⟨⟨_, RoomService.new_represents reconnectTimeout⟩, rfl⟩
    · rintro service action service' ⟨⟨L, hL⟩, hbindings⟩ hcases hstep
      refine ⟨RoomService.system_represents hL hstep, ?_⟩
      obtain ⟨r, capacity, rfl⟩ | ⟨checkpoint, now, rfl⟩ := hcases
      · rw [show service' = _ from hstep]
        exact hbindings
      · obtain ⟨-, -, -, roomManager, sessionManager, -, hsessions, rfl⟩ :=
          RoomService.restoreCheckpoint_eq_true_iff.mp hstep
        apply (SessionManager.restoreCheckpoint_spec hsessions).1
  constructor
  · apply hinv.1
  · rintro c peer ⟨⟩
  · rintro c peer ⟨⟩
  · rintro c ⟨⟩
  · rintro c ⟨⟩
  · rintro c type payload ⟨⟩
  · apply List.Pairwise.nil
  · rintro c ⟨⟩
  · intro c hc
    rw [show _ = _ from hinv.2] at hc
    cases hc

/-- The message callback posts a frame that asks to bind its connection only while the
connection is connected. -/
theorem posts_of_handleMessage {now : Int} {events : UInt32} {callers : List IoRun.Caller}
    (h : peer.DecodesBinding → peer.io.connection.state = .connected) :
  Posts c peer.io (peer.handleMessage c now events callers).1
  := by
  obtain heq | ⟨type, payload, heq, hbinds⟩ := peer.handleMessage_posts c now events callers
  · rw [heq]
    exact .nothing
  · rw [heq]
    exact .frame type payload fun htype => h (hbinds htype)

theorem inv_of_step {label : Label} (h : server.Inv) (hlabel : server.StillConnected label)
    (hstep : server.Step label server') :
  server'.Inv
  := by
  obtain ⟨L, hL⟩ := h.represents
  cases label with
  | io c label =>
    obtain ⟨peer, io, hpeer, -, hio, rfl⟩ := hstep
    have hact := h.act hpeer { peer with io } rfl (System.Leads.refl.step hio) .nothing
    rwa [List.append_nil] at hact
  | message c now =>
    obtain ⟨peer, events, callers, hpeer, hpc, hcallers, rfl⟩ := hstep
    apply h.act hpeer _ (peer.handleMessage_fd c now events callers)
      (Peer.handleMessage_leads c now hpc hcallers) (posts_of_handleMessage (hlabel peer hpeer))
  | closed c =>
    obtain ⟨peer, callers, hpeer, hpc, hcallers, rfl⟩ := hstep
    have hleads : IoRun.system.Leads peer.io { peer.io with callers } := by
      apply System.Leads.refl.step (ℓ := IoRun.Label.resume true)
      exact ⟨hpc, .handleClose, callers, hcallers, trivial, rfl⟩
    apply h.act hpeer { peer with io := { peer.io with callers } } rfl hleads
    apply Posts.remove
    rw [hcallers]
    apply List.mem_cons_self
  | accept c fd now =>
    obtain ⟨hc, rfl⟩ := hstep
    apply h.accept hc fd now
  | task answers token now =>
    obtain ⟨task, tasks, htasks, rfl⟩ := hstep
    cases task with
    | frame c type payload => apply h.frame answers token now htasks
    | removeConnection c => apply h.remove answers now htasks
  | tick answers expirations =>
    rw [show server' = _ from hstep]
    apply h.service ((RoomService.run_transacts hL answers (.tick expirations)).represents hL)
    change SessionManager.BindsOnly none _
      (server.service.handleTick answers expirations).1.sessionManager
    rw [RoomService.handleTick]
    split <;> exact SessionManager.bindsOnly_refl
  | sessionTimeouts answers now =>
    rw [show server' = _ from hstep]
    apply h.service ((RoomService.run_transacts hL answers (.sessionTimeouts now)).represents hL)
    apply RoomService.removeExpired_bindsOnly answers now _ _ _
  | reorder =>
    obtain ⟨service, connections, hservice, hconnections, rfl⟩ := hstep
    apply h.reorder hservice hconnections

/-! ### The last word -/

/-- No session and no member of a room has a connection that was removed. -/
def RemovedUnbound (server : Server) : Prop :=
  ∀ c ∈ server.removed, c ∉ server.service.sessionManager.bindings
    ∧ (∀ token session, server.service.sessionManager.sessions.lookup token = some session →
      session.connection ≠ some c)
    ∧ ∀ r p member, server.service.roomManager.member r p = some member →
      member.connection ≠ some c

/-- When no task waits, every online session has a connection the server has. -/
def OnlineKept (server : Server) : Prop :=
  server.tasks = [] → ∀ token session,
    server.service.sessionManager.sessions.lookup token = some session →
    session.state = .online →
    ∃ c fd, session.connection = some c ∧ server.connections.lookup fd = some c

theorem Inv.removedUnbound (h : server.Inv) : server.RemovedUnbound := by
  obtain ⟨L, hL⟩ := h.represents
  intro c hc
  have hunbound : ∀ t seat, L.claim t ≠ some (seat, some c) := by
    intro t seat hclaim
    apply (h.gone c hc).1 (AList.mem_iff_lookup.mpr ⟨t, hL.binding.mpr ⟨seat, hclaim⟩⟩)
  refine ⟨(h.gone c hc).1, ?_, ?_⟩
  · intro t session hsession hconn
    apply hunbound t session.seat
    rw [hL.claim_of_session hsession, hconn]
  · intro r p member hmember hconn
    obtain ⟨t, ht⟩ := hL.member.mp (show _ = some (some c) by rw [hmember, ← hconn]; rfl)
    apply hunbound t _ ht

theorem Inv.onlineKept (h : server.Inv) : server.OnlineKept := by
  obtain ⟨L, hL⟩ := h.represents
  intro _ t session hsession hstate
  obtain ⟨c, hconn⟩ := Option.ne_none_iff_exists'.mp ((hL.consistent hsession).mp hstate)
  have hclaim := hL.claim_of_session hsession
  rw [hconn] at hclaim
  have hbound : c ∈ server.service.sessionManager.bindings :=
    AList.mem_iff_lookup.mpr ⟨t, hL.binding.mpr ⟨_, hclaim⟩⟩
  obtain ⟨peer, hpeer⟩ := Option.isSome_iff_exists.mp (h.bound c hbound)
  have hremoved : c ∉ server.removed := fun hc => (h.gone c hc).1 hbound
  exact ⟨c, peer.fd, hconn, h.kept c peer hpeer hremoved⟩

/-- Close is the last word on a connection in the runs in which no frame that asks to bind a
connection is decoded after the connection has left the connected state. -/
theorem close_last_of_reachableBy (h : system.ReachableBy StillConnected server) :
  server.RemovedUnbound ∧ server.OnlineKept
  := by
  have hinv : server.Inv := by
    apply h.invariant
    · intro server hstarted
      apply inv_of_started hstarted
    · intro server label server' hinv hlabel hstep
      apply inv_of_step hinv hlabel hstep
  exact ⟨hinv.removedUnbound, hinv.onlineKept⟩

/-! ### A late request -/

/-- A room for two players. -/
def opened : RoomService := ((RoomService.new 30000).addRoom true 1 2).2

/-- The server with one connection, on the descriptor 5. -/
def serving (service : RoomService) (peer : Peer) (tasks : List BaseTask) : Server where
  peers := Function.update (fun _ => none) 7 (some peer)
  connections := (∅ : UnorderedMap Nat ConnId).insert 5 7
  tasks := tasks
  service := service
  removed := []

section Serving

variable {C : Server → Label → Prop} {service : RoomService} {tasks : List BaseTask}

theorem peers_serving : (serving service peer tasks).peers 7 = some peer := rfl

theorem serving_accepted (hC : ∀ server, C server (.accept 7 5 0)) :
  system.ReachableBy C (serving opened (newPeer 5 0) [])
  := by
  have hstarted : system.ReachableBy C ⟨fun _ => none, ∅, [], opened, []⟩ := by
    apply System.ReachableBy.initial
    refine ⟨opened, ?_, rfl⟩
    apply System.ReachableBy.step (ℓ := .addRoom 1 2) _ (.inl ⟨1, 2, rfl⟩) rfl
    exact .initial ⟨30000, rfl⟩
  apply hstarted.step (ℓ := Label.accept 7 5 0) (hC _) ⟨rfl, rfl⟩

theorem serving_io {io : IoRun} (label : IoRun.Label)
    (h : system.ReachableBy C (serving service peer tasks))
    (hC : C (serving service peer tasks) (.io 7 label)) (hof : OfConnection label)
    (hstep : peer.io.Step label io) :
  system.ReachableBy C (serving service { peer with io } tasks)
  := by
  apply h.step (ℓ := Label.io 7 label) hC
  refine ⟨peer, io, rfl, hof, hstep, ?_⟩
  rw [serving, serving, setPeer, Function.update_idem]

theorem serving_message {events : UInt32} {callers : List IoRun.Caller}
    (h : system.ReachableBy C (serving service peer tasks))
    (hC : C (serving service peer tasks) (.message 7 0))
    (hpc : peer.io.pc = .ready) (hcallers : peer.io.callers = .handleEvent events :: callers) :
  system.ReachableBy C (serving service (peer.handleMessage 7 0 events callers).2
    (tasks ++ (peer.handleMessage 7 0 events callers).1))
  := by
  apply h.step (ℓ := Label.message 7 0) hC
  refine ⟨peer, events, callers, rfl, hpc, hcallers, ?_⟩
  rw [serving, serving, setPeer, Function.update_idem]

theorem serving_closed {callers : List IoRun.Caller}
    (h : system.ReachableBy C (serving service peer tasks))
    (hC : C (serving service peer tasks) (.closed 7))
    (hpc : peer.io.pc = .ready) (hcallers : peer.io.callers = .handleClose :: callers) :
  system.ReachableBy C (serving service { peer with io := { peer.io with callers } }
    (tasks ++ [.removeConnection 7]))
  := by
  apply h.step (ℓ := Label.closed 7) hC
  refine ⟨peer, callers, rfl, hpc, hcallers, ?_⟩
  rw [serving, serving, setPeer, Function.update_idem]

end Serving

/-- A heartbeat. -/
def heartbeatFrame : Bytes := [0, 0, 0, 10, 0, 6, 0, 0, 0, 0, 0, 0, 0, 1]

/-- A request to join the room 1 under the name `A`. -/
def joinPayload : Bytes := [0, 0, 0, 1, 0, 1, 65]

def joinFrame : Bytes := [0, 0, 0, 9, 0, 1] ++ joinPayload

/-- The acknowledgement of the heartbeat. -/
def ack : Send := ⟨.loop, 0, [0, 0, 0, 10, 0, 108, 0, 0, 0, 0, 0, 0, 0, 1]⟩

/-- The message callback is called for a heartbeat and a request to join behind it. -/
def reading : Peer where
  fd := 5
  io := { IoRun.connected with
    connection := { IoRun.connected.connection with
      readBuffer := (Buffer.new 4096).append (heartbeatFrame ++ joinFrame) }
    callers := [.handleEvent Connection.epollIn] }
  decoding := .next

/-- The acknowledgement is to be sent. -/
def acking : IoRun := (reading.handleMessage 7 0 Connection.epollIn []).2.io

/-- There is room for the acknowledgement. -/
def granted : IoRun :=
  (acking.reserve ack acking.connection (.retry 0)).reserve ack
    { acking.connection with pendingWriteBytes := 14 } .granted

/-- The write of the acknowledgement has failed. -/
def failed : IoRun := (granted.sendInLoop ack).writeToSocket none .failed

/-- The removal was posted, and the send has returned. -/
def sent : Peer where
  fd := 5
  io := { failed with
    callers := [.handleEvent Connection.epollIn]
    returned := failed.returned ++ [(ack, true)]
    result := true }
  decoding := .acking

theorem reading_handleMessage :
  reading.handleMessage 7 0 Connection.epollIn [] = ([], ⟨5, acking, .acking⟩)
  := by
  have htasks : (reading.handleMessage 7 0 Connection.epollIn []).1 = [] := by decide +kernel
  have hfd : (reading.handleMessage 7 0 Connection.epollIn []).2.fd = 5 := by decide +kernel
  have hdecoding : (reading.handleMessage 7 0 Connection.epollIn []).2.decoding = .acking := by
    decide +kernel
  have hio : (reading.handleMessage 7 0 Connection.epollIn []).2.io = acking := Eq.refl acking
  revert htasks hfd hdecoding hio
  generalize reading.handleMessage 7 0 Connection.epollIn [] = posted
  generalize acking = io'
  obtain ⟨tasks, fd, io, decoding⟩ := posted
  rintro rfl rfl rfl rfl
  rfl

attribute [local irreducible] acking in
theorem sent_reachable :
  system.Reachable (serving opened sent [.removeConnection 7])
  := by
  have haccepted : system.Reachable (serving opened (newPeer 5 0) []) :=
    serving_accepted fun _ => trivial
  have hswap := serving_io .doPendingFunctors haccepted trivial trivial ⟨⟨rfl, rfl⟩, rfl, rfl⟩
  have hconnected := serving_io (.functor 0 true) hswap trivial trivial
    ⟨⟨rfl, rfl⟩, _, _, rfl, rfl⟩
  have hreading : system.Reachable (serving opened reading []) :=
    serving_io (.event Connection.epollIn [.received (heartbeatFrame ++ joinFrame), .wouldBlock])
      hconnected trivial trivial ⟨⟨rfl, rfl⟩, rfl, rfl⟩
  have hacking := serving_message hreading trivial rfl rfl
  rw [reading_handleMessage] at hacking
  have hpending : acking.connection.pendingWriteBytes = 0 := by decide +kernel
  have hattempt : acking.connection.reserveWriteBytes ack.data.length false .load
      = (.retry 0, acking.connection) := by
    rw [Connection.reserveWriteBytes, if_neg (by decide), hpending]
    rfl
  have hexchange : acking.connection.reserveWriteBytes ack.data.length false (.exchange 0)
      = (.granted, { acking.connection with pendingWriteBytes := 14 }) := by
    rw [Connection.reserveWriteBytes, hpending]
    rfl
  have hload : system.Reachable
      (serving opened ⟨5, { acking with pc := .reserve ack (.exchange 0) }, .acking⟩ []) :=
    serving_io (.reserve false (.retry 0)) hacking trivial trivial
      ⟨ack, .load, acking.connection, by decide +kernel, hattempt, rfl⟩
  have hgranted : system.Reachable (serving opened ⟨5, granted, .acking⟩ []) := by
    apply serving_io (.reserve false .granted) hload trivial trivial
    use ack, .exchange 0, { acking.connection with pendingWriteBytes := 14 }
    use rfl
    use hexchange
    rfl
  have hsending := serving_io .sendInLoop hgranted trivial trivial ⟨ack, rfl, rfl⟩
  have hfailed := serving_io (.writeToSocket .failed) hsending trivial trivial
    ⟨none, by decide +kernel, rfl⟩
  have hclosed := serving_closed hfailed trivial (by decide +kernel)
    (show failed.callers = .handleClose :: [.send ack, .handleEvent Connection.epollIn] by
      decide +kernel)
  apply serving_io .sent hclosed trivial trivial ⟨by decide +kernel, ack, _, rfl, rfl⟩

theorem removeConnectionInLoop_of_lookup {now : Int} (hpeer : server.peers c = some peer)
    (hlookup : server.connections.lookup peer.fd = some c) :
  server.removeConnectionInLoop c now
    = { server.setPeer c { peer with
          io := { peer.io with
            pendingFunctors := peer.io.pendingFunctors ++ [.connectDestroyed] } } with
        service := server.service.handleConnectionClosed (some c) now
        connections := server.connections.erase peer.fd
        removed := c :: server.removed }
  := by
  rw [removeConnectionInLoop, hpeer]
  dsimp only
  rw [if_pos hlookup]

/-- A request to join waits behind the removal of its connection. -/
theorem late_reachable :
  ∃ peer, peer.fd = 5 ∧ system.Reachable
    (serving opened peer [.removeConnection 7, .frame 7 1 joinPayload])
  := by
  have hnext : system.Reachable
      (serving opened { sent with decoding := .next } [.removeConnection 7]) :=
    serving_message sent_reachable trivial (by decide +kernel) rfl
  have hjoin := serving_message hnext trivial (by decide +kernel) rfl
  rw [show (Peer.handleMessage _ 7 0 Connection.epollIn []).1 = [.frame 7 1 joinPayload] by
    decide +kernel] at hjoin
  exact ⟨_, Peer.handleMessage_fd _ 7 0 Connection.epollIn [], hjoin⟩

/-- The answers of connections that take every frame. -/
def takeAll : Answers := ⟨fun _ _ _ => true, fun _ _ => false⟩

/-- The player joins on the connection that was removed. -/
def joinedLate : RoomService :=
  ((opened.handleConnectionClosed (some 7) 0).run takeAll
    (.frame (some 7) 1 joinPayload [1] 0)).1

/-- An acknowledgement that cannot be written closes the connection while its callback still
decodes: a request to join that was read together with the heartbeat comes behind the removal,
and its player stays online on a connection the server does not have. -/
theorem lateJoin_not_last :
  ∃ server, system.Reachable server ∧ ¬server.RemovedUnbound ∧ ¬server.OnlineKept
  := by
  obtain ⟨peer, hfd, hlate⟩ := late_reachable
  have hlookup : ((∅ : UnorderedMap Nat ConnId).insert 5 7).lookup peer.fd = some 7 := by
    rw [hfd, AList.lookup_insert]
  have hremoved := hlate.step (ℓ := Label.task takeAll [] 0) trivial ⟨_, _, rfl, rfl⟩
  rw [runTask, removeConnectionInLoop_of_lookup rfl hlookup] at hremoved
  have hjoined := hremoved.step (ℓ := Label.task takeAll [1] 0) trivial ⟨_, [], rfl, rfl⟩
  refine ⟨_, hjoined, ?_, ?_⟩
  · intro h
    have hbound : 7 ∈ joinedLate.sessionManager.bindings := by decide +kernel
    apply (h 7 List.mem_cons_self).1 hbound
  · intro h
    have honline : (joinedLate.sessionManager.sessions.lookup [1]).map Session.state
        = some .online := by decide +kernel
    obtain ⟨session, hsession, hstate⟩ := Option.map_eq_some_iff.mp honline
    obtain ⟨c, fd, -, hc⟩ := h rfl [1] session hsession hstate
    change (((∅ : UnorderedMap Nat ConnId).insert 5 7).erase peer.fd).lookup fd = some c at hc
    rw [AList.lookup_erase_eq_ite] at hc
    split at hc
    · cases hc
    · next hne =>
      rw [AList.lookup_insert_ne (by rwa [hfd] at hne), AList.lookup_empty] at hc
      cases hc

/-- The message callback is called for a request to join. -/
def asking : Peer where
  fd := 5
  io := { IoRun.connected with
    connection := { IoRun.connected.connection with
      readBuffer := (Buffer.new 4096).append joinFrame }
    callers := [.handleEvent Connection.epollIn] }
  decoding := .next

/-- The request was posted, and the message callback goes on. -/
def requested : Peer := (asking.handleMessage 7 0 Connection.epollIn []).2

/-- The service has joined the player. -/
def entered : RoomService := (opened.run takeAll (.frame (some 7) 1 joinPayload [1] 0)).1

/-- The message callback has returned. -/
def resumed : Peer := (requested.handleMessage 7 0 Connection.epollIn []).2

/-- The connection is at its wait. -/
def served : Peer := { resumed with io := resumed.io.updateFd true }

/-- The peer has hung up, and the close callback has returned. -/
def hungUp : Peer := { served with io := { served.io.handleClose with callers := [] } }

/-- The server has removed the connection. -/
def departed : Server := (serving entered hungUp []).removeConnectionInLoop 7 0

theorem entered_reachable :
  system.ReachableBy StillConnected (serving entered requested [])
  := by
  have haccepted : system.ReachableBy StillConnected (serving opened (newPeer 5 0) []) :=
    serving_accepted fun _ => trivial
  have hswap := serving_io .doPendingFunctors haccepted trivial trivial ⟨⟨rfl, rfl⟩, rfl, rfl⟩
  have hconnected := serving_io (.functor 0 true) hswap trivial trivial
    ⟨⟨rfl, rfl⟩, _, _, rfl, rfl⟩
  have hasking : system.ReachableBy StillConnected (serving opened asking []) :=
    serving_io (.event Connection.epollIn [.received joinFrame, .wouldBlock])
      hconnected trivial trivial ⟨⟨rfl, rfl⟩, rfl, rfl⟩
  have hrequested := serving_message hasking (by rintro peer ⟨⟩ -; rfl) rfl rfl
  rw [show (asking.handleMessage 7 0 Connection.epollIn []).1 = [.frame 7 1 joinPayload] by
    decide +kernel] at hrequested
  apply hrequested.step (ℓ := Label.task takeAll [1] 0) trivial ⟨_, [], rfl, rfl⟩

/-- A peer that hangs up closes its connection. -/
theorem handleEvent_epollHup {io : IoRun} (h : io.connection.state = .connected) :
  io.handleEvent Connection.epollHup [] = some io.handleClose
  := by
  rw [IoRun.handleEvent, if_neg (not_not.mpr h), if_neg (by decide), IoRun.writeEvent,
    if_neg (by decide), IoRun.finishEvent, if_pos (by decide)]

/-- A peer hangs up while its connection is at its wait. -/
theorem serving_hangUp {peer : Peer} (hloop : peer.io.AtLoop) (hfunctors : peer.io.functors = [])
    (hstate : peer.io.connection.state = .connected)
    (h : system.ReachableBy StillConnected (serving entered peer [])) :
  system.ReachableBy StillConnected
    (serving entered { peer with io := { peer.io.handleClose with callers := [] } }
      [.removeConnection 7])
  := by
  have hhangup := serving_io (.event Connection.epollHup []) h trivial trivial
    ⟨hloop, hfunctors, handleEvent_epollHup hstate⟩
  obtain ⟨hleft, -⟩ | ⟨-, hclose⟩ := peer.io.handleClose_cases
  · rw [hstate] at hleft
    exact absurd hleft (by decide)
  · apply serving_closed hhangup trivial
    · rw [hclose]
    · rw [hclose, hloop.2]

theorem departed_reachable :
  system.ReachableBy StillConnected departed
  := by
  have hcallback : requested.io.callers = [.handleEvent Connection.epollIn] := by decide +kernel
  have hconnected : StillConnected (serving entered requested []) (.message 7 0) := by
    intro peer hpeer _
    rw [peers_serving, Option.some.injEq] at hpeer
    rw [← hpeer]
    decide +kernel
  have hresumed := serving_message entered_reachable hconnected (by decide +kernel) hcallback
  rw [show (requested.handleMessage 7 0 Connection.epollIn []).1 = [] by
    decide +kernel] at hresumed
  change system.ReachableBy StillConnected (serving entered resumed []) at hresumed
  have hserved : system.ReachableBy StillConnected (serving entered served []) :=
    serving_io (.updateFd true) hresumed trivial trivial ⟨by decide +kernel, rfl⟩
  have hclosed : system.ReachableBy StillConnected (serving entered hungUp [.removeConnection 7]) :=
    serving_hangUp ⟨by decide +kernel, by decide +kernel⟩ (by decide +kernel) (by decide +kernel)
      hserved
  apply hclosed.step (ℓ := Label.task takeAll [] 0) trivial
  exact ⟨.removeConnection 7, [], rfl, by rw [departed, runTask]; rfl⟩

theorem departed_close_last :
  departed.removed = [7]
    ∧ (departed.service.sessionManager.sessions.lookup [1]).map Session.state = some .offline
    ∧ departed.RemovedUnbound ∧ departed.OnlineKept
  := ⟨by decide +kernel, by decide +kernel, close_last_of_reachableBy departed_reachable⟩

end Server

end RoomServer

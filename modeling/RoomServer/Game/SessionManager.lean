import RoomServer.Game.Room
import Mathlib.Data.List.Lex

/-!
# Sessions

A session is a player's claim to a place in a room, held under a secret token.  It is online
while it is bound to a connection; when the connection is lost it goes offline, and can be
resumed on another connection with the token until its deadline passes.  `bindings` leads from
a connection to the token of its session.
-/

namespace RoomServer

namespace Session

inductive States where
  | online
  | offline
  deriving DecidableEq, Repr

end Session

structure Session where
  roomId : UInt32
  playerId : UInt64
  state : Session.States
  connection : ConnectionPtr
  offlineDeadline : Int
  deriving DecidableEq, Repr

namespace Session

/-- A session bound to a connection. -/
def newOnline (roomId : UInt32) (playerId : UInt64) (connection : ConnectionPtr) : Session :=
  ⟨roomId, playerId, .online, connection, 0⟩

/-- A session that waits to be resumed until the deadline. -/
def newOffline (roomId : UInt32) (playerId : UInt64) (offlineDeadline : Int) : Session :=
  ⟨roomId, playerId, .offline, none, offlineDeadline⟩

/-- The connection is the one the session is bound to. -/
def matchesConnection (session : Session) (connection : ConnectionPtr) : Bool :=
  if session.state ≠ .online then
    false
  else if connection.isNone then
    false
  else if session.connection.isNone then
    false
  else
    session.connection == connection

def bind (session : Session) (connection : ConnectionPtr) (now : Int) : Bool × Session :=
  if connection.isNone then
    (false, session)
  else if session.state ≠ .offline then
    (false, session)
  else if now ≥ session.offlineDeadline then
    (false, session)
  else
    (true, { session with connection := connection, state := .online })

def detach (session : Session) (connection : ConnectionPtr) (offlineDeadline : Int) :
    Bool × Session :=
  if connection.isNone then
    (false, session)
  else if session.state ≠ .online then
    (false, session)
  else if !session.matchesConnection connection then
    (false, session)
  else
    (true, { session with
      connection := none
      offlineDeadline := offlineDeadline
      state := .offline })

def expired (session : Session) (now : Int) : Bool :=
  if session.state ≠ .offline then false else decide (now ≥ session.offlineDeadline)

end Session

namespace SessionManager

abbrev tokenSize : Nat := 32

inductive States where
  | success
  | wrongThread
  | invalidConnection
  | alreadyBound
  | invalidToken
  | sessionOnline
  | sessionExpired
  | sessionNotExpired
  | notBound
  | internalError
  deriving DecidableEq, Repr

structure CreateResult where
  state : States := .internalError
  token : Bytes := []
  roomId : UInt32 := 0
  playerId : UInt64 := 0

structure LookupResult where
  state : States := .notBound
  token : Bytes := []
  roomId : UInt32 := 0
  playerId : UInt64 := 0

structure ResumeResult where
  state : States := .internalError
  roomId : UInt32 := 0
  playerId : UInt64 := 0

structure DetachResult where
  state : States := .notBound
  token : Bytes := []
  roomId : UInt32 := 0
  playerId : UInt64 := 0

structure ExpiredSession where
  token : Bytes
  roomId : UInt32
  playerId : UInt64

end SessionManager

structure SessionManager where
  reconnectTimeout : Int
  sessions : UnorderedMap Bytes Session
  bindings : UnorderedMap ConnId Bytes

namespace SessionManager

def new (reconnectTimeout : Int) : SessionManager := ⟨reconnectTimeout, ∅, ∅⟩

/-- The hexadecimal digits. -/
def hex : Bytes := "0123456789abcdef".toList.map fun ch => UInt8.ofNat ch.toNat

/-- A token from random bytes, empty when there are none to be had. -/
def generateToken (random : Option (Vector UInt8 16)) : Bytes :=
  match random with
  | none => []
  | some bytes =>
    bytes.toList.flatMap fun (byte : UInt8) =>
      [hex.getD ((byte >>> 4) &&& 0x0f).toNat 0, hex.getD (byte &&& 0x0f).toNat 0]

/-- Open a session bound to the connection, under the generated token. -/
def create (manager : SessionManager) (token : Bytes) (connection : ConnectionPtr)
    (roomId : UInt32) (playerId : UInt64) : CreateResult × SessionManager :=
  match connection with
  | none => ({ state := .invalidConnection }, manager)
  | some c =>
    if c ∈ manager.bindings then
      ({ state := .alreadyBound }, manager)
    else if token = [] then
      ({ state := .internalError }, manager)
    else if token ∈ manager.sessions then
      ({ state := .internalError }, manager)
    else
      (⟨.success, token, roomId, playerId⟩, { manager with
        sessions := manager.sessions.emplace token (.newOnline roomId playerId connection)
        bindings := manager.bindings.emplace c token })

/-- The session of a connection. -/
def lookup (manager : SessionManager) (connection : ConnectionPtr) : LookupResult :=
  match connection with
  | none => { state := .invalidConnection }
  | some c =>
    match manager.bindings.lookup c with
    | none => { state := .notBound }
    | some token =>
      match manager.sessions.lookup token with
      | none => { state := .internalError }
      | some session => ⟨.success, token, session.roomId, session.playerId⟩

/-- Bind an offline session to a new connection. -/
def resume (manager : SessionManager) (connection : ConnectionPtr) (token : Bytes) (now : Int) :
    ResumeResult × SessionManager :=
  match connection with
  | none => ({ state := .invalidConnection }, manager)
  | some c =>
    if c ∈ manager.bindings then
      ({ state := .alreadyBound }, manager)
    else
      match manager.sessions.lookup token with
      | none => ({ state := .invalidToken }, manager)
      | some session =>
        if session.state ≠ .offline then
          ({ state := .sessionOnline }, manager)
        else if session.expired now then
          ({ state := .sessionExpired }, manager)
        else
          let bindings := manager.bindings.emplace c token
          let (bound, session) := session.bind connection now
          let sessions := manager.sessions.assign token session
          if !bound then
            ({ state := .internalError },
              { manager with sessions, bindings := bindings.erase c })
          else
            (⟨.success, session.roomId, session.playerId⟩,
              { manager with sessions, bindings })

/-- Take back `resume`, keeping the old deadline. -/
def rollbackResume (manager : SessionManager) (connection : ConnectionPtr) :
    States × SessionManager :=
  match connection with
  | none => (.invalidConnection, manager)
  | some c =>
    match manager.bindings.lookup c with
    | none => (.notBound, manager)
    | some token =>
      match manager.sessions.lookup token with
      | none => (.internalError, manager)
      | some session =>
        let (detached, session) := session.detach connection session.offlineDeadline
        let sessions := manager.sessions.assign token session
        if !detached then
          (.internalError, { manager with sessions })
        else
          (.success, { manager with sessions, bindings := manager.bindings.erase c })

/-- The session of a connection goes offline. -/
def detach (manager : SessionManager) (connection : ConnectionPtr) (now : Int) :
    DetachResult × SessionManager :=
  match connection with
  | none => ({ state := .invalidConnection }, manager)
  | some c =>
    match manager.bindings.lookup c with
    | none => ({ state := .notBound }, manager)
    | some token =>
      match manager.sessions.lookup token with
      | none => ({ state := .internalError }, manager)
      | some session =>
        let (detached, session) := session.detach connection (now + manager.reconnectTimeout)
        let sessions := manager.sessions.assign token session
        if !detached then
          ({ state := .internalError }, { manager with sessions })
        else
          (⟨.success, token, session.roomId, session.playerId⟩,
            { manager with sessions, bindings := manager.bindings.erase c })

/-- The session of a connection ends. -/
def eraseByConnection (manager : SessionManager) (connection : ConnectionPtr) :
    States × SessionManager :=
  match connection with
  | none => (.invalidConnection, manager)
  | some c =>
    match manager.bindings.lookup c with
    | none => (.notBound, manager)
    | some token =>
      match manager.sessions.lookup token with
      | none => (.internalError, manager)
      | some _ =>
        (.success, { manager with
          bindings := manager.bindings.erase c
          sessions := manager.sessions.erase token })

/-- The offline sessions whose deadline has passed. -/
def expiredSessions (manager : SessionManager) (now : Int) : List ExpiredSession :=
  manager.sessions.entries.filterMap fun entry =>
    if entry.2.state ≠ .offline ∨ !entry.2.expired now then
      none
    else
      some ⟨entry.1, entry.2.roomId, entry.2.playerId⟩

/-- An expired session ends. -/
def eraseExpired (manager : SessionManager) (token : Bytes) (now : Int) :
    States × SessionManager :=
  match manager.sessions.lookup token with
  | none => (.invalidToken, manager)
  | some session =>
    if session.state ≠ .offline then
      (.sessionOnline, manager)
    else if !session.expired now then
      (.sessionNotExpired, manager)
    else
      (.success, { manager with sessions := manager.sessions.erase token })

/-- The sessions in the order of their tokens. -/
def makeCheckpoint (manager : SessionManager) : Option (List SessionCheckpoint) :=
  some ((manager.sessions.entries.map fun entry =>
    SessionCheckpoint.mk entry.1 entry.2.roomId entry.2.playerId).sortOn
      fun checkpoint => checkpoint.token.map UInt8.toNat)

def isLowerHex (ch : UInt8) : Bool := (0x30 ≤ ch && ch ≤ 0x39) || (0x61 ≤ ch && ch ≤ 0x66)

/-- The offline sessions of the checkpoints entered one after the other. -/
def restoreSessions (deadline : Int) :
    List SessionCheckpoint → UnorderedMap Bytes Session → Option (UnorderedMap Bytes Session)
  | [], sessions => some sessions
  | checkpoint :: checkpoints, sessions =>
    if checkpoint.token.length ≠ tokenSize then
      none
    else if !checkpoint.token.all isLowerHex then
      none
    else if checkpoint.token ∈ sessions then
      none
    else if ∃ session ∈ sessions.values,
        session.roomId = checkpoint.roomId ∧ session.playerId = checkpoint.playerId then
      none
    else
      restoreSessions deadline checkpoints
        (sessions.emplace checkpoint.token
          (.newOffline checkpoint.roomId checkpoint.playerId deadline))

/-- The sessions of the checkpoints in the place of the present ones, if all of them are
valid. -/
def restoreCheckpoint (manager : SessionManager) (checkpoints : List SessionCheckpoint)
    (now : Int) : Option SessionManager := do
  let deadline := now + manager.reconnectTimeout
  let sessions ← restoreSessions deadline checkpoints ∅
  return { manager with sessions, bindings := ∅ }

/-! ### What the operations do -/

variable {manager : SessionManager}

/-- `create` does nothing, or it opens a session under a new token for an unbound
connection. -/
theorem create_cases (manager : SessionManager) (token : Bytes) (connection : ConnectionPtr)
    (r : UInt32) (p : UInt64) :
  (manager.create token connection r p).1.state ≠ .success
      ∧ (manager.create token connection r p).2 = manager
    ∨ ∃ c, connection = some c ∧ c ∉ manager.bindings ∧ token ≠ [] ∧ token ∉ manager.sessions
      ∧ manager.create token connection r p
        = (⟨.success, token, r, p⟩, { manager with
          sessions := manager.sessions.insert token (.newOnline r p (some c))
          bindings := manager.bindings.insert c token })
  := by
  cases connection with
  | none =>
    left
    simp [create]
  | some c =>
    simp only [create]
    split
    · left; simp
    · next hc =>
      split
      · left; simp
      · next htoken =>
        split
        · left; simp
        · next hnew =>
          right
          use c, rfl, hc, htoken, hnew
          rw [AList.emplace_of_notMem hnew, AList.emplace_of_notMem hc]

theorem lookup_of_bound {c : ConnId} {token : Bytes} {session : Session}
    (hbinding : manager.bindings.lookup c = some token)
    (hsession : manager.sessions.lookup token = some session) :
  manager.lookup (some c) = ⟨.success, token, session.roomId, session.playerId⟩
  := by
  simp [lookup, hbinding, hsession]

theorem lookup_of_unbound {c : ConnId} (h : manager.bindings.lookup c = none) :
  manager.lookup (some c) = { state := .notBound }
  := by
  simp [lookup, h]

/-- The session waits to be resumed. -/
def Waits (session : Session) (now : Int) : Prop :=
  session.state = .offline ∧ session.expired now = false

/-- `resume` does nothing about a bound connection or a session that does not wait, and binds
one that does to an unbound connection. -/
theorem resume_cases (manager : SessionManager) (c : ConnId) (token : Bytes) (now : Int) :
  (c ∈ manager.bindings
      ∧ manager.resume (some c) token now = ({ state := .alreadyBound }, manager))
    ∨ (c ∉ manager.bindings
      ∧ (∀ session, manager.sessions.lookup token = some session → ¬Waits session now)
      ∧ ∃ state ∈ [States.invalidToken, .sessionOnline, .sessionExpired],
        manager.resume (some c) token now = ({ state := state }, manager))
    ∨ ∃ session, c ∉ manager.bindings ∧ manager.sessions.lookup token = some session
      ∧ Waits session now
      ∧ manager.resume (some c) token now
        = (⟨.success, session.roomId, session.playerId⟩, { manager with
          sessions := manager.sessions.assign token
            { session with connection := some c, state := .online }
          bindings := manager.bindings.insert c token })
  := by
  simp only [resume]
  split
  · next hc => exact .inl ⟨hc, rfl⟩
  next hc =>
  right
  cases hsession : manager.sessions.lookup token with
  | none => exact .inl ⟨hc, by simp, .invalidToken, by simp, rfl⟩
  | some session =>
    dsimp only
    split
    · next hstate =>
      left
      refine ⟨hc, ?_, .sessionOnline, by simp, rfl⟩
      rintro _ ⟨⟩ hwaits
      apply hstate hwaits.1
    split
    · next hexpired =>
      left
      refine ⟨hc, ?_, .sessionExpired, by simp, rfl⟩
      rintro _ ⟨⟩ hwaits
      rw [hwaits.2] at hexpired
      cases hexpired
    next hstate hexpired =>
    right
    rw [not_not] at hstate
    have hnow : ¬now ≥ session.offlineDeadline := by
      simpa [Session.expired, hstate] using hexpired
    use session, hc, rfl, ⟨hstate, by simpa using hexpired⟩
    simp [Session.bind, hstate, hnow, AList.emplace_of_notMem hc]

/-- A session bound to the connection goes offline with the given deadline. -/
theorem detach_of_bound {session : Session} {c : ConnId} (hstate : session.state = .online)
    (hconn : session.connection = some c) (deadline : Int) :
  session.detach (some c) deadline = (true, { session with
    connection := none
    offlineDeadline := deadline
    state := .offline })
  := by
  simp [Session.detach, Session.matchesConnection, hstate, hconn]

/-- Rolling back a `resume` that was just made undoes it. -/
theorem rollbackResume_resume {c : ConnId} {token : Bytes}
    (hc : c ∉ manager.bindings) {session : Session}
    (hsession : manager.sessions.lookup token = some session)
    (hstate : session.state = .offline) (hconn : session.connection = none) :
  ({ manager with
      sessions := manager.sessions.assign token
        { session with connection := some c, state := .online }
      bindings := manager.bindings.insert c token } : SessionManager).rollbackResume (some c)
    = (.success, manager)
  := by
  have hmem : token ∈ manager.sessions := AList.mem_iff_lookup.mpr ⟨session, hsession⟩
  have hsame : ({ session with connection := none, state := .offline } : Session) = session := by
    rw [← hstate, ← hconn]
  simp only [rollbackResume, AList.lookup_insert, AList.lookup_assign_of_mem hmem, if_true,
    detach_of_bound, AList.assign_assign, AList.erase_insert_of_notMem hc]
  simp only [Bool.not_true, Bool.false_eq_true, if_false, hsame, AList.assign_lookup hsession]

/-- The expired sessions are offline. -/
theorem mem_expiredSessions {now : Int} {item : ExpiredSession} :
  item ∈ manager.expiredSessions now
    ↔ ∃ session, manager.sessions.lookup item.token = some session
      ∧ session.state = .offline ∧ session.expired now
      ∧ item.roomId = session.roomId ∧ item.playerId = session.playerId
  := by
  rw [expiredSessions, List.mem_filterMap]
  constructor
  · rintro ⟨⟨token, session⟩, hentry, heq⟩
    split at heq
    · cases heq
    · next h =>
      cases heq
      rw [not_or, not_not] at h
      use session, AList.mem_lookup_iff.mpr hentry, h.1
      simpa using h.2
  · rintro ⟨session, hsession, hstate, hexpired, hroom, hplayer⟩
    use ⟨item.token, session⟩, AList.mem_lookup_iff.mp hsession
    simp [hstate, hexpired, ← hroom, ← hplayer]

/-- Every expired session is listed once. -/
theorem nodup_expiredSessions (manager : SessionManager) (now : Int) :
  ((manager.expiredSessions now).map fun item => item.token).Nodup
  := by
  have hsub : ((manager.expiredSessions now).map fun item => item.token).Sublist
      manager.sessions.keys := by
    rw [expiredSessions, AList.keys, List.keys]
    induction manager.sessions.entries with
    | nil => apply List.Sublist.slnil
    | cons entry entries ih =>
      rw [List.filterMap_cons]
      split
      · apply ih.cons
      · next item heq =>
        split at heq
        · cases heq
        · cases heq
          apply ih.cons_cons
  apply hsub.nodup manager.sessions.keys_nodup

theorem eraseExpired_of_expired {token : Bytes} {now : Int} {session : Session}
    (hsession : manager.sessions.lookup token = some session)
    (hstate : session.state = .offline) (hexpired : session.expired now) :
  manager.eraseExpired token now
    = (.success, { manager with sessions := manager.sessions.erase token })
  := by
  simp [eraseExpired, hsession, hstate, hexpired]

end SessionManager

end RoomServer

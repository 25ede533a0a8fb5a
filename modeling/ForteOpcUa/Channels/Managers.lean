import Mathlib.Data.Rat.Floor
import ForteOpcUa.Channels.State

/-!
# Managers — what is done with connections, channels and sessions

The functions of `ua_connection.c`, `ua_securechannel.c`, `ua_session.c`, `ua_securechannel_manager.c`
and `ua_session_manager.c` that touch the shared state.  They follow pointers, so that each returns an
option: none is the use of an object that was freed.

What the surroundings decide is given to them: the clock, the memory that is granted, the random
numbers, and how sending goes.
-/

namespace ForteOpcUa

namespace Channels

/-! ## Connections -/

namespace Connection

/-- `connection->close` of the network layer. -/
def close (s : Server) (c : Address) : Option Server := do
  let connection ← s.connectionAt c
  pure (s.setConnection c { connection with state := .closed })

/-- `UA_Connection_detachSecureChannel`. -/
def detachSecureChannel (s : Server) (c : Address) : Option Server := do
  let connection ← s.connectionAt c
  match connection.channel with
  | none => pure (s.setConnection c { connection with channel := none })
  | some a => do
      let channel ← s.channelAt a
      pure ((s.setChannel a { channel with connection := none }).setConnection c
        { connection with channel := none })

/-- `UA_Connection_attachSecureChannel`. -/
def attachSecureChannel (s : Server) (c : Address) (a : ChannelAddress) : Option Server := do
  let channel ← s.channelAt a
  if channel.connection ≠ none then
    pure s
  else do
    let connection ← s.connectionAt c
    pure ((s.setChannel a { channel with connection := some c }).setConnection c
      { connection with channel := some a })

end Connection

/-! ## Channels -/

/-- How sending goes: the buffer, the encoding, and the socket. -/
structure Sending where
  buffer : StatusCode
  encoding : StatusCode
  sent : Bool
  deriving DecidableEq

/-- `connection->send`, which closes the connection when it fails. -/
def send (s : Server) (c : Address) (sent : Bool) (e : Event) : Option (StatusCode × Server) :=
  if sent then
    pure (.good, s.log e)
  else do
    let s ← Connection.close s c
    pure (.badConnectionClosed, s)

namespace SecureChannel

/-- `UA_SecureChannel_attachSession`; `entry` tells whether there is memory for the list entry. -/
def attachSession (s : Server) (a : ChannelAddress) (x : Address) (entry : Bool) : Option Server :=
  if entry then do
    let session ← s.sessionAt x
    if session.channel ≠ none then
      pure s
    else do
      let channel ← s.channelAt a
      pure ((s.setSession x { session with channel := some a }).setChannel a
        { channel with sessions := x :: channel.sessions })
  else
    pure s

/-- `UA_SecureChannel_detachSession`. -/
def detachSession (s : Server) (a : ChannelAddress) (x : Address) : Option Server := do
  let session ← s.sessionAt x
  let channel ← s.channelAt a
  pure ((s.setSession x { session with channel := none }).setChannel a
    { channel with sessions := channel.sessions.erase x })

/-- The loops that look for the first session with an authentication token. -/
def find (s : Server) (token : NodeId) : List Address → Option (Option Address)
  | [] => pure none
  | x :: xs => do
      let session ← s.sessionAt x
      if session.authenticationToken = token then
        pure (some x)
      else
        find s token xs

/-- `UA_SecureChannel_getSession`. -/
def getSession (s : Server) (a : ChannelAddress) (token : NodeId) : Option (Option Address) := do
  let channel ← s.channelAt a
  find s token channel.sessions

/-- `UA_SecureChannel_revolveTokens`. -/
def revolveTokens (s : Server) (a : ChannelAddress) : Option Server := do
  let channel ← s.channelAt a
  if channel.nextSecurityToken.tokenId = 0 then
    pure s
  else
    pure (s.setChannel a channel.revolve)

/-- `UA_SecureChannel_sendBinaryMessage`. -/
def sendBinaryMessage (s : Server) (a : ChannelAddress) (out : Sending) (result : StatusCode) :
    Option (StatusCode × Server) := do
  let channel ← s.channelAt a
  match channel.connection with
  | none => pure (.badInternalError, s)
  | some c => do
      let _ ← s.connectionAt c
      if out.buffer ≠ .good then
        pure (out.buffer, s)
      else if out.encoding ≠ .good then
        pure (out.encoding, s)
      else
        send (s.setChannel a channel.count) c out.sent (.sent a channel.count.sequenceNumber result)

/-- The sessions of a channel lose it. -/
def releaseSessions (s : Server) (a : ChannelAddress) : List Address → Option Server
  | [] => pure s
  | x :: xs => do
      let session ← s.sessionAt x
      let channel ← s.channelAt a
      releaseSessions ((s.setSession x { session with channel := none }).setChannel a
        { channel with sessions := channel.sessions.erase x }) a xs

/-- `UA_SecureChannel_deleteMembersCleanup`. -/
def deleteMembersCleanup (s : Server) (a : ChannelAddress) : Option Server := do
  let channel ← s.channelAt a
  match channel.connection with
  | none => releaseSessions s a channel.sessions
  | some c => do
      let s ← Connection.detachSecureChannel s c
      let s ← Connection.close s c
      releaseSessions s a channel.sessions

end SecureChannel

/-! ## Sessions -/

namespace Session

/-- `UA_Session_updateLifetime`. -/
def updateLifetime (session : Session) (now : DateTime) : Session :=
  { session with validTill := now + session.timeout * 10000 }

/-- `UA_Session_deleteMembersCleanup`. -/
def deleteMembersCleanup (s : Server) (x : Address) : Option Server := do
  let session ← s.sessionAt x
  match session.channel with
  | none => pure s
  | some a => SecureChannel.detachSession s a x

end Session

/-! ## The manager of the channels -/

/-- `UA_MESSAGESECURITYMODE_NONE`. -/
def messageSecurityModeNone : UInt32 := 1

/-- `UA_SECURITYTOKENREQUESTTYPE_ISSUE`. -/
def securityTokenRequestTypeIssue : UInt32 := 0

/-- `UA_OpenSecureChannelRequest`. -/
structure OpenSecureChannelRequest where
  requestType : UInt32
  securityMode : UInt32
  requestedLifetime : UInt32
  deriving DecidableEq

namespace SecureChannelManager

/-- The lifetime that is granted; a request for none at all gets the longest. -/
def revisedLifetime (cm : SecureChannelManager) (requestedLifetime : UInt32) : UInt32 :=
  let revised :=
    if cm.maxChannelLifetime < requestedLifetime then cm.maxChannelLifetime else requestedLifetime
  if revised = 0 then cm.maxChannelLifetime else revised

/-- Memory that is in use is not granted. -/
def grant (s : Server) (memory : Option Address) : Option ChannelAddress :=
  match memory with
  | none => none
  | some n => if s.channelAt (.entry n) = none then some (.entry n) else none

/-- `UA_SecureChannelManager_open`, with the token of the response. -/
def openChannel (s : Server) (c : Address) (request : OpenSecureChannelRequest)
    (memory : Option Address) (now : DateTime) :
    Option (StatusCode × ChannelSecurityToken × Server) :=
  let cm := s.secureChannelManager
  if request.securityMode ≠ messageSecurityModeNone then
    pure (.badSecurityModeRejected, .init, s)
  else
    match grant s memory with
    | none => pure (.badOutOfMemory, .init, s)
    | some a =>
        if cm.maxChannelCount ≤ cm.currentChannelCount then
          pure (.badOutOfMemory, .init, s)
        else do
          let token : ChannelSecurityToken :=
            { channelId := cm.lastChannelId, tokenId := cm.lastTokenId, createdAt := now,
              revisedLifetime := cm.revisedLifetime request.requestedLifetime }
          let cm := { cm with
            currentChannelCount := cm.currentChannelCount + 1,
            lastChannelId := cm.lastChannelId + 1, lastTokenId := cm.lastTokenId + 1 }
          let s ← Connection.attachSecureChannel
            ({ s with secureChannelManager := cm }.setChannel a
              { SecureChannel.init with securityToken := token }) c a
          let s := { s with secureChannelManager := { cm with channels := a :: cm.channels } }
          pure (.good, token, s.log (.issued a token))

/-- `UA_SecureChannelManager_renew`, with the token of the response. -/
def renewChannel (s : Server) (c : Address) (request : OpenSecureChannelRequest) (now : DateTime) :
    Option (StatusCode × ChannelSecurityToken × Server) := do
  let cm := s.secureChannelManager
  let connection ← s.connectionAt c
  match connection.channel with
  | none => pure (.badInternalError, .init, s)
  | some a => do
      let channel ← s.channelAt a
      if channel.nextSecurityToken.tokenId = 0 then
        let token : ChannelSecurityToken :=
          { channelId := channel.securityToken.channelId, tokenId := cm.lastTokenId,
            createdAt := now, revisedLifetime := cm.revisedLifetime request.requestedLifetime }
        let s := { s with secureChannelManager := { cm with lastTokenId := cm.lastTokenId + 1 } }
        let s := s.setChannel a { channel with nextSecurityToken := token }
        pure (.good, token, s.log (.renewed a token))
      else
        pure (.good, channel.nextSecurityToken, s)

/-- An entry is taken from the list, cleaned up and freed. -/
def removeEntry (s : Server) (a : ChannelAddress) : Option Server := do
  let cm := s.secureChannelManager
  let s ← SecureChannel.deleteMembersCleanup
    { s with secureChannelManager := { cm with channels := cm.channels.erase a } } a
  let cm := s.secureChannelManager
  let s := { s with secureChannelManager :=
    { cm with currentChannelCount := cm.currentChannelCount - 1 } }.freeChannel a
  pure (s.log (.removed a))

/-- The loop of `UA_SecureChannelManager_close`. -/
def closeEntry (s : Server) (channelId : UInt32) : List ChannelAddress → Option Server
  | [] => pure s
  | a :: as => do
      let channel ← s.channelAt a
      if channel.securityToken.channelId = channelId then
        removeEntry s a
      else
        closeEntry s channelId as

/-- `UA_SecureChannelManager_close`. -/
def closeChannel (s : Server) (channelId : UInt32) : Option Server :=
  closeEntry s channelId s.secureChannelManager.channels

/-- The time until which the token of a channel is good. -/
def timeout (channel : SecureChannel) : DateTime :=
  channel.securityToken.createdAt + (channel.securityToken.revisedLifetime.toNat : ℤ) * 10000

/-- The loop of `UA_SecureChannelManager_cleanupTimedOut`. -/
def cleanupEntries (s : Server) (now : DateTime) : List ChannelAddress → Option Server
  | [] => pure s
  | a :: as => do
      let channel ← s.channelAt a
      if timeout channel < now ∨ channel.connection = none then do
        let s ← removeEntry s a
        cleanupEntries s now as
      else if 0 < channel.nextSecurityToken.tokenId then do
        let s ← SecureChannel.revolveTokens s a
        cleanupEntries s now as
      else
        cleanupEntries s now as

/-- `UA_SecureChannelManager_cleanupTimedOut`. -/
def cleanupTimedOut (s : Server) (now : DateTime) : Option Server :=
  cleanupEntries s now s.secureChannelManager.channels

end SecureChannelManager

/-! ## The manager of the sessions -/

namespace SessionManager

/-- The timeout of a session.  A request that is no number has none. -/
def revisedTimeout (sm : SessionManager) (requestedSessionTimeout : Option ℚ) : ℤ :=
  match requestedSessionTimeout with
  | none => sm.maxSessionLifeTime
  | some r => if r ≤ sm.maxSessionLifeTime ∧ 0 < r then ⌊r⌋ else sm.maxSessionLifeTime

/-- Memory that is in use is not granted. -/
def grant (s : Server) (memory : Option Address) : Option Address :=
  match memory with
  | none => none
  | some x => if s.sessionAt x = none then some x else none

/-- `UA_SessionManager_createSession`. -/
def createSession (s : Server) (requestedSessionTimeout : Option ℚ) (memory : Option Address)
    (guid : Vector UInt8 16) (now : DateTime) : StatusCode × Option Address × Server :=
  let sm := s.sessionManager
  if sm.maxSessionCount ≤ sm.currentSessionCount then
    (.badTooManySessions, none, s)
  else
    match grant s memory with
    | none => (.badOutOfMemory, none, s)
    | some x =>
        let session : Session :=
          { activated := false, authenticationToken := ⟨1, .guid guid⟩,
            sessionId := NodeId.numeric 1 sm.lastSessionId,
            timeout := sm.revisedTimeout requestedSessionTimeout, validTill := 0, channel := none }
        let sm := { sm with
          sessions := x :: sm.sessions, lastSessionId := sm.lastSessionId + 1,
          currentSessionCount := sm.currentSessionCount + 1 }
        let s := { s with sessionManager := sm }.setSession x (session.updateLifetime now)
        (.good, some x, s.log (.created x session.authenticationToken))

/-- An entry is taken from the list, cleaned up and freed. -/
def removeEntry (s : Server) (x : Address) : Option Server := do
  let sm := s.sessionManager
  let s ← Session.deleteMembersCleanup
    { s with sessionManager := { sm with sessions := sm.sessions.erase x } } x
  let sm := s.sessionManager
  let s := { s with sessionManager :=
    { sm with currentSessionCount := sm.currentSessionCount - 1 } }.freeSession x
  pure (s.log (.closed x))

/-- `UA_SessionManager_removeSession`. -/
def removeSession (s : Server) (token : NodeId) : Option (StatusCode × Server) := do
  match ← SecureChannel.find s token s.sessionManager.sessions with
  | none => pure (.badSessionIdInvalid, s)
  | some x => do
      let s ← removeEntry s x
      pure (.good, s)

/-- `UA_SessionManager_getSession`. -/
def getSession (s : Server) (token : NodeId) (now : DateTime) : Option (Option Address) := do
  match ← SecureChannel.find s token s.sessionManager.sessions with
  | none => pure none
  | some x => do
      let session ← s.sessionAt x
      pure (if session.validTill < now then none else some x)

/-- The loop of `UA_SessionManager_cleanupTimedOut`. -/
def cleanupEntries (s : Server) (now : DateTime) : List Address → Option Server
  | [] => pure s
  | x :: xs => do
      let session ← s.sessionAt x
      if session.validTill < now then do
        let s ← removeEntry s x
        cleanupEntries s now xs
      else
        cleanupEntries s now xs

/-- `UA_SessionManager_cleanupTimedOut`. -/
def cleanupTimedOut (s : Server) (now : DateTime) : Option Server :=
  cleanupEntries s now s.sessionManager.sessions

end SessionManager

end Channels

end ForteOpcUa

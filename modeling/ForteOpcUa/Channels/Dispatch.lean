import ForteOpcUa.Channels.Managers

/-!
# Dispatch — messages and jobs

The services of `ua_services_securechannel.c` and `ua_services_session.c`, the messages of
`ua_server_binary.c`, and the jobs of the main loop.  Messages are given decoded: what cannot be
decoded says so, and what the services of the node store answer is part of the message.

- `processMessage`       : one message of a connection,
- `processBinaryMessage` : the messages of a job, until one of them stops the loop,
- `processJob`, `run`    : the jobs of the network layer and of the clock, one after the other.
-/

namespace ForteOpcUa

namespace Channels

/-! ## Services -/

/-- `Service_OpenSecureChannel`. -/
def openSecureChannel (s : Server) (c : Address) (request : OpenSecureChannelRequest)
    (memory : Option Address) (now : DateTime) :
    Option (StatusCode × ChannelSecurityToken × Server) :=
  if request.requestType = securityTokenRequestTypeIssue then
    SecureChannelManager.openChannel s c request memory now
  else
    SecureChannelManager.renewChannel s c request now

/-- `Service_CloseSecureChannel`. -/
def closeSecureChannel (s : Server) (channelId : UInt32) : Option Server :=
  SecureChannelManager.closeChannel s channelId

/-- A request for a session, and what it gets of the surroundings. -/
structure CreateSessionRequest where
  requestedSessionTimeout : Option ℚ
  endpoints : StatusCode
  memory : Option Address
  guid : Vector UInt8 16
  now : DateTime
  copied : StatusCode

/-- `Service_CreateSession`. -/
def createSession (s : Server) (request : CreateSessionRequest) : Option (StatusCode × Server) :=
  if request.endpoints ≠ .good then
    pure (request.endpoints, s)
  else
    match SessionManager.createSession s request.requestedSessionTimeout request.memory request.guid
        request.now with
    | (result, none, s) => pure (result, s)
    | (result, some x, s) =>
        if request.copied ≠ .good then do
          let session ← s.sessionAt x
          let r ← SessionManager.removeSession s session.authenticationToken
          pure (request.copied, r.2)
        else
          pure (result, s)

/-- `ANONYMOUS_POLICY`. -/
def anonymousPolicy : ByteString :=
  ascii "open62541-anonymous-policy"

/-- `USERNAME_POLICY`. -/
def usernamePolicy : ByteString :=
  ascii "open62541-username-policy"

/-- The checks of `Service_ActivateSession` on the identity token. -/
def authenticate (config : ServerConfig) (identity : UserIdentityToken) : StatusCode :=
  if config.enableAnonymous ∧
      (identity.policyId.getD [] = [] ∨ identity.policyId.equal (some anonymousPolicy)) then
    .good
  else if config.enableUsernamePassword ∧ identity.policyId.equal (some usernamePolicy) then
    if identity.encryptionAlgorithm.getD [] ≠ [] then
      .badIdentityTokenInvalid
    else if identity.userName = none ∧ identity.password = none then
      .badIdentityTokenInvalid
    else if config.logins.any fun login =>
        identity.userName.equal (some login.1) && identity.password.equal (some login.2) then
      .good
    else
      .badUserAccessDenied
  else
    .badIdentityTokenInvalid

/-- A request to activate a session; `clock` are the readings of the clock one after the other. -/
structure ActivateSessionRequest where
  authenticationToken : NodeId
  identity : UserIdentityToken
  entry : Bool
  clock : ℕ → DateTime

/-- A session whose user is accepted changes over to the channel. -/
def activate (s : Server) (a : ChannelAddress) (x : Address) (request : ActivateSessionRequest) :
    Option Server := do
  let session ← s.sessionAt x
  let s ← match session.channel with
    | none => pure s
    | some b => if b ≠ a then SecureChannel.detachSession s b x else pure s
  let s ← SecureChannel.attachSession s a x request.entry
  let session ← s.sessionAt x
  pure ((s.setSession x ({ session with activated := true }.updateLifetime (request.clock 2))).log
    (.activated x a request.identity))

/-- `Service_ActivateSession`. -/
def activateSession (s : Server) (a : ChannelAddress) (request : ActivateSessionRequest) :
    Option (StatusCode × Server) := do
  match ← SessionManager.getSession s request.authenticationToken (request.clock 0) with
  | none => pure (.badSessionIdInvalid, s)
  | some x => do
      let session ← s.sessionAt x
      if session.validTill < request.clock 1 then
        pure (.badSessionIdInvalid, s)
      else
        let result := authenticate s.config request.identity
        if result = .good then do
          let s ← activate s a x request
          pure (result, s)
        else
          pure (result, s)

/-- The services that are invoked for a session: closing it, and those of the node store, which
answer what they answer. -/
def service (s : Server) (x : Address) (kind : Service) (result : StatusCode) :
    Option (StatusCode × Server) :=
  match kind with
  | .closeSession => do
      let session ← s.sessionAt x
      SessionManager.removeSession s session.authenticationToken
  | _ => pure (result, s)

/-! ## Messages -/

/-- A request for a service that needs a session. -/
structure ServiceRequest where
  authenticationToken : NodeId
  kind : Service
  result : StatusCode
  now : DateTime
  out : Sending
  fault : Sending

/-- What the session of a request answers. -/
def serve (s : Server) (a : ChannelAddress) (request : ServiceRequest) :
    Option (StatusCode × Server) := do
  match ← SecureChannel.getSession s a request.authenticationToken with
  | none => pure (.badSessionIdInvalid, s)
  | some x => do
      let session ← s.sessionAt x
      if session.channel ≠ some a then
        pure (.badSessionIdInvalid, s)
      else if session.activated = false then
        pure (.badSessionNotActivated, s)
      else
        service ((s.setSession x (session.updateLifetime request.now)).log
          (.served x a request.kind)) x request.kind request.result

/-- The answer of `invoke_service`, and a fault where it cannot be sent. -/
def respond (s : Server) (a : ChannelAddress) (request : ServiceRequest) (result : StatusCode) :
    Option Server := do
  let r ← SecureChannel.sendBinaryMessage s a request.out result
  if r.1 = .good then
    pure r.2
  else do
    let fault := if r.1 = .badEncodingLimitsExceeded then .badResponseTooLarge else r.1
    let r ← SecureChannel.sendBinaryMessage r.2 a request.fault fault
    pure r.2

/-- `invoke_service`. -/
def invokeService (s : Server) (a : ChannelAddress) (request : ServiceRequest) : Option Server := do
  let r ← serve s a request
  respond r.2 a request r.1

/-- The request in a message.  Those of the first two kinds need no session and no channel. -/
inductive Request
  | undecodable
  | sessionless (result : StatusCode) (out : Sending)
  | createSession (request : CreateSessionRequest) (out : Sending)
  | activateSession (request : ActivateSessionRequest) (out : Sending)
  | service (request : ServiceRequest)

/-- The request in a message is handled. -/
def processRequest (s : Server) (a : ChannelAddress) (request : Request) : Option Server :=
  match request with
  | .undecodable => pure s
  | .sessionless result out => do
      let r ← SecureChannel.sendBinaryMessage s a out result
      pure r.2
  | .createSession request out => do
      let r ← createSession s request
      let r ← SecureChannel.sendBinaryMessage r.2 a out r.1
      pure r.2
  | .activateSession request out => do
      let r ← activateSession s a request
      let r ← SecureChannel.sendBinaryMessage r.2 a out r.1
      pure r.2
  | .service request => invokeService s a request

/-- A message of a channel: its security token, if the headers can be decoded, and its request. -/
structure SecuredMessage where
  tokenId : Option UInt32
  request : Request

/-- The part of `processMSG` behind the choice of the channel. -/
def processSecured (s : Server) (a : ChannelAddress) (m : SecuredMessage) : Option Server :=
  match m.tokenId with
  | none => pure s
  | some tokenId =>
      if tokenId = 0 then
        pure s
      else if a = .anonymous then
        processRequest s a m.request
      else do
        let channel ← s.channelAt a
        if tokenId = channel.securityToken.tokenId then
          processRequest s a m.request
        else if tokenId ≠ channel.nextSecurityToken.tokenId then
          closeSecureChannel s channel.securityToken.channelId
        else do
          let s ← SecureChannel.revolveTokens s a
          processRequest s a m.request

/-- `processMSG`. -/
def processMSG (s : Server) (c : Address) (m : SecuredMessage) : Option Server := do
  let connection ← s.connectionAt c
  match connection.channel with
  | some a => processSecured s a m
  | none => do
      let s ← processSecured
        (s.setChannel .anonymous { SecureChannel.init with connection := some c }) .anonymous m
      pure (s.freeChannel .anonymous)

/-- A request for a channel, and what it gets of the surroundings. -/
structure OpenMessage where
  request : Option OpenSecureChannelRequest
  memory : Option Address
  now : DateTime
  out : Sending

/-- The end of `processOPN`: the response, over the channel that the connection has now. -/
def respondOpen (s : Server) (c : Address) (out : Sending) (result : StatusCode) :
    Option Server := do
  let connection ← s.connectionAt c
  match connection.channel with
  | none => Connection.close s c
  | some a => do
      let channel ← s.channelAt a
      let s := s.setChannel a channel.count
      if out.buffer ≠ .good then
        pure s
      else if out.encoding ≠ .good then
        Connection.close s c
      else do
        let r ← send s c out.sent (.sent a channel.count.sequenceNumber result)
        pure r.2

/-- `processOPN`. -/
def processOPN (s : Server) (c : Address) (m : OpenMessage) : Option Server := do
  let connection ← s.connectionAt c
  if connection.state ≠ .established then
    Connection.close s c
  else
    match m.request with
    | none => Connection.close s c
    | some request => do
        let r ← openSecureChannel s c request m.memory m.now
        respondOpen r.2.2 c m.out r.1

/-- `processHEL`; the acknowledgement has no sequence number. -/
def processHEL (s : Server) (c : Address) (decoded : Bool) (out : Sending) : Option Server := do
  if decoded then do
    let connection ← s.connectionAt c
    let s := s.setConnection c { connection with state := .established }
    if out.buffer ≠ .good ∨ out.sent then
      pure s
    else
      Connection.close s c
  else
    Connection.close s c

/-- `processCLO`. -/
def processCLO (s : Server) (c : Address) (secureChannelId : Option UInt32) : Option Server :=
  match secureChannelId with
  | none => pure s
  | some channelId => do
      let connection ← s.connectionAt c
      match connection.channel with
      | none => pure s
      | some a => do
          let channel ← s.channelAt a
          if channel.securityToken.channelId ≠ channelId then
            pure s
          else
            closeSecureChannel s channelId

/-- A message of a connection. -/
inductive Message
  | malformed
  | hello (decoded : Bool) (out : Sending)
  | openSecureChannel (m : OpenMessage)
  | secured (m : SecuredMessage)
  | closeSecureChannel (secureChannelId : Option UInt32)
  | unknown

/-- A round of the loop in `UA_Server_processBinaryMessage`, which tells whether the loop goes on. -/
def processMessage (s : Server) (c : Address) (m : Message) : Option (Bool × Server) :=
  match m with
  | .malformed => do
      let s ← Connection.close s c
      pure (false, s)
  | .hello decoded out => do
      let s ← processHEL s c decoded out
      pure (true, s)
  | .openSecureChannel m => do
      let s ← processOPN s c m
      pure (true, s)
  | .secured m => do
      let connection ← s.connectionAt c
      if connection.state ≠ .established then do
        let s ← Connection.close s c
        pure (false, s)
      else do
        let s ← processMSG s c m
        pure (true, s)
  | .closeSecureChannel secureChannelId => do
      let s ← processCLO s c secureChannelId
      let s ← Connection.close s c
      pure (false, s)
  | .unknown => pure (true, s)

/-- `UA_Server_processBinaryMessage`. -/
def processBinaryMessage (s : Server) (c : Address) : List Message → Option Server
  | [] => pure s
  | m :: ms => do
      let r ← processMessage s c m
      if r.1 then processBinaryMessage r.2 c ms else pure r.2

/-! ## Jobs -/

/-- What the main loop does: a connection is accepted, messages arrived, a connection is lost, or the
recurring cleanup is due. -/
inductive Job
  | accept (c : Address)
  | binaryMessage (c : Address) (ms : List Message)
  | detachConnection (c : Address)
  | cleanup (now : DateTime)

/-- `UA_JOBTYPE_DETACHCONNECTION` and `FreeConnectionCallback`. -/
def detachConnection (s : Server) (c : Address) : Option Server := do
  let s ← Connection.detachSecureChannel s c
  pure (s.freeConnection c)

/-- `UA_Server_cleanup`. -/
def cleanup (s : Server) (now : DateTime) : Option Server := do
  let s ← SessionManager.cleanupTimedOut s now
  SecureChannelManager.cleanupTimedOut s now

/-- A job.  Memory that is in use is not granted to a connection, and the network layer has jobs for
its own connections only. -/
def processJob (s : Server) (job : Job) : Option Server :=
  match job with
  | .accept c =>
      pure (if s.connectionAt c = none then s.setConnection c ⟨.opening, none⟩ else s)
  | .binaryMessage c ms =>
      if s.connectionAt c = none then pure s else processBinaryMessage s c ms
  | .detachConnection c =>
      if s.connectionAt c = none then pure s else detachConnection s c
  | .cleanup now => cleanup s now

/-- The jobs one after the other. -/
def run (s : Server) : List Job → Option Server
  | [] => pure s
  | job :: jobs => do
      let s ← processJob s job
      run s jobs

end Channels

end ForteOpcUa

import Mathlib.Logic.Function.Basic
import ForteOpcUa.Server.Types

/-!
# State — connections, secure channels and sessions

The state of the server of `open62541.c` that the clients share.  Connections, channels and sessions
are objects in memory and point at each other, so that the state maps addresses to objects and a
pointer is an address.  A pointer at an object that was freed leads nowhere.

- `Connection`, `SecureChannel`, `Session` : the objects,
- `SecureChannelManager`, `SessionManager` : the lists of the server and their counters,
- `Event`                                  : what the server does that the clients care about.
-/

namespace ForteOpcUa

namespace StatusCode

def badEncodingLimitsExceeded : StatusCode := 0x80080000
def badServiceUnsupported : StatusCode := 0x800b0000
def badUserAccessDenied : StatusCode := 0x801f0000
def badIdentityTokenInvalid : StatusCode := 0x80200000
def badSessionIdInvalid : StatusCode := 0x80250000
def badSessionNotActivated : StatusCode := 0x80270000
def badSecurityModeRejected : StatusCode := 0x80540000
def badTooManySessions : StatusCode := 0x80560000
def badResponseTooLarge : StatusCode := 0x80b90000

end StatusCode

namespace Channels

/-- The address of a connection or of a session. -/
abbrev Address : Type :=
  ℕ

/-- The address of a channel: an entry of the channel manager, or the anonymous channel, which lives
on the stack while a message of a connection without a channel is processed. -/
inductive ChannelAddress
  | anonymous
  | entry (n : Address)
  deriving DecidableEq

/-- `UA_DateTime`, in units of 100 ns. -/
abbrev DateTime : Type :=
  ℤ

/-- `UA_ChannelSecurityToken`. -/
structure ChannelSecurityToken where
  channelId : UInt32
  tokenId : UInt32
  createdAt : DateTime
  revisedLifetime : UInt32
  deriving DecidableEq

/-- `UA_ChannelSecurityToken_init`. -/
def ChannelSecurityToken.init : ChannelSecurityToken :=
  ⟨0, 0, 0, 0⟩

/-- `UA_SecureChannel`. -/
structure SecureChannel where
  securityToken : ChannelSecurityToken
  nextSecurityToken : ChannelSecurityToken
  sequenceNumber : UInt32
  connection : Option Address
  sessions : List Address
  deriving DecidableEq

/-- `UA_SecureChannel_init`. -/
def SecureChannel.init : SecureChannel :=
  ⟨.init, .init, 0, none, []⟩

/-- One more message is sent. -/
def SecureChannel.count (channel : SecureChannel) : SecureChannel :=
  { channel with sequenceNumber := channel.sequenceNumber + 1 }

/-- The next token comes in force. -/
def SecureChannel.revolve (channel : SecureChannel) : SecureChannel :=
  { channel with securityToken := channel.nextSecurityToken, nextSecurityToken := .init }

/-- `UA_Session`. -/
structure Session where
  activated : Bool
  authenticationToken : NodeId
  sessionId : NodeId
  timeout : ℤ
  validTill : DateTime
  channel : Option ChannelAddress
  deriving DecidableEq

/-- `UA_ConnectionState`. -/
inductive ConnectionState
  | opening
  | established
  | closed
  deriving DecidableEq

/-- `UA_Connection`. -/
structure Connection where
  state : ConnectionState
  channel : Option ChannelAddress
  deriving DecidableEq

/-- `UA_SecureChannelManager`. -/
structure SecureChannelManager where
  channels : List ChannelAddress
  maxChannelCount : ℕ
  currentChannelCount : ℕ
  maxChannelLifetime : UInt32
  lastChannelId : UInt32
  lastTokenId : UInt32
  deriving DecidableEq

/-- `UA_SessionManager`. -/
structure SessionManager where
  sessions : List Address
  maxSessionCount : ℕ
  lastSessionId : UInt32
  currentSessionCount : ℕ
  maxSessionLifeTime : ℤ
  deriving DecidableEq

/-- `UA_ServerConfig`, what logins it allows. -/
structure ServerConfig where
  enableAnonymous : Bool
  enableUsernamePassword : Bool
  logins : List (ByteString × ByteString)
  deriving DecidableEq

/-- A `UA_String` whose length may be -1. -/
abbrev Text : Type :=
  Option ByteString

/-- `UA_String_equal`. -/
def Text.equal (t u : Text) : Bool :=
  t.getD [] = u.getD []

/-- The user identity token of a request, decoded in both ways that the server tries. -/
structure UserIdentityToken where
  policyId : Text
  userName : Text
  password : Text
  encryptionAlgorithm : Text
  deriving DecidableEq

/-- The services that are invoked for a session. -/
inductive Service
  | closeSession
  | read
  | write
  | browse
  | browseNext
  | registerNodes
  | unregisterNodes
  | translateBrowsePathsToNodeIds
  deriving DecidableEq

/-- What the server does. -/
inductive Event
  | issued (channel : ChannelAddress) (token : ChannelSecurityToken)
  | renewed (channel : ChannelAddress) (token : ChannelSecurityToken)
  | created (session : Address) (authenticationToken : NodeId)
  | activated (session : Address) (channel : ChannelAddress) (identity : UserIdentityToken)
  | served (session : Address) (channel : ChannelAddress) (service : Service)
  | sent (channel : ChannelAddress) (sequenceNumber : UInt32) (serviceResult : StatusCode)
  | removed (channel : ChannelAddress)
  | closed (session : Address)
  deriving DecidableEq

/-- The server: its objects, its lists, and what it did. -/
@[ext]
structure Server where
  config : ServerConfig
  connectionAt : Address → Option Connection
  channelAt : ChannelAddress → Option SecureChannel
  sessionAt : Address → Option Session
  secureChannelManager : SecureChannelManager
  sessionManager : SessionManager
  events : List Event

namespace Server

/-- Before any client connects. -/
def init (config : ServerConfig) : Server where
  config := config
  connectionAt := fun _ => none
  channelAt := fun _ => none
  sessionAt := fun _ => none
  secureChannelManager :=
    { channels := [], maxChannelCount := 100, currentChannelCount := 0,
      maxChannelLifetime := 600000, lastChannelId := 1, lastTokenId := 1 }
  sessionManager :=
    { sessions := [], maxSessionCount := 1000, lastSessionId := 1, currentSessionCount := 0,
      maxSessionLifeTime := 10000 }
  events := []

/-- Write a connection. -/
def setConnection (s : Server) (c : Address) (connection : Connection) : Server :=
  { s with connectionAt := Function.update s.connectionAt c (some connection) }

/-- Free a connection. -/
def freeConnection (s : Server) (c : Address) : Server :=
  { s with connectionAt := Function.update s.connectionAt c none }

/-- Write a channel. -/
def setChannel (s : Server) (a : ChannelAddress) (channel : SecureChannel) : Server :=
  { s with channelAt := Function.update s.channelAt a (some channel) }

/-- Free a channel. -/
def freeChannel (s : Server) (a : ChannelAddress) : Server :=
  { s with channelAt := Function.update s.channelAt a none }

/-- Write a session. -/
def setSession (s : Server) (x : Address) (session : Session) : Server :=
  { s with sessionAt := Function.update s.sessionAt x (some session) }

/-- Free a session. -/
def freeSession (s : Server) (x : Address) : Server :=
  { s with sessionAt := Function.update s.sessionAt x none }

/-- Something is done. -/
def log (s : Server) (e : Event) : Server :=
  { s with events := s.events ++ [e] }

end Server

end Channels

end ForteOpcUa

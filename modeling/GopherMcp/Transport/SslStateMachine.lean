import Mathlib.Data.List.Basic
import GopherMcp.Lib.Walks

/-!
# The state machine of a TLS socket

Which transitions there are depends on the side of the connection the socket is on. The entry and exit actions that the
socket gives its machine call back at once, so that a transition is made, its entry action run and its listener told in one
go; what is asked for meanwhile is refused.
-/

namespace GopherMcp

inductive SslSocketState
  | uninitialized | initialized
  | connecting | tcpConnected
  | clientHandshakeInit | clientHelloSent | serverHelloReceived | clientCertRequested | clientCertSent
  | clientKeyExchange | clientChangeCipherSpec | clientFinished
  | serverHandshakeInit | clientHelloReceived | serverHelloSent | serverCertSent | serverKeyExchange
  | serverCertRequest | serverHelloDone | clientCertReceived | serverChangeCipherSpec | serverFinished
  | handshakeWantRead | handshakeWantWrite | handshakeWantAsync | certificateValidating
  | connected
  | renegotiationRequested | renegotiationInProgress
  | shutdownInitiated | shutdownSent | shutdownReceived | shutdownComplete
  | closed | error
  deriving DecidableEq

inductive SslSocketMode
  | client | server
  deriving DecidableEq

namespace SslSocketState

def initializeClientTransitions : SslSocketState → List SslSocketState
  | uninitialized => [initialized, error]
  | initialized => [connecting, closed, error]
  | connecting => [tcpConnected, closed, error]
  | tcpConnected => [clientHandshakeInit, closed, error]
  | clientHandshakeInit => [clientHelloSent, handshakeWantWrite, handshakeWantRead, error]
  | clientHelloSent => [serverHelloReceived, handshakeWantRead, error]
  | serverHelloReceived =>
      [clientCertRequested, clientKeyExchange, certificateValidating, handshakeWantRead, error]
  | clientCertRequested => [clientCertSent, clientKeyExchange, handshakeWantAsync, error]
  | clientCertSent => [clientKeyExchange, handshakeWantWrite, error]
  | clientKeyExchange => [clientChangeCipherSpec, handshakeWantWrite, error]
  | clientChangeCipherSpec => [clientFinished, handshakeWantWrite, error]
  | clientFinished => [connected, handshakeWantRead, error]
  | handshakeWantRead =>
      [clientHandshakeInit, clientHelloSent, serverHelloReceived, clientFinished, connected, error]
  | handshakeWantWrite =>
      [clientHandshakeInit, clientCertSent, clientKeyExchange, clientChangeCipherSpec, clientFinished, error]
  | handshakeWantAsync => [clientCertSent, clientKeyExchange, error]
  | certificateValidating => [clientKeyExchange, error]
  | connected => [renegotiationRequested, shutdownInitiated, shutdownReceived, error]
  | renegotiationRequested => [renegotiationInProgress, connected, error]
  | renegotiationInProgress => [connected, handshakeWantRead, handshakeWantWrite, error]
  | shutdownInitiated => [shutdownSent, closed, error]
  | shutdownSent => [shutdownReceived, shutdownComplete, closed, error]
  | shutdownReceived => [shutdownSent, shutdownComplete, closed, error]
  | shutdownComplete => [closed]
  | _ => []

def initializeServerTransitions : SslSocketState → List SslSocketState
  | uninitialized => [initialized, error]
  | initialized => [tcpConnected, closed, error]
  | tcpConnected => [serverHandshakeInit, closed, error]
  | serverHandshakeInit => [clientHelloReceived, handshakeWantRead, error]
  | clientHelloReceived => [serverHelloSent, handshakeWantAsync, error]
  | serverHelloSent => [serverCertSent, handshakeWantWrite, error]
  | serverCertSent => [serverKeyExchange, serverCertRequest, serverHelloDone, handshakeWantWrite, error]
  | serverKeyExchange => [serverCertRequest, serverHelloDone, handshakeWantWrite, error]
  | serverCertRequest => [serverHelloDone, handshakeWantWrite, error]
  | serverHelloDone => [clientCertReceived, serverChangeCipherSpec, handshakeWantRead, error]
  | clientCertReceived => [certificateValidating, serverChangeCipherSpec, handshakeWantRead, error]
  | serverChangeCipherSpec => [serverFinished, handshakeWantRead, error]
  | serverFinished => [connected, handshakeWantWrite, error]
  | handshakeWantRead => [clientHelloReceived, clientCertReceived, serverChangeCipherSpec, connected, error]
  | handshakeWantWrite =>
      [serverHelloSent, serverCertSent, serverKeyExchange, serverCertRequest, serverHelloDone, serverFinished, error]
  | handshakeWantAsync => [serverHelloSent, error]
  | certificateValidating => [serverChangeCipherSpec, error]
  | connected => [renegotiationRequested, shutdownInitiated, shutdownReceived, error]
  | renegotiationRequested => [renegotiationInProgress, connected, error]
  | renegotiationInProgress => [connected, handshakeWantRead, handshakeWantWrite, error]
  | shutdownInitiated => [shutdownSent, closed, error]
  | shutdownSent => [shutdownReceived, shutdownComplete, closed, error]
  | shutdownReceived => [shutdownSent, shutdownComplete, closed, error]
  | shutdownComplete => [closed]
  | _ => []

def getStateName : SslSocketState → String
  | uninitialized => "Uninitialized" | initialized => "Initialized"
  | connecting => "Connecting" | tcpConnected => "TcpConnected"
  | clientHandshakeInit => "ClientHandshakeInit" | clientHelloSent => "ClientHelloSent"
  | serverHelloReceived => "ServerHelloReceived" | clientCertRequested => "ClientCertRequested"
  | clientCertSent => "ClientCertSent" | clientKeyExchange => "ClientKeyExchange"
  | clientChangeCipherSpec => "ClientChangeCipherSpec" | clientFinished => "ClientFinished"
  | serverHandshakeInit => "ServerHandshakeInit" | clientHelloReceived => "ClientHelloReceived"
  | serverHelloSent => "ServerHelloSent" | serverCertSent => "ServerCertSent"
  | serverKeyExchange => "ServerKeyExchange" | serverCertRequest => "ServerCertRequest"
  | serverHelloDone => "ServerHelloDone" | clientCertReceived => "ClientCertReceived"
  | serverChangeCipherSpec => "ServerChangeCipherSpec" | serverFinished => "ServerFinished"
  | handshakeWantRead => "HandshakeWantRead" | handshakeWantWrite => "HandshakeWantWrite"
  | handshakeWantAsync => "HandshakeWantAsync" | certificateValidating => "CertificateValidating"
  | connected => "Connected"
  | renegotiationRequested => "RenegotiationRequested" | renegotiationInProgress => "RenegotiationInProgress"
  | shutdownInitiated => "ShutdownInitiated" | shutdownSent => "ShutdownSent"
  | shutdownReceived => "ShutdownReceived" | shutdownComplete => "ShutdownComplete"
  | closed => "Closed" | error => "Error"

/-- `SslStatePatterns::isHandshakeState`. -/
def isHandshakeState : SslSocketState → Bool
  | clientHandshakeInit | clientHelloSent | serverHelloReceived | clientCertRequested | clientCertSent
  | clientKeyExchange | clientChangeCipherSpec | clientFinished
  | serverHandshakeInit | clientHelloReceived | serverHelloSent | serverCertSent | serverKeyExchange
  | serverCertRequest | serverHelloDone | clientCertReceived | serverChangeCipherSpec | serverFinished
  | handshakeWantRead | handshakeWantWrite | handshakeWantAsync | certificateValidating
  | renegotiationInProgress => true
  | _ => false

/-- Where the handshake of a side begins. -/
def handshakeInit : SslSocketMode → SslSocketState
  | .client => clientHandshakeInit
  | .server => serverHandshakeInit

end SslSocketState

/-- What a refused transition is refused with. -/
def SslSocketMode.invalidTransition (mode : SslSocketMode) (fromState toState : SslSocketState) : String :=
  "Invalid transition from " ++ fromState.getStateName ++ " to " ++ toState.getStateName ++ " in " ++
    (if mode = .client then "client" else "server") ++ " mode"

/-- `valid_transitions_`. -/
def SslSocketMode.validTransitions : SslSocketMode → SslSocketState → List SslSocketState
  | .client => SslSocketState.initializeClientTransitions
  | .server => SslSocketState.initializeServerTransitions

namespace SslSocketMode

def IsValid (mode : SslSocketMode) (fromState toState : SslSocketState) : Prop :=
  toState ∈ mode.validTransitions fromState

instance (mode : SslSocketMode) (fromState toState : SslSocketState) : Decidable (mode.IsValid fromState toState) :=
  inferInstanceAs (Decidable (_ ∈ _))

/-! ### What a walk through the states has passed -/

open SslSocketState

/-- Before the TCP connection, or at an end without it. -/
def BeforeTcp (state : SslSocketState) : Prop :=
  state = uninitialized ∨ state = initialized ∨ state = connecting ∨ state = closed ∨ state = error

/-- Before the handshake, or at an end without it. -/
def BeforeHandshake (state : SslSocketState) : Prop := BeforeTcp state ∨ state = tcpConnected

/-- After the connection. -/
def AfterConnection (state : SslSocketState) : Prop :=
  state = shutdownInitiated ∨ state = shutdownSent ∨ state = shutdownReceived ∨ state = shutdownComplete ∨
    state = closed ∨ state = error

instance (state : SslSocketState) : Decidable (BeforeTcp state) := inferInstanceAs (Decidable (_ ∨ _))
instance (state : SslSocketState) : Decidable (BeforeHandshake state) := inferInstanceAs (Decidable (_ ∨ _))
instance (state : SslSocketState) : Decidable (AfterConnection state) := inferInstanceAs (Decidable (_ ∨ _))

theorem tcp_gate (mode : SslSocketMode) (x y : SslSocketState) (hx : BeforeTcp x) (hedge : mode.IsValid x y) :
    BeforeTcp y ∨ y = tcpConnected := by
  have hall : ∀ y ∈ mode.validTransitions x, BeforeTcp y ∨ y = tcpConnected := by
    rcases hx with rfl | rfl | rfl | rfl | rfl <;> cases mode <;> decide
  exact hall y hedge

theorem handshake_gate (mode : SslSocketMode) (x y : SslSocketState) (hx : BeforeHandshake x)
    (hedge : mode.IsValid x y) : BeforeHandshake y ∨ y = handshakeInit mode := by
  have hall : ∀ y ∈ mode.validTransitions x, BeforeHandshake y ∨ y = handshakeInit mode := by
    rcases hx with (rfl | rfl | rfl | rfl | rfl) | rfl <;> cases mode <;> decide
  exact hall y hedge

theorem afterConnection_closed (mode : SslSocketMode) (x y : SslSocketState) (hx : AfterConnection x)
    (hedge : mode.IsValid x y) : AfterConnection y := by
  have hall : ∀ y ∈ mode.validTransitions x, AfterConnection y := by
    rcases hx with rfl | rfl | rfl | rfl | rfl | rfl <;> cases mode <;> decide
  exact hall y hedge

/-- Whatever way a walk takes from the beginning to the connection, it passes the TCP connection first and the beginning of
its own side's handshake then. -/
theorem passes_handshake (mode : SslSocketMode) {walk : List SslSocketState}
    (hwalk : List.IsChain mode.IsValid (uninitialized :: walk)) (hconnected : connected ∈ walk) :
    ∃ before after, walk = before ++ handshakeInit mode :: after ∧ tcpConnected ∈ before ∧ connected ∈ after := by
  obtain ⟨way, after, rfl⟩ := List.append_of_mem hconnected
  obtain ⟨g, hg, rfl⟩ := Walks.meets_gate_before (handshake_gate mode) hwalk (by decide) (by decide)
    (by cases mode <;> decide)
  obtain ⟨before, between, rfl⟩ := List.append_of_mem hg
  rw [List.append_assoc, List.cons_append] at hwalk ⊢
  obtain ⟨g, hg, rfl⟩ := Walks.meets_gate_before (tcp_gate mode) hwalk (by decide) (by cases mode <;> decide)
    (by cases mode <;> decide)
  exact ⟨before, between ++ connected :: after, rfl, hg, by simp⟩

end SslSocketMode

end GopherMcp

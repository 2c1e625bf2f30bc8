import Mathlib.Data.Rat.Init
import Mathlib.Tactic

/-! # Errors, results and configuration

A `std::string` and a `std::vector<uint8_t>` are both byte lists. A function
that returns a `Result` either carries a value or an `MqttException`; a function
that may also throw ends in a `Completion`.
-/

namespace MqttNativeSocket

/-- Contents of a `std::string` or a `std::vector<uint8_t>`. -/
abbrev Bytes := List UInt8

/-- The bytes of an ASCII literal of the source. -/
def ascii (s : String) : Bytes := s.toList.map fun c => UInt8.ofNat c.toNat

inductive ErrorCode where
  | ok
  | connectionFailed | connectionLost | connectionTimeout | alreadyConnected | notConnected
  | tlsHandshakeFailed | certificateInvalid | certificateExpired
  | authenticationFailed | authorizationDenied
  | publishFailed | publishQueueFull | publishTimeout
  | subscribeFailed | unsubscribeFailed
  | configParseError | configInvalid
  | serializationFailed | deserializationFailed
  | internalError | notSupported
  deriving DecidableEq, Repr

/-- Every exception class of the library is an `MqttException` with no further data. -/
structure MqttException where
  code : ErrorCode
  message : Bytes
  deriving DecidableEq, Repr

/-- `Result<T>`: a value or an error, returned and not thrown. -/
abbrev Result (α : Type) := Except MqttException α

/-- How a call that returns a `Result` can end. -/
inductive Completion (α : Type) where
  | returned (r : Result α)
  | thrown (e : MqttException)

/-- A `Message` without its MQTT 5 fields, which nothing reads. -/
structure Message where
  topic : Bytes
  payload : Bytes
  qos : ℤ := 0
  retained : Bool := false
  duplicate : Bool := false
  deriving DecidableEq, Repr

inductive ConnectionState where
  | disconnected | connecting | connected | reconnecting | disconnecting | failed
  deriving DecidableEq, Repr

inductive TlsVersion where
  | tls12 | tls13
  deriving DecidableEq, Repr

structure TlsConfig where
  enabled : Bool := false
  minVersion : TlsVersion := .tls12
  caCertFile : Bytes := []
  clientCertFile : Option Bytes := none
  clientKeyFile : Option Bytes := none
  clientKeyPassword : Option Bytes := none
  verifyPeer : Bool := true
  verifyHostname : Bool := true
  deriving DecidableEq, Repr

inductive MqttVersion where
  | v311 | v50
  deriving DecidableEq, Repr

structure WillConfig where
  topic : Bytes := []
  payload : Bytes := []
  qos : ℤ := 1
  retained : Bool := false
  deriving DecidableEq, Repr

/-- Delays are signed milliseconds; the multiplier is an exact rational. -/
structure ReconnectPolicy where
  enabled : Bool := true
  maxRetries : UInt32 := 0
  initialDelay : ℤ := 1000
  maxDelay : ℤ := 60000
  backoffMultiplier : ℚ := 2
  jitter : Bool := true
  deriving DecidableEq, Repr

structure ConnectionConfig where
  brokerUrls : List Bytes := []
  clientId : Bytes := []
  mqttVersion : MqttVersion := .v311
  cleanSession : Bool := true
  keepaliveSeconds : UInt16 := 60
  username : Option Bytes := none
  password : Option Bytes := none
  connectTimeout : ℤ := 10000
  ackTimeout : ℤ := 5000
  offlineBufferingEnabled : Bool := true
  will : Option WillConfig := none
  reconnect : ReconnectPolicy := {}
  deriving DecidableEq, Repr

end MqttNativeSocket

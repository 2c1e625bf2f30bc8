import MqttNativeSocket.Core.Basic

/-! # Configuration loaders

`parseYaml` and `parseJson` on a tree that both libraries have parsed to, of any
shape. What the libraries make of a scalar is theirs: `YamlCpp` and `NlohmannJson`
hold their conversions, with what their documentation says of the kinds of scalar
that fit. What they make of a list or a map in a place that is not for it is
written out, since the two differ in it.
-/

namespace MqttNativeSocket

/-- A leaf of a configuration tree; a float stands for the double that is read. -/
inductive Scalar where
  | null
  | bool (b : Bool)
  | int (z : ℤ)
  | float (q : ℚ)
  | str (s : Bytes)
  deriving DecidableEq, Repr

/-- A configuration tree. -/
inductive Node where
  | scalar (s : Scalar)
  | list (items : List Node)
  | map (fields : List (Bytes × Node))

/-- What a map has under a key; nothing else has keys. -/
def Node.field (key : String) : Node → Option Node
  | .map fields => fields.lookup (ascii key)
  | _ => none

structure BrokerConfig where
  connection : ConnectionConfig := {}
  tls : TlsConfig := {}
  deriving DecidableEq, Repr

structure PublisherConfig where
  broker : BrokerConfig := {}
  defaultTopic : Bytes := []
  defaultQos : ℤ := 0
  asyncQueueDepth : UInt32 := 1000
  deriving DecidableEq, Repr

structure SubscriberConfig where
  broker : BrokerConfig := {}
  topics : List Bytes := []
  defaultQos : ℤ := 0
  deriving DecidableEq, Repr

structure AppConfig where
  publisher : PublisherConfig := {}
  subscribers : List SubscriberConfig := []
  logFile : Bytes := []
  logLevel : Bytes := ascii "info"
  deriving DecidableEq, Repr

/-! ## The two libraries -/

/-- A conversion that throws gives the text of the exception. -/
abbrev Conversion (α : Type) := Node → Except Bytes α

/-- yaml-cpp: `as<T>()` on a scalar, and the texts of its exceptions. Every scalar has a text. -/
structure YamlCpp where
  what : Node → Bytes
  asString : Scalar → Bytes
  asBool : Scalar → Except Bytes Bool
  asInt : Scalar → Except Bytes ℤ
  asUInt16 : Scalar → Except Bytes UInt16
  asUInt32 : Scalar → Except Bytes UInt32
  asDouble : Scalar → Except Bytes ℚ
  asString_str : ∀ s, asString (.str s) = s
  asBool_bool : ∀ b, asBool (.bool b) = .ok b
  asUInt16_int : ∀ z n, asUInt16 (.int z) = .ok n → (n.toNat : ℤ) = z
  asUInt16_bool : ∀ b, (asUInt16 (.bool b)).isOk = false
  asUInt16_float : ∀ q, (asUInt16 (.float q)).isOk = false

namespace YamlCpp

variable {α : Type} (Y : YamlCpp)

/-- `Node::as<T>()`: only a scalar converts. -/
def as (conv : Scalar → Except Bytes α) : Conversion α
  | .scalar s => conv s
  | n => .error (Y.what n)

def string : Conversion Bytes := Y.as fun s => .ok (Y.asString s)
def bool : Conversion Bool := Y.as Y.asBool
def int : Conversion ℤ := Y.as Y.asInt
def uint16 : Conversion UInt16 := Y.as Y.asUInt16
def uint32 : Conversion UInt32 := Y.as Y.asUInt32
def double : Conversion ℚ := Y.as Y.asDouble

/-- `Node::operator[]` with a name: a scalar throws, null and a list have nothing under it. -/
def subscript : Node → Except Bytes Unit
  | .scalar .null => .ok ()
  | .scalar s => .error (Y.what (.scalar s))
  | _ => .ok ()

/-- A loop over a node. The pairs of a map are no nodes: any use of one throws. -/
def items : Node → Except Bytes (List Node)
  | .list items => .ok items
  | .map [] => .ok []
  | .map fields => .error (Y.what (.map fields))
  | .scalar _ => .ok []

end YamlCpp

/-- nlohmann-json: the text of a type error, and the cast of a double to `int`. -/
structure NlohmannJson where
  typeError : Node → Bytes
  castDouble : ℚ → ℤ

/-- `if (n[key]) x = n[key].as<T>()`, and `if (j.contains(key))` of the other library. -/
def readOr {α : Type} (conv : Conversion α) (x : α) : Option Node → Except Bytes α
  | none => .ok x
  | some v => conv v

/-- The same for a field that is an `std::optional`. -/
def readOptional {α : Type} (conv : Conversion α) : Option Node → Except Bytes (Option α)
  | none => .ok none
  | some v => (conv v).map some

/-- `as<T>(x)`: the fallback also stands in for a value that does not convert. -/
def asOr {α : Type} (conv : Conversion α) (x : α) (v : Option Node) : α :=
  match v with
  | none => x
  | some v => (conv v).toOption.getD x

namespace NlohmannJson

variable {α : Type} (J : NlohmannJson)

/-- `get<std::string>()`. -/
def getString : Conversion Bytes
  | .scalar (.str s) => .ok s
  | v => .error (J.typeError v)

/-- `get<bool>()`. -/
def getBool : Conversion Bool
  | .scalar (.bool b) => .ok b
  | v => .error (J.typeError v)

/-- `get<int>()`: any number or boolean, cast to 32 bits. -/
def getInt : Conversion ℤ
  | .scalar (.int z) => .ok (z.bmod (2 ^ 32))
  | .scalar (.float q) => .ok (J.castDouble q)
  | .scalar (.bool b) => .ok (if b then 1 else 0)
  | v => .error (J.typeError v)

/-- `value` can only be called on an object. -/
def object : Node → Except Bytes Unit
  | .map _ => .ok ()
  | n => .error (J.typeError n)

/-- `n.value(key, x)`. -/
def value (conv : Conversion α) (x : α) (n : Node) (key : String) : Except Bytes α := do
  J.object n
  readOr conv x (n.field key)

end NlohmannJson

/-- A loop over a JSON value: a map gives its values, and a scalar itself. -/
def jsonItems : Node → List Node
  | .list items => items
  | .map fields => fields.map Prod.snd
  | .scalar .null => []
  | .scalar s => [.scalar s]

/-- `scheme + "://" + host + ":" + std::to_string(port)`. -/
def brokerUrl (useTls : Bool) (host : Bytes) (port : ℤ) : Bytes :=
  ascii (if useTls then "ssl" else "tcp") ++ ascii "://" ++ host ++ ascii ":" ++
    ascii (toString port)

/-! ## YAML -/

section Yaml

variable (Y : YamlCpp)

/-- `for (const auto& v : n[key]) xs.push_back(v.as<std::string>())`. -/
def yamlStrings (n : Node) : Except Bytes (List Bytes) := do
  let items ← Y.items n
  items.mapM Y.string

/-- `n["tls"] && n["tls"]["enabled"] && n["tls"]["enabled"].as<bool>()`. -/
def yamlUsesTls (n : Node) : Except Bytes Bool :=
  match n.field "tls" with
  | none => .ok false
  | some t => do
    Y.subscript t
    readOr Y.bool false (t.field "enabled")

def yamlToBrokerUrls (n : Node) : Except Bytes (List Bytes) :=
  match n.field "broker" with
  | none => .ok []
  | some b => do
    Y.subscript b
    match b.field "urls", b.field "host", b.field "port" with
    | some urls, _, _ => yamlStrings Y urls
    | none, some host, some port => do
      let useTls ← yamlUsesTls Y n
      let host ← Y.string host
      let port ← Y.uint16 port
      return [brokerUrl useTls host port.toNat]
    | none, _, _ => return []

def yamlToReconnect (policy : ReconnectPolicy) : Option Node → Except Bytes ReconnectPolicy
  | none => .ok policy
  | some r => do
    Y.subscript r
    let enabled ← readOr Y.bool policy.enabled (r.field "enabled")
    let maxRetries ← readOr Y.uint32 policy.maxRetries (r.field "max_retries")
    let initialDelay ← readOr Y.int policy.initialDelay (r.field "initial_delay_ms")
    let maxDelay ← readOr Y.int policy.maxDelay (r.field "max_delay_ms")
    let backoffMultiplier ←
      readOr Y.double policy.backoffMultiplier (r.field "backoff_multiplier")
    return { policy with enabled, maxRetries, initialDelay, maxDelay, backoffMultiplier }

def yamlToWill : Option Node → Except Bytes (Option WillConfig)
  | none => .ok none
  | some w => do
    Y.subscript w
    return some {
      topic := asOr Y.string [] (w.field "topic")
      payload := asOr Y.string [] (w.field "payload")
      qos := asOr Y.int 1 (w.field "qos")
      retained := asOr Y.bool false (w.field "retained") }

def mqttVersionOf (z : ℤ) : MqttVersion := if z = 5 then .v50 else .v311

def yamlToConnection (n : Node) : Except Bytes ConnectionConfig := do
  let cfg : ConnectionConfig := {}
  Y.subscript n
  let brokerUrls ← yamlToBrokerUrls Y n
  let clientId ← readOr Y.string cfg.clientId (n.field "client_id")
  let username ← readOptional Y.string (n.field "username")
  let password ← readOptional Y.string (n.field "password")
  let mqttVersion ←
    readOr (fun v => (Y.int v).map mqttVersionOf) cfg.mqttVersion (n.field "mqtt_version")
  let cleanSession ← readOr Y.bool cfg.cleanSession (n.field "clean_session")
  let keepaliveSeconds ← readOr Y.uint16 cfg.keepaliveSeconds (n.field "keepalive")
  let connectTimeout ← readOr Y.int cfg.connectTimeout (n.field "connect_timeout_ms")
  let reconnect ← yamlToReconnect Y cfg.reconnect (n.field "reconnect")
  let will ← yamlToWill Y (n.field "will")
  return { cfg with
    brokerUrls, clientId, username, password, mqttVersion, cleanSession, keepaliveSeconds
    connectTimeout, reconnect, will }

/-- A disabled section is not read any further. -/
def yamlToTls (n : Node) : Except Bytes TlsConfig :=
  match n.field "tls" with
  | none => .ok {}
  | some t => do
    Y.subscript t
    if asOr Y.bool false (t.field "enabled") then
      let caCertFile ← readOr Y.string [] (t.field "ca_cert")
      let clientCertFile ← readOptional Y.string (t.field "client_cert")
      let clientKeyFile ← readOptional Y.string (t.field "client_key")
      let clientKeyPassword ← readOptional Y.string (t.field "key_password")
      return {
        enabled := true, caCertFile, clientCertFile, clientKeyFile, clientKeyPassword
        verifyPeer := asOr Y.bool true (t.field "verify_peer")
        verifyHostname := asOr Y.bool true (t.field "verify_hostname") }
    else return {}

def yamlToSubscriber (n s : Node) : Except Bytes SubscriberConfig := do
  let connection ← yamlToConnection Y n
  let tls ← yamlToTls Y n
  Y.subscript s
  let topics ← readOr (yamlStrings Y) [] (s.field "topics")
  let defaultQos ← readOr Y.int 0 (s.field "qos")
  return { broker := ⟨connection, tls⟩, topics, defaultQos }

def yamlToSubscribers (n : Node) : Option Node → Except Bytes (List SubscriberConfig)
  | none => .ok []
  | some ss => do
    let items ← Y.items ss
    items.mapM (yamlToSubscriber Y n)

def yamlToPublisher (broker : BrokerConfig) : Option Node → Except Bytes PublisherConfig
  | none => .ok { broker := broker }
  | some p => do
    Y.subscript p
    let defaultTopic ← readOr Y.string [] (p.field "default_topic")
    let defaultQos ← readOr Y.int 0 (p.field "default_qos")
    let asyncQueueDepth ← readOr Y.uint32 1000 (p.field "queue_depth")
    return { broker, defaultTopic, defaultQos, asyncQueueDepth }

/-- The log file and the log level. -/
def yamlToLogging : Option Node → Except Bytes (Bytes × Bytes)
  | none => .ok ([], ascii "info")
  | some l => do
    Y.subscript l
    let file ← readOr Y.string [] (l.field "file")
    let level ← readOr Y.string (ascii "info") (l.field "level")
    return (file, level)

def yamlToApp (root : Node) : Except Bytes AppConfig := do
  let connection ← yamlToConnection Y root
  let tls ← yamlToTls Y root
  let publisher ← yamlToPublisher Y ⟨connection, tls⟩ (root.field "publisher")
  let subscribers ← yamlToSubscribers Y root (root.field "subscribers")
  let logging ← yamlToLogging Y (root.field "logging")
  return { publisher, subscribers, logFile := logging.1, logLevel := logging.2 }

end Yaml

/-! ## JSON -/

section Json

variable (J : NlohmannJson)

/-- `root.contains("tls") && root["tls"].value("enabled", false)`. -/
def jsonUsesTls (root : Node) : Except Bytes Bool :=
  match root.field "tls" with
  | none => .ok false
  | some t => J.value J.getBool false t "enabled"

def jsonToBrokerUrls (root : Node) : Except Bytes (List Bytes) :=
  match root.field "broker" with
  | none => .ok []
  | some b =>
    match b.field "urls" with
    | some urls => (jsonItems urls).mapM J.getString
    | none => do
      let useTls ← jsonUsesTls J root
      let host ← readOr J.getString (ascii "localhost") (b.field "host")
      let port ← J.value J.getInt 1883 b "port"
      return [brokerUrl useTls host port]

/-- The keys of an enabled section that this loader knows. -/
def jsonToTlsFiles (t : Node) : Except Bytes TlsConfig := do
  let caCertFile ← readOr J.getString [] (t.field "ca_cert")
  let clientCertFile ← readOptional J.getString (t.field "client_cert")
  let clientKeyFile ← readOptional J.getString (t.field "client_key")
  return { enabled := true, caCertFile, clientCertFile, clientKeyFile }

def jsonToTls (root : Node) : Except Bytes TlsConfig :=
  match root.field "tls" with
  | none => .ok {}
  | some t => do
    let enabled ← J.value J.getBool false t "enabled"
    if enabled then jsonToTlsFiles J t else return {}

/-- The log file and the log level. -/
def jsonToLogging : Option Node → Except Bytes (Bytes × Bytes)
  | none => .ok ([], ascii "info")
  | some l => do
    let file ← J.value J.getString [] l "file"
    let level ← J.value J.getString (ascii "info") l "level"
    return (file, level)

def jsonToApp (root : Node) : Except Bytes AppConfig := do
  let brokerUrls ← jsonToBrokerUrls J root
  let clientId ← readOr J.getString [] (root.field "client_id")
  let username ← readOptional J.getString (root.field "username")
  let password ← readOptional J.getString (root.field "password")
  let tls ← jsonToTls J root
  let logging ← jsonToLogging J (root.field "logging")
  return {
    publisher := { broker := ⟨{ brokerUrls, clientId, username, password }, tls⟩ }
    logFile := logging.1
    logLevel := logging.2 }

end Json

/-- The handler around each loader. -/
def orParseError (format : String) : Except Bytes AppConfig → Result AppConfig
  | .ok cfg => .ok cfg
  | .error what => .error ⟨.configParseError, ascii (format ++ " parse error: ") ++ what⟩

def ConfigLoader.parseYaml (Y : YamlCpp) (root : Node) : Result AppConfig :=
  orParseError "YAML" (yamlToApp Y root)

def ConfigLoader.parseJson (J : NlohmannJson) (root : Node) : Result AppConfig :=
  orParseError "JSON" (jsonToApp J root)

end MqttNativeSocket

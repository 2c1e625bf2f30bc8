import MqttNativeSocket.Config.Loader

/-! # When the two loaders agree

Both loaders either fail or give the same configuration exactly when the values
that each of them converts are of the kinds it converts, for both or for neither,
and every setting that the JSON loader leaves out has its default value.
-/

namespace MqttNativeSocket

variable {α β : Type}

theorem except_bind_eq_ok_iff {x : Except Bytes α} {f : α → Except Bytes β} {b : β} :
    (x >>= f) = .ok b ↔ ∃ a, x = .ok a ∧ f a = .ok b := by
  cases x with
  | error e => simp [bind, Except.bind]
  | ok a => simp [bind, Except.bind]

theorem except_map_eq_ok_iff {x : Except Bytes α} {f : α → β} {b : β} :
    x.map f = .ok b ↔ ∃ a, x = .ok a ∧ f a = b := by
  cases x with
  | error e => simp [Except.map]
  | ok a => simp [Except.map]

theorem except_isOk_map {x : Except Bytes α} {f : α → β} : (x.map f).isOk = x.isOk := by
  cases x <;> rfl

/-- A sequence succeeds if its parts do, when what one part gives does not matter to the next. -/
theorem except_isOk_bind {x : Except Bytes α} {f : α → Except Bytes β} {p q : Prop}
    (hx : x.isOk = true ↔ p) (hf : ∀ a, (f a).isOk = true ↔ q) :
    (x >>= f).isOk = true ↔ p ∧ q := by
  rw [← hx]
  cases x with
  | error e => simp [bind, Except.bind, Except.isOk, Except.toBool]
  | ok a => simpa [bind, Except.bind, Except.isOk, Except.toBool] using hf a

theorem except_isOk_bind_pure {x : Except Bytes α} {f : α → β} {p : Prop}
    (hx : x.isOk = true ↔ p) : (x >>= fun a => pure (f a)).isOk = true ↔ p := by
  rw [except_isOk_bind (q := True) hx fun a => by simp [pure, Except.pure, Except.isOk,
    Except.toBool], and_true]

theorem mapM_isOk_iff {f : α → Except Bytes β} {xs : List α} :
    (xs.mapM f).isOk = true ↔ ∀ x ∈ xs, (f x).isOk := by
  induction xs with
  | nil => simp [pure, Except.pure, Except.isOk, Except.toBool]
  | cons x xs ih =>
    rw [List.mapM_cons, List.forall_mem_cons]
    exact except_isOk_bind Iff.rfl fun y => except_isOk_bind_pure ih

/-- A value that is there converts. -/
def Converts (conv : Conversion α) (v : Option Node) : Prop := ∀ n ∈ v, (conv n).isOk

theorem readOr_isOk_iff {conv : Conversion α} {x : α} {v : Option Node} :
    (readOr conv x v).isOk = true ↔ Converts conv v := by
  cases v with
  | none => simp [readOr, Converts, Except.isOk, Except.toBool]
  | some n => simp [readOr, Converts]

/-- The default is read where nothing else is written. -/
theorem readOr_eq_self_iff {conv : Conversion α} {x : α} {v : Option Node} :
    readOr conv x v = .ok x ↔ ∀ n ∈ v, conv n = .ok x := by
  cases v with
  | none => simp [readOr]
  | some n => simp [readOr]

theorem readOptional_isOk_iff {conv : Conversion α} {v : Option Node} :
    (readOptional conv v).isOk = true ↔ Converts conv v := by
  cases v with
  | none => simp [readOptional, Converts, Except.isOk, Except.toBool]
  | some n => simp [readOptional, Converts, except_isOk_map]

/-! ## What each loader can read -/

namespace Node

def IsMap : Node → Prop
  | .map _ => True
  | _ => False

/-- `YamlCpp.subscript` throws on every scalar but null. -/
def TakesKeys : Node → Prop
  | .scalar s => s = .null
  | _ => True

/-- What a loop of the YAML loader meets satisfies `p`; it cannot use the pairs of a map. -/
def Lists (p : Node → Prop) : Node → Prop
  | .list items => ∀ n ∈ items, p n
  | .map fields => fields = []
  | .scalar _ => True

end Node

/-- What the YAML loader looks at for a connection is of the kind that it asks for. -/
structure ConnectionReads (Y : YamlCpp) (t : Node) : Prop where
  root : t.TakesKeys
  broker : ∀ b ∈ t.field "broker", b.TakesKeys
  urls : ∀ b ∈ t.field "broker", ∀ urls ∈ b.field "urls", urls.Lists fun u => (Y.string u).isOk
  address : ∀ b ∈ t.field "broker", b.field "urls" = none →
    ∀ host ∈ b.field "host", ∀ port ∈ b.field "port",
      (∀ s ∈ t.field "tls", s.TakesKeys ∧ Converts Y.bool (s.field "enabled")) ∧
        (Y.string host).isOk ∧ (Y.uint16 port).isOk
  clientId : Converts Y.string (t.field "client_id")
  username : Converts Y.string (t.field "username")
  password : Converts Y.string (t.field "password")
  mqttVersion : Converts Y.int (t.field "mqtt_version")
  cleanSession : Converts Y.bool (t.field "clean_session")
  keepalive : Converts Y.uint16 (t.field "keepalive")
  connectTimeout : Converts Y.int (t.field "connect_timeout_ms")
  reconnect : ∀ r ∈ t.field "reconnect", r.TakesKeys ∧ Converts Y.bool (r.field "enabled") ∧
    Converts Y.uint32 (r.field "max_retries") ∧ Converts Y.int (r.field "initial_delay_ms") ∧
    Converts Y.int (r.field "max_delay_ms") ∧ Converts Y.double (r.field "backoff_multiplier")
  will : ∀ w ∈ t.field "will", w.TakesKeys

/-- What the YAML loader looks at is of the kind that it asks for, or has a fallback. -/
structure YamlReads (Y : YamlCpp) (t : Node) : Prop extends ConnectionReads Y t where
  tls : ∀ s ∈ t.field "tls", s.TakesKeys ∧ (asOr Y.bool false (s.field "enabled") = true →
    Converts Y.string (s.field "ca_cert") ∧ Converts Y.string (s.field "client_cert") ∧
      Converts Y.string (s.field "client_key") ∧ Converts Y.string (s.field "key_password"))
  publisher : ∀ p ∈ t.field "publisher", p.TakesKeys ∧
    Converts Y.string (p.field "default_topic") ∧ Converts Y.int (p.field "default_qos") ∧
      Converts Y.uint32 (p.field "queue_depth")
  subscribers : ∀ ss ∈ t.field "subscribers", ss.Lists fun s => s.TakesKeys ∧
    (∀ topics ∈ s.field "topics", topics.Lists fun u => (Y.string u).isOk) ∧
      Converts Y.int (s.field "qos")
  logging : ∀ l ∈ t.field "logging", l.TakesKeys ∧ Converts Y.string (l.field "file") ∧
    Converts Y.string (l.field "level")

/-- What the JSON loader looks at is of the kind that it asks for. -/
structure JsonReads (J : NlohmannJson) (t : Node) : Prop where
  urls : ∀ b ∈ t.field "broker", ∀ urls ∈ b.field "urls", ∀ u ∈ jsonItems urls,
    (J.getString u).isOk
  address : ∀ b ∈ t.field "broker", b.field "urls" = none →
    (∀ s ∈ t.field "tls", s.IsMap ∧ Converts J.getBool (s.field "enabled")) ∧
      Converts J.getString (b.field "host") ∧ b.IsMap ∧ Converts J.getInt (b.field "port")
  clientId : Converts J.getString (t.field "client_id")
  username : Converts J.getString (t.field "username")
  password : Converts J.getString (t.field "password")
  tls : ∀ s ∈ t.field "tls", s.IsMap ∧ Converts J.getBool (s.field "enabled") ∧
    (s.field "enabled" = some (.scalar (.bool true)) → Converts J.getString (s.field "ca_cert") ∧
      Converts J.getString (s.field "client_cert") ∧ Converts J.getString (s.field "client_key"))
  logging : ∀ l ∈ t.field "logging", l.IsMap ∧ Converts J.getString (l.field "file") ∧
    Converts J.getString (l.field "level")

/--
Where both loaders can read the tree: they find the same addresses, and whatever the YAML loader
alone reads says what is the default anyway.
-/
structure RestIsDefault (Y : YamlCpp) (t : Node) : Prop where
  urls : ∀ b ∈ t.field "broker", ∀ url, b.field "urls" ≠ some (.scalar (.str url))
  address : ∀ b ∈ t.field "broker", b.field "urls" = none →
    (b.field "host").isSome ∧ (b.field "port").isSome
  mqttVersion : ∀ v ∈ t.field "mqtt_version", Y.int v ≠ .ok 5
  cleanSession : ∀ v ∈ t.field "clean_session", Y.bool v = .ok true
  keepalive : ∀ v ∈ t.field "keepalive", Y.uint16 v = .ok 60
  connectTimeout : ∀ v ∈ t.field "connect_timeout_ms", Y.int v = .ok 10000
  reconnect : ∀ r ∈ t.field "reconnect", (∀ v ∈ r.field "enabled", Y.bool v = .ok true) ∧
    (∀ v ∈ r.field "max_retries", Y.uint32 v = .ok 0) ∧
    (∀ v ∈ r.field "initial_delay_ms", Y.int v = .ok 1000) ∧
    (∀ v ∈ r.field "max_delay_ms", Y.int v = .ok 60000) ∧
    ∀ v ∈ r.field "backoff_multiplier", Y.double v = .ok 2
  will : t.field "will" = none
  tls : ∀ s ∈ t.field "tls", s.field "enabled" = some (.scalar (.bool true)) →
    s.field "key_password" = none ∧ (∀ v ∈ s.field "verify_peer", Y.bool v ≠ .ok false) ∧
      ∀ v ∈ s.field "verify_hostname", Y.bool v ≠ .ok false
  publisher : ∀ p ∈ t.field "publisher", (∀ v ∈ p.field "default_topic", Y.string v = .ok []) ∧
    (∀ v ∈ p.field "default_qos", Y.int v = .ok 0) ∧
    ∀ v ∈ p.field "queue_depth", Y.uint32 v = .ok 1000
  subscribers : ∀ items, t.field "subscribers" = some (.list items) → items = []

variable {Y : YamlCpp} {J : NlohmannJson} {t : Node}

theorem subscript_isOk_iff {n : Node} : (Y.subscript n).isOk = true ↔ n.TakesKeys := by
  cases n with
  | scalar s => cases s <;> simp [YamlCpp.subscript, Node.TakesKeys, Except.isOk, Except.toBool]
  | list items => simp [YamlCpp.subscript, Node.TakesKeys, Except.isOk, Except.toBool]
  | map fields => simp [YamlCpp.subscript, Node.TakesKeys, Except.isOk, Except.toBool]

theorem object_isOk_iff {n : Node} : (J.object n).isOk = true ↔ n.IsMap := by
  cases n <;> simp [NlohmannJson.object, Node.IsMap, Except.isOk, Except.toBool]

theorem value_isOk_iff {conv : Conversion α} {x : α} {n : Node} {key : String} :
    (J.value conv x n key).isOk = true ↔ n.IsMap ∧ Converts conv (n.field key) :=
  except_isOk_bind object_isOk_iff fun _ => readOr_isOk_iff

/-- A loop that converts each of the items. -/
theorem items_mapM_isOk_iff {f : Conversion α} {n : Node} :
    (Y.items n >>= fun items => items.mapM f).isOk = true ↔ n.Lists fun u => (f u).isOk := by
  cases n with
  | scalar s =>
    simp [YamlCpp.items, Node.Lists, bind, Except.bind, pure, Except.pure, Except.isOk,
      Except.toBool]
  | list items => exact mapM_isOk_iff
  | map fields =>
    cases fields <;> simp [YamlCpp.items, Node.Lists, bind, Except.bind, pure, Except.pure,
      Except.isOk, Except.toBool]

theorem yamlStrings_isOk_iff {n : Node} :
    (yamlStrings Y n).isOk = true ↔ n.Lists fun u => (Y.string u).isOk :=
  items_mapM_isOk_iff

theorem yamlUsesTls_isOk_iff : (yamlUsesTls Y t).isOk = true ↔
    ∀ s ∈ t.field "tls", s.TakesKeys ∧ Converts Y.bool (s.field "enabled") := by
  unfold yamlUsesTls
  cases t.field "tls" with
  | none => simp [Except.isOk, Except.toBool]
  | some s =>
    simp only [Option.mem_some_iff, forall_eq']
    exact except_isOk_bind subscript_isOk_iff fun _ => readOr_isOk_iff

theorem yamlToBrokerUrls_isOk_iff :
    (yamlToBrokerUrls Y t).isOk = true ↔ ∀ b ∈ t.field "broker", b.TakesKeys ∧
      (∀ urls ∈ b.field "urls", urls.Lists fun u => (Y.string u).isOk) ∧
      (b.field "urls" = none → ∀ host ∈ b.field "host", ∀ port ∈ b.field "port",
        (∀ s ∈ t.field "tls", s.TakesKeys ∧ Converts Y.bool (s.field "enabled")) ∧
          (Y.string host).isOk ∧ (Y.uint16 port).isOk) := by
  unfold yamlToBrokerUrls
  cases t.field "broker" with
  | none => simp [Except.isOk, Except.toBool]
  | some b =>
    simp only [Option.mem_some_iff, forall_eq']
    refine except_isOk_bind subscript_isOk_iff fun _ => ?_
    cases b.field "urls" with
    | some urls => simp [yamlStrings_isOk_iff]
    | none =>
      cases b.field "host" with
      | none => simp [pure, Except.pure, Except.isOk, Except.toBool]
      | some host =>
        cases b.field "port" with
        | none => simp [pure, Except.pure, Except.isOk, Except.toBool]
        | some port =>
          simp only [Option.mem_some_iff, forall_eq', Option.not_mem_none, false_implies,
            implies_true, true_and, forall_true_left]
          exact except_isOk_bind yamlUsesTls_isOk_iff fun _ =>
            except_isOk_bind Iff.rfl fun _ => except_isOk_bind_pure Iff.rfl

theorem yamlToReconnect_isOk_iff {policy : ReconnectPolicy} {o : Option Node} :
    (yamlToReconnect Y policy o).isOk = true ↔ ∀ r ∈ o, r.TakesKeys ∧
      Converts Y.bool (r.field "enabled") ∧ Converts Y.uint32 (r.field "max_retries") ∧
      Converts Y.int (r.field "initial_delay_ms") ∧ Converts Y.int (r.field "max_delay_ms") ∧
      Converts Y.double (r.field "backoff_multiplier") := by
  cases o with
  | none => simp [yamlToReconnect, Except.isOk, Except.toBool]
  | some r =>
    simp only [Option.mem_some_iff, forall_eq']
    exact except_isOk_bind subscript_isOk_iff fun _ => except_isOk_bind readOr_isOk_iff fun _ =>
      except_isOk_bind readOr_isOk_iff fun _ => except_isOk_bind readOr_isOk_iff fun _ =>
        except_isOk_bind readOr_isOk_iff fun _ => except_isOk_bind_pure readOr_isOk_iff

theorem yamlToWill_isOk_iff {o : Option Node} :
    (yamlToWill Y o).isOk = true ↔ ∀ w ∈ o, w.TakesKeys := by
  cases o with
  | none => simp [yamlToWill, Except.isOk, Except.toBool]
  | some w =>
    simp only [Option.mem_some_iff, forall_eq']
    exact except_isOk_bind_pure subscript_isOk_iff

theorem yamlToTls_isOk_iff : (yamlToTls Y t).isOk = true ↔
    ∀ s ∈ t.field "tls", s.TakesKeys ∧ (asOr Y.bool false (s.field "enabled") = true →
      Converts Y.string (s.field "ca_cert") ∧ Converts Y.string (s.field "client_cert") ∧
        Converts Y.string (s.field "client_key") ∧
        Converts Y.string (s.field "key_password")) := by
  unfold yamlToTls
  cases t.field "tls" with
  | none => simp [Except.isOk, Except.toBool]
  | some s =>
    simp only [Option.mem_some_iff, forall_eq']
    refine except_isOk_bind subscript_isOk_iff fun _ => ?_
    cases asOr Y.bool false (s.field "enabled") with
    | false => simp [pure, Except.pure, Except.isOk, Except.toBool]
    | true =>
      simp only [if_true, forall_true_left]
      exact except_isOk_bind readOr_isOk_iff fun _ => except_isOk_bind readOptional_isOk_iff
        fun _ => except_isOk_bind readOptional_isOk_iff fun _ =>
          except_isOk_bind_pure readOptional_isOk_iff

theorem yamlToPublisher_isOk_iff {broker : BrokerConfig} {o : Option Node} :
    (yamlToPublisher Y broker o).isOk = true ↔ ∀ p ∈ o, p.TakesKeys ∧
      Converts Y.string (p.field "default_topic") ∧ Converts Y.int (p.field "default_qos") ∧
        Converts Y.uint32 (p.field "queue_depth") := by
  cases o with
  | none => simp [yamlToPublisher, Except.isOk, Except.toBool]
  | some p =>
    simp only [Option.mem_some_iff, forall_eq']
    exact except_isOk_bind subscript_isOk_iff fun _ => except_isOk_bind readOr_isOk_iff fun _ =>
      except_isOk_bind readOr_isOk_iff fun _ => except_isOk_bind_pure readOr_isOk_iff

theorem yamlToLogging_isOk_iff {o : Option Node} :
    (yamlToLogging Y o).isOk = true ↔ ∀ l ∈ o, l.TakesKeys ∧
      Converts Y.string (l.field "file") ∧ Converts Y.string (l.field "level") := by
  cases o with
  | none => simp [yamlToLogging, Except.isOk, Except.toBool]
  | some l =>
    simp only [Option.mem_some_iff, forall_eq']
    exact except_isOk_bind subscript_isOk_iff fun _ => except_isOk_bind readOr_isOk_iff fun _ =>
      except_isOk_bind_pure readOr_isOk_iff

theorem yamlToConnection_isOk_iff :
    (yamlToConnection Y t).isOk = true ↔ ConnectionReads Y t := by
  have hversion : (readOr (fun v => (Y.int v).map mqttVersionOf) MqttVersion.v311
      (t.field "mqtt_version")).isOk = true ↔ Converts Y.int (t.field "mqtt_version") := by
    rw [readOr_isOk_iff]
    simp only [Converts, except_isOk_map]
  have hparts : (yamlToConnection Y t).isOk = true ↔ _ :=
    except_isOk_bind subscript_isOk_iff fun _ => except_isOk_bind yamlToBrokerUrls_isOk_iff
      fun _ => except_isOk_bind readOr_isOk_iff fun _ => except_isOk_bind readOptional_isOk_iff
      fun _ => except_isOk_bind readOptional_isOk_iff fun _ => except_isOk_bind hversion
      fun _ => except_isOk_bind readOr_isOk_iff fun _ => except_isOk_bind readOr_isOk_iff
      fun _ => except_isOk_bind readOr_isOk_iff fun _ => except_isOk_bind yamlToReconnect_isOk_iff
      fun _ => except_isOk_bind_pure yamlToWill_isOk_iff
  rw [hparts]
  constructor
  · rintro ⟨hroot, hb, hclient, huser, hpass, hv, hclean, hkeep, htimeout, hreconnect, hwill⟩
    exact ⟨hroot, fun b h => (hb b h).1, fun b h => (hb b h).2.1, fun b h => (hb b h).2.2, hclient,
      huser, hpass, hv, hclean, hkeep, htimeout, hreconnect, hwill⟩
  · intro h
    exact ⟨h.root, fun b hb => ⟨h.broker b hb, h.urls b hb, h.address b hb⟩, h.clientId,
      h.username, h.password, h.mqttVersion, h.cleanSession, h.keepalive, h.connectTimeout,
      h.reconnect, h.will⟩

/-- Each subscriber reads the connection and the TLS section again. -/
theorem yamlToSubscribers_isOk_iff (hconnection : (yamlToConnection Y t).isOk)
    (htls : (yamlToTls Y t).isOk) {o : Option Node} :
    (yamlToSubscribers Y t o).isOk = true ↔ ∀ ss ∈ o, ss.Lists fun s => s.TakesKeys ∧
      (∀ topics ∈ s.field "topics", topics.Lists fun u => (Y.string u).isOk) ∧
        Converts Y.int (s.field "qos") := by
  have hsubscriber (s : Node) : (yamlToSubscriber Y t s).isOk = true ↔ s.TakesKeys ∧
      (∀ topics ∈ s.field "topics", topics.Lists fun u => (Y.string u).isOk) ∧
        Converts Y.int (s.field "qos") := by
    have hparts : (yamlToSubscriber Y t s).isOk = true ↔ _ :=
      except_isOk_bind Iff.rfl fun _ => except_isOk_bind Iff.rfl fun _ =>
        except_isOk_bind subscript_isOk_iff fun _ => except_isOk_bind readOr_isOk_iff fun _ =>
          except_isOk_bind_pure readOr_isOk_iff
    rw [hparts]
    simp only [hconnection, htls, Converts, yamlStrings_isOk_iff, true_and]
  cases o with
  | none => simp [yamlToSubscribers, Except.isOk, Except.toBool]
  | some ss =>
    simp only [Option.mem_some_iff, forall_eq', ← hsubscriber]
    exact items_mapM_isOk_iff

theorem yamlToApp_isOk_iff : (yamlToApp Y t).isOk = true ↔ YamlReads Y t := by
  have hparts : (yamlToApp Y t).isOk = true ↔ (yamlToConnection Y t).isOk = true ∧
      (yamlToTls Y t).isOk = true ∧ _ ∧ (yamlToSubscribers Y t (t.field "subscribers")).isOk ∧ _ :=
    except_isOk_bind Iff.rfl fun _ => except_isOk_bind Iff.rfl fun _ =>
      except_isOk_bind yamlToPublisher_isOk_iff fun _ => except_isOk_bind Iff.rfl fun _ =>
        except_isOk_bind_pure yamlToLogging_isOk_iff
  rw [hparts]
  constructor
  · rintro ⟨hconnection, htls, hpublisher, hsubscribers, hlogging⟩
    exact {
      yamlToConnection_isOk_iff.mp hconnection with
      tls := yamlToTls_isOk_iff.mp htls
      publisher := hpublisher
      subscribers := (yamlToSubscribers_isOk_iff hconnection htls).mp hsubscribers
      logging := hlogging }
  · intro h
    have hconnection := yamlToConnection_isOk_iff.mpr h.toConnectionReads
    have htls := yamlToTls_isOk_iff.mpr h.tls
    exact ⟨hconnection, htls, h.publisher,
      (yamlToSubscribers_isOk_iff hconnection htls).mpr h.subscribers, h.logging⟩

theorem jsonUsesTls_isOk_iff : (jsonUsesTls J t).isOk = true ↔
    ∀ s ∈ t.field "tls", s.IsMap ∧ Converts J.getBool (s.field "enabled") := by
  unfold jsonUsesTls
  cases t.field "tls" with
  | none => simp [Except.isOk, Except.toBool]
  | some s =>
    simp only [Option.mem_some_iff, forall_eq']
    exact value_isOk_iff

theorem jsonToBrokerUrls_isOk_iff :
    (jsonToBrokerUrls J t).isOk = true ↔ ∀ b ∈ t.field "broker",
      (∀ urls ∈ b.field "urls", ∀ u ∈ jsonItems urls, (J.getString u).isOk) ∧
      (b.field "urls" = none →
        (∀ s ∈ t.field "tls", s.IsMap ∧ Converts J.getBool (s.field "enabled")) ∧
          Converts J.getString (b.field "host") ∧ b.IsMap ∧
          Converts J.getInt (b.field "port")) := by
  unfold jsonToBrokerUrls
  cases t.field "broker" with
  | none => simp [Except.isOk, Except.toBool]
  | some b =>
    simp only [Option.mem_some_iff, forall_eq']
    cases b.field "urls" with
    | some urls => simp [mapM_isOk_iff]
    | none =>
      simp only [Option.not_mem_none, false_implies, implies_true, true_and, forall_true_left]
      exact except_isOk_bind jsonUsesTls_isOk_iff fun _ => except_isOk_bind readOr_isOk_iff
        fun _ => except_isOk_bind_pure value_isOk_iff

theorem jsonToTlsFiles_isOk_iff {s : Node} :
    (jsonToTlsFiles J s).isOk = true ↔ Converts J.getString (s.field "ca_cert") ∧
      Converts J.getString (s.field "client_cert") ∧ Converts J.getString (s.field "client_key") :=
  except_isOk_bind readOr_isOk_iff fun _ => except_isOk_bind readOptional_isOk_iff fun _ =>
    except_isOk_bind_pure readOptional_isOk_iff

theorem value_getBool_true_iff {n : Node} (h : n.IsMap) {key : String} :
    J.value J.getBool false n key = .ok true ↔ n.field key = some (.scalar (.bool true)) := by
  have hobject : J.object n = .ok () := by
    cases n with
    | map fields => rfl
    | _ => exact h.elim
  rw [NlohmannJson.value, hobject]
  change readOr J.getBool false (n.field key) = .ok true ↔ _
  cases n.field key with
  | none => simp [readOr]
  | some v =>
    cases v with
    | scalar s => cases s <;> simp [readOr, NlohmannJson.getBool]
    | list items => simp [readOr, NlohmannJson.getBool]
    | map fields => simp [readOr, NlohmannJson.getBool]

/-- Whether the section is read depends on what `enabled` says. -/
theorem jsonToTls_isOk_iff : (jsonToTls J t).isOk = true ↔
    ∀ s ∈ t.field "tls", s.IsMap ∧ Converts J.getBool (s.field "enabled") ∧
      (s.field "enabled" = some (.scalar (.bool true)) → Converts J.getString (s.field "ca_cert") ∧
        Converts J.getString (s.field "client_cert") ∧
        Converts J.getString (s.field "client_key")) := by
  unfold jsonToTls
  cases t.field "tls" with
  | none => simp [Except.isOk, Except.toBool]
  | some s =>
    have hvalue : (J.value J.getBool false s "enabled").isOk = true ↔
        s.IsMap ∧ Converts J.getBool (s.field "enabled") := value_isOk_iff
    simp only [Option.mem_some_iff, forall_eq', ← and_assoc (a := s.IsMap), ← hvalue]
    cases he : J.value J.getBool false s "enabled" with
    | error e => simp [bind, Except.bind, Except.isOk, Except.toBool]
    | ok enabled =>
      have hmap : s.IsMap := (hvalue.mp (by rw [he]; rfl)).1
      rw [← value_getBool_true_iff (J := J) hmap, he]
      cases enabled with
      | false => simp [bind, Except.bind, pure, Except.pure, Except.isOk, Except.toBool]
      | true =>
        have hok : (Except.ok true : Except Bytes Bool).isOk = true := rfl
        simp only [hok, true_and, forall_true_left]
        exact jsonToTlsFiles_isOk_iff

theorem jsonToApp_isOk_iff : (jsonToApp J t).isOk = true ↔ JsonReads J t := by
  have hlogging (o : Option Node) : (jsonToLogging J o).isOk = true ↔ ∀ l ∈ o, l.IsMap ∧
      Converts J.getString (l.field "file") ∧ Converts J.getString (l.field "level") := by
    cases o with
    | none => simp [jsonToLogging, Except.isOk, Except.toBool]
    | some l =>
      have hparts : (jsonToLogging J (some l)).isOk = true ↔ _ :=
        except_isOk_bind value_isOk_iff fun _ => except_isOk_bind_pure value_isOk_iff
      rw [hparts]
      simp only [Option.mem_some_iff, forall_eq']
      tauto
  have hparts : (jsonToApp J t).isOk = true ↔ _ :=
    except_isOk_bind jsonToBrokerUrls_isOk_iff fun _ => except_isOk_bind readOr_isOk_iff fun _ =>
      except_isOk_bind readOptional_isOk_iff fun _ =>
        except_isOk_bind readOptional_isOk_iff fun _ => except_isOk_bind jsonToTls_isOk_iff
          fun _ => except_isOk_bind_pure (hlogging (t.field "logging"))
  rw [hparts]
  constructor
  · rintro ⟨hb, hclient, huser, hpass, htls, hlogging⟩
    exact ⟨fun b h => (hb b h).1, fun b h => (hb b h).2, hclient, huser, hpass, htls, hlogging⟩
  · intro h
    exact ⟨fun b hb => ⟨h.urls b hb, h.address b hb⟩, h.clientId, h.username, h.password, h.tls,
      h.logging⟩

/-! ## Keys that both loaders read -/

theorem string_of_json {s : Bytes} {n : Node} (h : J.getString n = .ok s) : Y.string n = .ok s := by
  cases n with
  | scalar v =>
    cases v with
    | str s' =>
      obtain rfl : s' = s := Except.ok.inj h
      exact congrArg Except.ok (Y.asString_str s')
    | _ => cases h
  | _ => cases h

theorem bool_of_json {b : Bool} {n : Node} (h : J.getBool n = .ok b) : Y.bool n = .ok b := by
  cases n with
  | scalar v =>
    cases v with
    | bool b' =>
      obtain rfl : b' = b := Except.ok.inj h
      exact Y.asBool_bool b'
    | _ => cases h
  | _ => cases h

/-- A port that both loaders take is the same number to both. -/
theorem port_of_json {v : Node} {n : UInt16} {z : ℤ} (hy : Y.uint16 v = .ok n)
    (hj : J.getInt v = .ok z) : (n.toNat : ℤ) = z := by
  cases v with
  | scalar s =>
    have hy : Y.asUInt16 s = .ok n := hy
    cases s with
    | int k =>
      obtain rfl : k.bmod (2 ^ 32) = z := Except.ok.inj hj
      have hk := Y.asUInt16_int k n hy
      have := n.toNat_lt
      rw [Int.bmod_eq_of_le] <;> omega
    | bool b =>
      have := Y.asUInt16_bool b
      simp [hy, Except.isOk, Except.toBool] at this
    | float q =>
      have := Y.asUInt16_float q
      simp [hy, Except.isOk, Except.toBool] at this
    | null => cases hj
    | str s => cases hj
  | list items => cases hj
  | map fields => cases hj

/-- Two conversions that agree where the second succeeds read the same. -/
theorem readOr_eq_of_both {conv conv' : Conversion α} (hconv : ∀ n a, conv' n = .ok a →
    conv n = .ok a) {x a b : α} {v : Option Node} (h : readOr conv x v = .ok a)
    (h' : readOr conv' x v = .ok b) : a = b := by
  cases v with
  | none => exact Except.ok.inj (h.symm.trans h')
  | some n => exact Except.ok.inj (h.symm.trans (hconv n b h'))

theorem text_eq_of_both {x a b : Bytes} {v : Option Node} (h : readOr Y.string x v = .ok a)
    (h' : readOr J.getString x v = .ok b) : a = b :=
  readOr_eq_of_both (fun _ _ => string_of_json) h h'

theorem optional_eq_of_both {a b : Option Bytes} {v : Option Node}
    (h : readOptional Y.string v = .ok a) (h' : readOptional J.getString v = .ok b) : a = b := by
  cases v with
  | none => exact Except.ok.inj (h.symm.trans h')
  | some n =>
    obtain ⟨s, hs, rfl⟩ := except_map_eq_ok_iff.mp h'
    obtain ⟨s', hs', rfl⟩ := except_map_eq_ok_iff.mp h
    rw [Except.ok.inj (hs'.symm.trans (string_of_json hs))]

theorem strings_of_json {ns : List Node} {ss : List Bytes} (h : ns.mapM J.getString = .ok ss) :
    ns.mapM Y.string = .ok ss := by
  induction ns generalizing ss with
  | nil => exact h
  | cons n ns ih =>
    simp only [List.mapM_cons, except_bind_eq_ok_iff, pure, Except.pure, Except.ok.injEq] at h ⊢
    obtain ⟨s, hs, rest, hrest, rfl⟩ := h
    exact ⟨s, string_of_json hs, rest, ih hrest, rfl⟩

/-- A single address is one to the JSON loader, and none to the other. -/
theorem urls_eq_iff {n : Node} {us us' : List Bytes} (h : yamlStrings Y n = .ok us)
    (h' : (jsonItems n).mapM J.getString = .ok us') :
    us = us' ↔ ∀ url, n ≠ .scalar (.str url) := by
  cases n with
  | scalar s =>
    obtain rfl : [] = us := Except.ok.inj h
    cases s with
    | null =>
      obtain rfl : [] = us' := Except.ok.inj h'
      simp
    | str s =>
      obtain rfl : [s] = us' := Except.ok.inj h'
      simp
    | _ => cases h'
  | list items =>
    have hboth : items.mapM Y.string = .ok us' := strings_of_json h'
    simp [Except.ok.inj (h.symm.trans hboth)]
  | map fields =>
    cases fields with
    | nil =>
      obtain rfl : [] = us := Except.ok.inj h
      obtain rfl : [] = us' := Except.ok.inj h'
      simp
    | cons field fields => cases h

theorem usesTls_eq_of_both {a b : Bool} (h : yamlUsesTls Y t = .ok a)
    (h' : jsonUsesTls J t = .ok b) : a = b := by
  unfold yamlUsesTls at h
  unfold jsonUsesTls at h'
  cases hs : t.field "tls" with
  | none =>
    rw [hs] at h h'
    exact Except.ok.inj (h.symm.trans h')
  | some s =>
    simp only [hs, NlohmannJson.value, except_bind_eq_ok_iff] at h h'
    obtain ⟨-, -, h⟩ := h
    obtain ⟨-, -, h'⟩ := h'
    exact readOr_eq_of_both (fun _ _ => bool_of_json) h h'

theorem brokerUrls_eq_iff {us us' : List Bytes} (h : yamlToBrokerUrls Y t = .ok us)
    (h' : jsonToBrokerUrls J t = .ok us') :
    us = us' ↔ (∀ b ∈ t.field "broker", ∀ url, b.field "urls" ≠ some (.scalar (.str url))) ∧
      ∀ b ∈ t.field "broker", b.field "urls" = none →
        (b.field "host").isSome ∧ (b.field "port").isSome := by
  unfold yamlToBrokerUrls at h
  unfold jsonToBrokerUrls at h'
  cases hb : t.field "broker" with
  | none =>
    rw [hb] at h h'
    obtain rfl : [] = us := Except.ok.inj h
    obtain rfl : [] = us' := Except.ok.inj h'
    simp
  | some b =>
    simp only [hb, except_bind_eq_ok_iff] at h h'
    obtain ⟨-, -, h⟩ := h
    cases hu : b.field "urls" with
    | some urls =>
      rw [hu] at h h'
      simp [urls_eq_iff h h', hu]
    | none =>
      simp only [hu, except_bind_eq_ok_iff, NlohmannJson.value, pure, Except.pure,
        Except.ok.injEq] at h h'
      obtain ⟨tls', htls', host', hhost', port', ⟨-, -, hport'⟩, rfl⟩ := h'
      cases hh : b.field "host" with
      | none =>
        rw [hh] at h
        obtain rfl : [] = us := Except.ok.inj h
        simp [hu, hh]
      | some host =>
        cases hp : b.field "port" with
        | none =>
          rw [hh, hp] at h
          obtain rfl : [] = us := Except.ok.inj h
          simp [hu, hp]
        | some port =>
          simp only [hh, hp, except_bind_eq_ok_iff, Except.ok.injEq] at h
          obtain ⟨tls, htls, address, haddress, n, hn, rfl⟩ := h
          rw [hh] at hhost'
          rw [hp] at hport'
          have haddress : readOr Y.string (ascii "localhost") (some host) = .ok address := haddress
          rw [usesTls_eq_of_both htls htls', text_eq_of_both haddress hhost',
            port_of_json hn hport']
          simp [hu, hh, hp]

theorem tls_eq_iff {tls tls' : TlsConfig} (h : yamlToTls Y t = .ok tls)
    (h' : jsonToTls J t = .ok tls') :
    tls = tls' ↔ ∀ s ∈ t.field "tls", s.field "enabled" = some (.scalar (.bool true)) →
      s.field "key_password" = none ∧ (∀ v ∈ s.field "verify_peer", Y.bool v ≠ .ok false) ∧
        ∀ v ∈ s.field "verify_hostname", Y.bool v ≠ .ok false := by
  have hflag (v : Option Node) : asOr Y.bool true v = true ↔ ∀ n ∈ v, Y.bool n ≠ .ok false := by
    cases v with
    | none => simp [asOr]
    | some n =>
      cases hn : Y.bool n with
      | error e => simp [asOr, hn, Except.toOption]
      | ok b => cases b <;> simp [asOr, hn, Except.toOption]
  unfold yamlToTls at h
  unfold jsonToTls at h'
  cases ht : t.field "tls" with
  | none =>
    rw [ht] at h h'
    obtain rfl := Except.ok.inj (h.symm.trans h')
    simp
  | some s =>
    simp only [ht, except_bind_eq_ok_iff] at h h'
    obtain ⟨-, -, h⟩ := h
    obtain ⟨enabled, he, h'⟩ := h'
    have hmap : s.IsMap := (value_isOk_iff.mp (by rw [he]; rfl)).1
    have henabled : asOr Y.bool false (s.field "enabled") = enabled := by
      simp only [NlohmannJson.value, except_bind_eq_ok_iff] at he
      obtain ⟨-, -, he⟩ := he
      cases hv : s.field "enabled" with
      | none =>
        rw [hv] at he
        exact Except.ok.inj he
      | some v =>
        rw [hv] at he
        simp [asOr, bool_of_json (Y := Y) he, Except.toOption]
    simp only [Option.mem_some_iff, forall_eq', ← value_getBool_true_iff (J := J) hmap, he,
      Except.ok.injEq]
    rw [henabled] at h
    cases enabled with
    | false =>
      obtain rfl := Except.ok.inj (h.symm.trans h')
      simp
    | true =>
      simp only [if_true, jsonToTlsFiles, except_bind_eq_ok_iff, pure, Except.pure,
        Except.ok.injEq] at h h'
      obtain ⟨ca, hca, cert, hcert, key, hkey, password, hpassword, rfl⟩ := h
      obtain ⟨ca', hca', cert', hcert', key', hkey', rfl⟩ := h'
      have hnone : password = none ↔ s.field "key_password" = none := by
        cases hv : s.field "key_password" with
        | none =>
          rw [hv] at hpassword
          simp [← Except.ok.inj hpassword]
        | some v =>
          rw [hv] at hpassword
          obtain ⟨p, -, rfl⟩ := except_map_eq_ok_iff.mp hpassword
          simp
      rw [text_eq_of_both hca hca', optional_eq_of_both hcert hcert',
        optional_eq_of_both hkey hkey']
      simp [hnone, hflag]

/-! ## Keys that only the YAML loader reads -/

/-- What was read is the default just when nothing else was written. -/
theorem read_eq_default_iff {conv : Conversion α} {x y : α} {v : Option Node}
    (h : readOr conv x v = .ok y) : y = x ↔ ∀ n ∈ v, conv n = .ok x := by
  rw [← readOr_eq_self_iff, h, Except.ok.injEq]

theorem version_eq_default_iff {version : MqttVersion} {v : Option Node}
    (h : readOr (fun v => (Y.int v).map mqttVersionOf) .v311 v = .ok version) :
    version = .v311 ↔ ∀ n ∈ v, Y.int n ≠ .ok 5 := by
  rw [read_eq_default_iff h]
  cases v with
  | none => simp
  | some n =>
    simp only [readOr, except_map_eq_ok_iff] at h
    obtain ⟨z, hz, -⟩ := h
    simp [hz, Except.map, mqttVersionOf]

theorem reconnect_eq_default_iff {policy : ReconnectPolicy} {o : Option Node}
    (h : yamlToReconnect Y {} o = .ok policy) :
    policy = {} ↔ ∀ r ∈ o, (∀ v ∈ r.field "enabled", Y.bool v = .ok true) ∧
      (∀ v ∈ r.field "max_retries", Y.uint32 v = .ok 0) ∧
      (∀ v ∈ r.field "initial_delay_ms", Y.int v = .ok 1000) ∧
      (∀ v ∈ r.field "max_delay_ms", Y.int v = .ok 60000) ∧
      ∀ v ∈ r.field "backoff_multiplier", Y.double v = .ok 2 := by
  cases o with
  | none =>
    obtain rfl : {} = policy := Except.ok.inj h
    simp
  | some r =>
    simp only [yamlToReconnect, except_bind_eq_ok_iff, pure, Except.pure, Except.ok.injEq] at h
    obtain ⟨-, -, enabled, he, retries, hr, initial, hi, most, hm, factor, hf, rfl⟩ := h
    simp only [ReconnectPolicy.mk.injEq, and_true, Option.mem_some_iff, forall_eq',
      read_eq_default_iff he, read_eq_default_iff hr, read_eq_default_iff hi,
      read_eq_default_iff hm, read_eq_default_iff hf]

theorem will_eq_none_iff {will : Option WillConfig} {o : Option Node}
    (h : yamlToWill Y o = .ok will) : will = none ↔ o = none := by
  cases o with
  | none =>
    obtain rfl : none = will := Except.ok.inj h
    simp
  | some w =>
    simp only [yamlToWill, except_bind_eq_ok_iff, pure, Except.pure, Except.ok.injEq] at h
    obtain ⟨-, -, rfl⟩ := h
    simp

theorem publisher_eq_iff {p : PublisherConfig} {o : Option Node} {x : BrokerConfig}
    (h : yamlToPublisher Y x o = .ok p) (y : BrokerConfig) :
    p = { broker := y } ↔ x = y ∧ ∀ n ∈ o, (∀ v ∈ n.field "default_topic", Y.string v = .ok []) ∧
      (∀ v ∈ n.field "default_qos", Y.int v = .ok 0) ∧
      ∀ v ∈ n.field "queue_depth", Y.uint32 v = .ok 1000 := by
  cases o with
  | none =>
    obtain rfl : { broker := x } = p := Except.ok.inj h
    simp
  | some n =>
    simp only [yamlToPublisher, except_bind_eq_ok_iff, pure, Except.pure, Except.ok.injEq] at h
    obtain ⟨-, -, topic, htopic, qos, hqos, depth, hdepth, rfl⟩ := h
    simp only [PublisherConfig.mk.injEq, Option.mem_some_iff, forall_eq',
      read_eq_default_iff htopic, read_eq_default_iff hqos, read_eq_default_iff hdepth]

theorem subscribers_eq_nil_iff {o : Option Node} {subs : List SubscriberConfig}
    (h : yamlToSubscribers Y t o = .ok subs) :
    subs = [] ↔ ∀ items, o = some (.list items) → items = [] := by
  cases o with
  | none =>
    obtain rfl : [] = subs := Except.ok.inj h
    simp
  | some ss =>
    cases ss with
    | scalar s =>
      obtain rfl : [] = subs := Except.ok.inj h
      simp
    | map fields =>
      cases fields with
      | nil =>
        obtain rfl : [] = subs := Except.ok.inj h
        simp
      | cons field fields => cases h
    | list items =>
      have h : items.mapM (yamlToSubscriber Y t) = .ok subs := h
      cases items with
      | nil =>
        obtain rfl : [] = subs := Except.ok.inj h
        simp
      | cons s ss =>
        simp only [List.mapM_cons, except_bind_eq_ok_iff, pure, Except.pure, Except.ok.injEq] at h
        obtain ⟨c, -, cs, -, rfl⟩ := h
        simp

theorem logging_eq_of_both {a b : Bytes × Bytes} {o : Option Node}
    (h : yamlToLogging Y o = .ok a) (h' : jsonToLogging J o = .ok b) : a = b := by
  cases o with
  | none => exact Except.ok.inj (h.symm.trans h')
  | some l =>
    simp only [yamlToLogging, jsonToLogging, NlohmannJson.value, except_bind_eq_ok_iff, pure,
      Except.pure, Except.ok.injEq] at h h'
    obtain ⟨-, -, file, hfile, level, hlevel, rfl⟩ := h
    obtain ⟨file', ⟨-, -, hfile'⟩, level', ⟨-, -, hlevel'⟩, rfl⟩ := h'
    rw [text_eq_of_both hfile hfile', text_eq_of_both hlevel hlevel']

/-- Where both loaders succeed they agree if the rest of the tree says what is the default. -/
theorem apps_eq_iff {a b : AppConfig} (h : yamlToApp Y t = .ok a) (h' : jsonToApp J t = .ok b) :
    a = b ↔ RestIsDefault Y t := by
  simp only [yamlToApp, yamlToConnection, except_bind_eq_ok_iff, pure, Except.pure,
    Except.ok.injEq] at h
  simp only [jsonToApp, except_bind_eq_ok_iff, pure, Except.pure, Except.ok.injEq] at h'
  obtain ⟨-, ⟨-, -, urls, hurls, clientId, hclient, username, huser, password, hpass, version,
    hversion, clean, hclean, keep, hkeep, timeout, htimeout, reconnect, hreconnect, will, hwill,
    rfl⟩, tls, htls, publisher, hpublisher, subs, hsubs, logging, hlogging, rfl⟩ := h
  obtain ⟨urls', hurls', clientId', hclient', username', huser', password', hpass', tls', htls',
    logging', hlogging', rfl⟩ := h'
  obtain rfl := text_eq_of_both hclient hclient'
  obtain rfl := optional_eq_of_both huser huser'
  obtain rfl := optional_eq_of_both hpass hpass'
  obtain rfl := logging_eq_of_both hlogging hlogging'
  simp only [AppConfig.mk.injEq, publisher_eq_iff hpublisher, BrokerConfig.mk.injEq,
    ConnectionConfig.mk.injEq, brokerUrls_eq_iff hurls hurls', tls_eq_iff htls htls',
    will_eq_none_iff hwill, version_eq_default_iff hversion, read_eq_default_iff hclean,
    read_eq_default_iff hkeep, read_eq_default_iff htimeout, reconnect_eq_default_iff hreconnect,
    subscribers_eq_nil_iff hsubs, true_and, and_true]
  constructor
  · rintro ⟨⟨⟨⟨⟨hu, ha⟩, hv, hc, hk, ht, hw, hr⟩, htls⟩, hp⟩, hs⟩
    exact ⟨hu, ha, hv, hc, hk, ht, hr, hw, htls, hp, hs⟩
  · intro h
    exact ⟨⟨⟨⟨⟨h.urls, h.address⟩, h.mqttVersion, h.cleanSession, h.keepalive, h.connectTimeout,
      h.will, h.reconnect⟩, h.tls⟩, h.publisher⟩, h.subscribers⟩

/-- Both loaders fail or both return the same configuration. -/
def Agree (a b : Result AppConfig) : Prop :=
  match a, b with
  | .ok a, .ok b => a = b
  | .error _, .error _ => True
  | .ok _, .error _ => False
  | .error _, .ok _ => False

/--
The loaders agree on a tree just when neither can read it, or both can, both find the same
addresses, and the settings that the JSON loader leaves out have their default values.
-/
theorem loaders_agree_iff (Y : YamlCpp) (J : NlohmannJson) (t : Node) :
    Agree (ConfigLoader.parseYaml Y t) (ConfigLoader.parseJson J t) ↔
      (¬ YamlReads Y t ∧ ¬ JsonReads J t) ∨
        (YamlReads Y t ∧ JsonReads J t ∧ RestIsDefault Y t) := by
  rw [← yamlToApp_isOk_iff, ← jsonToApp_isOk_iff, ConfigLoader.parseYaml, ConfigLoader.parseJson]
  cases hy : yamlToApp Y t with
  | error e =>
    cases hj : jsonToApp J t with
    | error e' => simp [Agree, orParseError, Except.isOk, Except.toBool]
    | ok b => simp [Agree, orParseError, Except.isOk, Except.toBool]
  | ok a =>
    cases hj : jsonToApp J t with
    | error e => simp [Agree, orParseError, Except.isOk, Except.toBool]
    | ok b =>
      have h := apps_eq_iff hy hj
      simpa [Agree, orParseError, Except.isOk, Except.toBool] using h

/-! ## A tree on which they differ -/

def badConversion {α : Type} : Except Bytes α := .error (ascii "bad conversion")

/-- Conversions of scalars that are of the kind asked for. -/
def YamlCpp.byKind : YamlCpp where
  what _ := ascii "bad node"
  asString
    | .null => ascii "null"
    | .bool b => ascii (toString b)
    | .int z => ascii (toString z)
    | .float q => ascii (toString q)
    | .str s => s
  asBool
    | .bool b => .ok b
    | _ => badConversion
  asInt
    | .int z => if -2 ^ 31 ≤ z ∧ z < 2 ^ 31 then .ok z else badConversion
    | _ => badConversion
  asUInt16
    | .int z => if 0 ≤ z ∧ z < 2 ^ 16 then .ok (UInt16.ofNat z.toNat) else badConversion
    | _ => badConversion
  asUInt32
    | .int z => if 0 ≤ z ∧ z < 2 ^ 32 then .ok (UInt32.ofNat z.toNat) else badConversion
    | _ => badConversion
  asDouble
    | .int z => .ok z
    | .float q => .ok q
    | _ => badConversion
  asString_str _ := rfl
  asBool_bool _ := rfl
  asUInt16_int z n h := by
    dsimp only at h
    split at h
    · next hz =>
      obtain rfl := Except.ok.inj h
      rw [UInt16.toNat_ofNat']
      omega
    · cases h
  asUInt16_bool _ := rfl
  asUInt16_float _ := rfl

def NlohmannJson.truncating : NlohmannJson where
  typeError _ := ascii "type error"
  castDouble q := q.num.tdiv q.den

/-- A keep-alive interval is dropped by the JSON loader. -/
theorem loaders_disagree :
    ¬ Agree (ConfigLoader.parseYaml .byKind (.map [(ascii "keepalive", .scalar (.int 30))]))
      (ConfigLoader.parseJson .truncating (.map [(ascii "keepalive", .scalar (.int 30))])) := by
  intro h
  have hk := congrArg (fun a : AppConfig => a.publisher.broker.connection.keepaliveSeconds) h
  exact absurd hk (by decide)

end MqttNativeSocket

import MqttNativeSocket.Config.Agreement
import MqttNativeSocket.Topic.Filter
import MqttNativeSocket.Transport.BrokerPort

/-! # The URL that the YAML loader builds

From a host and a port the loader builds a URL, and the parser gets both back from it.
The scheme says whether TLS is on, and so does the TLS section.
-/

namespace MqttNativeSocket

variable {α β : Type}

/-! ## Decimal digits -/

theorem ascii_toString (n : ℕ) :
    ascii (toString (n : ℤ)) = (Nat.toDigits 10 n).map fun c => UInt8.ofNat c.toNat := by
  change ascii (Nat.repr n) = _
  rw [ascii, Nat.repr, String.toList_ofList]

theorem digit_of_isDigit {c : Char} (h : c.isDigit = true) :
    (UInt8.ofNat c.toNat).toNat = c.toNat ∧ isDigit (UInt8.ofNat c.toNat) = true := by
  obtain ⟨hlow, hhigh⟩ := Char.isDigit_iff_toNat.mp h
  have hlow : 48 ≤ c.toNat := hlow
  have hhigh : c.toNat ≤ 57 := hhigh
  have hbyte : (UInt8.ofNat c.toNat).toNat = c.toNat := by
    rw [UInt8.toNat_ofNat', Nat.mod_eq_of_lt (by omega)]
  refine ⟨hbyte, ?_⟩
  simp only [isDigit, Bool.and_eq_true, decide_eq_true_eq, UInt8.le_iff_toNat_le, hbyte]
  exact ⟨hlow, hhigh⟩

theorem isDigit_of_mem_toString {n : ℕ} {c : UInt8} (h : c ∈ ascii (toString (n : ℤ))) :
    isDigit c = true := by
  rw [ascii_toString, List.mem_map] at h
  obtain ⟨d, hd, rfl⟩ := h
  exact (digit_of_isDigit (Nat.isDigit_of_mem_toDigits (by decide) (by decide) hd)).2

theorem decimal_toString (n : ℕ) : decimal (ascii (toString (n : ℤ))) = n := by
  have hdigits : ∀ cs : List Char, (∀ c ∈ cs, c.isDigit = true) → ∀ k : ℕ,
      (cs.map fun c => UInt8.ofNat c.toNat).foldl (fun n c => 10 * n + (c.toNat - 0x30)) k =
        Nat.ofDigitChars 10 cs k := by
    intro cs
    induction cs with
    | nil => exact fun _ k => Nat.ofDigitChars_nil.symm
    | cons c cs ih =>
      intro h k
      rw [List.forall_mem_cons] at h
      rw [List.map_cons, List.foldl_cons, Nat.ofDigitChars_cons, ih h.2, (digit_of_isDigit h.1).1]
      rfl
  rw [ascii_toString, decimal, hdigits _ fun c =>
    Nat.isDigit_of_mem_toDigits (by decide) (by decide), Nat.ofDigitChars_ten_toDigits]

theorem isPort_toString (n : UInt16) : IsPort (ascii (toString (n.toNat : ℤ))) := by
  refine ⟨?_, fun c => isDigit_of_mem_toString, ?_⟩
  · rw [ascii_toString, Ne, List.map_eq_nil_iff]
    exact Nat.toDigits_ne_nil
  · have := n.toNat_lt
    rw [decimal_toString]
    omega

/-! ## The URL and its parts -/

/-- No digit is one of the letters that the parser looks for. -/
theorem separator_notMem_toString {c : UInt8} (hc : isDigit c = false) (n : ℕ) :
    c ∉ ascii (toString (n : ℤ)) := by
  intro h
  rw [isDigit_of_mem_toString h] at hc
  cases hc

section Url

variable (useTls : Bool) (host : Bytes) (port : UInt16)

theorem parts_brokerUrl : Url.parts (brokerUrl useTls host port.toNat) =
    (ascii (if useTls then "ssl" else "tcp"),
      host ++ colon :: ascii (toString (port.toNat : ℤ))) := by
  have hcolon : colon ∉ ascii (if useTls then "ssl" else "tcp") := by
    cases useTls <;> decide
  have hurl : brokerUrl useTls host port.toNat =
      ascii (if useTls then "ssl" else "tcp") ++
        colon :: ([slash, slash] ++ (host ++ colon :: ascii (toString (port.toNat : ℤ)))) := by
    rw [brokerUrl, List.append_assoc, List.append_assoc, List.append_assoc]
    rfl
  rw [Url.parts, hurl]
  exact congrArg (Option.getD · _) (Split.first_append hcolon)

/-- The parser gets the host, the port and the choice of TLS back. -/
theorem parseBrokerUrl_brokerUrl (hslash : slash ∉ host) :
    parseBrokerUrl (brokerUrl useTls host port.toNat) =
      { host := host, port := port, useTls := useTls } := by
  have hparts := parts_brokerUrl useTls host port
  have hauthority : Url.authority (brokerUrl useTls host port.toNat) =
      host ++ colon :: ascii (toString (port.toNat : ℤ)) := by
    rw [Url.authority, hparts, List.takeWhile_eq_self_iff]
    intro c hc
    rw [bne_iff_ne]
    rintro rfl
    rw [List.mem_append, List.mem_cons] at hc
    obtain hc | hc | hc := hc
    · exact hslash hc
    · cases hc
    · exact separator_notMem_toString (by decide) _ hc
  have hlast : Url.hostAndPort (brokerUrl useTls host port.toNat) =
      some (host, ascii (toString (port.toNat : ℤ))) := by
    rw [Url.hostAndPort, hauthority]
    exact Split.last_append (separator_notMem_toString (by decide) _)
  have htls : Url.IsTls (brokerUrl useTls host port.toNat) ↔ useTls = true := by
    have hscheme : ∀ b : Bool, ascii (if b then "ssl" else "tcp") = ascii "ssl" ∨
        ascii (if b then "ssl" else "tcp") = ascii "tls" ↔ b = true := by decide
    rw [Url.IsTls, Url.scheme, hparts]
    exact hscheme useTls
  have hport : UInt16.ofInt (port.toNat : ℤ) = port := (ofInt_eq_iff _ _).mpr rfl
  rw [parseBrokerUrl_eq, Url.host, Url.portText, hlast]
  simp only [Option.map_some, Option.getD_some, readPort, stoi_of_isPort (isPort_toString port),
    decimal_toString, Option.elim_some, hport, htls, Bool.decide_eq_true]

end Url

/-! ## What the loader stores -/

variable {Y : YamlCpp} {t : Node}

theorem yamlToConnection_eq_ok {cfg : ConnectionConfig} (h : yamlToConnection Y t = .ok cfg) :
    yamlToBrokerUrls Y t = .ok cfg.brokerUrls := by
  simp only [yamlToConnection, except_bind_eq_ok_iff, pure, Except.pure, Except.ok.injEq] at h
  obtain ⟨-, -, urls, hurls, _, -, _, -, _, -, _, -, _, -, _, -, _, -, _, -, _, -, rfl⟩ := h
  exact hurls

theorem mem_of_mapM_eq_ok {f : α → Except Bytes β} {xs : List α} {ys : List β}
    (h : xs.mapM f = .ok ys) {y : β} (hy : y ∈ ys) : ∃ x ∈ xs, f x = .ok y := by
  induction xs generalizing ys with
  | nil =>
    obtain rfl : [] = ys := Except.ok.inj h
    cases hy
  | cons x xs ih =>
    simp only [List.mapM_cons, except_bind_eq_ok_iff, pure, Except.pure, Except.ok.injEq] at h
    obtain ⟨y', hy', ys, hys, rfl⟩ := h
    obtain rfl | hy := List.mem_cons.mp hy
    · exact ⟨x, List.mem_cons_self, hy'⟩
    · obtain ⟨z, hz, hzy⟩ := ih hys hy
      exact ⟨z, List.mem_cons_of_mem _ hz, hzy⟩

/-- The brokers of the publisher and of all the subscribers. -/
def AppConfig.brokers (cfg : AppConfig) : List BrokerConfig :=
  cfg.publisher.broker :: cfg.subscribers.map SubscriberConfig.broker

theorem yamlToPublisher_broker {broker : BrokerConfig} {o : Option Node} {p : PublisherConfig}
    (h : yamlToPublisher Y broker o = .ok p) : p.broker = broker := by
  cases o with
  | none =>
    obtain rfl : { broker := broker } = p := Except.ok.inj h
    rfl
  | some n =>
    simp only [yamlToPublisher, except_bind_eq_ok_iff, pure, Except.pure, Except.ok.injEq] at h
    obtain ⟨-, -, _, -, _, -, _, -, rfl⟩ := h
    rfl

/-- A subscriber's section does not reach its broker. -/
theorem yamlToSubscribers_broker {o : Option Node} {subs : List SubscriberConfig}
    (h : yamlToSubscribers Y t o = .ok subs) {s : SubscriberConfig} (hs : s ∈ subs) :
    yamlToConnection Y t = .ok s.broker.connection ∧ yamlToTls Y t = .ok s.broker.tls := by
  cases o with
  | none =>
    obtain rfl : [] = subs := Except.ok.inj h
    cases hs
  | some ss =>
    obtain ⟨items, -, hitems⟩ := except_bind_eq_ok_iff.mp h
    obtain ⟨node, -, hnode⟩ := mem_of_mapM_eq_ok hitems hs
    simp only [yamlToSubscriber, except_bind_eq_ok_iff, pure, Except.pure, Except.ok.injEq] at hnode
    obtain ⟨connection, hconnection, tls, htls, -, -, _, -, _, -, rfl⟩ := hnode
    exact ⟨hconnection, htls⟩

/-- Every broker has the same connection and the same TLS section. -/
theorem yamlToApp_brokers {cfg : AppConfig} (h : yamlToApp Y t = .ok cfg) :
    ∀ broker ∈ cfg.brokers,
      yamlToConnection Y t = .ok broker.connection ∧ yamlToTls Y t = .ok broker.tls := by
  simp only [yamlToApp, except_bind_eq_ok_iff, pure, Except.pure, Except.ok.injEq] at h
  obtain ⟨connection, hconnection, tls, htls, publisher, hpublisher, subscribers, hsubscribers,
    _, -, rfl⟩ := h
  intro broker hbroker
  simp only [AppConfig.brokers, List.mem_cons, List.mem_map] at hbroker
  obtain rfl | ⟨s, hs, rfl⟩ := hbroker
  · rw [yamlToPublisher_broker hpublisher]
    exact ⟨hconnection, htls⟩
  · exact yamlToSubscribers_broker hsubscribers hs

/-- Where the loader can read the TLS switch, its two reads agree. -/
theorem yamlToTls_enabled {useTls : Bool} {tls : TlsConfig} (h : yamlUsesTls Y t = .ok useTls)
    (htls : yamlToTls Y t = .ok tls) : tls.enabled = useTls := by
  unfold yamlUsesTls at h
  unfold yamlToTls at htls
  cases hs : t.field "tls" with
  | none =>
    rw [hs] at h htls
    rw [← Except.ok.inj htls, ← Except.ok.inj h]
  | some s =>
    simp only [hs, except_bind_eq_ok_iff] at h htls
    obtain ⟨-, -, h⟩ := h
    obtain ⟨-, -, htls⟩ := htls
    have henabled : asOr Y.bool false (s.field "enabled") = useTls := by
      cases hv : s.field "enabled" with
      | none =>
        rw [hv] at h
        exact Except.ok.inj h
      | some v =>
        rw [hv] at h
        have hv : Y.bool v = .ok useTls := h
        rw [asOr, hv]
        rfl
    rw [henabled] at htls
    cases useTls with
    | false => rw [← Except.ok.inj htls]
    | true =>
      simp only [if_true, except_bind_eq_ok_iff, pure, Except.pure, Except.ok.injEq] at htls
      obtain ⟨_, -, _, -, _, -, _, -, rfl⟩ := htls
      rfl

theorem yamlToBrokerUrls_eq_ok {b host port : Node} {urls : List Bytes}
    (hbroker : t.field "broker" = some b) (hurls : b.field "urls" = none)
    (hhost : b.field "host" = some host) (hport : b.field "port" = some port)
    (h : yamlToBrokerUrls Y t = .ok urls) :
    ∃ useTls address n, yamlUsesTls Y t = .ok useTls ∧ Y.string host = .ok address ∧
      Y.uint16 port = .ok n ∧ urls = [brokerUrl useTls address n.toNat] := by
  unfold yamlToBrokerUrls at h
  simp only [hbroker, hurls, hhost, hport, except_bind_eq_ok_iff, pure, Except.pure,
    Except.ok.injEq] at h
  obtain ⟨-, -, useTls, htls, address, haddress, n, hn, rfl⟩ := h
  exact ⟨useTls, address, n, htls, haddress, hn, rfl⟩

/--
Whatever the host without a slash, the port and the TLS section: where the loader succeeds, the
parser returns from the one stored URL the same host and port, and TLS as the section says.
-/
theorem loader_and_parser_agree (Y : YamlCpp) (t b host port : Node) (cfg : AppConfig)
    (hbroker : t.field "broker" = some b) (hurls : b.field "urls" = none)
    (hhost : b.field "host" = some host) (hport : b.field "port" = some port)
    (hslash : ∀ text, Y.string host = .ok text → slash ∉ text)
    (hparse : ConfigLoader.parseYaml Y t = .ok cfg) :
    ∃ text n, Y.string host = .ok text ∧ Y.uint16 port = .ok n ∧
      (∀ s, host = .scalar (.str s) → text = s) ∧
      (∀ z, port = .scalar (.int z) → (n.toNat : ℤ) = z) ∧
      ∀ broker ∈ cfg.brokers, yamlToTls Y t = .ok broker.tls ∧
        ∃ url, broker.connection.brokerUrls = [url] ∧
          parseBrokerUrl url = { host := text, port := n, useTls := broker.tls.enabled } := by
  have happ : yamlToApp Y t = .ok cfg := by
    rw [ConfigLoader.parseYaml] at hparse
    cases h : yamlToApp Y t with
    | error e =>
      rw [h] at hparse
      cases hparse
    | ok cfg' =>
      rw [h] at hparse
      rw [Except.ok.inj hparse]
  have hbrokers := yamlToApp_brokers happ
  have hstored (broker : BrokerConfig) (h : broker ∈ cfg.brokers) :=
    yamlToBrokerUrls_eq_ok hbroker hurls hhost hport (yamlToConnection_eq_ok (hbrokers broker h).1)
  obtain ⟨-, text, n, -, htext, hn, -⟩ := hstored cfg.publisher.broker List.mem_cons_self
  have hstr : ∀ s, host = .scalar (.str s) → text = s := by
    rintro s rfl
    rw [← Y.asString_str s]
    exact (Except.ok.inj htext).symm
  have hint : ∀ z, port = .scalar (.int z) → (n.toNat : ℤ) = z := by
    rintro z rfl
    exact Y.asUInt16_int z n hn
  refine ⟨text, n, htext, hn, hstr, hint, fun broker h => ⟨(hbrokers broker h).2, ?_⟩⟩
  obtain ⟨useTls, text', n', htls, htext', hn', hurl⟩ := hstored broker h
  obtain rfl : text = text' := Except.ok.inj (htext.symm.trans htext')
  obtain rfl : n = n' := Except.ok.inj (hn.symm.trans hn')
  refine ⟨_, hurl, ?_⟩
  rw [parseBrokerUrl_brokerUrl _ _ _ (hslash text htext),
    yamlToTls_enabled htls (hbrokers broker h).2]

/-- A host with colons of its own, and a subscriber beside the publisher. -/
def ipv6Tree : Node :=
  .map [
    (ascii "broker", .map [(ascii "host", .scalar (.str (ascii "fe80::1"))),
      (ascii "port", .scalar (.int 8884))]),
    (ascii "tls", .map [(ascii "enabled", .scalar (.bool true))]),
    (ascii "subscribers", .list [.map []])]

theorem loader_and_parser_agree_ipv6 :
    ∃ cfg, ConfigLoader.parseYaml .byKind ipv6Tree = .ok cfg ∧
      ∃ text n, YamlCpp.byKind.string (.scalar (.str (ascii "fe80::1"))) = .ok text ∧
        YamlCpp.byKind.uint16 (.scalar (.int 8884)) = .ok n ∧
        (∀ s, Node.scalar (.str (ascii "fe80::1")) = .scalar (.str s) → text = s) ∧
        (∀ z, Node.scalar (.int 8884) = .scalar (.int z) → (n.toNat : ℤ) = z) ∧
        ∀ broker ∈ cfg.brokers, yamlToTls .byKind ipv6Tree = .ok broker.tls ∧
          ∃ url, broker.connection.brokerUrls = [url] ∧
            parseBrokerUrl url = { host := text, port := n, useTls := broker.tls.enabled } :=
  ⟨_, rfl, loader_and_parser_agree .byKind ipv6Tree _ (.scalar (.str (ascii "fe80::1")))
    (.scalar (.int 8884)) _ rfl rfl rfl rfl
    (by rintro text h; obtain rfl := Except.ok.inj h; decide) rfl⟩

end MqttNativeSocket

import MqttNativeSocket.Client.Connect
import MqttNativeSocket.Transport.BrokerPort
import MqttNativeSocket.Transport.Handles

/-! # What a connection vouches for

`SocketTransport::connect` hands the TLS settings over to OpenSSL. What OpenSSL
does with them is a parameter: a handshake that succeeds agreed on a version that
is not disabled, and under `SSL_VERIFY_PEER` the peer's certificate was checked,
for the host name too if one was set that is not empty. Without `SSL_VERIFY_PEER`
nothing is checked.
-/

namespace MqttNativeSocket

inductive ProtocolVersion where
  | ssl2 | ssl3 | tls10 | tls11 | tls12 | tls13
  deriving DecidableEq, Repr

/-- Whose certificates are trusted. -/
inductive TrustStore where
  | system
  | file (path : Bytes)
  deriving DecidableEq, Repr

/-- What is set on the `SSL_CTX` and on the `SSL` object of a connection. -/
structure TlsSettings where
  /-- `SSL_CTX_set_options`. -/
  disabled : List ProtocolVersion
  /-- `SSL_VERIFY_PEER` and not `SSL_VERIFY_NONE`. -/
  verify : Bool
  trust : Option TrustStore
  /-- `SSL_CTX_use_certificate_file` and `SSL_CTX_use_PrivateKey_file`. -/
  clientCert : Option (Bytes × Bytes)
  /-- `SSL_set_tlsext_host_name`. -/
  serverName : Bytes
  /-- `SSL_set1_host`. -/
  checkedHost : Option Bytes
  deriving DecidableEq, Repr

def TlsConfig.trustStore (tls : TlsConfig) : TrustStore :=
  if tls.caCertFile.isEmpty then .system else .file tls.caCertFile

/-- The settings that `SocketTransport::connect` makes for `tls`. -/
def tlsSettings (host : Bytes) (tls : TlsConfig) : TlsSettings where
  disabled := [.ssl2, .ssl3] ++ if tls.minVersion = .tls13 then [.tls10, .tls11, .tls12] else []
  verify := tls.verifyPeer
  trust := if tls.verifyPeer then some tls.trustStore else none
  clientCert :=
    match tls.clientCertFile, tls.clientKeyFile with
    | some cert, some key => some (cert, key)
    | _, _ => none
  serverName := host
  checkedHost := if tls.verifyHostname then some host else none

/-- The other side of a handshake: the version agreed on, and what its certificate is good for. -/
structure Peer where
  version : ProtocolVersion
  trustedBy : TrustStore → Bool
  names : Bytes → Bool

/--
What OpenSSL requires of the peer before it lets a handshake succeed. An empty name given to
`SSL_set1_host` turns the check of the name off.
-/
def TlsSettings.Admits (settings : TlsSettings) (p : Peer) : Prop :=
  p.version ∉ settings.disabled ∧
    (settings.verify = true → (∀ store ∈ settings.trust, p.trustedBy store = true) ∧
      ∀ host ∈ settings.checkedHost, host ≠ [] → p.names host = true)

instance (settings : TlsSettings) (p : Peer) : Decidable (settings.Admits p) := by
  unfold TlsSettings.Admits
  infer_instance

/-- A network in which OpenSSL keeps to the settings, whatever peers it meets. -/
def Network.Honest (net : Network) (peer : Bytes → UInt16 → Peer) : Prop :=
  ∀ host port tls timeout, tls.enabled = true →
    (net host port tls timeout).handshake = .done → (tlsSettings host tls).Admits (peer host port)

/-- A network in which a handshake succeeds with every peer that the settings admit. -/
def Network.admitting (peer : Bytes → UInt16 → Peer) : Network := fun host port tls _ =>
  { handshake :=
      if (tlsSettings host tls).Admits (peer host port) then .done
      else .fail (ascii "handshake failure") }

/-- Its certificate is one for this host, and trusted. -/
def Peer.Authenticated (p : Peer) (store : TrustStore) (host : Bytes) : Prop :=
  p.trustedBy store = true ∧ p.names host = true

/-- A peer whose certificate is good for every store and every name, or for none. -/
def uniformPeer (v : ProtocolVersion) (trusted named : Bool) : Peer :=
  ⟨v, fun _ => trusted, fun _ => named⟩

/-- Whether the version is the minimum or a later one. -/
def TlsVersion.allows : TlsVersion → ProtocolVersion → Bool
  | .tls12, v => v = .tls12 || v = .tls13
  | .tls13, v => v = .tls13

namespace Client

variable {net : Network} {c : Client} {peer : Bytes → UInt16 → Peer} {t : Transport}

def url (c : Client) : Bytes := c.config.brokerUrls.head c.brokerUrls_ne

/-- The client asks for TLS, in its configuration or by the scheme of its URL. -/
def usesTls (c : Client) : Prop := c.tlsConfig.enabled = true ∨ Url.IsTls c.url

/-- The peer that the client connects to. -/
def broker (c : Client) (peer : Bytes → UInt16 → Peer) : Peer :=
  peer (Url.host c.url) (parseBrokerUrl c.url).port

/-- The TLS settings that the client dials with. -/
def dialTls (c : Client) : TlsConfig :=
  if Url.IsTls c.url then { c.tlsConfig with enabled := true } else c.tlsConfig

theorem dialTls_enabled : c.dialTls.enabled = true ↔ c.usesTls := by
  unfold dialTls usesTls
  split <;> simp_all

theorem tlsSettings_dialTls (host : Bytes) :
    tlsSettings host c.dialTls = tlsSettings host c.tlsConfig := by
  unfold dialTls
  split <;> rfl

theorem dial_eq (net : Network) (c : Client) : c.dial net =
    MqttNativeSocket.dial net (Url.host c.url) (parseBrokerUrl c.url).port c.dialTls
      c.config.connectTimeout := by
  have hhost : (parseBrokerUrl c.url).host = Url.host c.url := by rw [parseBrokerUrl_eq]
  have htls : (parseBrokerUrl c.url).useTls = decide (Url.IsTls c.url) := by rw [parseBrokerUrl_eq]
  calc c.dial net
      = MqttNativeSocket.dial net (parseBrokerUrl c.url).host (parseBrokerUrl c.url).port
          (if (parseBrokerUrl c.url).useTls then { c.tlsConfig with enabled := true }
            else c.tlsConfig) c.config.connectTimeout := rfl
    _ = _ := by
      rw [hhost, htls, dialTls]
      simp only [decide_eq_true_eq]

end Client

theorem tlsConnect_eq_ok_iff {tls : TlsConfig} {calls : DialCalls} :
    tlsConnect tls calls = .ok () ↔ SocketTransport.OpensTls tls calls := by
  have hresult : (SocketTransport.openTls tls calls { fd := Holder.acquire {} }).1 =
      tlsConnect tls calls := SocketTransport.openTls_result
  rw [← hresult]
  rcases SocketTransport.openTls_cases tls calls {} with ⟨hno, ⟨e, he⟩, -⟩ | ⟨hopens, heq⟩
  · rw [he]
    simp [hno]
  · rw [heq]
    simp [hopens]

namespace Client

variable {net : Network} {c : Client} {peer : Bytes → UInt16 → Peer} {t : Transport}

/-- A connection is encrypted just when the client asks for TLS, and then the peer is admitted. -/
theorem admits_of_dial (hnet : net.Honest peer) (h : c.dial net = .ok t) :
    (t.ssl = true ↔ c.usesTls) ∧
      (c.usesTls → (tlsSettings (Url.host c.url) c.tlsConfig).Admits (c.broker peer)) := by
  rw [dial_eq] at h
  obtain ⟨-, htls, rfl⟩ := dial_eq_ok_iff.mp h
  refine ⟨dialTls_enabled, fun huses => ?_⟩
  have henabled := dialTls_enabled.mpr huses
  rw [← tlsSettings_dialTls]
  exact hnet _ _ _ _ henabled (tlsConnect_eq_ok_iff.mp (htls henabled)).2.2

theorem honest_admitting : (Network.admitting peer).Honest peer := by
  intro host port tls timeout _ h
  by_contra hno
  simp [Network.admitting, hno] at h

/-- Where every peer that is admitted is let in, the client gets its connection. -/
theorem dial_admitting (c : Client) (peer : Bytes → UInt16 → Peer)
    (h : c.usesTls → (tlsSettings (Url.host c.url) c.tlsConfig).Admits (c.broker peer)) :
    ∃ t, c.dial (Network.admitting peer) = .ok t := by
  rw [dial_eq]
  refine ⟨_, dial_eq_ok_iff.mpr ⟨rfl, fun henabled => ?_, rfl⟩⟩
  have hadmits := h (dialTls_enabled.mp henabled)
  rw [← tlsSettings_dialTls] at hadmits
  refine tlsConnect_eq_ok_iff.mpr ⟨rfl, ?_, if_pos hadmits⟩
  simp [SocketTransport.loadCertificates, Network.admitting]

theorem not_disabled_tls13 {host : Bytes} {tls : TlsConfig} :
    ProtocolVersion.tls13 ∉ (tlsSettings host tls).disabled := by
  cases hmin : tls.minVersion <;> simp [tlsSettings, hmin]

theorem admits_uniformPeer {v : ProtocolVersion} {trusted named : Bool} {host : Bytes}
    {tls : TlsConfig} : (tlsSettings host tls).Admits (uniformPeer v trusted named) ↔
      v ∉ (tlsSettings host tls).disabled ∧
        (tls.verifyPeer = true → trusted = true ∧
          (tls.verifyHostname = true → host ≠ [] → named = true)) := by
  refine and_congr_right fun _ => ?_
  cases hpeer : tls.verifyPeer <;> simp [tlsSettings, uniformPeer, hpeer]

/--
What a connection vouches for: whatever the peers, a successful `connect` has an encrypted
connection to a peer with a trusted certificate for the host of the URL, if and only if the client
asks for TLS, has both checks on and a host to check. The check of the name alone is not enough.
-/
theorem dial_authenticates_iff (c : Client) :
    (∀ net peer, Network.Honest net peer → ∀ t, c.dial net = .ok t →
      t.ssl = true ∧ (c.broker peer).Authenticated c.tlsConfig.trustStore (Url.host c.url)) ↔
    c.usesTls ∧ c.tlsConfig.verifyPeer = true ∧ c.tlsConfig.verifyHostname = true ∧
      Url.host c.url ≠ [] := by
  constructor
  · intro h
    have huses : c.usesTls := by
      by_contra hno
      obtain ⟨t, ht⟩ := dial_admitting c (fun _ _ => uniformPeer .tls13 true true)
        fun huses => (hno huses).elim
      exact hno ((admits_of_dial honest_admitting ht).1.mp (h _ _ honest_admitting t ht).1)
    have hnamed (hoff : c.tlsConfig.verifyHostname = true → Url.host c.url = []) : False := by
      obtain ⟨t, ht⟩ := dial_admitting c (fun _ _ => uniformPeer .tls13 true false)
        fun _ => admits_uniformPeer.mpr ⟨not_disabled_tls13, fun _ => ⟨rfl, fun hv hne =>
          (hne (hoff hv)).elim⟩⟩
      exact Bool.false_ne_true (h _ _ honest_admitting t ht).2.2
    refine ⟨huses, ?_, ?_, fun hempty => hnamed fun _ => hempty⟩
    · by_contra hpeer
      obtain ⟨t, ht⟩ := dial_admitting c (fun _ _ => uniformPeer .tls13 false true)
        fun _ => admits_uniformPeer.mpr ⟨not_disabled_tls13, fun hv => (hpeer hv).elim⟩
      exact Bool.false_ne_true (h _ _ honest_admitting t ht).2.1
    · by_contra hhost
      exact hnamed fun hv => (hhost hv).elim
  · rintro ⟨huses, hpeer, hhost, hne⟩ net peer hnet t ht
    obtain ⟨hssl, hadmits⟩ := admits_of_dial hnet ht
    obtain ⟨-, hverify⟩ := hadmits huses
    obtain ⟨htrust, hname⟩ := hverify hpeer
    refine ⟨hssl.mpr huses, htrust _ ?_, hname _ ?_ hne⟩
    · simp [tlsSettings, hpeer]
    · simp [tlsSettings, hhost]

/--
The minimum version is kept by every encrypted connection only where it is TLS 1.3: `TLS_1_2`, the
default, leaves TLS 1.0 and 1.1 enabled.
-/
theorem dial_keeps_minVersion_iff (c : Client) :
    (∀ net peer, Network.Honest net peer → ∀ t, c.dial net = .ok t → t.ssl = true →
      c.tlsConfig.minVersion.allows (c.broker peer).version = true) ↔
    (c.usesTls → c.tlsConfig.minVersion = .tls13) := by
  constructor
  · intro h huses
    by_contra hmin
    have hmin : c.tlsConfig.minVersion = .tls12 := by
      cases hv : c.tlsConfig.minVersion with
      | tls12 => rfl
      | tls13 => exact (hmin hv).elim
    obtain ⟨t, ht⟩ := dial_admitting c (fun _ _ => uniformPeer .tls10 true true)
      fun _ => admits_uniformPeer.mpr ⟨by simp [tlsSettings, hmin], fun _ => ⟨rfl, fun _ _ => rfl⟩⟩
    have hssl := (admits_of_dial honest_admitting ht).1.mpr huses
    have hallows := h _ _ honest_admitting t ht hssl
    rw [hmin] at hallows
    exact Bool.false_ne_true hallows
  · intro h net peer hnet t ht hssl
    obtain ⟨hiff, hadmits⟩ := admits_of_dial hnet ht
    have huses := hiff.mp hssl
    obtain ⟨hversion, -⟩ := hadmits huses
    rw [tlsSettings, h huses] at hversion
    rw [h huses]
    cases hv : (c.broker peer).version <;> simp_all [TlsVersion.allows]

end Client

end MqttNativeSocket

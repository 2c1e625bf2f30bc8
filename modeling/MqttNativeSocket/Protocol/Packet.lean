import MqttNativeSocket.Core.Basic
import MqttNativeSocket.Foundations.VarLen

/-! # MQTT packets

Encoders and decoders of the packet layer. An `int` field is an unbounded
integer here, since the encoders only compare it with zero and take its two low
bits. A decoder that throws is an `Except`, and every index into a body carries
the proof that it is in range.
-/

namespace MqttNativeSocket

inductive PacketType where
  | connect | connack | publish | puback | pubrec | pubrel | pubcomp
  | subscribe | suback | unsubscribe | unsuback | pingreq | pingresp | disconnect
  | unnamed (v : UInt8)
  deriving DecidableEq, Repr

/-- `static_cast<PacketType>`: a value without an enumerator is kept as it is. -/
def PacketType.ofUInt8 : UInt8 → PacketType
  | 1 => .connect
  | 2 => .connack
  | 3 => .publish
  | 4 => .puback
  | 5 => .pubrec
  | 6 => .pubrel
  | 7 => .pubcomp
  | 8 => .subscribe
  | 9 => .suback
  | 10 => .unsubscribe
  | 11 => .unsuback
  | 12 => .pingreq
  | 13 => .pingresp
  | 14 => .disconnect
  | v => .unnamed v

structure WillParams where
  topic : Bytes
  payload : Bytes
  qos : ℤ := 1
  retained : Bool := false
  deriving DecidableEq, Repr

structure ConnectParams where
  clientId : Bytes
  cleanSession : Bool := true
  keepaliveSeconds : UInt16 := 60
  username : Option Bytes := none
  password : Option Bytes := none
  will : Option WillParams := none
  deriving DecidableEq, Repr

structure IncomingPacket where
  type : PacketType := .connect
  flags : UInt8 := 0
  body : Bytes
  deriving DecidableEq, Repr

structure ConnackInfo where
  sessionPresent : Bool := false
  returnCode : UInt8 := 0
  deriving DecidableEq, Repr

structure PublishInfo where
  topic : Bytes
  packetId : UInt16 := 0
  payload : Bytes
  qos : ℤ := 0
  retained : Bool := false
  dup : Bool := false
  deriving DecidableEq, Repr

structure SubackInfo where
  packetId : UInt16 := 0
  returnCodes : Bytes
  deriving DecidableEq, Repr

/-! ## Wire-encoding helpers -/

/-- The `do … while` loop: seven bits at a time, the low ones first. -/
def appendVarLen (buf : Bytes) (value : UInt32) : Bytes :=
  let b := (value &&& 0x7F).toUInt8
  let rest : UInt32 := value >>> 7
  if 0 < rest then appendVarLen (buf ++ [b ||| 0x80]) rest else buf ++ [b]
termination_by value.toNat
decreasing_by
  rename_i h
  rw [UInt32.lt_iff_toNat_lt] at h
  simp only [rest, UInt32.toNat_shiftRight, UInt32.reduceToNat, Nat.reduceMod,
    Nat.shiftRight_eq_div_pow] at h ⊢
  omega

def appendU16 (buf : Bytes) (v : UInt16) : Bytes :=
  buf ++ [(v >>> 8).toUInt8, (v &&& 0xFF).toUInt8]

/-- The length prefix is cast to sixteen bits; the bytes are all appended. -/
def appendMqttString (buf s : Bytes) : Bytes :=
  appendU16 buf (UInt16.ofNat s.length) ++ s

def prependFixedHeader (body : Bytes) (typeByte : UInt8) : Bytes :=
  appendVarLen [typeByte] (UInt32.ofNat body.length) ++ body

/-- `qos & 0x03` of an `int`. -/
def qosBits (qos : ℤ) : UInt8 := UInt8.ofNat (qos % 4).toNat

/-! ## Serialisers -/

def buildConnect (p : ConnectParams) : Bytes :=
  let body := appendMqttString [] (ascii "MQTT")
  let body := body ++ [0x04]
  let flags : UInt8 := 0
  let flags := if p.cleanSession then flags ||| 0x02 else flags
  let flags := match p.will with
    | some will =>
      let flags := flags ||| 0x04
      let flags := flags ||| (qosBits will.qos <<< 3)
      if will.retained then flags ||| 0x20 else flags
    | none => flags
  let flags := if p.username.isSome then flags ||| 0x80 else flags
  let flags := if p.password.isSome then flags ||| 0x40 else flags
  let body := body ++ [flags]
  let body := appendU16 body p.keepaliveSeconds
  let body := appendMqttString body p.clientId
  let body := match p.will with
    | some will =>
      let body := appendMqttString body will.topic
      appendU16 body (UInt16.ofNat will.payload.length) ++ will.payload
    | none => body
  let body := match p.username with
    | some username => appendMqttString body username
    | none => body
  let body := match p.password with
    | some password => appendU16 body (UInt16.ofNat password.length) ++ password
    | none => body
  prependFixedHeader body 0x10

def buildPublish (topic payload : Bytes) (qos : ℤ) (retained dup : Bool) (packetId : UInt16) :
    Bytes :=
  let body := appendMqttString [] topic
  let body := if 0 < qos then appendU16 body packetId else body
  let body := body ++ payload
  let b0 : UInt8 := 0x30
  let b0 := if dup then b0 ||| 0x08 else b0
  let b0 := b0 ||| (qosBits qos <<< 1)
  let b0 := if retained then b0 ||| 0x01 else b0
  prependFixedHeader body b0

def buildPuback (packetId : UInt16) : Bytes :=
  [0x40, 0x02, (packetId >>> 8).toUInt8, (packetId &&& 0xFF).toUInt8]

def buildSubscribe (packetId : UInt16) (subs : List (Bytes × ℤ)) : Bytes :=
  let body := subs.foldl (fun body (topic, qos) => appendMqttString body topic ++ [qosBits qos])
    (appendU16 [] packetId)
  prependFixedHeader body 0x82

def buildUnsubscribe (packetId : UInt16) (topics : List Bytes) : Bytes :=
  prependFixedHeader (topics.foldl appendMqttString (appendU16 [] packetId)) 0xA2

def buildPingreq : Bytes := [0xC0, 0x00]

def buildDisconnect : Bytes := [0xE0, 0x00]

/-! ## Deserialisers -/

/-- `(body[pos] << 8) | body[pos + 1]`. -/
def u16At (body : Bytes) (pos : ℕ) (h : pos + 1 < body.length) : UInt16 :=
  (body[pos].toUInt16 <<< 8) ||| body[pos + 1].toUInt16

def deserializationFailed (message : String) : MqttException :=
  ⟨.deserializationFailed, ascii message⟩

def parseConnack (body : Bytes) : Except MqttException ConnackInfo :=
  if h : body.length < 2 then throw (deserializationFailed "CONNACK body too short")
  else return ⟨body[0] &&& 0x01 != 0, body[1]⟩

def parsePublish (flags : UInt8) (body : Bytes) : Except MqttException PublishInfo :=
  let dup := flags &&& 0x08 != 0
  let qos : ℤ := ((flags >>> 1) &&& 0x03).toNat
  let retained := flags &&& 0x01 != 0
  if h : body.length < 2 then throw (deserializationFailed "PUBLISH body too short")
  else
    let topicLen := (u16At body 0 (by omega)).toNat
    if 2 + topicLen > body.length then throw (deserializationFailed "PUBLISH topic overflow")
    else
      let topic := (body.drop 2).take topicLen
      let pos := 2 + topicLen
      if 0 < qos then
        if h : pos + 2 > body.length then
          throw (deserializationFailed "PUBLISH missing packet ID")
        else
          let packetId := u16At body pos (by omega)
          return ⟨topic, packetId, body.drop (pos + 2), qos, retained, dup⟩
      else return ⟨topic, 0, body.drop pos, qos, retained, dup⟩

def parseSuback (body : Bytes) : Except MqttException SubackInfo :=
  if h : body.length < 3 then throw (deserializationFailed "SUBACK body too short")
  else return ⟨u16At body 0 (by omega), body.drop 2⟩

/-- A body without a packet identifier counts as identifier zero. -/
def parsePacketId (body : Bytes) : UInt16 :=
  if h : body.length < 2 then 0 else u16At body 0 (by omega)

end MqttNativeSocket

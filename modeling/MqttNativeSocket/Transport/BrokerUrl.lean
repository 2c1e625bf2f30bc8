import MqttNativeSocket.Core.Basic

/-! # Broker URLs

`parseBrokerUrl` splits a URL at the first `://`, the first `/` after it and the
last `:`, and reads the port with `std::stoi`.
-/

namespace MqttNativeSocket

structure BrokerAddress where
  host : Bytes := []
  port : UInt16 := 1883
  useTls : Bool := false
  deriving DecidableEq, Repr

/-- `s.find(pat)`. -/
def find (pat s : Bytes) : Option ℕ := s.tails.findIdx? fun t => pat.isPrefixOf t

/-- `s.rfind(c)`. -/
def rfind (c : UInt8) (s : Bytes) : Option ℕ :=
  (s.reverse.findIdx? (· == c)).map fun i => s.length - 1 - i

/-- `std::isspace` in the default locale. -/
def isSpace (c : UInt8) : Bool := c == 0x20 || (0x09 ≤ c && c ≤ 0x0D)

def isDigit (c : UInt8) : Bool := 0x30 ≤ c && c ≤ 0x39

/-- The value of a string of decimal digits. -/
def decimal (s : Bytes) : ℕ := s.foldl (fun n c => 10 * n + (c.toNat - 0x30)) 0

/-- `std::stoi`: `none` stands for `invalid_argument` or `out_of_range`. -/
def stoi (s : Bytes) : Option ℤ :=
  let s := s.dropWhile isSpace
  let negative := s.head? == some 0x2D
  let s := if negative || s.head? == some 0x2B then s.tail else s
  let digits := s.takeWhile isDigit
  let value : ℤ := if negative then -(decimal digits : ℤ) else decimal digits
  if digits.isEmpty then none
  else if -2147483648 ≤ value ∧ value ≤ 2147483647 then some value
  else none

def parseBrokerUrl (url : Bytes) : BrokerAddress :=
  let addr : BrokerAddress := {}
  let schemeEnd := find (ascii "://") url
  let addr := match schemeEnd with
    | some i =>
      let scheme := url.take i
      if scheme = ascii "ssl" ∨ scheme = ascii "tls" then { addr with useTls := true, port := 8883 }
      else addr
    | none => addr
  let rest := match schemeEnd with
    | some i => url.drop (i + 3)
    | none => url
  let rest := rest.takeWhile (· != 0x2F)
  match rfind 0x3A rest with
  | some i =>
    let addr := { addr with host := rest.take i }
    match stoi (rest.drop (i + 1)) with
    | some port => { addr with port := UInt16.ofInt port }
    | none => addr
  | none => { addr with host := rest }

end MqttNativeSocket

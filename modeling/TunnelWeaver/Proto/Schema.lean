import TunnelWeaver.Mux.Stream

/-! The application protocol (`weaver-proto`): what travels on the streams of a tunnel. The first
message of every stream is a `Head`; replies on a control stream are `ControlReply`s, and the
messages after the heads of a visitor stream are `BodyFrame`s. -/

namespace TunnelWeaver.Proto

open Mux (Bytes)

/-- A header or trailer field: name and raw value. -/
abbrev Field := String × Bytes

/-- `str::to_ascii_lowercase`. -/
def toAsciiLowercase (s : String) : String := s.map Char.toLower

/-! ## Control streams (`control.rs`) -/

inductive RefusalCode where
  | alreadyRegistered
  | invalidName
  | unauthorized
  | unsupportedVersion (min max : UInt16)
  | other
  deriving DecidableEq

/-- First message the client sends on its control stream. -/
inductive ControlHead where
  | register (protoVersion : UInt16) (service : String)
  | revoke (protoVersion : UInt16)
  deriving DecidableEq

def minProtocolVersion : UInt16 := 1
def protocolVersion : UInt16 := 1

def acceptProtocolVersion (client : UInt16) : Except RefusalCode Unit :=
  if minProtocolVersion ≤ client ∧ client ≤ protocolVersion then .ok ()
  else .error (.unsupportedVersion minProtocolVersion protocolVersion)

def serviceNameMax : Nat := 31

/-- `^[a-z0-9]+(-[a-z0-9]+)*$`, at most `serviceNameMax` bytes. -/
def isValidServiceName (name : String) : Bool :=
  decide (name.utf8ByteSize ≤ serviceNameMax) &&
    (name.toList.splitOn '-').all fun run =>
      !run.isEmpty && run.all fun c => c.isLower || c.isDigit

/-- `ControlHead::register`. -/
def ControlHead.ofService (service : String) : Except RefusalCode ControlHead :=
  if isValidServiceName service then .ok (.register protocolVersion service)
  else .error .invalidName

/-- The relay's check of a decoded head. -/
def ControlHead.validate : ControlHead → Except RefusalCode Unit
  | .register protoVersion service =>
    match acceptProtocolVersion protoVersion with
    | .error code => .error code
    | .ok () => if !isValidServiceName service then .error .invalidName else .ok ()
  | .revoke protoVersion => acceptProtocolVersion protoVersion

/-- Certificate lifecycle as seen by the client. -/
inductive CertStatus where
  | pending
  | ordering
  | issued
  | renewing
  | failed
  deriving DecidableEq

inductive ControlReply where
  | registered (hostname : String)
  | refused (code : RefusalCode) (message : String)
  | certState (state : CertStatus)
  | revoked
  deriving DecidableEq

/-! ## Visitor streams (`http.rs`) -/

structure HttpHead where
  method : String
  scheme : String
  authority : String
  path : String
  headers : List Field
  deriving DecidableEq

structure HttpResponseHead where
  status : UInt16
  headers : List Field
  deriving DecidableEq

def eqIgnoreAsciiCase (a b : String) : Bool := toAsciiLowercase a == toAsciiLowercase b

/-- First value of a header. -/
def headerOf (headers : List Field) (name : String) : Option Bytes :=
  (headers.find? fun f => eqIgnoreAsciiCase f.1 name).map (·.2)

def HttpHead.header (h : HttpHead) (name : String) : Option Bytes := headerOf h.headers name

def HttpResponseHead.header (h : HttpResponseHead) (name : String) : Option Bytes :=
  headerOf h.headers name

/-- First message on every stream. -/
inductive Head where
  | control (head : ControlHead)
  | http (head : HttpHead)
  deriving DecidableEq

inductive BodyFrame where
  | chunk (data : Bytes)
  | trailers (fields : List Field)
  deriving DecidableEq

/-! ## Reset codes (`reset.rs`) -/

inductive ResetCode where
  | originUnreachable
  | originClosed
  | cancelled
  deriving DecidableEq

namespace ResetCode

def asU32 : ResetCode → UInt32
  | originUnreachable => 1
  | originClosed => 2
  | cancelled => 3

def fromU32 (code : UInt32) : Option ResetCode :=
  if code = 1 then some originUnreachable
  else if code = 2 then some originClosed
  else if code = 3 then some cancelled
  else none

theorem fromU32_asU32 (c : ResetCode) : fromU32 c.asU32 = some c := by
  cases c <;> rfl

end ResetCode

/-! ## Third-party code -/

/-- `encode` and `decode` at one message type; a failure carries its text. -/
structure Codec (α : Type) where
  encode : α → Except String Bytes
  decode : Bytes → Except String α
  decode_encode : ∀ {a bytes}, encode a = .ok bytes → decode bytes = .ok a

/-- Postcard at the messages of the schema. -/
class Postcard where
  head : Codec Head
  controlReply : Codec ControlReply
  responseHead : Codec HttpResponseHead
  bodyFrame : Codec BodyFrame

end TunnelWeaver.Proto

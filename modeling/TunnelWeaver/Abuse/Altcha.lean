import TunnelWeaver.Lib.I64
import TunnelWeaver.Proto.Schema

/-! Verification of proof-of-work solutions (`altcha/pow.rs`, `altcha/consume.rs`). -/

namespace TunnelWeaver.Abuse

open I64 (saturatingAdd saturatingMul)
open Proto (eqIgnoreAsciiCase toAsciiLowercase)

/-! ## Wire types -/

/-- The strings among the signed metadata. -/
structure SignedData where
  client : Option String
  purpose : Option String
  flow : Option String
  deriving DecidableEq

structure ChallengeParameters where
  algorithm : String
  cost : UInt32
  data : Option SignedData
  expiresAt : Option Int
  keyLength : Nat
  keyPrefix : String
  nonce : String
  salt : String
  deriving DecidableEq

structure Challenge where
  parameters : ChallengeParameters
  signature : Option String
  deriving DecidableEq

structure Solution where
  counter : UInt32
  derivedKey : String
  deriving DecidableEq

structure Payload where
  challenge : Challenge
  solution : Solution
  deriving DecidableEq

inductive ProofError where
  | expired
  | missingSignature
  | badSignature
  | unsupportedAlgorithm
  | wrongContext
  | badSolution
  | spent
  | unknownClient
  deriving DecidableEq

structure Verified where
  nonce : String
  purpose : String
  flow : String
  deriving DecidableEq

/-- What verification uses of a client. -/
structure AltchaClient where
  secret : String
  algorithm : String
  deriving DecidableEq

/-! ## Verification -/

/-- The hash functions, in hexadecimal. -/
class ProofCrypto where
  /-- HMAC-SHA256 of the canonical JSON of the parameters. -/
  hmacSha256 (secret : String) (parameters : ChallengeParameters) : String
  /-- The key derived from nonce, counter and salt, unless one of them is malformed. -/
  deriveKey (parameters : ChallengeParameters) (counter : UInt32) : Option String

def supportedAlgorithm : String := "PBKDF2/SHA-256"

def isSupported (algorithm : String) : Bool := eqIgnoreAsciiCase algorithm supportedAlgorithm

def isAsciiHexdigit (c : Char) : Bool := c.isDigit || ('a' ≤ c && c ≤ 'f') || ('A' ≤ c && c ≤ 'F')

/-- The derived key starts with the hex digits of the signed prefix. -/
def keyPrefixMatches (keyPrefix derived : String) : Bool :=
  keyPrefix.toList.all isAsciiHexdigit &&
    (toAsciiLowercase keyPrefix).toList.isPrefixOf derived.toList

namespace ChallengeParameters

/-- The expiry; 0 stands for none. -/
def expiry (p : ChallengeParameters) : Option Int := p.expiresAt.filter fun t => t ≠ 0

/-- Whole seconds, inclusive. -/
def expired (p : ChallengeParameters) (nowMs : Int) : Bool :=
  p.expiry.any fun expiresAt => expiresAt < nowMs.tdiv 1000

theorem expired_of_le {p : ChallengeParameters} {expiresAt nowMs : Int}
    (h : p.expiry = some expiresAt) (hnow : 0 ≤ nowMs) (hle : expiresAt * 1000 + 1000 ≤ nowMs) :
    p.expired nowMs = true := by
  rw [expired, h, Option.any_some, Int.tdiv_eq_ediv_of_nonneg hnow]
  exact decide_eq_true (by omega)

end ChallengeParameters

variable [ProofCrypto]

/-- `verify_solution`, without a look at the secret before the signature is there. -/
def verifySolution (challenge : Challenge) (solution : Solution) (secret : String) (nowMs : Int)
    (expectedPurpose expectedFlow : String) : Except ProofError Verified :=
  let params := challenge.parameters
  if params.expired nowMs then .error .expired
  else
    match challenge.signature with
    | none => .error .missingSignature
    | some signature =>
      if signature ≠ ProofCrypto.hmacSha256 secret params then .error .badSignature
      else if isSupported params.algorithm = false then .error .unsupportedAlgorithm
      else
        match params.data with
        | none => .error .wrongContext
        | some data =>
          let purpose := data.purpose.getD ""
          let flow := data.flow.getD ""
          if purpose ≠ expectedPurpose ∨ flow ≠ expectedFlow then .error .wrongContext
          else
            match ProofCrypto.deriveKey params solution.counter with
            | none => .error .badSolution
            | some derived =>
              if derived ≠ solution.derivedKey ∨ keyPrefixMatches params.keyPrefix derived = false then
                .error .badSolution
              else .ok ⟨params.nonce, purpose, flow⟩

/-- No expired challenge is verified. -/
theorem not_expired_of_verifySolution {challenge : Challenge} {solution : Solution}
    {secret purpose flow : String} {nowMs : Int} {v : Verified}
    (h : verifySolution challenge solution secret nowMs purpose flow = .ok v) :
    challenge.parameters.expired nowMs = false := by
  cases hexpired : challenge.parameters.expired nowMs with
  | false => rfl
  | true =>
    rw [verifySolution, if_pos hexpired] at h
    cases h

/-- A presented proof. Every caller takes the client from the signed data. -/
structure ConsumeRequest where
  client : String
  payload : Payload
  purpose : String
  flow : String
  nowMs : Int
  named : (payload.challenge.parameters.data.bind (·.client)) = some client

namespace ConsumeRequest

def parameters (r : ConsumeRequest) : ChallengeParameters := r.payload.challenge.parameters

/-- How long the marker of a challenge without expiry lives. -/
def noExpiryMarkerMs : Int := 60 * 60 * 1000

/-- When the marker of a spent proof expires. -/
def expiresAtMs (r : ConsumeRequest) : Int :=
  (r.parameters.expiry.map fun secs => saturatingMul secs 1000).getD
    (saturatingAdd r.nowMs noExpiryMarkerMs)

/-- `verify_and_consume` up to the store, with the client that the store has resolved. -/
def verify (r : ConsumeRequest) (client : Option AltchaClient) : Except ProofError Verified :=
  match client with
  | none => .error .unknownClient
  | some client =>
    if eqIgnoreAsciiCase r.parameters.algorithm client.algorithm = false then
      .error .unsupportedAlgorithm
    else verifySolution r.payload.challenge r.payload.solution client.secret r.nowMs r.purpose r.flow

theorem not_expired_of_verify {r : ConsumeRequest} {client : Option AltchaClient} {v : Verified}
    (h : r.verify client = .ok v) : r.parameters.expired r.nowMs = false := by
  cases client with
  | none => cases h
  | some client =>
    rw [verify] at h
    split at h
    · cases h
    · exact not_expired_of_verifySolution h

end ConsumeRequest

end TunnelWeaver.Abuse

import TunnelWeaver.Proto.Policy

/-! The catalog of certificates the relay manages (`cert/managed.rs`), and the rule that maps a
hostname to the certificate that covers it. -/

namespace TunnelWeaver.Server

open Proto (toAsciiLowercase)
open Proto.Policy (trim)

/-- Lowercase, without surrounding whitespace and trailing dots. -/
def normalizeDomain (domain : String) : String :=
  toAsciiLowercase (String.ofList ((trim domain.toList).rdropWhile (· == '.')))

/-- `str::strip_suffix`. -/
def stripSuffix (back s : String) : Option String :=
  (back.toList.isSuffixOf? s.toList).map String.ofList

inductive Validation where
  | dns01
  | http01
  deriving DecidableEq

structure ManagedCert where
  name : String
  identifiers : List String
  validation : Validation
  deriving DecidableEq

/-- Whether a DNS pattern covers a host: an exact name, or one label beneath the base of a `*.`. -/
def identifierCovers (pattern host : String) : Bool :=
  let pattern := normalizeDomain pattern
  let host := normalizeDomain host
  match "*.".toList.isPrefixOf? pattern.toList with
  | some base =>
    base ≠ [] && (stripSuffix (String.ofList base) host).any fun front =>
      (stripSuffix "." front).any fun label => label ≠ "" && !label.toList.contains '.'
  | none => host == pattern

def ManagedCert.covers (c : ManagedCert) (host : String) : Bool :=
  c.identifiers.any (identifierCovers · host)

def ManagedCert.wildcard (c : ManagedCert) : Bool :=
  c.identifiers.any fun id => "*.".toList.isPrefixOf id.toList

/-- What the relay's configuration says of its domains. -/
structure Domains where
  tunnelDomain : String
  adminDomain : String

namespace Domains

def adminCert (d : Domains) : ManagedCert where
  name := normalizeDomain d.adminDomain
  identifiers := [normalizeDomain d.adminDomain]
  validation := .http01

/-- The wildcard certificate of the tunnels. -/
def tunnelCert (d : Domains) : ManagedCert where
  name := normalizeDomain d.tunnelDomain
  identifiers := [normalizeDomain d.tunnelDomain, "*." ++ normalizeDomain d.tunnelDomain]
  validation := .dns01

/-- `ManagedCerts::from_config`. -/
def managed (d : Domains) : List ManagedCert := [d.adminCert, d.tunnelCert]

def certFor (d : Domains) (host : String) : Option ManagedCert := d.managed.find? (·.covers host)

def byName (d : Domains) (name : String) : Option ManagedCert :=
  d.managed.find? (·.name == normalizeDomain name)

/-- `domain_split_issue`: the configuration is refused unless it finds nothing. -/
def splitIssue (d : Domains) : Option String :=
  let admin := normalizeDomain d.adminDomain
  let root := normalizeDomain d.tunnelDomain
  if admin == "" || root == "" then
    some "admin_domain and tunnel_domain must both be non-empty"
  else if admin == root then some "admin_domain and tunnel_domain must differ"
  else if (stripSuffix ("." ++ root) admin).isSome then
    some ("admin_domain '" ++ admin ++ "' must not be a subdomain of the tunnel domain '" ++ root ++
      "'")
  else none

end Domains

end TunnelWeaver.Server

import Mathlib

/-! References as browsers resolve them (the URL parser of the WHATWG standard), as far as the
origin of the result goes. The base has one of the special schemes; how a host is parsed is a
parameter. -/

namespace TunnelWeaver.Url

/-- The special schemes that have an origin. -/
inductive Scheme
  | ftp
  | http
  | https
  | ws
  | wss
  deriving DecidableEq

namespace Scheme

def name : Scheme → String
  | ftp => "ftp"
  | http => "http"
  | https => "https"
  | ws => "ws"
  | wss => "wss"

def defaultPort : Scheme → Nat
  | ftp => 21
  | http | ws => 80
  | https | wss => 443

def ofName? (name : List Char) : Option Scheme :=
  [ftp, http, https, ws, wss].find? fun scheme => scheme.name.toList = name

end Scheme

/-- An origin: a scheme, a host and a port, unless it is the scheme's own. -/
structure Origin (Host : Type) where
  scheme : Scheme
  host : Host
  port : Option Nat
  deriving DecidableEq

/-- What a reference resolves to. -/
inductive Resolved (Host : Type)
  | failure
  /-- A URL whose origin is its own. -/
  | opaqueOrigin
  | within (origin : Origin Host)
  deriving DecidableEq

/-! ## Characters -/

/-- What is trimmed at either end. -/
def isC0ControlOrSpace (c : Char) : Bool := c.toNat ≤ 0x20

/-- What is removed anywhere. -/
def isTabOrNewline (c : Char) : Bool := c = '\t' || c = '\n' || c = '\r'

/-- A backslash counts as a slash. -/
def isSlash (c : Char) : Bool := c = '/' || c = '\\'

def endsAuthority (c : Char) : Bool := isSlash c || c = '?' || c = '#'

/-- The input as the states of the parser meet it. -/
def strip (input : List Char) : List Char :=
  ((input.dropWhile isC0ControlOrSpace).rdropWhile isC0ControlOrSpace).filter (!isTabOrNewline ·)

/-! ## The parser -/

/-- A scheme and what follows its colon. -/
def splitScheme : List Char → Option (List Char × List Char)
  | [] => none
  | c :: rest =>
    if !c.isAlpha then none
    else
      let more := rest.takeWhile fun c => c.isAlphanum || c = '+' || c = '-' || c = '.'
      match rest.drop more.length with
      | ':' :: rest => some ((c :: more).map Char.toLower, rest)
      | _ => none

/-- A host and what follows its colon, which does not stand in brackets. -/
def splitHost : Bool → List Char → List Char × List Char
  | _, [] => ([], [])
  | inside, c :: rest =>
    if c = ':' && !inside then ([], rest)
    else
      let (host, port) := splitHost (c = '[' || (inside && c ≠ ']')) rest
      (c :: host, port)

/-- The port of an authority. -/
def parsePort (scheme : Scheme) (digits : List Char) : Option (Option Nat) :=
  if digits.isEmpty then some none
  else if !digits.all Char.isDigit then none
  else
    let port := digits.foldl (fun n c => 10 * n + (c.toNat - '0'.toNat)) 0
    if 65535 < port then none else some (if port = scheme.defaultPort then none else some port)

section
variable {Host : Type} (parseHost : List Char → Option Host)

/-- What the two slashes introduce: credentials, a host and a port. -/
def authority (scheme : Scheme) (rest : List Char) : Resolved Host :=
  let hostPort := (rest.takeWhile (!endsAuthority ·)).rtakeWhile (· ≠ '@')
  let (host, port) := splitHost false hostPort
  if host.isEmpty then .failure
  else match parseHost host, parsePort scheme port with
    | some host, some port => .within ⟨scheme, host, port⟩
    | _, _ => .failure

/-- A reference without a scheme: only two slashes lead away from the base. -/
def relative (base : Origin Host) : List Char → Resolved Host
  | c :: c' :: rest =>
    if isSlash c && isSlash c' then authority parseHost base.scheme (rest.dropWhile isSlash)
    else .within base
  | _ => .within base

/-- Where `input` leads from `base`. -/
def resolve (base : Origin Host) (input : List Char) : Resolved Host :=
  match splitScheme (strip input) with
  | none => relative parseHost base (strip input)
  | some (name, rest) =>
    match Scheme.ofName? name with
    | none => .opaqueOrigin
    | some scheme =>
      if scheme = base.scheme && !(['/', '/'].isPrefixOf rest) then relative parseHost base rest
      else authority parseHost scheme (rest.dropWhile isSlash)

end

/-! ## References that begin with a slash -/

section
variable {Host : Type} {parseHost : List Char → Option Host} {base : Origin Host}
  {input rest : List Char}

/-- What is left of a reference after its first character. -/
def stripTail (rest : List Char) : List Char :=
  (rest.rdropWhile isC0ControlOrSpace).filter (!isTabOrNewline ·)

theorem rdropWhile_append_cons {p : Char → Bool} {c : Char} (gap : List Char) (h : p c = false) :
    (gap ++ c :: rest).rdropWhile p = gap ++ c :: rest.rdropWhile p := by
  have hdrop : (rest.reverse ++ c :: gap.reverse).dropWhile p =
      rest.reverse.dropWhile p ++ c :: gap.reverse := by
    rw [List.dropWhile_append]
    split
    case isTrue hempty =>
      rw [List.isEmpty_iff.mp hempty, List.dropWhile_cons_of_neg (by simp [h])]
      rfl
    case isFalse => rfl
  simp [List.rdropWhile, hdrop]

theorem strip_slash : strip ('/' :: rest) = '/' :: stripTail rest := by
  rw [strip, List.dropWhile_cons_of_neg (by decide), ← List.nil_append ('/' :: rest),
    rdropWhile_append_cons [] (by decide), List.nil_append,
    List.filter_cons_of_pos (by decide)]
  rfl

theorem mem_of_mem_stripTail {c : Char} (h : c ∈ stripTail rest) : c ∈ rest :=
  (List.rdropWhile_prefix isC0ControlOrSpace rest).subset (List.mem_of_mem_filter h)

theorem splitScheme_slash : splitScheme ('/' :: rest) = none := rfl

theorem resolve_slash : resolve parseHost base ('/' :: rest) =
    relative parseHost base ('/' :: stripTail rest) := by
  rw [resolve, strip_slash, splitScheme_slash]

/-- The next thing that is read after a slash is a slash, when only removed characters stand
between. -/
theorem stripTail_eq_cons_iff : (∃ more, stripTail rest = '/' :: more) ↔
    ∃ gap more, rest = gap ++ '/' :: more ∧ ∀ c ∈ gap, isTabOrNewline c := by
  constructor
  · rintro ⟨more, h⟩
    obtain ⟨gap, kept, hkept, hgap, -, -⟩ := List.filter_eq_cons_iff.mp h
    obtain ⟨trimmed, htrimmed⟩ := List.rdropWhile_prefix isC0ControlOrSpace rest
    refine ⟨gap, kept ++ trimmed, ?_, fun c hc => by simpa using hgap c hc⟩
    rw [← htrimmed, hkept, List.append_assoc, List.cons_append]
  · rintro ⟨gap, more, rfl, hgap⟩
    have hremoved : gap.filter (!isTabOrNewline ·) = [] :=
      List.filter_eq_nil_iff.mpr fun c hc => by simp [hgap c hc]
    refine ⟨stripTail more, ?_⟩
    rw [stripTail, rdropWhile_append_cons gap (by decide), List.filter_append, hremoved,
      List.filter_cons_of_pos (by decide)]
    rfl

end

end TunnelWeaver.Url

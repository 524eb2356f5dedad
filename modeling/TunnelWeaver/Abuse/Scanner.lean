import TunnelWeaver.Lib.Ascii
import TunnelWeaver.Lib.Lanes

/-! The scanner-probe ruleset (`scanner.rs`). Strings are their UTF-8 bytes: the rules compare only
ASCII characters. -/

namespace TunnelWeaver.Abuse

open Lanes (Holds ofLeBytes)

inductive ScanVerdict where
  | dotfile
  | traversal
  | leftover
  | secretMaterial
  | debugEndpoint
  | malformed
  | trace
  deriving DecidableEq

namespace Scanner

abbrev Bytes := List UInt8

/-- The bytes of a literal, which has only ASCII characters. -/
def ascii (s : String) : Bytes := (s.toList.filter (·.toNat < 128)).map Ascii.byte

/-! ## Classification -/

def ones : UInt64 := 0x0101010101010101
def highs : UInt64 := 0x8080808080808080
def dels : UInt64 := 0x7f7f7f7f7f7f7f7f

/-- The high bit of every byte whose low seven bits are at least `m`. -/
def geMask (x : UInt64) (m : UInt8) : UInt64 := ((x ||| highs) - ones * m.toUInt64) &&& highs

/-- Nonzero when some byte is DEL. -/
def eqDelMask (x : UInt64) : UInt64 :=
  let y := x ^^^ dels
  (y - ones) &&& ~~~y &&& highs

/-- `slice::as_chunks`: the pieces of `n` bytes and what is left. -/
def asChunks (n : Nat) (bytes : Bytes) : List Bytes × Bytes :=
  ((List.range (bytes.length / n)).map fun i => (bytes.drop (n * i)).take n,
    bytes.drop (n * (bytes.length / n)))

def isControl (b : UInt8) : Bool := b < 0x20 || b == 0x7f

def isAsciiUppercase (b : UInt8) : Bool := 0x41 ≤ b && b ≤ 0x5a

/-- One byte: whether there was a malformed one so far, and an uppercase one. -/
def classifyByte (acc : Bool × Bool) (b : UInt8) : Bool × Bool :=
  (acc.1 || isControl b, acc.2 || isAsciiUppercase b)

/-- Eight bytes at once. -/
def classifyWord (acc : Bool × Bool) (c : Bytes) : Bool × Bool :=
  let x := ofLeBytes c
  let high := x &&& highs
  (acc.1 || (geMask x 0x20 ^^^ highs) &&& ~~~high != 0 || eqDelMask x != 0,
    acc.2 || geMask x 0x41 &&& ~~~geMask x 0x5b &&& ~~~high != 0)

def classify (bytes : Bytes) : Bool × Bool :=
  let r := asChunks 8 bytes
  r.2.foldl classifyByte (r.1.foldl classifyWord (false, false))

/-- The scalar reference. -/
def classifyRef (bytes : Bytes) : Bool × Bool := bytes.foldl classifyByte (false, false)

variable {c bytes : Bytes} {x : UInt64}

theorem holds_ones (h : c.length = 8) : Holds ones c fun _ => 1 := .const h rfl

theorem holds_highs (h : c.length = 8) : Holds highs c fun _ => 0x80 := .const h rfl

/-- A byte whose high bit is set is at least as large as any `m` below it, so nothing borrows. -/
theorem holds_geMask {m : UInt8} (hm : m ≤ 0x80)
    (hones : (ones * m.toUInt64).toNat = Lanes.pack (List.replicate 8 m)) (hx : Holds x c id) :
    Holds (geMask x m) c fun b => ((b ||| 0x80) - m) &&& 0x80 := by
  have hor := hx.or (holds_highs hx.length)
  have hhigh : ∀ b : UInt8, 0x80 ≤ id b ||| 0x80 := by decide +kernel
  have hle : ∀ b : UInt8, m ≤ id b ||| 0x80 := fun b => UInt8.le_trans hm (hhigh b)
  exact (hor.sub (.const hx.length hones) hle).and (holds_highs hx.length)

theorem mask_ne_zero_iff {f : UInt8 → UInt8} {p : UInt8 → Bool} (hx : Holds x c f)
    (h : ∀ b, f b ≠ 0 ↔ p b = true) : (x != 0) = c.any p := by
  rw [Bool.eq_iff_iff, List.any_eq_true, bne_iff_ne, ne_eq, hx.eq_zero_iff]
  simp only [not_forall, exists_prop]
  exact exists_congr fun b => and_congr_right fun _ => h b

/-- The range test for control characters. -/
theorem below_space (hc : c.length = 8) :
    ((geMask (ofLeBytes c) 0x20 ^^^ highs) &&& ~~~(ofLeBytes c &&& highs) != 0) =
      c.any (· < 0x20) := by
  have hx := Holds.ofLeBytes hc
  have hhigh := holds_highs hc
  have hspace := holds_geMask (m := 0x20) (by decide) (by decide +kernel) hx
  exact mask_ne_zero_iff ((hspace.xor hhigh).and (hx.and hhigh).not) (by decide +kernel)

theorem has_del (hc : c.length = 8) : (eqDelMask (ofLeBytes c) != 0) = c.any (· == 0x7f) := by
  have hy := (Holds.ofLeBytes hc).xor (Holds.const (x := dels) (k := 0x7f) hc rfl)
  have hzero := hy.zero_byte_iff (holds_ones hc) (holds_highs hc)
  rw [Bool.eq_iff_iff, List.any_eq_true, bne_iff_ne, ne_eq, eqDelMask, hzero]
  simp only [not_forall, not_not, exists_prop]
  have hxor : ∀ b : UInt8, id b ^^^ 0x7f = 0 ↔ (b == 0x7f) = true := by decide +kernel
  exact exists_congr fun b => and_congr_right fun _ => hxor b

theorem has_uppercase (hc : c.length = 8) :
    (geMask (ofLeBytes c) 0x41 &&& ~~~geMask (ofLeBytes c) 0x5b &&& ~~~(ofLeBytes c &&& highs) != 0) =
      c.any isAsciiUppercase := by
  have hx := Holds.ofLeBytes hc
  have hupper := holds_geMask (m := 0x41) (by decide) (by decide +kernel) hx
  have hbeyond := holds_geMask (m := 0x5b) (by decide) (by decide +kernel) hx
  exact mask_ne_zero_iff ((hupper.and hbeyond.not).and (hx.and (holds_highs hc)).not)
    (by decide +kernel)

theorem foldl_classifyByte (acc : Bool × Bool) (bytes : Bytes) :
    bytes.foldl classifyByte acc = (acc.1 || bytes.any isControl, acc.2 || bytes.any isAsciiUppercase) := by
  induction bytes generalizing acc with
  | nil => simp
  | cons b bs ih =>
    rw [List.foldl_cons, ih]
    simp only [classifyByte, List.any_cons, Bool.or_assoc]

/-- A word is classified like its bytes. -/
theorem classifyWord_eq (acc : Bool × Bool) (hc : c.length = 8) :
    classifyWord acc c = c.foldl classifyByte acc := by
  have hcontrol : c.any isControl = (c.any (· < 0x20) || c.any (· == 0x7f)) := by
    rw [Bool.eq_iff_iff]
    simp [isControl, and_or_left, exists_or]
  unfold classifyWord
  dsimp only
  rw [foldl_classifyByte, below_space hc, has_del hc, has_uppercase hc, hcontrol, Bool.or_assoc]

theorem flatten_chunks (n : Nat) (bytes : Bytes) (k : Nat) :
    ((List.range k).map fun i => (bytes.drop (n * i)).take n).flatten = bytes.take (n * k) := by
  induction k with
  | zero => simp
  | succ k ih =>
    rw [List.range_succ, List.map_append, List.flatten_append, ih, Nat.mul_succ, List.take_add]
    simp

theorem length_of_mem_asChunks {n : Nat} (hc : c ∈ (asChunks n bytes).1) : c.length = n := by
  obtain ⟨i, hi, rfl⟩ := List.mem_map.mp hc
  have hi := List.mem_range.mp hi
  have hlt : n * (i + 1) ≤ bytes.length :=
    (Nat.mul_le_mul_left n hi).trans (Nat.mul_div_le bytes.length n)
  rw [List.length_take, List.length_drop, Nat.mul_succ] at *
  omega

/-- The words and the rest are classified like the bytes, one by one. -/
theorem classify_eq_classifyRef (bytes : Bytes) : classify bytes = classifyRef bytes := by
  have hwords : ∀ cs : List Bytes, (∀ c ∈ cs, c.length = 8) → ∀ acc,
      cs.foldl classifyWord acc = cs.flatten.foldl classifyByte acc := by
    intro cs
    induction cs with
    | nil => exact fun _ _ => rfl
    | cons c cs ih =>
      intro hlen acc
      obtain ⟨hc, hcs⟩ := List.forall_mem_cons.mp hlen
      rw [List.foldl_cons, classifyWord_eq acc hc, ih hcs, List.flatten_cons, List.foldl_append]
  unfold classify
  dsimp only
  rw [hwords _ fun c hc => length_of_mem_asChunks hc, ← List.foldl_append]
  unfold asChunks
  dsimp only
  rw [flatten_chunks, List.take_append_drop]
  rfl

/-- The classification is exact: it finds a control character or DEL exactly when there is one, and
an uppercase letter. -/
theorem classify_exact (bytes : Bytes) : classify bytes = classifyRef bytes ∧
    ((classify bytes).1 = true ↔ ∃ b ∈ bytes, b < 0x20 ∨ b = 0x7f) ∧
    ((classify bytes).2 = true ↔ ∃ b ∈ bytes, 0x41 ≤ b ∧ b ≤ 0x5a) := by
  rw [classify_eq_classifyRef, classifyRef, foldl_classifyByte]
  simp [isControl, isAsciiUppercase]

/-! ## Decoding -/

def hex (b : UInt8) : Option UInt8 :=
  if 0x30 ≤ b ∧ b ≤ 0x39 then some (b - 0x30)
  else if 0x61 ≤ b ∧ b ≤ 0x66 then some (b - 0x61 + 10)
  else if 0x41 ≤ b ∧ b ≤ 0x46 then some (b - 0x41 + 10)
  else none

/-- Every complete escape is decoded, anything else is kept. -/
def percentDecode : Bytes → Bytes
  | b :: hi :: lo :: rest =>
    if b = 0x25 then
      match hex hi, hex lo with
      | some h, some l => (h <<< 4 ||| l) :: percentDecode rest
      | _, _ => b :: percentDecode (hi :: lo :: rest)
    else b :: percentDecode (hi :: lo :: rest)
  | bytes => bytes

/-- A character of several bytes that is not complete: its bytes so far, and the ranges of those
that are to come. -/
structure Incomplete where
  bytes : Bytes
  next : UInt8 × UInt8
  later : List (UInt8 × UInt8)

/-- The ranges of the bytes that follow the first of a character. -/
def continuation (first : UInt8) : List (UInt8 × UInt8) :=
  if 0xc2 ≤ first ∧ first ≤ 0xdf then [(0x80, 0xbf)]
  else if first = 0xe0 then [(0xa0, 0xbf), (0x80, 0xbf)]
  else if first = 0xed then [(0x80, 0x9f), (0x80, 0xbf)]
  else if 0xe1 ≤ first ∧ first ≤ 0xef then [(0x80, 0xbf), (0x80, 0xbf)]
  else if first = 0xf0 then [(0x90, 0xbf), (0x80, 0xbf), (0x80, 0xbf)]
  else if 0xf1 ≤ first ∧ first ≤ 0xf3 then [(0x80, 0xbf), (0x80, 0xbf), (0x80, 0xbf)]
  else if first = 0xf4 then [(0x80, 0x8f), (0x80, 0xbf), (0x80, 0xbf)]
  else []

/-- U+FFFD. -/
def replacement : Bytes := [0xef, 0xbf, 0xbd]

/-- The first byte of a character: what it puts out, and the character it begins. -/
def beginChar (b : UInt8) : Bytes × Option Incomplete :=
  if b < 0x80 then ([b], none)
  else match continuation b with
    | [] => (replacement, none)
    | r :: rs => ([], some ⟨[b], r, rs⟩)

/-- `String::from_utf8_lossy`: every byte sequence that begins a character and does not complete it
becomes one U+FFFD. -/
def lossy : Option Incomplete → Bytes → Bytes
  | none, [] => []
  | some _, [] => replacement
  | none, b :: rest => (beginChar b).1 ++ lossy (beginChar b).2 rest
  | some p, b :: rest =>
    if p.next.1 ≤ b ∧ b ≤ p.next.2 then
      match p.later with
      | [] => p.bytes ++ b :: lossy none rest
      | r :: rs => lossy (some ⟨p.bytes ++ [b], r, rs⟩) rest
    else replacement ++ (beginChar b).1 ++ lossy (beginChar b).2 rest

def fromUtf8Lossy (bytes : Bytes) : Bytes := lossy none bytes

def percentDecodeLossy (input : Bytes) : Bytes := fromUtf8Lossy (percentDecode input)

/-- The second pass runs only when the first left an escape. -/
def decodeTwice (path : Bytes) : Bytes :=
  if path.contains 0x25 then
    let once := percentDecodeLossy path
    if once.contains 0x25 then percentDecodeLossy once else once
  else path

/-! ## Rules -/

def toAsciiLower (b : UInt8) : UInt8 := if isAsciiUppercase b then b + 0x20 else b

def dotfileRiskPrefixes : List Bytes := [".env", ".git"].map ascii

def riskyDotfiles : List Bytes :=
  [".ds_store", ".aws", ".bash_history", ".config", ".docker", ".dockercfg", ".gnupg", ".hg",
    ".htaccess", ".htpasswd", ".idea", ".mysql_history", ".netrc", ".npmrc", ".psql_history",
    ".pypirc", ".python_history", ".ssh", ".svn", ".terraform", ".vscode", ".wgetrc", ".yarnrc",
    ".zsh_history"].map ascii

def isRiskyDotfile (segment : Bytes) : Bool :=
  dotfileRiskPrefixes.any (·.isPrefixOf segment) || riskyDotfiles.contains segment

def debugPairs : List (Bytes × Bytes) :=
  [("actuator", "env"), ("actuator", "heapdump"), ("actuator", "configprops"), ("@vite", "env"),
    ("ecp", "current"), ("v2", "_catalog"), ("_ignition", "execute-solution"),
    ("debug", "default"), ("solr", "admin")].map fun p => (ascii p.1, ascii p.2)

def leftoverExtensions : List Bytes :=
  ["bak", "backup", "old", "orig", "save", "swp", "swo", "tmp", "dist"].map ascii

def secretExtensions : List Bytes :=
  ["sql", "sqlite", "sqlite3", "db", "pem", "key", "p12", "pfx", "jks", "keystore", "ppk",
    "htpasswd", "htaccess"].map ascii

def debugRoots : List Bytes :=
  ["env", "phpmyadmin", "pma", "myadmin", "adminer", "adminer.php", "phpinfo.php", "info.php",
    "telescope", "_debugbar", "_profiler", "server-status", "server-info", "trace.axd",
    "elmah.axd", "___proxy_subdomain_whm", "___proxy_subdomain_cpanel", "cgi-bin",
    "wp-config.php", "config.php", "configuration.php", "web.config", "docker-compose.yml",
    "docker-compose.yaml", "dockerfile", "composer.lock", "package-lock.json", "yarn.lock",
    "credentials", "credentials.json", "secrets.json", "config.json", "config.yml",
    "config.yaml"].map ascii

def pairRoots : List Bytes :=
  ["actuator", "@vite", "ecp", "v2", "_ignition", "debug", "solr"].map ascii

/-- What one pass over the segments remembers. -/
structure Seen where
  first : Bytes
  second : Bytes
  last : Bytes
  dotfile : Bool

/-- The segments from number `idx` on; a `..` ends the pass. -/
def scanSegments : Nat → Seen → List Bytes → Option Seen
  | _, seen, [] => some seen
  | idx, seen, seg :: rest =>
    if seg = ascii ".." then none
    else scanSegments (idx + 1)
      { first := if idx = 0 then seg else seen.first
        second := if idx = 1 then seg else seen.second
        last := seg
        dotfile := seen.dotfile || ((ascii ".").isPrefixOf seg &&
          !(idx == 0 && seg == ascii ".well-known") && isRiskyDotfile seg) } rest

/-- What follows the last dot. -/
def extension : Bytes → Option Bytes
  | [] => none
  | b :: rest => match extension rest with
    | some ext => some ext
    | none => if b = 0x2e then some rest else none

/-- The rules for the last segment. -/
def inspectLast (last : Bytes) : Option ScanVerdict :=
  if last.isEmpty then none
  else if (ascii "~").isSuffixOf last then some .leftover
  else if (ascii "id_rsa").isSuffixOf last || (ascii "id_ed25519").isSuffixOf last then
    some .secretMaterial
  else (extension last).bind fun ext =>
    if leftoverExtensions.contains ext then some .leftover
    else if secretExtensions.contains ext then some .secretMaterial
    else if ext = ascii "gz" ∧ (ascii ".sql.gz").isSuffixOf last then some .secretMaterial
    else none

def isSeparator (b : UInt8) : Bool := b == 0x2f || b == 0x5c

/-- The rules for a lowercase path. -/
def inspectLower (lower : Bytes) : Option ScanVerdict :=
  match scanSegments 0 ⟨[], [], [], false⟩
      ((lower.splitOnP isSeparator).filter fun seg => !seg.isEmpty) with
  | none => some .traversal
  | some seen =>
    if seen.dotfile then some .dotfile
    else match inspectLast seen.last with
      | some verdict => some verdict
      | none =>
        if !seen.first.isEmpty && debugRoots.contains seen.first then some .debugEndpoint
        else if !seen.second.isEmpty && pairRoots.contains seen.first &&
            debugPairs.contains (seen.first, seen.second) then some .debugEndpoint
        else none

/-- The rules for a decoded path. -/
def inspectDecoded (decoded : Bytes) : Option ScanVerdict :=
  let c := classify decoded
  if c.1 then some .malformed
  else inspectLower (if c.2 then decoded.map toAsciiLower else decoded)

def isPathEnd (b : UInt8) : Bool := b == 0x3f || b == 0x23

/-- `none` is to forward the request. -/
def inspect (method : String) (rawPath : Bytes) : Option ScanVerdict :=
  if method = "TRACE" then some .trace
  else inspectDecoded (decodeTwice (rawPath.takeWhile fun b => !isPathEnd b))

end Scanner

end TunnelWeaver.Abuse

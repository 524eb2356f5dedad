import TunnelWeaver.Proto.Schema

/-! Scheduling class and compression stance of a visitor exchange (`policy.rs`), read off its
heads. -/

namespace TunnelWeaver.Proto.Policy

open Mux (Bytes Compress)

def controlCompress : Compress := .never

def headCompress : Compress := .never

def controlClass : Mux.Class := .interactive

/-- Declared body size above which a stream is opened as bulk. -/
def bulkThreshold : Nat := Mux.defaultBulkThreshold

/-- `str::from_utf8(..).ok()`. -/
def fromUtf8 (bytes : Bytes) : Option String := String.fromUTF8? (ByteArray.mk bytes.toArray)

/-- `char::is_whitespace`: the Unicode property `White_Space`. -/
def isWhitespace (c : Char) : Bool :=
  let n := c.toNat
  decide (9 ≤ n ∧ n ≤ 13 ∨ 0x2000 ≤ n ∧ n ≤ 0x200a) ||
    [0x20, 0x85, 0xa0, 0x1680, 0x2028, 0x2029, 0x202f, 0x205f, 0x3000].contains n

/-- `str::trim`. -/
def trim (s : List Char) : List Char :=
  ((s.dropWhile isWhitespace).reverse.dropWhile isWhitespace).reverse

/-- `type/subtype` of a MIME header value: lowercase, parameters stripped. -/
def mimeEssence (contentType : Option Bytes) : Option String := do
  let ct ← fromUtf8 (← contentType)
  return toAsciiLowercase (String.ofList (trim (ct.toList.takeWhile (· ≠ ';'))))

/-- Decimal digits, after an optional plus sign. -/
def parseNat (s : List Char) : Option Nat :=
  let digits := match s with
    | '+' :: rest => rest
    | _ => s
  if digits.isEmpty || !digits.all Char.isDigit then none
  else some (digits.foldl (fun n c => 10 * n + (c.toNat - '0'.toNat)) 0)

/-- `str::parse::<u64>` of the trimmed value. -/
def contentLength (value : Option Bytes) : Option Nat := do
  let n ← parseNat (trim (← fromUtf8 (← value)).toList)
  if n < 2 ^ 64 then some n else none

def isEventStream (contentType : Option Bytes) : Bool :=
  mimeEssence contentType == some "text/event-stream"

def isRealtimeRequest (req : HttpHead) : Bool :=
  (req.header "upgrade").isSome || isEventStream (req.header "accept")

def isBulk (length : Option Bytes) : Bool :=
  (contentLength length).any (bulkThreshold < ·)

/-- Scheduling class for the stream carrying this request. -/
def requestClass (req : HttpHead) : Mux.Class :=
  if isRealtimeRequest req then .realtime
  else if isBulk (req.header "content-length") then .bulk
  else .interactive

/-- The class a response head moves the stream to, if any. -/
def responseClass (req : HttpHead) (resp : HttpResponseHead) : Option Mux.Class :=
  if isRealtimeRequest req then none
  else if isEventStream (resp.header "content-type") then some .realtime
  else if isBulk (resp.header "content-length") then some .bulk
  else none

def carriesSecret (req : HttpHead) : Bool :=
  (req.header "authorization").isSome || (req.header "cookie").isSome

/-- Types whose bytes are already compressed. -/
def mimeIsPrecompressed (contentType : Option Bytes) : Bool :=
  match mimeEssence contentType with
  | none => false
  | some essence =>
    if essence == "image/svg+xml" then false
    else if ["image/", "video/", "audio/", "font/woff"].any fun p =>
        p.toList.isPrefixOf essence.toList then true
    else ["application/zip", "application/gzip", "application/zstd", "application/x-xz",
      "application/pdf", "application/wasm", "application/octet-stream"].contains essence

/-- Compression stance for request body chunks. -/
def requestBodyCompress (req : HttpHead) : Compress :=
  if isRealtimeRequest req || (req.header "content-encoding").isSome ||
      mimeIsPrecompressed (req.header "content-type") || carriesSecret req then .never
  else .auto

/-- Bodies often templated from request data. -/
def mimeIsReflectable (contentType : Option Bytes) : Bool :=
  match mimeEssence contentType with
  | none => false
  | some essence => ["text/html", "application/json", "application/xhtml+xml"].contains essence

/-- Compression stance for response body chunks. -/
def responseBodyCompress (req : HttpHead) (resp : HttpResponseHead) : Compress :=
  if isRealtimeRequest req || isEventStream (resp.header "content-type") ||
      (resp.header "content-encoding").isSome ||
      mimeIsPrecompressed (resp.header "content-type") ||
      (carriesSecret req && mimeIsReflectable (resp.header "content-type")) then .never
  else .auto

end TunnelWeaver.Proto.Policy

import Netom.Lib.Assoc
import Netom.Lib.LittleEndian
import Netom.Lib.Segments

/-!
# The spool of the ClickHouse target

Rows wait in segment files until they are uploaded.  A segment has a header with a magic number and a
token, frames of compressed rows, and a footer with the number of rows and a hash of the headers.  It
is written as an `.open` file and renamed to `.ready` once the footer is there.

* `Segment.append`, `Segment.seal`  writing;
* `scan`  reading: all of a file, or in recovery all that is complete;
* `validate`, `replay`  reading a sealed segment;
* `recover`, `openSpool`  what is done with `.open` files that a crash has left.

LZ4 and SHA-256 are parameters.  What `update` has fed into a hash is kept as bytes.
-/

namespace Netom.ClickHouse
open LittleEndian

abbrev Bytes := List (BitVec 8)

/-! ## compression and hash -/

/-- the blocks of `lz4_flex`, with the bound on their size that the format gives -/
structure Lz4 where
  compress : Bytes → Bytes
  decompress : Bytes → Nat → Option Bytes
  decompress_compress : ∀ b, decompress (compress b) b.length = some b
  compress_ne_nil : ∀ b, compress b ≠ []
  length_compress : ∀ b, (compress b).length ≤ b.length + b.length / 255 + 16

structure Sha256 where
  digest : Bytes → Bytes
  length_digest : ∀ b, (digest b).length = 32

inductive SpoolError where
  | invalid (msg : String)
  | unexpectedEof
  | notFound
  | io
  deriving DecidableEq, Repr

/-! ## writing -/

/-- "NETOMCH1" -/
def magic : Bytes := [0x4E, 0x45, 0x54, 0x4F, 0x4D, 0x43, 0x48, 0x31]

def maxFrame : Nat := 4 * 1024 * 1024

def frameHeaderLen : Nat := 44

abbrev Token := Vector (BitVec 8) 16

/-- a segment that is being written; `file` is what it holds up to the position of the next write -/
structure Segment where
  file : Bytes
  hash : Bytes
  rows : Nat
  rawBytes : Nat

/-- what is appended at once: rows as text, and how many -/
structure Frame where
  bytes : Bytes
  rows : Nat
  rows_lt : rows < 2 ^ 32

def checkedAdd (a b : Nat) : Option Nat := if a + b < 2 ^ 32 then some (a + b) else none

def Segment.create (id : Token) : Segment := ⟨magic ++ id.toList, magic ++ id.toList, 0, 0⟩

section
variable (lz4 : Lz4) (sha : Sha256)

def frameHeader (f : Frame) : Bytes :=
  le32 (lz4.compress f.bytes).length ++ (le32 f.bytes.length ++ (le32 f.rows ++ sha.digest f.bytes))

def encodeFrame (f : Frame) : Bytes := frameHeader lz4 sha f ++ lz4.compress f.bytes

/-- `written` says whether the write to the disk succeeds; one that does not is rolled back -/
def Segment.append (s : Segment) (f : Frame) (written : Bool) : Segment × Option SpoolError :=
  if f.bytes.isEmpty ∨ maxFrame < f.bytes.length ∨ f.rows = 0 then
    (s, some (.invalid "invalid spool frame size/row count"))
  else if !written then (s, some .io)
  else
    let s := { s with file := s.file ++ encodeFrame lz4 sha f, hash := s.hash ++ frameHeader lz4 sha f }
    match checkedAdd s.rows f.rows with
    | none => (s, some (.invalid "segment row count overflow"))
    | some rows => ({ s with rows := rows, rawBytes := s.rawBytes + f.bytes.length }, none)

def footer (rows : Nat) (hash : Bytes) : Bytes :=
  List.replicate 8 0 ++ (le32 rows ++ sha.digest hash)

/-- the content of the sealed file -/
def Segment.seal (s : Segment) : Bytes := s.file ++ footer sha s.rows s.hash

/-- frames appended one after the other, each with success -/
def Segment.appendAll : Segment → List Frame → Except SpoolError Segment
  | s, [] => .ok s
  | s, f :: fs =>
    match s.append lz4 sha f true with
    | (s, none) => Segment.appendAll s fs
    | (_, some e) => .error e

/-! ## reading -/

/-- what `scan` returns, with the frames it has emitted -/
structure Scan where
  token : Bytes
  rows : Nat
  offset : Nat
  hash : Option Bytes
  frames : List Bytes

/-- where a scan stands -/
structure Cursor where
  rest : Bytes
  rows : Nat
  offset : Nat
  hash : Bytes
  frames : List Bytes

inductive Turn where
  | done (hash : Option Bytes)
  | next (c : Cursor)

/-- the end of the file: accepted in recovery only -/
def atEof (recovery : Bool) (c : Cursor) : Except SpoolError Turn :=
  if recovery then .ok (.done (some c.hash)) else .error .unexpectedEof

/-- the body of a frame, after its header `h` -/
def scanBody (recovery : Bool) (c : Cursor) (h rest : Bytes) (compressedLen rawLen n : Nat) :
    Except SpoolError Turn :=
  if rest.length < compressedLen then atEof recovery c
  else
    match lz4.decompress (rest.take compressedLen) rawLen with
    | none => .error (.invalid "invalid LZ4 frame")
    | some raw =>
      if raw.length ≠ rawLen ∨ sha.digest raw ≠ h.drop 12 then
        .error (.invalid "spool payload checksum mismatch")
      else
        match checkedAdd c.rows n with
        | none => .error (.invalid "spool row count overflow")
        | some rows =>
          .ok (.next ⟨rest.drop compressedLen, rows, c.offset + (frameHeaderLen + compressedLen),
            c.hash ++ h, c.frames ++ [raw]⟩)

def scanTurn (recovery : Bool) (c : Cursor) : Except SpoolError Turn :=
  if c.rest.length < frameHeaderLen then atEof recovery c
  else
    let h := c.rest.take frameHeaderLen
    let rest := c.rest.drop frameHeaderLen
    let compressedLen := ofLe32 (h.take 4)
    let rawLen := ofLe32 ((h.drop 4).take 4)
    let n := ofLe32 ((h.drop 8).take 4)
    if compressedLen = 0 ∧ rawLen = 0 then
      if n ≠ c.rows ∨ h.drop 12 ≠ sha.digest c.hash then
        .error (.invalid "spool footer checksum/count mismatch")
      else if !rest.isEmpty then .error (.invalid "bytes after spool footer")
      else .ok (.done none)
    else if rawLen = 0 ∨ maxFrame < rawLen ∨ maxFrame + maxFrame / 255 + 16 < compressedLen ∨ n = 0 then
      .error (.invalid "invalid spool frame bounds")
    else scanBody lz4 sha recovery c h rest compressedLen rawLen n

/-- every turn reads a header, so there are no more turns than bytes -/
def scanLoop (recovery : Bool) (token : Bytes) : Nat → Cursor → Except SpoolError Scan
  | 0, _ => .error .unexpectedEof
  | fuel + 1, c =>
    match scanTurn lz4 sha recovery c with
    | .error e => .error e
    | .ok (.done hash) => .ok ⟨token, c.rows, c.offset, hash, c.frames⟩
    | .ok (.next c') => scanLoop recovery token fuel c'

def scan (recovery : Bool) (file : Bytes) : Except SpoolError Scan :=
  if file.length < 24 then .error .unexpectedEof
  else if file.take 8 ≠ magic then .error (.invalid "unknown spool format")
  else
    scanLoop lz4 sha recovery ((file.drop 8).take 16) (file.length + 1)
      ⟨file.drop 24, 0, 24, file.take 24, []⟩

def hexDigit (n : Nat) : Char := "0123456789abcdef".toList.getD n '0'

/-- a UUID as hexadecimal digits only -/
def uuidSimple (token : Bytes) : String :=
  String.ofList (token.flatMap fun b => [hexDigit (b.toNat / 16), hexDigit (b.toNat % 16)])

def validate (file : Bytes) : Except SpoolError (String × Nat) :=
  match scan lz4 sha false file with
  | .ok s => .ok (uuidSimple s.token, s.rows)
  | .error e => .error e

/-- the frames that are emitted -/
def replay (file : Bytes) : Except SpoolError (List Bytes) :=
  match scan lz4 sha false file with
  | .ok s => .ok s.frames
  | .error e => .error e

end

/-! ## the directory -/

inductive Extension where
  | isOpen
  | ready
  deriving DecidableEq, Repr

/-- the segment files by stem and extension, and the manifest -/
structure SpoolDir where
  manifest : Option Bytes
  files : Assoc (String × Extension) Bytes

namespace SpoolDir
variable (lz4 : Lz4) (sha : Sha256) (d : SpoolDir)

def remove (stem : String) : SpoolDir := { d with files := d.files.erase (stem, .isOpen) }

/-- the `.open` file becomes a `.ready` file with this content -/
def promote (stem : String) (file : Bytes) : SpoolDir :=
  { d with files := (d.files.erase (stem, .isOpen)).insert (stem, .ready) file }

def recover (stem : String) : Except SpoolError SpoolDir :=
  match d.files.lookup (stem, .isOpen) with
  | none => .error .notFound
  | some file =>
    if file.length < 24 then .ok (d.remove stem)
    else
      match scan lz4 sha true file with
      | .error e => .error e
      | .ok s =>
        match s.hash with
        | some hash =>
          -- what follows the last complete frame is cut off
          let segment : Segment := ⟨file.take s.offset, hash, s.rows, 0⟩
          .ok (d.promote stem (segment.seal sha))
        | none => .ok (d.promote stem file)

def recoverAll : SpoolDir → List String → Except SpoolError SpoolDir
  | d, [] => .ok d
  | d, stem :: stems =>
    match recover lz4 sha d stem with
    | .ok d => recoverAll d stems
    | .error e => .error e

def openStems : List String :=
  d.files.keys.filterMap fun k => if k.2 = .isOpen then some k.1 else none

/-- the stream, the destination and a hash of both -/
def manifestOf (stream : Token) (destination : Bytes) : Bytes :=
  stream.toList ++ destination ++ sha.digest (stream.toList ++ destination)

/-- `stream` is used where there is no manifest yet -/
def openSpool (destination : Bytes) (stream : Token) : Except SpoolError (Bytes × SpoolDir) :=
  match d.manifest with
  | some bytes =>
    if bytes.length < 48 ∨ (bytes.drop 16).take (bytes.length - 32 - 16) ≠ destination ∨
        sha.digest (bytes.take (bytes.length - 32)) ≠ bytes.drop (bytes.length - 32) then
      .error (.invalid "spool destination/schema differs; use its original configuration")
    else
      match recoverAll lz4 sha d d.openStems with
      | .ok d => .ok (bytes.take 16, d)
      | .error e => .error e
  | none =>
    if !d.files.keys.isEmpty then
      .error (.invalid
        "segments exist without their destination manifest; restore the manifest before replay")
    else
      let d := { d with manifest := some (manifestOf sha stream destination) }
      match recoverAll lz4 sha d d.openStems with
      | .ok d => .ok (stream.toList, d)
      | .error e => .error e

end SpoolDir

end Netom.ClickHouse

import Conventions.Cache.Basic
import Conventions.Evidence.Document
import Conventions.Files.Tree
import Conventions.Json.Reader
import Conventions.Json.Writer
import Conventions.Text.Utf8
import Conventions.Text.Blank

/-!
# Cache/Store — a cache in a file

The entries of a cache are written to a file as JSON, in the order of their keys, and read back.
A record that does not say what it should is left out; a file that is no store gives nothing.
-/

namespace Conventions

/-- **What is noted about a store** that does not count. -/
inductive StoreNote where
  | unreadable
  | unexpectedFormat
  deriving DecidableEq, Repr

/-- The wording of a note, with marks for the file and for the reason. -/
def StoreNote.template : StoreNote → String
  | .unreadable => "Ignoring unreadable evidence cache %s: %s"
  | .unexpectedFormat => "Ignoring evidence cache with unexpected format."

/-- **What a store may hold that goes beyond what is read.** -/
inductive StoreFault where
  | tooManyDigits
  | tooDeep
  | noList
  | outOfRange
  deriving DecidableEq, Repr

/-- **Why a store is not written**: a file that cannot be, or a whole number with too many digits. -/
inductive FlushFault where
  | file (fault : PathFault)
  | tooManyDigits
  deriving DecidableEq, Repr

namespace EvidenceCache

/-- The version of the format. -/
def formatVersion : Int := 1

/-! ## Writing -/

/-- The record of an entry. -/
def record (k : CacheKey) (e : CacheEntry) : Json :=
  .obj [("path", .str k.path), ("fingerprint", .str e.fingerprint),
    ("extracted_at", .float e.extractedAt), ("parse_failed", .bool e.extraction.parseFailed),
    ("detail", .str e.extraction.detail), ("evidence", Evidence.documents e.extraction.evidence)]

/-- The order of keys: by path, then by fingerprint. -/
def keyOrder (a b : CacheKey) : Ordering :=
  (compare a.path b.path).then (compare a.fingerprint b.fingerprint)

/-- **The document that the entries of a cache make.** -/
def document (c : EvidenceCache) : Json :=
  let ordered := c.entries.mergeSort fun a b => (keyOrder a.1 b.1).isLE
  .obj [("version", .int formatVersion), ("entries", .arr (ordered.map fun p => record p.1 p.2))]

/-- The text of a store with the entries of a cache. -/
def storeText (c : EvidenceCache) : String := c.document.indented

/-! ## Reading -/

/-- The evidence in a record. -/
def evidenceOf : Json → Except ConversionFault (List Evidence)
  | .arr items => items.mapM fun
    | .obj members => Evidence.ofDocument members
    | _ => .error .wrongKind
  | .str s => if s = "" then .ok [] else .error .wrongKind
  | .obj members => if members.isEmpty then .ok [] else .error .wrongKind
  | _ => .error .wrongKind

/-- **The entry that a record describes**, with its key. -/
def ofRecord : Json → Except ConversionFault (CacheKey × CacheEntry)
  | .obj members => do
    let evidence ← evidenceOf (← Json.required "evidence" members)
    let parseFailed := ((Json.lookup "parse_failed" members).map Json.truthy).getD false
    let detail := ((Json.lookup "detail" members).map Json.text).getD ""
    let fingerprint := (← Json.required "fingerprint" members).text
    let extractedAt ← (← Json.required "extracted_at" members).binary64
    let path := (← Json.required "path" members).text
    pure (⟨path, fingerprint⟩, ⟨fingerprint, ⟨evidence, parseFailed, detail⟩, extractedAt⟩)
  | _ => .error .wrongKind

/-- The entries of some records; of two with the same key the later one counts. -/
def ofRecords (done : List (CacheKey × CacheEntry)) :
    List Json → Except StoreFault (List (CacheKey × CacheEntry))
  | [] => .ok done
  | j :: rest =>
    match ofRecord j with
    | .ok (k, e) => ofRecords (pair k e done) rest
    | .error .outOfRange => .error .outOfRange
    | .error _ => ofRecords done rest

/-- Does a value give the version of the format? -/
def isVersion : Json → Bool
  | .int i => i == formatVersion
  | .float x => x.same .one
  | .bool b => b
  | _ => false

/-- The records in a value; text and the keys of an object are records of nothing. -/
def recordsOf : Json → Except StoreFault (List Json)
  | .arr items => .ok items
  | .str _ | .obj _ => .ok []
  | _ => .error .noList

/-- **What a store gives**: entries, or a note. -/
inductive Loaded where
  | entries (records : List (CacheKey × CacheEntry))
  | noted (n : StoreNote)

/-- What the document of a store gives. -/
def ofDocument : Json → Except StoreFault Loaded
  | .obj members =>
    if ((Json.lookup "version" members).map isVersion).getD false then do
      let records ← recordsOf ((Json.lookup "entries" members).getD (.arr []))
      pure (.entries (← ofRecords [] records))
    else .ok (.noted .unexpectedFormat)
  | _ => .ok (.noted .unexpectedFormat)

/-- **What the content of a store gives.** -/
def readStore (content : ByteArray) : Except StoreFault Loaded :=
  match Text.decode? content with
  | none => .ok (.noted .unreadable)
  | some s =>
    match Json.read (String.ofList (Text.unifyNewlines s.toList)) with
    | .ok j => ofDocument j
    | .error .tooManyDigits => .error .tooManyDigits
    | .error .tooDeep => .error .tooDeep
    | .error _ => .ok (.noted .unreadable)

/-- **Load a store**: the cache with its entries, how many there were, and what was noted. -/
def load (c : EvidenceCache) (top : FileNode) (path : List String) :
    Except StoreFault (EvidenceCache × Nat × List StoreNote) :=
  match top.content path with
  | .error .isDirectory => .ok (c, 0, [.unreadable])
  | .error _ => .ok (c, 0, [])
  | .ok (content, _) => do
    match ← readStore content with
    | .entries records => pure (c.withEntries records, records.length, [])
    | .noted n => pure (c, 0, [n])

/-- **Write a store**, in a directory that is made if it is missing. -/
def flush (c : EvidenceCache) (top : FileNode) (path : List String) (time : Binary64) :
    Except FlushFault FileNode :=
  match top.makeDirectories path.dropLast with
  | .error fault => .error (.file fault)
  | .ok top =>
    if c.document.isLong then .error .tooManyDigits
    else (top.write path c.storeText.toUTF8 time).mapError .file

end EvidenceCache
end Conventions

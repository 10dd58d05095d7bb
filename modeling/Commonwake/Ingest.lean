import Commonwake.Service

/-!
# The collector

`ingest_feed_bytes` turns every entry of a parsed feed into an observation
and appends it, each in a transaction of its own.  The parser of feeds is a
library; `Feed` holds what the collector reads of its result.
-/

namespace Commonwake

open Outcome

structure FeedLink where
  href : String
  rel : Option String

structure FeedEntry where
  id : String
  title : Option String
  summary : Option String
  published : Option ℤ
  updated : Option ℤ
  links : List FeedLink
  authors : List String
  categories : List String

structure Feed where
  id : String
  language : Option String
  entries : List FeedEntry

def maxFeedBytes : ℕ := 8 * 1024 * 1024

def maxFeedEntries : ℕ := 1000

def maxMetadataValues : ℕ := 64

/-- The first characters of a text, with an ellipsis when some are cut. -/
def truncate (value : String) (maximum : ℕ) : String :=
  if (chars value).length > maximum
  then String.ofList ((chars value).take maximum ++ ['…'])
  else String.ofList ((chars value).take maximum)

section

variable (P : Primitives)

def normalizeDocumentUrl (value : String) : Option String := do
  let url ← P.parseUrl value
  if (url.scheme = "http" ∨ url.scheme = "https") ∧ url.host ≠ none ∧
      url.username = "" ∧ url.password = none
  then some url.withoutFragment else none

def entryUrl (entry : FeedEntry) : Option String :=
  ((entry.links.filter fun link => link.rel == none || link.rel == some "alternate").findSome?
      fun link => normalizeDocumentUrl P link.href) <|>
    (entry.links.findSome? fun link => normalizeDocumentUrl P link.href) <|>
    normalizeDocumentUrl P entry.id

def entryMetadata (feed : Feed) (entry : FeedEntry) : Json :=
  .object [
    ("authors", Serde.strings ((entry.authors.take maxMetadataValues).map
      fun name => truncate name 200)),
    ("categories", Serde.strings ((entry.categories.take maxMetadataValues).map
      fun term => truncate term 200)),
    ("entry_id", .string entry.id),
    ("feed_id", .string feed.id)]

def entryTitle (entry : FeedEntry) : String :=
  match entry.title with
  | some text => truncate text maxTitleChars
  | none => "Untitled observation"

def entrySummary (entry : FeedEntry) : String :=
  match entry.summary with
  | some text => truncate text maxSummaryChars
  | none => ""

def entryPublished (entry : FeedEntry) : Option ℤ :=
  entry.published <|> entry.updated

/-- The observation of an entry whose address is known. -/
def entryObservation (sourceId : String) (languages : List String) (feed : Feed)
    (retrievedAt : ℤ) (entry : FeedEntry) (canonicalUrl : String) :
    IngestedObservation where
  sourceId := sourceId
  canonicalUrl := canonicalUrl
  title := entryTitle entry
  summary := entrySummary entry
  publishedAt := entryPublished entry
  retrievedAt := retrievedAt
  language := feed.language <|> languages.head?
  documentHash := documentHashOf P canonicalUrl (entryTitle entry) (entrySummary entry)
    (entryPublished entry) (entryMetadata feed entry)
  rawMetadata := entryMetadata feed entry

/-- What the loop over the entries of a feed carries: the readings of the
clock which are still to come, the number of accepted entries, and the
database. -/
structure IngestLoop where
  readings : List ℤ
  accepted : ℕ
  db : Db

/-- One iteration.  An entry without an address is skipped. -/
def ingestEntry (identity : NodeIdentity P) (sourceId : String)
    (languages : List String) (feed : Feed) (retrievedAt : ℤ) (loop : IngestLoop)
    (entry : FeedEntry) : Result IngestLoop :=
  match entryUrl P entry with
  | none => pure loop
  | some canonicalUrl => do
      let observation := entryObservation P sourceId languages feed retrievedAt entry
        canonicalUrl
      let before := loop.db.head
      let (accepted, db) ← loop.db.appendObservation P identity observation
        (loop.readings.headD retrievedAt)
      pure {
        readings := loop.readings.tail
        accepted := if before < accepted.sequence then loop.accepted + 1 else loop.accepted
        db := db }

/-- The loop stops at the first failure and keeps what was committed. -/
def ingestEntries (identity : NodeIdentity P) (sourceId : String)
    (languages : List String) (feed : Feed) (retrievedAt : ℤ) :
    IngestLoop → List FeedEntry → Result Unit × IngestLoop
  | loop, [] => (.ok (), loop)
  | loop, entry :: rest =>
      match ingestEntry P identity sourceId languages feed retrievedAt loop entry with
      | .ok next =>
          ingestEntries identity sourceId languages feed retrievedAt next rest
      | .error error => (.error error, loop)

/-- Ingest a parsed feed.  The result holds the numbers of seen and accepted
entries; the database keeps what was committed before a failure. -/
def ingestFeed (identity : NodeIdentity P) (sourceId : String)
    (languages : List String) (feed : Feed) (retrievedAt : ℤ) (readings : List ℤ)
    (db : Db) : Result (ℕ × ℕ) × Db :=
  if maxFeedEntries < feed.entries.length then
    (.error (.validation s!"feed contains more than {maxFeedEntries} entries"), db)
  else
    let (result, loop) := ingestEntries P identity sourceId languages feed retrievedAt
      ⟨readings, 0, db⟩ feed.entries
    (result.map fun _ => (feed.entries.length, loop.accepted), loop.db)

/-- Ingest a document; `parseFeed` is the parser of the library. -/
def ingestFeedBytes (parseFeed : Bytes → Except String Feed)
    (identity : NodeIdentity P) (sourceId : String) (languages : List String)
    (bytes : Bytes) (retrievedAt : ℤ) (readings : List ℤ) (db : Db) :
    Result (ℕ × ℕ) × Db :=
  if maxFeedBytes < bytes.length then
    (.error (.validation s!"feed exceeds {maxFeedBytes} bytes"), db)
  else
    match parseFeed bytes with
    | .error message => (.error (.validation s!"feed parse failed: {message}"), db)
    | .ok feed => ingestFeed P identity sourceId languages feed retrievedAt readings db

end

end Commonwake

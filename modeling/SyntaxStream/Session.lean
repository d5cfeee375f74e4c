import SyntaxStream.ChunkReader
import SyntaxStream.Config
import SyntaxStream.Transform

namespace SyntaxStream

structure SessionOptions where
  language : Option String
  theme : Option String
  allowRecalls : Bool
deriving Repr, DecidableEq

namespace SessionOptions

def defaults : SessionOptions := ⟨none, none, true⟩

instance : Inhabited SessionOptions := ⟨defaults⟩

def ofConfig (config : Config) : SessionOptions :=
  ⟨some config.language, some config.theme, config.allowRecalls⟩

-- The language asked for; plain text if none is.
def languageName (o : SessionOptions) : String := o.language.getD Language.plainText.name

def themeId (o : SessionOptions) : String := o.theme.getD Theme.fallbackId

end SessionOptions

-- A streaming session. The tokenizer is built by the first start and kept for every later one.
structure Session where
  options : SessionOptions
  content : String
  streaming : Bool
  tokenizer : Option Tokenizer
  transform : Option Transform
deriving Repr, Inhabited

namespace Session

variable {σ : Type}

def new (options : SessionOptions) : Session where
  options := options
  content := ""
  streaming := false
  tokenizer := none
  transform := none

def loadTokenizer (library : ThemeLibrary) (session : Session) :
    Except HighlightError Tokenizer :=
  match session.tokenizer with
  | some tokenizer => .ok tokenizer
  | none =>
    Tokenizer.build library [session.options.themeId] [session.options.languageName]

-- Starts afresh; whatever was going on is dropped. A tokenizer that could be built is kept even
-- if the start fails after it.
def start (library : ThemeLibrary) (session : Session) : Except HighlightError Unit × Session :=
  match session.loadTokenizer library with
  | .error reason => (.error reason, session)
  | .ok tokenizer =>
    let session := { session with tokenizer := some tokenizer }
    match Language.ofName? session.options.languageName with
    | none =>
      (.error (.initialization (.unsupportedLanguage session.options.languageName)), session)
    | some language =>
      match Transform.new tokenizer language session.options.themeId
        session.options.allowRecalls with
      | .error reason => (.error reason, session)
      | .ok transform =>
        (.ok (), { session with content := "", streaming := true, transform := some transform })

-- Appends a chunk as it is; ignored unless streaming.
def append (session : Session) (chunk : String) : Session :=
  if session.streaming then { session with content := session.content ++ chunk } else session

def pushTransform (parser : SyntaxParser σ) (session : Session) (chunk : String) (s : σ) :
    Option (List Batch) × Session × σ :=
  match session.transform with
  | none => (none, session, s)
  | some transform =>
    let (batches, transform, s) := transform.push parser chunk s
    (some batches, { session with transform := some transform }, s)

def feed (parser : SyntaxParser σ) (session : Session) (chunk : String) (s : σ) :
    List Batch × Session × σ :=
  if session.streaming then
    let (batches, session, s) := (session.append chunk).pushTransform parser chunk s
    (batches.getD [], session, s)
  else
    ([], session, s)

def finish (parser : SyntaxParser σ) (session : Session) (s : σ) : List Batch × Session × σ :=
  if session.streaming then
    match session.transform with
    | none => ([], session, s)
    | some transform =>
      let (batches, transform, s) := transform.flush parser s
      (batches, { session with transform := some transform }, s)
  else
    ([], session, s)

-- Ends the session; its content can still be read.
def stop (session : Session) : Session :=
  { session with streaming := false, transform := none }

-- What happens to the reader and the session while a reader is processed.
inductive ProcessEvent where
  | read (outcome : ReadOutcome)
  | release
  | stop
deriving Repr, DecidableEq

-- How processing a reader ends. A read that never answers ends it by cancellation.
inductive ProcessOutcome where
  | done
  | failed (reason : HighlightError)
  | cancelled
deriving Repr, DecidableEq

structure ProcessReport where
  outcome : ProcessOutcome
  events : List ProcessEvent
deriving Repr, DecidableEq

namespace ProcessReport

def releases (report : ProcessReport) : Nat := report.events.count .release

end ProcessReport

-- What has to be cleaned up when processing is left, in whatever way that happens.
inductive Guard where
  | session
  | reader
deriving Repr, DecidableEq

-- A session that processes a reader, and what has happened to the two so far.
structure Processing (ρ : Type) where
  session : Session
  reader : ρ
  events : List ProcessEvent

namespace Processing

variable {ρ : Type} [ChunkSource ρ]

def saw (p : Processing ρ) (outcome : ReadOutcome) (reader : ρ) : Processing ρ :=
  { p with reader, events := p.events ++ [.read outcome] }

-- Appends chunks until a read comes to something else, which decides the outcome.
def pull (p : Processing ρ) : ProcessOutcome × Processing ρ :=
  match _h : ChunkSource.read p.reader with
  | (.chunk text, reader) =>
    let p := p.saw (.chunk text) reader
    pull { p with session := p.session.append text }
  | (.ended, reader) => (.done, p.saw .ended reader)
  | (.failed reason, reader) => (.failed (.source reason), p.saw (.failed reason) reader)
  | (.pending, reader) => (.cancelled, p.saw .pending reader)
termination_by ChunkSource.waiting p.reader
decreasing_by exact ChunkSource.waiting_read_lt _h

def drop (p : Processing ρ) : Guard → Processing ρ
  | .session => { p with session := p.session.stop, events := p.events ++ [.stop] }
  | .reader =>
    { p with reader := ChunkSource.release p.reader, events := p.events ++ [.release] }

-- Leaving drops the guards, the one that was taken last first.
def leave (p : Processing ρ) (guards : List Guard) : Processing ρ :=
  guards.reverse.foldl drop p

end Processing

-- Starts a session, appends every chunk of the reader, and ends the session. Once it has started
-- the reader is released and the session stopped however it ends.
def process {ρ : Type} [ChunkSource ρ] (library : ThemeLibrary) (session : Session) (reader : ρ) :
    ProcessReport × Session × ρ :=
  match session.start library with
  | (.error reason, session) => (⟨.failed reason, []⟩, session, reader)
  | (.ok (), session) =>
    let (outcome, p) := (Processing.mk session reader []).pull
    let p := p.leave [.session, .reader]
    (⟨outcome, p.events⟩, p.session, p.reader)

end Session

end SyntaxStream

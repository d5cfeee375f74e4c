import SyntaxStream.Chunk
import SyntaxStream.Cli.Parse
import SyntaxStream.ConfigFile
import SyntaxStream.Plugin
import SyntaxStream.Wire.Tokens

namespace SyntaxStream.Cli

-- What a command finds where it runs.
structure World where
  library : ThemeLibrary
  settings : Option FileEntry
  -- the files by their paths
  files : List (String × FileEntry)
  -- the standard input, none if it is no text
  input : Option String
deriving Repr, Inhabited

-- What a run prints and the code it ends with.
structure Outcome where
  code : Nat
  output : String
  complaint : String
  -- whether it came to writing a log
  logs : Bool
deriving Repr, DecidableEq, Inhabited

namespace World

-- The text of a file, or of the standard input when no file is named.
def read (world : World) : Option String → Option String
  | none => world.input
  | some path =>
    match world.files.lookup path with
    | some (.text content) => some content
    | _ => none

-- The settings of a run. A file that is named counts instead of the usual one.
def config (world : World) (line : CommandLine) : Config :=
  Config.load (match line.config with
    | some path => world.files.lookup path
    | none => world.settings)

end World

namespace Outcome

def success (output : String) : Outcome := ⟨0, output, "", true⟩

-- A command that could not be carried out has no output.
def failure (reason : String) : Outcome := ⟨1, "", "Error: " ++ reason ++ "\n", true⟩

def unreadable : Option String → Outcome
  | some path => failure ("Failed to read " ++ path)
  | none => failure "Failed to read stdin"

def usage : String :=
  "Streaming syntax highlighter\n\n" ++
  "Usage: streamlight [--config <PATH>] <COMMAND>\n\n" ++
  "Commands:\n" ++
  "  serve      Serve the highlight endpoint\n" ++
  "  highlight  Highlight a file (or stdin) as one block\n" ++
  "  stream     Stream a file (or stdin) through the incremental tokenizer\n" ++
  "  markdown   Highlight every fenced code block of a Markdown file\n" ++
  "  themes     List available themes\n" ++
  "  help       Print this message\n"

def ofUsageError : UsageError → Outcome
  | .displayHelp => ⟨0, usage, "", false⟩
  | .displayVersion => ⟨0, "streamlight 0.1.0\n", "", false⟩
  | _ => ⟨2, "", usage, false⟩

end Outcome

def lines (texts : List String) : String := String.join (texts.map (· ++ "\n"))

def printed (html : Bool) (result : HighlightResult) : String :=
  if html then result.toHtml else result.toJson.pretty

def padded (width : Nat) (text : String) : String :=
  text ++ String.ofList (List.replicate (width - text.length) ' ')

def themeLine (info : ThemeInfo) : String :=
  padded 16 info.id ++ " " ++ padded 24 info.name ++ " " ++
    match info.origin with
    | .user => "user"
    | .builtin => "builtin"

section

variable {σ τ : Type}

-- Asks the remote service first if its address is given.
def highlighter (parser : SyntaxParser σ) (library : ThemeLibrary)
    (connect : String → Transport τ) :
    Option String → Highlighter (DefaultHighlighter × σ × τ)
  | some endpoint => .remoteFirst parser library (connect endpoint)
  | none => {
      resolve := fun request (h, s, t) =>
        let (result, h, s) := h.resolveHere parser library request s
        (result, h, s, t) }

-- Feeds numbered chunks one after another. The input ends with the chunk whose number is the
-- last.
def feedNumbered (parser : SyntaxParser σ) (last : Nat) (session : Session) :
    List (String × Nat) → σ → List Batch × Session × σ
  | [], s => ([], session, s)
  | (chunk, index) :: rest, s =>
    let (batches, session, s) := session.feed parser chunk s
    let (flushed, session, s) :=
      if index + 1 == last then session.finish parser s else ([], session, s)
    let (others, session, s) := feedNumbered parser last session rest s
    (batches ++ flushed ++ others, session, s)

-- Feeds all chunks. If there is none the input ends at once.
def feedAll (parser : SyntaxParser σ) (session : Session) (chunks : List String) (s : σ) :
    List Batch × Session × σ :=
  let last := chunks.length
  let (batches, session, s) := feedNumbered parser last session chunks.zipIdx s
  if last == 0 then
    let (flushed, session, s) := session.finish parser s
    (batches ++ flushed, session, s)
  else
    (batches, session, s)

def streamBatches (parser : SyntaxParser σ) (library : ThemeLibrary) (options : SessionOptions)
    (text : String) (chunkSize : Nat) (s : σ) : Except HighlightError (List Batch) × σ :=
  match (Session.new options).start library with
  | (.error reason, _) => (.error reason, s)
  | (.ok (), session) =>
    let (batches, _, s) := feedAll parser session (Chunk.split text chunkSize) s
    (.ok batches, s)

-- Every batch is printed on a line of its own.
def printedBatches [Diagnostics] : Except HighlightError (List Batch) → Outcome
  | .error reason => .failure reason.message
  | .ok batches => .success (lines (batches.map fun batch => batch.toJson.compact))

-- A command with the settings that count for it. The service, which would run until it is
-- interrupted, is not among those that can be carried out here.
def Command.run [Diagnostics] (parser : SyntaxParser σ) (connect : String → Transport τ)
    (world : World) (config : Config) (command : Command) (s : σ) (t : τ) : Outcome × σ × τ :=
  let fresh := (DefaultHighlighter.fresh, s, t)
  match command with
  | .serve listen => (.failure ("Failed to serve on " ++ listen.getD config.listen), s, t)
  | .themes => (.success (lines (world.library.list.map themeLine)), s, t)
  | .highlight input endpoint html =>
    match world.read input.path with
    | none => (.unreadable input.path, s, t)
    | some code =>
      let request := ⟨code, input.language config, input.selection config, .none⟩
      let (result, _, s, t) :=
        (highlighter parser world.library connect endpoint).resolve request fresh
      (.success (lines [printed html result]), s, t)
  | .stream input noRecalls chunkSize =>
    match world.read input.path with
    | none => (.unreadable input.path, s, t)
    | some text =>
      let options := input.sessionOptions config noRecalls
      let (batches, s) := streamBatches parser world.library options text chunkSize s
      (printedBatches batches, s, t)
  | .markdown path theme endpoint html =>
    match world.read path with
    | none => (.unreadable path, s, t)
    | some document =>
      let plugin := HighlightPlugin.new (some (.single (theme.getD config.theme)))
      let (results, _, s, t) := plugin.highlightMarkdown
        (highlighter parser world.library connect endpoint) document fresh
      (.success (lines (results.flatMap fun (block, result) =>
        ["<!-- line " ++ toString block.line ++ ": " ++ block.lang ++ " -->",
          printed html result])), s, t)

def run [Diagnostics] (parser : SyntaxParser σ) (connect : String → Transport τ) (world : World)
    (args : List String) (s : σ) (t : τ) : Outcome × σ × τ :=
  match CommandLine.parse args with
  | .error reason => (.ofUsageError reason, s, t)
  | .ok line => line.command.run parser connect world (world.config line) s t

end

end SyntaxStream.Cli

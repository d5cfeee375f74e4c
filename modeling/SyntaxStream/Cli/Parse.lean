import SyntaxStream.Cli.Command
import SyntaxStream.Text.Natural

namespace SyntaxStream.Cli

inductive UsageError where
  | displayHelp
  | displayVersion
  | nothingGiven
  | missingSubcommand
  | invalidSubcommand
  | unknownArgument
  -- a value is missing or empty
  | invalidValue
  -- a value is no number
  | valueValidation
  | argumentConflict
  -- a flag was given a value
  | tooManyValues
deriving Repr, DecidableEq, Inhabited

namespace UsageError

def label : UsageError → String
  | displayHelp => "DisplayHelp"
  | displayVersion => "DisplayVersion"
  | nothingGiven => "DisplayHelpOnMissingArgumentOrSubcommand"
  | missingSubcommand => "MissingSubcommand"
  | invalidSubcommand => "InvalidSubcommand"
  | unknownArgument => "UnknownArgument"
  | invalidValue => "InvalidValue"
  | valueValidation => "ValueValidation"
  | argumentConflict => "ArgumentConflict"
  | tooManyValues => "TooManyValues"

end UsageError

inductive Arg where
  | config | listen | path | lang | theme | endpoint | chunkSize | html | noRecalls | help | version
deriving Repr, DecidableEq, Inhabited

namespace Arg

def takesValue : Arg → Bool
  | html => false
  | noRecalls => false
  | help => false
  | version => false
  | _ => true

def check (arg : Arg) (text : String) : Except UsageError Unit :=
  match arg with
  | config => if text.isEmpty then .error .invalidValue else .ok ()
  | path => if text.isEmpty then .error .invalidValue else .ok ()
  | chunkSize => if (Text.natural? text.toList).isSome then .ok () else .error .valueValidation
  | _ => .ok ()

end Arg

-- Where an argument stands: before any subcommand, or after one.
inductive Level where
  | top | serve | highlight | stream | markdown | themes
deriving Repr, DecidableEq, Inhabited

namespace Level

def ofName? : String → Option Level
  | "serve" => some serve
  | "highlight" => some highlight
  | "stream" => some stream
  | "markdown" => some markdown
  | "themes" => some themes
  | _ => none

def named : Level → List (String × Arg)
  | top => [("config", .config), ("help", .help), ("version", .version)]
  | serve => [("config", .config), ("help", .help), ("listen", .listen)]
  | highlight => [("config", .config), ("help", .help), ("lang", .lang), ("theme", .theme),
      ("endpoint", .endpoint), ("html", .html)]
  | stream => [("config", .config), ("help", .help), ("lang", .lang), ("theme", .theme),
      ("no-recalls", .noRecalls), ("chunk-size", .chunkSize)]
  | markdown => [("config", .config), ("help", .help), ("theme", .theme),
      ("endpoint", .endpoint), ("html", .html)]
  | themes => [("config", .config), ("help", .help)]

-- The arguments with a name of one letter.
def letters : Level → List (Char × Arg)
  | top => [('h', .help), ('V', .version)]
  | highlight => [('h', .help), ('l', .lang), ('t', .theme)]
  | stream => [('h', .help), ('l', .lang), ('t', .theme)]
  | _ => [('h', .help)]

def hasPath : Level → Bool
  | highlight => true
  | stream => true
  | markdown => true
  | _ => false

end Level

-- The arguments of a level that have been read. The latest one is looked at only when the next
-- one comes; it may still lack its value.
structure Reading where
  level : Level
  settled : List (Arg × String)
  pending : Option (Arg × Option String)
  -- whether only files may follow
  trailing : Bool
deriving Repr, DecidableEq, Inhabited

namespace Reading

def start (level : Level) : Reading := ⟨level, [], none, false⟩

-- Takes an argument for good. It must not have been given before.
def settle (r : Reading) (arg : Arg) (text : String) : Except UsageError Reading := do
  if (r.settled.lookup arg).isSome then throw .argumentConflict
  arg.check text
  return { r with settled := (arg, text) :: r.settled }

-- Takes the latest argument for good.
def resolve (r : Reading) : Except UsageError Reading :=
  match r.pending with
  | none => .ok r
  | some (_, none) => .error .invalidValue
  | some (arg, some text) => { r with pending := none }.settle arg text

def flag (r : Reading) (arg : Arg) : Except UsageError Reading := do
  let r ← r.resolve
  match arg with
  | .help => throw .displayHelp
  | .version => throw .displayVersion
  | _ => r.settle arg ""

-- Takes an argument that needs a value, which may be attached to it.
def option (r : Reading) (arg : Arg) (attached : Option String) : Except UsageError Reading := do
  let r ← r.resolve
  match attached with
  | some text => r.settle arg text
  | none => return { r with pending := some (arg, none) }

def long (r : Reading) (body : List Char) : Except UsageError Reading :=
  let name := String.ofList (body.takeWhile (· != '='))
  let attached := match body.dropWhile (· != '=') with
    | [] => none
    | _ :: value => some (String.ofList value)
  match r.level.named.lookup name with
  | none => .error .unknownArgument
  | some arg =>
    if arg.takesValue then r.option arg attached
    else if attached.isSome then .error .tooManyValues
    else r.flag arg

-- Reads arguments by their letters. What follows an argument that needs a value is its value.
def short (r : Reading) : List Char → Except UsageError Reading
  | [] => .ok r
  | c :: rest =>
    match r.level.letters.lookup c with
    | none => .error .unknownArgument
    | some arg =>
      if arg.takesValue then
        r.option arg (match rest with
          | [] => none
          | '=' :: value => some (String.ofList value)
          | value => some (String.ofList value))
      else do
        let r ← r.flag arg
        short r rest

def file (r : Reading) (text : String) : Except UsageError Reading := do
  if !r.level.hasPath || (r.settled.lookup .path).isSome ||
      (r.pending.map (·.1)) == some .path then
    throw .unknownArgument
  let r ← r.resolve
  return { r with pending := some (.path, some text) }

-- Whether the next word is a value whatever it looks like, unless it looks like an argument.
def awaitsValue (r : Reading) : Bool :=
  !r.trailing && r.pending.any (·.2.isNone)

-- Reads a word that is an argument by its looks, or the value of the one before; none if it is
-- neither.
def word? (r : Reading) (text : String) : Option (Except UsageError Reading) :=
  if r.trailing then none
  else match text.toList with
    | ['-', '-'] => some (.ok { r with trailing := true })
    | '-' :: '-' :: body => some (r.long body)
    | '-' :: c :: rest => some (r.short (c :: rest))
    | _ =>
      match r.pending with
      | some (arg, none) => some (.ok { r with pending := some (arg, some text) })
      | _ => none

def words (r : Reading) : List String → Except UsageError Reading
  | [] => r.resolve
  | text :: rest =>
    match r.word? text with
    | some next => do (← next).words rest
    | none => do (← r.file text).words rest

def value? (r : Reading) (arg : Arg) : Option String := r.settled.lookup arg

def isSet (r : Reading) (arg : Arg) : Bool := (r.value? arg).isSome

def input (r : Reading) : InputArgs := ⟨r.value? .path, r.value? .lang, r.value? .theme⟩

-- How many bytes a chunk has when nothing is said.
def defaultChunkSize : Nat := 16

-- The command that the words after a subcommand make up.
def command? (r : Reading) : Option Command :=
  match r.level with
  | .top => none
  | .serve => some (.serve (r.value? .listen))
  | .highlight => some (.highlight r.input (r.value? .endpoint) (r.isSet .html))
  | .stream =>
    some (.stream r.input (r.isSet .noRecalls)
      (((r.value? .chunkSize).bind fun text => Text.natural? text.toList).getD defaultChunkSize))
  | .markdown =>
    some (.markdown (r.value? .path) (r.value? .theme) (r.value? .endpoint) (r.isSet .html))
  | .themes => some .themes

end Reading

-- The answer to a question for help, which may be about one subcommand.
def helpFor : List String → UsageError
  | [] => .displayHelp
  | [name] =>
    if name == "help" || (Level.ofName? name).isSome then .displayHelp else .invalidSubcommand
  | _ => .invalidSubcommand

-- Reads the words before the subcommand, then those after it. What is said after the subcommand
-- counts more.
def readTop (r : Reading) : List String → Except UsageError CommandLine
  | [] => do
    let r ← r.resolve
    throw (if r.settled.isEmpty then .nothingGiven else .missingSubcommand)
  | text :: rest =>
    if r.trailing then
      .error (if text == "help" || (Level.ofName? text).isSome then .unknownArgument
        else .invalidSubcommand)
    else if !r.awaitsValue && text == "help" then .error (helpFor rest)
    else match (if r.awaitsValue then none else Level.ofName? text) with
      | some level => do
        let inner ← (Reading.start level).words rest
        let r ← r.resolve
        match inner.command? with
        | some command => return ⟨(inner.value? .config).or (r.value? .config), command⟩
        | none => throw .missingSubcommand
      | none =>
        match r.word? text with
        | some next => do readTop (← next) rest
        | none => .error .invalidSubcommand

def CommandLine.parse (args : List String) : Except UsageError CommandLine :=
  readTop (.start .top) args

end SyntaxStream.Cli

import Outliner.Scan
import Outliner.Text.Piece
import Outliner.Text.Utf8
import Outliner.Outline.Text
import Outliner.Outline.Export

set_option autoImplicit false

/-!
# The command line

The program prints the outline of one file. Its arguments name the file, may set the language, ask
for JSON and set a filter for log messages; variables of the environment stand for arguments that
are not given. What the program answers is decided here, as a function of its arguments, its
environment and the bytes of the file; only reading the file and printing the answer are left to the
outside.

Faults are found in this order: the arguments and the environment, the log filter, the language, the
file.

## Main definitions

* `Outliner.CommandLine.Argument`, `Outliner.CommandLine.parse?` — the arguments one by one.
* `Outliner.CommandLine.Request` — what is asked for.
* `Outliner.CommandLine.Failure` — why there is no outline.
* `Outliner.CommandLine.run` — the outcome of a call.
-/

namespace Outliner.CommandLine

/-! ## Arguments -/

/-- An argument. -/
inductive Argument where
  /-- The file. -/
  | file (name : String)
  /-- The name of the language. -/
  | language (name : String)
  /-- Asks for JSON. -/
  | json
  /-- The log filter. -/
  | log (filter : String)
deriving DecidableEq, Repr

/-- An option that takes a value. -/
inductive ValueOption where
  /-- The language. -/
  | language
  /-- The log filter. -/
  | log
deriving DecidableEq, Repr

/-- The argument that the option makes with a value. -/
def ValueOption.withValue (value : String) : ValueOption → Argument
  | language => .language value
  | log => .log value

/-- The option of a long name. -/
def ValueOption.ofLongName? (name : List Char) : Option ValueOption :=
  if name = "language".toList then some language
  else if name = "log".toList then some log
  else none

/-- The option of a one-letter name. -/
def ValueOption.ofShortName? (name : Char) : Option ValueOption :=
  if name = 'l' then some language else none

/-- What one word on the command line is. -/
inductive Word where
  /-- A complete argument. -/
  | complete (argument : Argument)
  /-- An option whose value is the next word. -/
  | wantsValue (option : ValueOption)
  /-- The sign that only files follow. -/
  | onlyFiles
  /-- Nothing that is understood. -/
  | unknown
deriving DecidableEq, Repr

/-- What a word that begins with two dashes is, given what follows them. -/
def readLong (text : List Char) : Word :=
  let name := text.takeWhile (· != '=')
  let value? := (text.dropWhile (· != '=')).tail?
  match ValueOption.ofLongName? name, value? with
  | some option, some value => .complete (option.withValue (.ofList value))
  | some option, none => .wantsValue option
  | none, none => if name = "json".toList then .complete .json else .unknown
  | none, some _ => .unknown

/-- What a word that begins with one dash is, given what follows it. A value may follow the letter
at once or after an equals sign. -/
def readShort : List Char → Word
  | [] => .unknown
  | letter :: text =>
    match ValueOption.ofShortName? letter, text with
    | none, _ => .unknown
    | some option, [] => .wantsValue option
    | some option, '=' :: value => .complete (option.withValue (.ofList value))
    | some option, value => .complete (option.withValue (.ofList value))

/-- What a word is. A dash alone is the name of a file. -/
def readWord (word : String) : Word :=
  match word.toList with
  | ['-'] => .complete (.file word)
  | ['-', '-'] => .onlyFiles
  | '-' :: '-' :: text => readLong text
  | '-' :: text => readShort text
  | _ => .complete (.file word)

/-- The arguments that the words make, unless one of them is not understood or lacks its value. What
begins with a dash is no value, unless it is a dash alone. -/
def parse? : List String → Option (List Argument)
  | [] => some []
  | word :: words =>
    match readWord word with
    | .unknown => none
    | .onlyFiles => some (words.map .file)
    | .complete argument => (parse? words).map (argument :: ·)
    | .wantsValue option =>
      match words with
      | [] => none
      | value :: words =>
        match readWord value with
        | .complete (.file _) => (parse? words).map (option.withValue value :: ·)
        | _ => none

/-! ## Requests -/

/-- The variables of the environment that stand for arguments. -/
structure Environment where
  /-- Stands for the language. -/
  language : Option String := none
  /-- Stands for asking for JSON. -/
  json : Option String := none
  /-- Stands for the log filter. -/
  log : Option String := none

/-- The environment in which each variable has the value that is found for its name. -/
def Environment.ofLookup {m : Type → Type} [Monad m] (value : String → m (Option String)) :
    m Environment := do
  return {
    language := ← value "CODETAGS_LANGUAGE"
    json := ← value "CODETAGS_JSON"
    log := ← value "CODETAGS_LOG" }

/-- What is asked for. -/
structure Request where
  /-- The file to outline. -/
  file : String
  /-- Its language, if it is not to be told from the name of the file. -/
  language : Option Language
  /-- Whether to answer in JSON. -/
  json : Bool
  /-- Which log messages to write. -/
  log : Option String
deriving DecidableEq, Repr

/-- The only item of a list, or nothing if it is empty; a longer list has none. -/
def atMostOne? {α : Type} : List α → Option (Option α)
  | [] => some none
  | [a] => some (some a)
  | _ => none

/-- The truth value of a word. -/
def truth? (word : String) : Option Bool :=
  if word = "true" then some true else if word = "false" then some false else none

/-- Whether JSON is asked for, by an argument or else by the environment, unless that is
misspelled. -/
def wantsJson? (given : Bool) (environment : Option String) : Option Bool :=
  if given then some true
  else
    match environment with
    | none => some false
    | some word => truth? word

/-- The language of this name, or none where no name is given, unless no language has the name. -/
def namedLanguage? : Option String → Option (Option Language)
  | none => some none
  | some name =>
    match Language.ofName name with
    | .ok language => some (some language)
    | .error _ => none

/-- What the arguments ask for: exactly one file, and every option at most once. -/
def Request.ofArguments? (environment : Environment) (arguments : List Argument) :
    Option Request := do
  let file ← (← atMostOne? (arguments.filterMap fun | .file name => some name | _ => none))
  let language ← atMostOne? (arguments.filterMap fun | .language name => some name | _ => none)
  let json ← atMostOne? (arguments.filter (· == .json))
  let log ← atMostOne? (arguments.filterMap fun | .log filter => some filter | _ => none)
  let language ← namedLanguage? (language.or environment.language)
  let json ← wantsJson? json.isSome environment.json
  if file.isEmpty then none
  else some { file := file, language := language, json := json, log := log.or environment.log }

/-! ## Log filters -/

/-- The levels of log messages. -/
def levels : List String :=
  ["off", "error", "warn", "info", "debug", "trace", "0", "1", "2", "3", "4", "5"]

/-- Whether what a directive says after its first equals sign is a level, or nothing at all. -/
def hasGoodLevel (directive : List Char) : Bool :=
  match directive.dropWhile (· != '=') with
  | _ :: level => level.isEmpty || levels.contains (Language.lowered level)
  | [] => true

/-- Whether all directives of a filter, which stand between commas, have good levels. -/
def isGoodFilter (filter : String) : Bool := (pieces (· == ',') filter.toList).all hasGoodLevel

/-! ## Answers -/

/-- Why the operating system did not read a file. -/
structure SystemError where
  /-- The wording of the operating system. -/
  text : String
  /-- Its number for the error. -/
  code : Nat
deriving DecidableEq, Repr

/-- The error for a file that is not there. -/
def SystemError.notFound : SystemError := ⟨"No such file or directory", 2⟩

/-- The error for a file within something that is no directory. -/
def SystemError.notDirectory : SystemError := ⟨"Not a directory", 20⟩

/-- The error for a directory in the place of a file. -/
def SystemError.isDirectory : SystemError := ⟨"Is a directory", 21⟩

/-- Why there is no outline. -/
inductive Failure where
  /-- The arguments or the environment ask for nothing that can be done. -/
  | usage
  /-- The log filter names a level that there is not. -/
  | badFilter (filter : String)
  /-- There is no language. -/
  | noLanguage (error : LanguageError)
  /-- The file cannot be read. -/
  | unreadable (file : String) (error : SystemError)

/-- What the levels of a filter may be. -/
def levelMessage : String :=
  "error parsing level filter: expected one of "
    ++ "\"off\", \"error\", \"warn\", \"info\", \"debug\", \"trace\", or a number 0-5"

/-- An error message and its causes, each on a line of its own. Several causes are numbered. -/
def report (message : String) (causes : List String) : String :=
  let listed :=
    match causes with
    | [] => ""
    | [cause] => "\n\nCaused by:\n    " ++ cause
    | causes =>
      "\n\nCaused by:"
        ++ String.join (causes.mapIdx fun n cause => "\n    " ++ toString n ++ ": " ++ cause)
  "Error: " ++ message ++ listed ++ "\n"

/-- What is written about a failure. -/
def Failure.message : Failure → String
  | usage => "error: one file to outline is wanted\n\nUsage: codetags [OPTIONS] <FILE>\n"
  | badFilter filter =>
    report ("invalid log filter '" ++ filter ++ "'") [levelMessage, levelMessage]
  | noLanguage error => report error.message []
  | unreadable file error =>
    report ("failed to read " ++ file) [error.text ++ " (os error " ++ toString error.code ++ ")"]

/-- The exit code of a failure. -/
def Failure.exitCode : Failure → Nat
  | usage => 2
  | _ => 1

/-- What a call does. -/
structure Outcome where
  /-- The exit code. -/
  exitCode : Nat
  /-- What is printed as the answer. -/
  output : String
  /-- What is printed as an error. -/
  errors : String
deriving DecidableEq, Repr

/-- The outcome of a call that fails. -/
def Failure.outcome (failure : Failure) : Outcome := ⟨failure.exitCode, "", failure.message⟩

/-- A request whose language is settled. -/
structure Task where
  /-- The file to outline. -/
  file : String
  /-- Its language. -/
  language : Language
  /-- Whether to answer in JSON. -/
  json : Bool
deriving DecidableEq, Repr

/-- What there is to do, as far as can be told without reading the file. -/
def Task.ofWords (environment : Environment) (words : List String) : Except Failure Task :=
  match (parse? words).bind (Request.ofArguments? environment) with
  | none => .error .usage
  | some request =>
    match request.log.filter (!isGoodFilter ·) with
    | some filter => .error (.badFilter filter)
    | none =>
      match request.language with
      | some language => .ok ⟨request.file, language, request.json⟩
      | none =>
        match Language.ofPath request.file with
        | .ok language => .ok ⟨request.file, language, request.json⟩
        | .error error => .error (.noLanguage error)

/-- The answer for the bytes of the file. -/
def Task.output (task : Task) (bytes : List UInt8) : String :=
  let outline := (task.language.scanText (.ofList (Utf8.decode bytes))).outline
  if task.json then outline.toJson.pretty ++ "\n" else outline.render

/-- The outcome of a call, given a way to read files. -/
def run {m : Type → Type} [Monad m] (read : String → m (Except SystemError (List UInt8)))
    (environment : Environment) (words : List String) : m Outcome :=
  match Task.ofWords environment words with
  | .error failure => pure failure.outcome
  | .ok task => do
    match ← read task.file with
    | .ok bytes => pure ⟨0, task.output bytes, ""⟩
    | .error error => pure (Failure.unreadable task.file error).outcome

end Outliner.CommandLine

import Palette.Calculator.Report

/-!
# The command line

A command line is read into a command. Most commands look at a text, which is named on the
command line: an expression stands for itself, and otherwise the text comes from a file or from
the standard input. `Command.run` says what the program prints and how it exits once the text was
read, or could not be.
-/

namespace Palette

/-- Where a text comes from. -/
inductive Source where
  | standardInput
  | file (path : String)
  deriving DecidableEq, Repr

/-- The text named by an argument; a hyphen stands for the standard input. -/
def Source.ofArgument (argument : String) : Source :=
  if argument = "-" then .standardInput else .file argument

/-- Why a text could not be read. -/
inductive ReadFailure where
  | notFound
  | notPermitted
  /-- The bytes are no UTF-8. -/
  | notText
  | other (reason : String)
  deriving DecidableEq, Repr

namespace ReadFailure

/-- The failure in words, apart from where it happened. -/
def reason : ReadFailure → String
  | notFound => "entity not found"
  | notPermitted => "permission denied"
  | notText => "stream did not contain valid UTF-8"
  | other reason => reason

/-- The line by which the failure is reported. -/
def message (source : Source) (failure : ReadFailure) : String :=
  match source, failure with
  | .standardInput, failure => "error reading stdin: " ++ failure.reason
  | .file path, notFound => "cannot find file '" ++ path ++ "'"
  | .file path, notPermitted => "permission denied reading '" ++ path ++ "'"
  | .file path, notText => "'" ++ path ++ "' contains invalid UTF-8 data"
  | .file path, failure => "error reading '" ++ path ++ "': " ++ failure.reason

/-- The text that the bytes encode. -/
def decode (bytes : ByteArray) : Except ReadFailure String :=
  match String.fromUTF8? bytes with
  | some text => .ok text
  | none => .error .notText

end ReadFailure

/-- What the program is asked to do. -/
inductive Command where
  /-- Prints the value of an expression. -/
  | evaluate (expression : String) (recovery : Bool)
  /-- Prints the highlight of a text. -/
  | highlight (source : Source) (recovery : Bool)
  /-- Prints the tokens of a text. -/
  | tokens (source : Source)
  | help
  | version
  /-- A command without the argument that it needs. -/
  | incomplete (usage : String)
  | unknown (name : String)
  deriving DecidableEq, Repr

namespace Command

/-- The option for going on after a token that does not fit. -/
def recoverOption : String := "--recover"

/-- Reads the arguments behind the program's name. The option may stand anywhere. -/
def ofArguments : List String → Command
  | [] => .help
  | name :: arguments =>
    let recovery := arguments.contains recoverOption
    let operand := arguments.find? (· != recoverOption)
    match name, operand with
    | "eval", some expression => .evaluate expression recovery
    | "eval", none => .incomplete "lmh eval <expression> [--recover]"
    | "highlight", some path => .highlight (.ofArgument path) recovery
    | "highlight", none => .incomplete "lmh highlight <file|-> [--recover]"
    | "tokens", some path => .tokens (.ofArgument path)
    | "tokens", none => .incomplete "lmh tokens <file|->"
    | "help", _ | "--help", _ | "-h", _ => .help
    | "version", _ | "--version", _ | "-V", _ => .version
    | name, _ => .unknown name

/-- The text to read before running the command. -/
def source? : Command → Option Source
  | highlight source _ => some source
  | tokens source => some source
  | _ => none

end Command

/-- How the program ends. -/
structure Exit where
  code : Nat
  output : String
  errorOutput : String
  deriving DecidableEq, Repr

namespace Exit

/-- The report is printed, and the exit code tells whether the text was free of errors. -/
def reported (r : Report) : Exit :=
  { code := if r.clean then 0 else 1, output := r.text, errorOutput := "" }

/-- Only a complaint is printed. -/
def failed (code : Nat) (message : String) : Exit :=
  { code, output := "", errorOutput := message ++ "\n" }

/-- The program could not do its work. -/
def broken (message : String) : Exit := failed 2 ("error: " ++ message)

end Exit

/-- The help text. -/
def usage : String :=
  Report.lines
    ["lmh: highlight and evaluate arithmetic with the demo calculator grammar",
      "",
      "Usage: lmh <command> [options]",
      "",
      "Commands:",
      "  eval <expression>    Evaluate an expression and print its value",
      "  highlight <file|->   Print highlight nodes and errors",
      "  tokens <file|->      Print every token, skipped ones included",
      "  help                 Show this help message",
      "  version              Show version information",
      "",
      "Options:",
      "  --recover            Skip single unexpected tokens instead of stopping",
      "",
      "Environment:",
      "  RUST_LOG             Enable logging (e.g. RUST_LOG=lm_parse=debug)",
      "  LMH_LOG_TREE         Render logged spans as an indented tree"]

namespace Command

/-- Runs `report` on the calculator. -/
def withCalculator (recovery : Bool) (report : Parser Float → Option Report) : Exit :=
  match Calculator.parser .float { ParserConfig.standard with recovery } with
  | .error e => .broken e.message
  | .ok p =>
    match report p with
    | some r => .reported r
    | none => .broken "the text cannot be parsed"

/-- Runs `report` on the calculator's vocabulary. -/
def withVocabulary (report : Vocabulary → Report) : Exit :=
  match Calculator.vocabulary with
  | .error e => .broken e.message
  | .ok v => .reported (report v)

/-- What the program prints, given the text of its source if it has one. -/
def run (content : Except ReadFailure String) : Command → Exit
  | evaluate expression recovery => withCalculator recovery (·.evaluation? expression)
  | highlight source recovery =>
    match content with
    | .error e => .failed 1 (e.message source)
    | .ok text => withCalculator recovery fun p => (p.highlight text).map Report.ofHighlight
  | tokens source =>
    match content with
    | .error e => .failed 1 (e.message source)
    | .ok text => withVocabulary fun v => Report.ofTokens v text
  | help => { code := 0, output := usage, errorOutput := "" }
  | version => { code := 0, output := "lmh 0.1.0-alpha.1\n", errorOutput := "" }
  | incomplete usage => .failed 1 ("Usage: " ++ usage)
  | unknown name =>
    { code := 1, output := usage, errorOutput := "Unknown command: " ++ name ++ "\n\n" }

end Command

end Palette

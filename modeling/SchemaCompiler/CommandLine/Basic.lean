import SchemaCompiler.Disk.Path
import SchemaCompiler.Emission.Emitter

/-!
# The command line

What the program can be asked to do, the options that say so, and what may be wrong with a request.

There are two commands. `models` compiles every input file and writes its models to a directory or
prints them; `types` prints the table of types of every input file.
-/

namespace SchemaCompiler.CommandLine

/-- How many values an option takes. -/
inductive Arity where
  /-- None. -/
  | zero
  /-- Exactly one. -/
  | one
  /-- One or more. -/
  | many
  deriving DecidableEq, Repr

/-- An option. -/
inductive Opt where
  /-- The input files, as paths or patterns. -/
  | input
  /-- The namespace of the models. -/
  | scope
  /-- The name of the base type. -/
  | baseType
  /-- The form of the models. -/
  | format
  /-- The directory to write to. -/
  | out
  /-- Nothing is to be written. -/
  | dryRun
  /-- More of the log is to be shown. -/
  | verbose
  /-- How to use the program. -/
  | help
  /-- The version of the program. -/
  | version
  deriving DecidableEq, Repr

namespace Opt

/-- The long name of an option. -/
def long : Opt → String
  | input => "input"
  | scope => "namespace"
  | baseType => "base-type"
  | format => "format"
  | out => "out"
  | dryRun => "dry-run"
  | verbose => "verbose"
  | help => "help"
  | version => "version"

/-- The letter of an option, if it has one. -/
def short? : Opt → Option Char
  | input => some 'i'
  | out => some 'o'
  | verbose => some 'v'
  | help => some 'h'
  | version => some 'V'
  | scope | baseType | format | dryRun => none

/-- How many values an option takes. -/
def arity : Opt → Arity
  | input => .many
  | scope | baseType | format | out => .one
  | dryRun | verbose | help | version => .zero

/-- An option as messages show it. -/
def shown (option : Opt) : String :=
  "--" ++ option.long

end Opt

/-- The name of a command. -/
inductive CommandName where
  /-- Compile files into models. -/
  | models
  /-- Print tables of types. -/
  | types
  deriving DecidableEq, Repr

/-- The commands and how they are written. -/
def commandNames : List (String × CommandName) :=
  [("models", .models), ("types", .types)]

/-- The word that asks how to use the program. -/
def helpWord : String := "help"

/-- The options before a command. -/
def generalOptions : List Opt := [.verbose, .help, .version]

/-- The options of a command. -/
def CommandName.options : CommandName → List Opt
  | models => [.input, .scope, .baseType, .format, .out, .dryRun, .verbose, .help]
  | types => [.input, .verbose, .help]

/-- The forms of models that can be asked for. -/
inductive Form where
  /-- A JSON descriptor. -/
  | json
  /-- A text outline. -/
  | outline
  deriving DecidableEq, Repr

/-- The emitter of a form. -/
def Form.emitter : Form → Emitter
  | json => .json
  | outline => .outline

/-- The forms of models and how they are written. -/
def formats : List (String × Form) :=
  [("json", .json), ("outline", .outline)]

/-- What a run does. -/
inductive Command where
  /-- Compiles every input and writes its models to `out`, or prints them if there is no `out`. -/
  | models (inputs : List String) (settings : Settings) (form : Form) (out : Option Path)
      (dryRun : Bool)
  /-- Prints the table of types of every input. -/
  | types (inputs : List String)

/-- What is wrong with the arguments of a run. -/
inductive Misuse where
  /-- There is no command. -/
  | noCommand
  /-- A word is no command. -/
  | unknownCommand (word : String)
  /-- A word stands where none is wanted. -/
  | unexpected (word : String)
  /-- There is no such option. -/
  | unknownOption (text : String)
  /-- An option lacks its value. -/
  | noValue (option : Opt)
  /-- An option that takes no value has one. -/
  | needlessValue (option : Opt)
  /-- An option has a value that it does not allow. -/
  | badValue (option : Opt) (value : String)
  /-- An option is given twice. -/
  | repeated (option : Opt)
  /-- A required option is missing. -/
  | missing (option : Opt)
  deriving DecidableEq, Repr

/-- The wording of a misuse. -/
def Misuse.message : Misuse → String
  | noCommand => "a command is required"
  | unknownCommand word => "unknown command '" ++ word ++ "'"
  | unexpected word => "unexpected argument '" ++ word ++ "'"
  | unknownOption text => "unknown option '" ++ text ++ "'"
  | noValue option => "a value is required for '" ++ option.shown ++ "'"
  | needlessValue option => "'" ++ option.shown ++ "' takes no value"
  | badValue option value => "invalid value '" ++ value ++ "' for '" ++ option.shown ++ "'"
  | repeated option => "'" ++ option.shown ++ "' cannot be used twice"
  | missing option => "'" ++ option.shown ++ "' is required"

/-- What the arguments of a run ask for. -/
inductive Request where
  /-- How to use the program. -/
  | help
  /-- The version of the program. -/
  | version
  /-- Nothing that can be done. -/
  | misuse (misuse : Misuse)
  /-- A command, with the number of requests to be verbose. -/
  | run (verbosity : Nat) (command : Command)

/-- The line that gives the version of the program. -/
def versionText : String := "swagger-models 0.1.0\n"

/-- How to use the program. -/
def usageText : String :=
  "Usage: swagger-models [-v]... COMMAND OPTIONS\n\n" ++
  "Commands:\n" ++
  "  models  compile every object definition into a model\n" ++
  "  types   print the resolved table of types\n" ++
  "  help    print this text\n\n" ++
  "Options:\n" ++
  "  -i, --input INPUT...       schema files or patterns\n" ++
  "      --namespace NAMESPACE  namespace of the models\n" ++
  "      --base-type NAME       parent of models that extend no other\n" ++
  "      --format FORM          json or outline\n" ++
  "  -o, --out DIRECTORY        where to write; printed if omitted\n" ++
  "      --dry-run              only say what would be written\n" ++
  "  -v, --verbose              show more of the log\n" ++
  "  -h, --help                 print this text\n" ++
  "  -V, --version              print the version\n"

end SchemaCompiler.CommandLine

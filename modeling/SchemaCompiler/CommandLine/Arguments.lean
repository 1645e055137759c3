import SchemaCompiler.CommandLine.Basic

/-!
# Arguments

How the arguments of a run are read.

A word is an option when it begins with a hyphen and has something behind it; a lone hyphen is a
word like any other, and `--` ends the options. The value of a long option follows an equals sign,
that of a letter follows the letter, with or without an equals sign; otherwise the words behind the
option are its values. Letters may stand together behind one hyphen.

Options are taken in order, and the first that settles the request ends the reading: a plea for help
in front of a mistake is heard, and one behind it is not.
-/

namespace SchemaCompiler.CommandLine

/-- An option with its values. -/
structure Occurrence where
  /-- The option. -/
  option : Opt
  /-- Its values. -/
  values : List String
  deriving DecidableEq, Repr

/-- Options in order, up to the first mistake. -/
structure Reading where
  /-- The options. -/
  occurrences : List Occurrence
  /-- The mistake behind them. -/
  misuse : Option Misuse
  deriving DecidableEq, Repr

/-- Whether a word is an option. -/
def isOption (word : String) : Bool :=
  match word.toList with
  | '-' :: _ :: _ => true
  | _ => false

/-- The word that ends the options. -/
def endOfOptions : String := "--"

/-- The mistake in words that nothing takes. -/
def unexpectedIn (words : List String) : Option Misuse :=
  words.head?.map .unexpected

/-- An option whose value is written behind it in the same word. -/
def Reading.attached (option : Opt) (value : String) (words : List String) : Reading :=
  ⟨[⟨option, [value]⟩], unexpectedIn words⟩

/-- An option whose values are the words behind it. -/
def Reading.separate (option : Opt) (words : List String) : Reading :=
  match option.arity with
  | .zero => ⟨[⟨option, []⟩], unexpectedIn words⟩
  | .one => ⟨[⟨option, words.take 1⟩], unexpectedIn (words.drop 1)⟩
  | .many => ⟨[⟨option, words⟩], none⟩

/-- The options that letters behind a hyphen stand for, with the words behind them. -/
def readLetters (known : List Opt) (words : List String) : List Char → Reading
  | [] => ⟨[], unexpectedIn words⟩
  | c :: cs =>
    match known.find? (·.short? = some c) with
    | none => ⟨[], some (.unknownOption (.ofList ['-', c]))⟩
    | some option =>
      if option.arity = .zero then
        let later := readLetters known words cs
        { later with occurrences := ⟨option, []⟩ :: later.occurrences }
      else
        match cs with
        | [] => .separate option words
        | '=' :: value => .attached option (.ofList value) words
        | value => .attached option (.ofList value) words

/-- The option of a long name, with the words behind it. -/
def readLong (known : List Opt) (words : List String) (cs : List Char) : Reading :=
  let name := String.ofList (cs.takeWhile (· ≠ '='))
  match known.find? (·.long = name) with
  | none => ⟨[], some (.unknownOption ("--" ++ name))⟩
  | some option =>
    match cs.dropWhile (· ≠ '=') with
    | [] => .separate option words
    | _ :: value =>
      if option.arity = .zero then ⟨[], some (.needlessValue option)⟩
      else .attached option (.ofList value) words

/-- The options of a word, with the words behind it. -/
def readOption (known : List Opt) (word : String) (words : List String) : Reading :=
  match word.toList with
  | '-' :: '-' :: cs => readLong known words cs
  | _ :: cs => readLetters known words cs
  | [] => ⟨[], unexpectedIn words⟩

/-- Reads the words behind a command: the words that belong to no option, and the options. -/
def readWords (known : List Opt) : List String → List String × Reading
  | [] => ([], ⟨[], none⟩)
  | word :: later =>
    let (words, reading) := readWords known later
    if isOption word then
      let own := readOption known word words
      ([],
        match own.misuse with
        | some _ => own
        | none => { reading with occurrences := own.occurrences ++ reading.occurrences })
    else (word :: words, reading)

/-- Reads the options behind a command. Words in front of all options are a mistake, and so is
anything behind the end of the options. -/
def readOptions (known : List Opt) (arguments : List String) : Reading :=
  let (words, reading) := readWords known (arguments.takeWhile (· ≠ endOfOptions))
  match unexpectedIn words with
  | some misuse => ⟨[], some misuse⟩
  | none =>
    { reading with
      misuse := reading.misuse <|>
        unexpectedIn ((arguments.dropWhile (· ≠ endOfOptions)).drop 1) }

/-! ### What the options ask for -/

/-- What options have said so far. -/
structure Draft where
  /-- The inputs. -/
  inputs : List String := []
  /-- The namespace. -/
  scope : Option String := none
  /-- The name of the base type. -/
  baseType : Option String := none
  /-- The form of the models. -/
  form : Option Form := none
  /-- The directory to write to. -/
  out : Option Path := none
  /-- Whether nothing is to be written. -/
  dryRun : Bool := false
  /-- The number of requests to be verbose. -/
  verbosity : Nat := 0

namespace Draft

/-- The one value of an option that may be given once. -/
def single {α : Type} (option : Opt) (given : Option α) (values : List String)
    (read? : String → Option α) : Except Request (Option α) :=
  match values with
  | [] => .error (.misuse (.noValue option))
  | value :: _ =>
    if given.isSome then .error (.misuse (.repeated option))
    else
      match read? value with
      | none => .error (.misuse (.badValue option value))
      | some x => .ok (some x)

/-- The path that a value is, unless it is empty. -/
def pathOfValue? (value : String) : Option Path :=
  if value.isEmpty then none else some ⟨value⟩

/-- What is known after one more option, or the request that it settles. -/
def add (draft : Draft) (occurrence : Occurrence) : Except Request Draft :=
  let values := occurrence.values
  match occurrence.option with
  | .help => .error .help
  | .version => .error .version
  | .verbose => .ok { draft with verbosity := draft.verbosity + 1 }
  | .dryRun =>
    if draft.dryRun then .error (.misuse (.repeated .dryRun))
    else .ok { draft with dryRun := true }
  | .input =>
    if values.isEmpty then .error (.misuse (.noValue .input))
    else .ok { draft with inputs := draft.inputs ++ values }
  | .scope => do .ok { draft with scope := ← single .scope draft.scope values some }
  | .baseType => do .ok { draft with baseType := ← single .baseType draft.baseType values some }
  | .format => do
    .ok { draft with form := ← single .format draft.form values (formats.lookup ·) }
  | .out => do .ok { draft with out := ← single .out draft.out values pathOfValue? }

/-- What is known after options, or the request that one of them settles. -/
def addAll (draft : Draft) (reading : Reading) : Except Request Draft := do
  let draft ← reading.occurrences.foldlM add draft
  match reading.misuse with
  | some misuse => .error (.misuse misuse)
  | none => .ok draft

/-- The command that options ask for, once all are known. -/
def command (draft : Draft) : CommandName → Command
  | .models =>
    let settings : Settings := {}
    .models draft.inputs
      ⟨draft.scope.getD settings.scope, draft.baseType.getD settings.baseType⟩
      (draft.form.getD .json) draft.out draft.dryRun
  | .types => .types draft.inputs

end Draft

namespace Request

/-- The request of a command with the arguments behind it, when `general` counts the requests to be
verbose in front of it. Those behind it win. -/
def ofCommand (general : Nat) (name : CommandName) (arguments : List String) : Request :=
  match Draft.addAll {} (readOptions name.options arguments) with
  | .error request => request
  | .ok draft =>
    if draft.inputs.isEmpty then .misuse (.missing .input)
    else
      .run (if draft.verbosity = 0 then general else draft.verbosity) (draft.command name)

/-- The request for help with the words behind it, of which the first may be a command. -/
def ofHelp : List String → Request
  | [] => help
  | word :: words =>
    if word = helpWord || (commandNames.lookup word).isSome then
      match words with
      | [] => help
      | next :: _ => misuse (.unknownCommand next)
    else misuse (.unknownCommand word)

/-- The request that arguments make. -/
def ofArguments (arguments : List String) : Request :=
  let front := arguments.takeWhile fun word => isOption word && word ≠ endOfOptions
  match Draft.addAll {} (readOptions generalOptions front) with
  | .error request => request
  | .ok draft =>
    match arguments.drop front.length with
    | [] => misuse .noCommand
    | word :: later =>
      match commandNames.lookup word with
      | some name => ofCommand draft.verbosity name later
      | none =>
        if word = helpWord then ofHelp later
        else misuse (.unknownCommand word)

end Request

end SchemaCompiler.CommandLine

import DeployPlan.Text.Blank

/-!
# Arguments of the command line

## Main definitions

* `DeployPlan.BuildOptions`, `Command`, `Invocation` — what can be asked for.
* `DeployPlan.Switch` — the options, by what they do.
* `Switch.readAll` — the options and the other words of a command.
* `DeployPlan.Request.ofArguments` — what a list of arguments asks for.

## Implementation notes

Arguments are taken in order, and the first that is refused, or that asks for help or for the
version, decides.  Options that all commands have can be given before the command as well; behind
it they count more.
-/

set_option autoImplicit false

namespace DeployPlan

/-! ## Requests -/

/-- How a plan is built. -/
structure BuildOptions where
  manifest : String := "manifest.yaml"
  deployment : Option String := none
  /-- The namespace in place of that of the settings. -/
  «namespace» : Option String := none
  strict : Bool := false
  managed : Bool := false
  skipUnmatchedPackages : Bool := false
  /-- Variables, in the order in which they were given. -/
  bindings : List (String × String) := []
  deriving DecidableEq, Inhabited

/-- What is done. -/
inductive Command where
  /-- Builds a plan and shows it. -/
  | compose (options : BuildOptions)
  /-- Builds a plan and tells its size. -/
  | validate (options : BuildOptions)
  /-- Lists the runtimes. -/
  | runtimes
  /-- Lists the words that a shell can complete. -/
  | completions (shell : String)
  deriving DecidableEq, Inhabited

/-- A command and the options that all commands have. -/
structure Invocation where
  /-- The path of the settings. -/
  config : Option String := none
  /-- Whether the result is shown as JSON. -/
  json : Bool := false
  /-- Whether messages of all levels are shown. -/
  verbose : Bool := false
  command : Command
  deriving DecidableEq, Inhabited

/-- What a list of arguments asks for. -/
inductive Request where
  | perform (i : Invocation)
  | help
  | version
  /-- The arguments are not understood. -/
  | refused
  deriving DecidableEq, Inhabited

/-! ## Options -/

/-- The options. -/
inductive Switch where
  | config
  | json
  | verbose
  | trace
  | help
  | version
  | deployment
  | ns
  | strict
  | managed
  | skipUnmatched
  | variable
  deriving DecidableEq, Inhabited

namespace Switch

/-- The options that all commands have. -/
def shared : List Switch := [.config, .json, .verbose, .trace, .help]

/-- The options before the command. -/
def leading : List Switch := .version :: shared

/-- The options of commands that build a plan. -/
def building : List Switch :=
  [.deployment, .ns, .strict, .managed, .skipUnmatched, .variable] ++ shared

/-- The long name of an option. -/
def longName : Switch → String
  | .config => "config"
  | .json => "json"
  | .verbose => "verbose"
  | .trace => "trace"
  | .help => "help"
  | .version => "version"
  | .deployment => "deployment"
  | .ns => "namespace"
  | .strict => "strict"
  | .managed => "managed"
  | .skipUnmatched => "skip-unmatched-packages"
  | .variable => "var"

/-- The letter of an option. -/
def letter? : Switch → Option Char
  | .verbose => some 'v'
  | .help => some 'h'
  | .version => some 'V'
  | .deployment => some 'd'
  | _ => none

/-- Whether an option has a value. -/
def takesValue : Switch → Bool
  | .config | .deployment | .ns | .variable => true
  | _ => false

/-- Whether an option can be given more than once. -/
def isRepeatable (o : Switch) : Bool := o == .variable

/-- The name and the value of a variable. -/
def binding? (value : String) : Option (String × String) :=
  let name := value.toList.takeWhile (· != '=')
  if name.isEmpty || name.length = value.length then none
  else some (String.ofList name, String.ofList (value.toList.drop (name.length + 1)))

/-- Whether a value is one for an option: paths are not empty, and variables have a name. -/
def admits (o : Switch) (value : String) : Bool :=
  match o with
  | .config | .deployment => !value.isEmpty
  | .variable => (binding? value).isSome
  | _ => true

/-- An option that was given, with its value. -/
abbrev Given := Switch × String

/-- The last value of an option. -/
def value? (o : Switch) (given : List Given) : Option String :=
  (given.reverse.find? fun g => g.1 == o).map (·.2)

/-- Whether an option was given. -/
def isGiven (o : Switch) (given : List Given) : Bool := given.any fun g => g.1 == o

/-! ## Words -/

/-- What one argument is. -/
inductive Word where
  /-- It ends the options. -/
  | separator
  /-- A long option, with the value behind its equals sign. -/
  | long (name : String) (value : Option String)
  /-- The letters of options. -/
  | letters (cs : List Char)
  /-- No option. -/
  | plain (s : String)
  deriving DecidableEq, Inhabited

/-- What an argument is. -/
def Word.ofArgument (s : String) : Word :=
  match s.toList with
  | ['-', '-'] => .separator
  | '-' :: '-' :: cs =>
    let name := cs.takeWhile (· != '=')
    let value := if name.length < cs.length then
        some (String.ofList (cs.drop (name.length + 1)))
      else none
    .long (String.ofList name) value
  | ['-'] => .plain s
  | '-' :: cs => .letters cs
  | _ => .plain s

/-- Why no more arguments are read. -/
inductive Stop where
  | help
  | version
  | refused
  deriving DecidableEq, Inhabited

/-- The request that is left when no more arguments are read. -/
def Stop.request : Stop → Request
  | .help => .help
  | .version => .version
  | .refused => .refused

/-- What was read: options, and other words. -/
structure Progress where
  given : List Given := []
  words : List String := []
  deriving DecidableEq, Inhabited

namespace Progress

/-- Takes an option. -/
def take (p : Progress) (o : Switch) (value : String) : Except Stop Progress :=
  match o with
  | .help => .error .help
  | .version => .error .version
  | o =>
    if (isGiven o p.given && !o.isRepeatable) || !o.admits value then .error .refused
    else .ok { p with given := p.given ++ [(o, value)] }

/-- Takes another word, of which there can be `most`; no word is empty. -/
def takeWord (p : Progress) (most : Nat) (word : String) : Except Stop Progress :=
  if p.words.length < most && !word.isEmpty then .ok { p with words := p.words ++ [word] }
  else .error .refused

/-- Takes the letters of options.  The last can be one with a value, which follows at once or is
the next argument. -/
def takeLetters (options : List Switch) (p : Progress) :
    List Char → Except Stop (Progress × Option Switch)
  | [] => .ok (p, none)
  | c :: cs =>
    match options.find? fun o => o.letter? == some c with
    | none => .error .refused
    | some o =>
      if o.takesValue then
        match cs with
        | [] => .ok (p, some o)
        | '=' :: value => (p.take o (String.ofList value)).map fun p => (p, none)
        | value => (p.take o (String.ofList value)).map fun p => (p, none)
      else match p.take o "" with
        | .ok p => takeLetters options p cs
        | .error stop => .error stop

/-- Takes a long option, which may still want its value. -/
def takeLong (options : List Switch) (p : Progress) (name : String) (value : Option String) :
    Except Stop (Progress × Option Switch) :=
  match options.find? fun o => o.longName == name with
  | none => .error .refused
  | some o => match o.takesValue, value with
    | true, some value => (p.take o value).map fun p => (p, none)
    | true, none => .ok (p, some o)
    | false, some _ => .error .refused
    | false, none => (p.take o "").map fun p => (p, none)

end Progress

/-- Reads the arguments of a command that has some options, and up to `most` other words.
`wanting` is an option that still wants its value. -/
def readAll (options : List Switch) (most : Nat) (p : Progress) (wanting : Option Switch) :
    List String → Except Stop Progress
  | [] => if wanting.isSome then .error .refused else .ok p
  | arg :: args =>
    match wanting, Word.ofArgument arg with
    | some o, .plain value => match p.take o value with
      | .ok p => readAll options most p none args
      | .error stop => .error stop
    | some _, _ => .error .refused
    | none, .separator => args.foldlM (fun p word => p.takeWord most word) p
    | none, .long name value => match p.takeLong options name value with
      | .ok (p, wanting) => readAll options most p wanting args
      | .error stop => .error stop
    | none, .letters cs => match p.takeLetters options cs with
      | .ok (p, wanting) => readAll options most p wanting args
      | .error stop => .error stop
    | none, .plain word => match p.takeWord most word with
      | .ok p => readAll options most p none args
      | .error stop => .error stop

/-- Reads the options before a command, and gives the command and what follows it. -/
def readLeading (p : Progress) (wanting : Option Switch) :
    List String → Except Stop (Progress × String × List String)
  | [] => .error .refused
  | arg :: args =>
    match wanting, Word.ofArgument arg with
    | some o, .plain value => match p.take o value with
      | .ok p => readLeading p none args
      | .error stop => .error stop
    | some _, _ => .error .refused
    | none, .separator => .error .refused
    | none, .long name value => match p.takeLong leading name value with
      | .ok (p, wanting) => readLeading p wanting args
      | .error stop => .error stop
    | none, .letters cs => match p.takeLetters leading cs with
      | .ok (p, wanting) => readLeading p wanting args
      | .error stop => .error stop
    | none, .plain word => .ok (p, word, args)

end Switch

/-! ## Whole lists of arguments -/

namespace BuildOptions

/-- The options of a command that builds a plan. -/
def ofProgress (p : Switch.Progress) : BuildOptions where
  manifest := p.words.head?.getD "manifest.yaml"
  deployment := Switch.value? .deployment p.given
  «namespace» := Switch.value? .ns p.given
  strict := Switch.isGiven .strict p.given
  managed := Switch.isGiven .managed p.given
  skipUnmatchedPackages := Switch.isGiven .skipUnmatched p.given
  bindings := p.given.filterMap fun (o, value) =>
    if o = .variable then Switch.binding? value else none

end BuildOptions

namespace Request

/-- The shells that words can be completed for. -/
def shells : List String := ["bash", "elvish", "fish", "powershell", "zsh"]

/-- The commands, the one for help included. -/
def commandNames : List String := ["compose", "validate", "runtimes", "completions", "help"]

/-- The request for a command, given what was read before and behind its name. -/
def ofProgress (before behind : Switch.Progress) (command : Command) : Request :=
  let given := before.given ++ behind.given
  .perform { config := Switch.value? .config given
             json := Switch.isGiven .json given
             verbose := Switch.isGiven .verbose given || Switch.isGiven .trace given
             command := command }

/-- The request for a command that has some options and up to `most` other words. -/
def ofCommand (before : Switch.Progress) (options : List Switch) (most : Nat)
    (args : List String) (command? : Switch.Progress → Option Command) : Request :=
  match Switch.readAll options most {} none args with
  | .error stop => stop.request
  | .ok behind => match command? behind with
    | some command => ofProgress before behind command
    | none => .refused

/-- The request for help on a command. -/
def ofHelp : List String → Request
  | [] => .help
  | [name] => if commandNames.contains name then .help else .refused
  | _ => .refused

/-- What a list of arguments asks for. -/
def ofArguments (args : List String) : Request :=
  match Switch.readLeading {} none args with
  | .error stop => stop.request
  | .ok (before, name, args) =>
    if name = "compose" then
      ofCommand before Switch.building 1 args fun p => some (.compose (.ofProgress p))
    else if name = "validate" then
      ofCommand before Switch.building 1 args fun p => some (.validate (.ofProgress p))
    else if name = "runtimes" then
      ofCommand before Switch.shared 0 args fun _ => some .runtimes
    else if name = "completions" then
      ofCommand before Switch.shared 1 args fun p =>
        (p.words.head?.filter shells.contains).map .completions
    else if name = "help" then ofHelp args
    else .refused

end Request

end DeployPlan

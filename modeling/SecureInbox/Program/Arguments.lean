/-!
# Arguments

A request is a command and its options. The value of an option follows it, or
stands after `=` in the same argument. An argument that begins with a dash is an
option, unless it is a lone dash or comes after `--`; so a value that begins
with a dash can only be given after `=`.

Whatever is not asked for, such as an unknown option or a second value for an
option that takes one, makes the whole line no request. Arguments are looked at
one after the other, so help is given when it is asked for before the first
unfit argument, even if something that a command needs is still missing then.
-/

namespace SecureInbox

/-- The options of taking in events. -/
structure IngestOptions where
  /-- The file of the events; a dash stands for standard input. -/
  fragments : String
  config : Option String := none
  secret : Option String := none
  fallback : Option String := none
  pushType : Option Int := none
  prekeys : List UInt32 := []
  deriving DecidableEq, Repr

/-- What is asked of the program. -/
inductive Request
  /-- Take in events and report on them. -/
  | ingest (options : IngestOptions)
  /-- Tell the kind of a body. -/
  | classify (body : String)
  /-- Give the commented default configuration, or write it to a file. -/
  | defaultConfig (output : Option String) (force : Bool)
  /-- Tell the version and what the program is for. -/
  | version
  /-- Tell the version in one line. -/
  | banner
  | help
  deriving DecidableEq, Repr

/-- An argument of a command. -/
inductive Argument
  | option (name value : String)
  | flag (name : String)
  | plain (text : String)
  /-- Help is asked for; what comes after does not count. -/
  | help
  deriving DecidableEq, Repr

namespace Argument

/-- The argument is an option and no plain text. -/
def isOption (text : List Char) : Bool :=
  match text with
  | '-' :: _ :: _ => true
  | _ => false

/-- The argument asks for help. -/
def isHelp (text : List Char) : Bool := text == "--help".toList || "-h".toList.isPrefixOf text

/-- The arguments of a command whose options have values and whose flags have
    none. -/
def scan (options flags : List String) : List String → Option (List Argument)
  | [] => some []
  | a :: rest =>
    if a = "--" then some (rest.map .plain)
    else if isHelp a.toList then some [.help]
    else
      match a.toList with
      | '-' :: '-' :: text =>
        match text.span (· != '=') with
        | (name, '=' :: value) =>
          if options.contains (String.ofList name) then
            (scan options flags rest).map
              (.option (String.ofList name) (String.ofList value) :: ·)
          else none
        | (name, _) =>
          if flags.contains (String.ofList name) then
            (scan options flags rest).map (.flag (String.ofList name) :: ·)
          else if options.contains (String.ofList name) then
            match rest with
            | value :: rest =>
              if isOption value.toList then none
              else (scan options flags rest).map (.option (String.ofList name) value :: ·)
            | [] => none
          else none
      | text =>
        if isOption text then none else (scan options flags rest).map (.plain a :: ·)

/-- All values of an option, in order. -/
def values (name : String) (arguments : List Argument) : List String :=
  arguments.filterMap fun
    | .option n value => if n = name then some value else none
    | _ => none

/-- The value of an option, if it is there. Two values are refused. -/
def value? (name : String) (arguments : List Argument) : Option (Option String) :=
  match values name arguments with
  | [] => some none
  | [value] => some (some value)
  | _ => none

/-- The path given by an option, if it is there. The empty path is refused. -/
def path? (name : String) (arguments : List Argument) : Option (Option String) :=
  (value? name arguments).filter (· != some "")

/-- A flag is there. Two of them are refused. -/
def flag? (name : String) (arguments : List Argument) : Option Bool :=
  match arguments.countP (· == .flag name) with
  | 0 => some false
  | 1 => some true
  | _ => none

/-- The plain arguments. -/
def plains (arguments : List Argument) : List String :=
  arguments.filterMap fun
    | .plain text => some text
    | _ => none

end Argument

/-- The integer in a text, within bounds. A sign may come first. -/
def boundedInteger? (low high : Int) (text : String) : Option Int :=
  let (negative, digits) := match text.toList with
    | '-' :: rest => (true, rest)
    | '+' :: rest => (false, rest)
    | digits => (false, digits)
  if digits ≠ [] ∧ digits.all Char.isDigit then
    let n := Int.ofNat (digits.foldl (fun n c => 10 * n + (c.toNat - 48)) 0)
    let n := if negative then -n else n
    if low ≤ n ∧ n ≤ high then some n else none
  else none

namespace Request

/-- What arguments make of a command: nothing when one of them is not fit, and
    no request yet when something is missing. -/
abbrev Reading := Option (Option Request)

/-- A request to take in events. It needs their file. -/
def ofIngest (arguments : List Argument) : Reading := do
  let prekeys ← (Argument.values "prekey" arguments).mapM
    (boundedInteger? 0 4294967295)
  let pushType ← match ← Argument.value? "push-type" arguments with
    | some text => (boundedInteger? (-2147483648) 2147483647 text).map some
    | none => some none
  let fragments ← Argument.path? "fragments" arguments
  let config ← Argument.path? "config" arguments
  let secret ← Argument.value? "secret" arguments
  let fallback ← Argument.value? "fallback-secret" arguments
  if Argument.plains arguments ≠ [] then none
  else
    return fragments.map fun fragments =>
      .ingest {
        fragments, config, secret, fallback, pushType
        prekeys := prekeys.map fun n => UInt32.ofNat n.toNat }

/-- A request for the kind of a body. -/
def ofClassify (arguments : List Argument) : Reading :=
  match Argument.plains arguments with
  | [] => some none
  | [body] => some (some (.classify body))
  | _ => none

/-- A request for the default configuration. -/
def ofDefaultConfig (arguments : List Argument) : Reading := do
  let output ← Argument.path? "output" arguments
  let force ← Argument.flag? "force" arguments
  if Argument.plains arguments ≠ [] then none else return some (.defaultConfig output force)

/-- A request for the version. -/
def ofVersion (arguments : List Argument) : Reading :=
  if arguments = [] then some (some .version) else none

/-- A command: its name, its options and flags, and how they make a request. -/
structure Command where
  name : String
  options : List String := []
  flags : List String := []
  read : List Argument → Reading

/-- The commands. -/
def commands : List Command :=
  [{ name := "ingest"
     options := ["fragments", "config", "secret", "fallback-secret", "push-type", "prekey"]
     read := ofIngest },
    { name := "classify", read := ofClassify },
    { name := "default-config", options := ["output"], flags := ["force"]
      read := ofDefaultConfig },
    { name := "version", read := ofVersion }]

/-- The request of a command with its arguments. -/
def ofCommand (c : Command) (arguments : List String) : Option Request := do
  let arguments ← Argument.scan c.options c.flags arguments
  let request ← c.read (arguments.filter (· != .help))
  if arguments.contains .help then some .help else request

/-- The request for help, perhaps on a command or on help itself. -/
def ofHelp : List String → Option Request
  | [] => some .help
  | [topic] => if topic = "help" ∨ commands.any (·.name == topic) then some .help else none
  | _ => none

/-- The request that a line of arguments makes. -/
def parse : List String → Option Request
  | [] => none
  | first :: rest =>
    if first = "--version" ∨ "-V".toList.isPrefixOf first.toList then some .banner
    else if Argument.isHelp first.toList then some .help
    else if first = "help" then ofHelp rest
    else
      match commands.find? (·.name == first) with
      | some command => ofCommand command rest
      | none => none

end Request

end SecureInbox

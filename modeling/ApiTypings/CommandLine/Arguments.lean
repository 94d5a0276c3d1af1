import ApiTypings.Settings

/-! What may be asked for on the command line: a command, and options before or after each other in
any order. -/

namespace ApiTypings

/-- Options of the command that generates packages. -/
structure GenerateOptions where
  /-- The file of settings. -/
  config : Option String
  url : Option String
  service : Option String
  out : Option String
  allVersions : Bool
  verbose : Bool
  help : Bool
  /-- Something was given that is no option. -/
  extra : Bool
deriving DecidableEq, Repr

inductive Command where
  | generate (options : GenerateOptions)
  | version
  | help
deriving DecidableEq, Repr

namespace GenerateOptions

/-- Nothing is asked for. -/
def empty : GenerateOptions := ⟨none, none, none, none, false, false, false, false⟩

/-- An option by its names, and what it does: it takes a value, or it is a flag. -/
inductive Action where
  | value (set : String → GenerateOptions → GenerateOptions)
  | flag (set : GenerateOptions → GenerateOptions)

def longActions : List (String × Action) :=
  [("--config", .value fun v o => { o with config := some v }),
   ("--url", .value fun v o => { o with url := some v }),
   ("--service", .value fun v o => { o with service := some v }),
   ("--out", .value fun v o => { o with out := some v }),
   ("--all", .flag fun o => { o with allVersions := true }),
   ("--verbose", .flag fun o => { o with verbose := true }),
   ("--help", .flag fun o => { o with help := true })]

def shortNames : List (Char × String) :=
  [('c', "--config"), ('u', "--url"), ('s', "--service"), ('o', "--out"), ('a', "--all"),
   ('v', "--verbose")]

def shortAction? (c : Char) : Option Action :=
  (shortNames.lookup c).bind fun name => longActions.lookup name

/-- The options after an argument, and how many of the following arguments were values. -/
abbrev Taken := Option (GenerateOptions × Nat)

/-- An option with two dashes. Its value stands behind an equals sign or is the next argument. -/
def takeLong (argument : String) (next : Option String) (o : GenerateOptions) : Taken :=
  let name := argument.toList.takeWhile (· != '=')
  let attached := match argument.toList.drop name.length with
    | _ :: value => some (String.ofList value)
    | [] => none
  match longActions.lookup (String.ofList name), attached with
  | some (.flag set), none => some (set o, 0)
  | some (.value set), some value => some (set value o, 0)
  | some (.value set), none => next.map fun value => (set value o, 1)
  | _, _ => none

/-- Options of one letter, several behind one dash. What follows a letter that takes a value is
the value. -/
def takeShort (next : Option String) : List Char → GenerateOptions → Taken
  | [], o => some (o, 0)
  | c :: rest, o =>
    match shortAction? c with
    | some (.flag set) => takeShort next rest (set o)
    | some (.value set) =>
      if rest.isEmpty then next.map fun value => (set value o, 1)
      else some (set (String.ofList rest) o, 0)
    | none => none

def take (argument : String) (next : Option String) (o : GenerateOptions) : Taken :=
  match argument.toList with
  | '-' :: '-' :: _ => takeLong argument next o
  | '-' :: c :: rest => takeShort next (c :: rest) o
  | _ => some ({ o with extra := true }, 0)

/-- The options that arguments stand for. Two dashes end the options. Every step takes an argument,
so that their number is enough fuel. -/
def ofArguments : Nat → List String → GenerateOptions → Option GenerateOptions
  | 0, _, _ => none
  | _, [], o => some o
  | fuel + 1, argument :: rest, o =>
    if argument == "--" then some (if rest.isEmpty then o else { o with extra := true })
    else match take argument rest.head? o with
      | some (next, used) => ofArguments fuel (rest.drop used) next
      | none => none

def overrides (o : GenerateOptions) : Overrides := ⟨o.url, o.service, o.allVersions, o.out⟩

end GenerateOptions

namespace Command

/-- An option starts with a dash and is more than that; two dashes alone are none. -/
def isOption (argument : String) : Bool :=
  argument.toList.head? == some '-' && argument != "-" && argument != "--"

/-- A request for help comes before the complaint that something is no option. -/
def unlessHelp (help extra : Bool) (command : Command) : Option Command :=
  if help then some .help else if extra then none else some command

/-- The command that takes no option but the one for help. -/
def versionOfArguments (help extra : Bool) : List String → Option Command
  | [] => unlessHelp help extra version
  | "--help" :: rest => versionOfArguments true extra rest
  | "--" :: rest => unlessHelp help (extra || !rest.isEmpty) version
  | argument :: rest =>
    if isOption argument then none else versionOfArguments help true rest

def ofWords : List String → Option Command
  | "generate" :: arguments =>
    (GenerateOptions.ofArguments (arguments.length + 1) arguments .empty).bind fun options =>
      unlessHelp options.help options.extra (generate options)
  | "version" :: arguments => versionOfArguments false false arguments
  | _ => none

/-- The command that is asked for, if it is asked for as it should be. Help may be asked for before
any command. -/
def ofArguments : List String → Option Command
  | "--help" :: words =>
    if (words.dropWhile (· == "--help")).head?.any isOption then none else some help
  | "--" :: words => ofWords words
  | words => ofWords words

end Command

end ApiTypings

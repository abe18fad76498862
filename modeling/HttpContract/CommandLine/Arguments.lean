import HttpContract.Text.Quoted

/-!
# Arguments

A command's arguments are options and plain arguments. An option may be abbreviated as far as it
stays unambiguous, take its value behind an equals sign or directly behind a short name, and short
flags may be joined. `--` ends the options. Reading gives what was found in order; what fits nowhere
is extra.
-/

namespace HttpContract.CommandLine

/-- An option: all its names, and whether it takes a value. -/
structure OptionSpec where
  names : List String
  takesValue : Bool := false
deriving DecidableEq, Repr, Inhabited

namespace OptionSpec

/-- How messages name an option. -/
def title (o : OptionSpec) : String := String.intercalate "/" o.names

end OptionSpec

/-- The plain arguments that a grammar takes. -/
inductive Plain
  /-- One or more, up to the next option. -/
  | several
  /-- The name of a command and everything behind it. -/
  | command
deriving DecidableEq, Repr, Inhabited

/-- What a command line may look like. -/
structure Grammar where
  options : List OptionSpec
  plain : Plain
deriving Repr, Inhabited

/-- What can be wrong with a command line. -/
inductive UsageError
  | ambiguous (argument : String) (matching : List String)
  | ignoredValue (option : OptionSpec) (value : String)
  | valueExpected (option : OptionSpec)
  | unknownCommand (name : String) (known : List String)
  | required (title : String)
  | unrecognized (arguments : List String)
deriving Repr, Inhabited

namespace UsageError

/-- What the command says of the mistake. -/
def message : UsageError → String
  | ambiguous a names => s!"ambiguous option: {a} could match " ++ String.intercalate ", " names
  | ignoredValue o v => s!"argument {o.title}: ignored explicit argument " ++ Quoted.text v
  | valueExpected o => s!"argument {o.title}: expected one argument"
  | unknownCommand name known =>
    "argument command: invalid choice: " ++ Quoted.text name ++ " (choose from " ++
      String.intercalate ", " (known.map Quoted.text) ++ ")"
  | required title => s!"the following arguments are required: {title}"
  | unrecognized as => "unrecognized arguments: " ++ String.intercalate " " as

end UsageError

/-- How a value is attached to the name of an option. -/
inductive Attached
  | nothing
  /-- Behind an equals sign. -/
  | equals (value : String)
  /-- Directly behind a short name. -/
  | joined (value : String)
deriving DecidableEq, Repr, Inhabited

/-- What an argument looks like before it is read. -/
inductive Shape
  | plain
  | separator
  /-- An option under one of its names; none when no option has the name. -/
  | option (spec : Option OptionSpec) (name : String) (attached : Attached)
deriving DecidableEq, Repr, Inhabited

/-- What was read. -/
inductive Found
  | option (spec : OptionSpec) (name : String) (value : Option String)
  | plain (arguments : List String)
deriving DecidableEq, Repr, Inhabited

namespace Grammar

/-- All option names with their options. -/
def table (g : Grammar) : List (String × OptionSpec) :=
  g.options.flatMap fun o => o.names.map (·, o)

/-- The option that has this name. -/
def option? (g : Grammar) (name : String) : Option OptionSpec :=
  (g.table.find? fun e => e.1 == name).map (·.2)

/-- The text before and after the first equals sign. -/
def splitEquals (a : String) : String × Option String :=
  match a.toList.dropWhile (· != '=') with
  | _ :: value => (String.ofList (a.toList.takeWhile (· != '=')), some (String.ofList value))
  | [] => (a, none)

/-- A negative number is a plain argument. -/
def isNegativeNumber (a : String) : Bool :=
  match a.toList with
  | '-' :: rest =>
    let whole := rest.takeWhile Char.isDigit
    match rest.dropWhile Char.isDigit with
    | [] => !whole.isEmpty
    | '.' :: places => !places.isEmpty && places.all Char.isDigit
    | _ => false
  | _ => false

/-- The options that an argument may abbreviate, or whose short name it begins with. -/
def matching (g : Grammar) (a : String) : List (OptionSpec × String × Attached) :=
  match a.toList with
  | '-' :: '-' :: _ =>
    let (start, value) := splitEquals a
    let attached := match value with
      | some v => Attached.equals v
      | none => .nothing
    g.table.filterMap fun (name, o) =>
      if name.startsWith start then some (o, name, attached) else none
  | '-' :: c :: rest =>
    g.table.filterMap fun (name, o) =>
      if name = String.ofList ['-', c] then some (o, name, .joined (String.ofList rest))
      else if name.startsWith a then some (o, name, .nothing)
      else none
  | _ => []

/-- The shape of an argument before any `--`. -/
def shape (g : Grammar) (a : String) : Except UsageError Shape :=
  if !a.startsWith "-" then .ok .plain
  else match g.option? a with
    | some o => .ok (.option (some o) a .nothing)
    | none =>
      if a = "-" then .ok .plain
      else
        let (name, value) := splitEquals a
        match g.option? name, value with
        | some o, some v => .ok (.option (some o) name (.equals v))
        | _, _ =>
          match g.matching a with
          | [(o, name, attached)] => .ok (.option (some o) name attached)
          | [] =>
            if isNegativeNumber a || a.toList.contains ' ' then .ok .plain
            else .ok (.option none a .nothing)
          | several => .error (.ambiguous a (several.map (·.2.1)))

/-- What each argument looks like; all behind a separator are plain. -/
def shapes (g : Grammar) : List String → Except UsageError (List (String × Shape))
  | [] => .ok []
  | a :: rest =>
    if a = "--" then .ok ((a, .separator) :: rest.map (·, .plain))
    else do
      let s ← g.shape a
      pure ((a, s) :: (← shapes g rest))

/-- What an option and the arguments behind it give, and how many of those it uses. -/
structure Consumed where
  found : List Found := []
  extras : List String := []
  used : Nat := 0

/-- Reads an option; the fuel bounds the short flags joined in one argument. -/
def consumeOption (g : Grammar) (fuel : Nat) (spec : OptionSpec) (name : String)
    (attached : Attached) (next : List (String × Shape)) : Except UsageError Consumed :=
  match fuel with
  | 0 => .ok {}
  | fuel + 1 =>
  let isLong := (name.toList.drop 1).head? == some '-'
  match spec.takesValue, attached with
  | true, .nothing =>
    match next with
    | (v, .plain) :: _ => .ok { found := [.option spec name (some v)], used := 1 }
    | _ => .error (.valueExpected spec)
  | true, .equals v | true, .joined v => .ok { found := [.option spec name (some v)] }
  | false, .nothing => .ok { found := [.option spec name none] }
  | false, .equals v => .error (.ignoredValue spec v)
  | false, .joined v =>
    match v.toList with
    | c :: rest =>
      if isLong || c == '-' then .error (.ignoredValue spec v)
      else
        let own := Found.option spec name none
        let name := String.ofList ['-', c]
        match g.option? name with
        | none => .ok { found := [own], extras := ["-" ++ v] }
        | some o =>
          let attached := match rest with
            | [] => Attached.nothing
            | '=' :: value => .equals (String.ofList value)
            | value => .joined (String.ofList value)
          (consumeOption g fuel o name attached next).map fun r =>
            { r with found := own :: r.found }
    | [] => .error (.ignoredValue spec v)

/-- How many of the next arguments the plain ones take. -/
def plainCount (plain : Plain) (as : List (String × Shape)) : Nat :=
  let leading := as.takeWhile fun a => !(a.2 matches .option ..)
  let hasPlain := leading.any fun a => a.2 matches .plain
  match plain with
  | .several => if hasPlain then leading.length else 0
  | .command => if hasPlain then as.length else 0

/-- The values of plain arguments: without the first `--` when there may be several. -/
def plainValues (plain : Plain) (as : List (String × Shape)) : List String :=
  match plain with
  | .several => (as.map (·.1)).erase "--"
  | .command => as.map (·.1)

/-- What reading gives, up to its end or to the error that ends it. -/
structure Arguments where
  found : List Found := []
  extras : List String := []
  stop : Option UsageError := none
deriving Repr, Inhabited

namespace Arguments

/-- Puts what was read before in front. -/
def after (later : Arguments) (found : List Found) (extras : List String) : Arguments :=
  { later with found := found ++ later.found, extras := extras ++ later.extras }

end Arguments

/-- Reads arguments in order. Plain arguments are taken once; the fuel is the number of
arguments. -/
def readFrom (g : Grammar) (fuel : Nat) (plainDone : Bool) (as : List (String × Shape)) :
    Arguments :=
  match fuel with
  | 0 => {}
  | fuel + 1 =>
  let before := as.takeWhile fun a => !(a.2 matches .option ..)
  let count := if plainDone then 0 else plainCount g.plain as
  let taken := if count = 0 then [] else [Found.plain (plainValues g.plain (as.take count))]
  match as.drop before.length with
  | [] => ⟨taken, (as.drop count).map (·.1), none⟩
  | (a, s) :: next =>
    if !before.isEmpty && 0 < count then (readFrom g fuel true (as.drop count)).after taken []
    else
      let skipped := before.map (·.1)
      match s with
      | .option (some spec) name attached =>
        match consumeOption g (a.length + 1) spec name attached next with
        | .error e => { extras := skipped, stop := some e }
        | .ok r =>
          (readFrom g fuel plainDone (next.drop r.used)).after r.found (skipped ++ r.extras)
      | _ => (readFrom g fuel plainDone next).after [] (skipped ++ [a])

/-- Reads the arguments of a command. -/
def read (g : Grammar) (arguments : List String) : Arguments :=
  match g.shapes arguments with
  | .error e => { stop := some e }
  | .ok as => readFrom g (as.length + 1) false as

end Grammar

end HttpContract.CommandLine

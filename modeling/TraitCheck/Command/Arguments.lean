import TraitCheck.Text.Distance
import TraitCheck.Text.Lower
import TraitCheck.Text.Quoted

/-!
The arguments of the command line: a command, flags, and at most one target.
-/

namespace TraitCheck.Command

/-- A flag. A switch takes a value only behind an equals sign. -/
structure Flag where
  name : String
  short : Option Char := none
  isSwitch : Bool
  deriving DecidableEq

def Flag.render (f : Flag) : String :=
  match f.short with
  | some c => "-" ++ String.singleton c ++ ", --" ++ f.name
  | none => "--" ++ f.name

structure Options where
  logLevel : String := ""
  noColor : Bool := false
  std : Bool := false
  noDescriptions : Bool := false
  help : Bool := false
  deriving Inhabited, DecidableEq

inductive Action where
  | check
  | relations
  deriving DecidableEq, Inhabited

/-- What a command line names: a piece of work, or a text about the program, such as a script that completes command
lines in a shell. -/
inductive Topic where
  | action (action : Action)
  | help
  | completion
  | script (shell : String)
  deriving DecidableEq

/-- What the arguments ask for. Without a target it is the working directory. -/
inductive Request where
  | help
  | run (action : Action) (options : Options) (target : Option String)
  deriving Inhabited, DecidableEq

inductive UsageError where
  | unknownCommand (name : String)
  | badSyntax (arg : String)
  | unknownFlag (name : String)
  | unknownShort (c : Char) (group : String)
  | needsValue (arg : String)
  | shortNeedsValue (c : Char) (group : String)
  | badValue (value : String) (flag : Flag)
  | tooMany (count : Nat)
  | extraWord (word shell : String)
  deriving DecidableEq

def programName : String := "tarn"

def topics : List (String × Topic) :=
  [("check", .action .check), ("relations", .action .relations), ("completion", .completion), ("help", .help)]

def shells : List String := ["bash", "zsh", "fish", "powershell"]

/-! ### Suggestions -/

/-- Whether a command may be what was meant: at most two edits of bytes away, or a continuation. -/
def suggests (typed name : String) : Bool :=
  let typed := Text.lower typed
  Text.distance typed.toUTF8.toList name.toUTF8.toList ≤ 2 || name.startsWith typed

/-- The commands that are suggested for a mistyped one. The one for help is not. -/
def suggestions (typed : String) : List String :=
  ((topics.filter fun t => t.2 ≠ .help).map (·.1)).filter (suggests typed)

def suggestionText (typed : String) : String :=
  match suggestions typed with
  | [] => ""
  | names => "\n\nDid you mean this?\n" ++ String.join (names.map fun n => "\t" ++ n ++ "\n")

def quoteChar (c : Char) : String :=
  let escaped := if c = '\'' then ['\\', '\''] else if c = '"' then ['"'] else Text.escape c
  "'" ++ String.ofList escaped ++ "'"

def UsageError.message : UsageError → String
  | unknownCommand name =>
    "unknown command " ++ Text.quote name ++ " for " ++ Text.quote programName ++ suggestionText name
  | badSyntax arg => "bad flag syntax: " ++ arg
  | unknownFlag name => "unknown flag: --" ++ name
  | unknownShort c group => "unknown shorthand flag: " ++ quoteChar c ++ " in -" ++ group
  | needsValue arg => "flag needs an argument: " ++ arg
  | shortNeedsValue c group => "flag needs an argument: " ++ quoteChar c ++ " in -" ++ group
  | badValue value flag =>
    "invalid argument " ++ Text.quote value ++ " for " ++ Text.quote flag.render ++
      " flag: strconv.ParseBool: parsing " ++ Text.quote value ++ ": invalid syntax"
  | tooMany n => "accepts at most 1 arg(s), received " ++ toString n
  | extraWord word shell =>
    "unknown command " ++ Text.quote word ++ " for " ++ Text.quote (programName ++ " completion " ++ shell)

/-! ### Flags -/

def logLevelFlag : Flag := ⟨"log-level", some 'l', false⟩
def noColorFlag : Flag := ⟨"no-color", none, true⟩
def stdFlag : Flag := ⟨"std", none, true⟩
def noDescriptionsFlag : Flag := ⟨"no-descriptions", none, true⟩
def helpFlag : Flag := ⟨"help", some 'h', true⟩

def commonFlags : List Flag := [logLevelFlag, noColorFlag]

def flagsOf : Option Topic → List Flag
  | some (.action .relations) => stdFlag :: helpFlag :: commonFlags
  | some (.script _) => noDescriptionsFlag :: helpFlag :: commonFlags
  | _ => helpFlag :: commonFlags

def findLong? (flags : List Flag) (name : String) : Option Flag := flags.find? (·.name = name)

def findShort? (flags : List Flag) (c : Char) : Option Flag := flags.find? (·.short = some c)

def boolOfText? (text : String) : Option Bool :=
  if text ∈ ["1", "t", "T", "TRUE", "true", "True"] then some true
  else if text ∈ ["0", "f", "F", "FALSE", "false", "False"] then some false
  else none

def Options.set (o : Options) (flag : Flag) (value : String) : Except UsageError Options :=
  if flag.isSwitch then
    match boolOfText? value with
    | none => throw (.badValue value flag)
    | some b =>
      return if flag = noColorFlag then { o with noColor := b }
        else if flag = stdFlag then { o with std := b }
        else if flag = noDescriptionsFlag then { o with noDescriptions := b }
        else { o with help := b }
  else return { o with logLevel := value }

/-! ### Finding the command -/

/-- Whether an argument takes the next one as its value. Flags that are not known count as such. -/
def takesNext (flags : List Flag) (s : String) : Bool :=
  let cs := s.toList
  let long := cs.take 2 = ['-', '-'] && !(findLong? flags (String.ofList (cs.drop 2))).any (·.isSwitch)
  let short := match cs with
    | ['-', c] => c.utf8Size = 1 && !(findShort? flags c).any (·.isSwitch)
    | _ => false
  '=' ∉ cs && (long || short)

def words (flags : List Flag) : List String → List String
  | [] => []
  | [s] => if s ≠ "" && !s.startsWith "-" then [s] else []
  | s :: v :: rest =>
    if s = "--" then []
    else if takesNext flags s then (if rest.isEmpty then [] else words flags rest)
    else if s ≠ "" && !s.startsWith "-" then s :: words flags (v :: rest)
    else words flags (v :: rest)

/-- The arguments without the word that names the command. -/
def withoutWord (flags : List Flag) (word : String) : List String → List String
  | [] => []
  | [s] => if s = word && !s.startsWith "-" then [] else [s]
  | s :: v :: rest =>
    if s = "--" then s :: v :: rest
    else if takesNext flags s then s :: v :: withoutWord flags word rest
    else if s = word && !s.startsWith "-" then v :: rest
    else s :: withoutWord flags word (v :: rest)

def takeWord (args : List String) : Option String × List String :=
  match words commonFlags args with
  | w :: _ => (some w, withoutWord commonFlags w args)
  | [] => (none, args)

/-- What the arguments name, and the arguments without the words for it. -/
def findTopic (args : List String) : Except UsageError (Option Topic × List String) := do
  match takeWord args with
  | (none, args) => return (none, args)
  | (some w, rest) =>
    match topics.lookup w with
    | none => throw (.unknownCommand w)
    | some .completion =>
      match takeWord rest with
      | (some shell, args) =>
        if shell ∈ shells then return (some (.script shell), args) else return (some .completion, rest)
      | (none, _) => return (some .completion, rest)
    | some t => return (some t, rest)

/-! ### Reading flags -/

/-- How a group begins that is left to the runner of tests. -/
def testMark : List Char := "test.".toList

def firstByte (cs : List Char) : Char := Char.ofNat (((String.ofList cs).toUTF8.toList.headD 0).toNat)

/-- Reads a group of flags of one letter behind a dash. The rest of a group may be a value; from a test mark on it is
passed over. -/
def readShort (flags : List Flag) (o : Options) (rest : List String) : List Char →
    Except UsageError (Options × List String)
  | [] => return (o, rest)
  | c :: cs => do
    if testMark.isPrefixOf (c :: cs) then return (o, rest)
    let group := String.ofList (c :: cs)
    match findShort? flags c with
    | none => throw (.unknownShort (firstByte (c :: cs)) group)
    | some flag =>
      match cs with
      | '=' :: v :: vs => return (← o.set flag (String.ofList (v :: vs)), rest)
      | _ =>
        if flag.isSwitch then readShort flags (← o.set flag "true") rest cs
        else if !cs.isEmpty then return (← o.set flag (String.ofList cs), rest)
        else
          match rest with
          | v :: rest => return (← o.set flag v, rest)
          | [] => throw (.shortNeedsValue c group)

def readLong (flags : List Flag) (o : Options) (arg : String) (rest : List String) :
    Except UsageError (Options × List String) := do
  let text := arg.toList.drop 2
  if text.head?.all fun c => c = '-' || c = '=' then throw (.badSyntax arg)
  let name := String.ofList (text.takeWhile (· ≠ '='))
  match findLong? flags name with
  | none => throw (.unknownFlag name)
  | some flag =>
    match text.dropWhile (· ≠ '=') with
    | _ :: value => return (← o.set flag (String.ofList value), rest)
    | [] =>
      if flag.isSwitch then return (← o.set flag "true", rest)
      else
        match rest with
        | v :: rest => return (← o.set flag v, rest)
        | [] => throw (.needsValue arg)

/-- Reads flags wherever they are; what is left are targets. The fuel is the number of arguments. -/
def readFlags (flags : List Flag) : (fuel : Nat) → Options → List String → Except UsageError (Options × List String)
  | 0, o, args => return (o, args)
  | _, o, [] => return (o, [])
  | fuel + 1, o, s :: rest => do
    match s.toList with
    | ['-', '-'] => return (o, rest)
    | '-' :: '-' :: _ =>
      let (o, rest) ← readLong flags o s rest
      readFlags flags fuel o rest
    | '-' :: c :: cs =>
      let (o, rest) ← readShort flags o rest (c :: cs)
      readFlags flags fuel o rest
    | _ =>
      let (o, targets) ← readFlags flags fuel o rest
      return (o, s :: targets)

/-- Reads the arguments. Of several faults, an unknown command comes first, then the flags from the left. -/
def parse (args : List String) : Except UsageError Request := do
  let (topic, args) ← findTopic args
  let (o, targets) ← readFlags (flagsOf topic) args.length {} args
  if o.help then return .help
  match topic with
  | some (.action a) =>
    if 1 < targets.length then throw (.tooMany targets.length)
    return .run a o targets.head?
  | some (.script shell) =>
    match targets with
    | t :: _ => throw (.extraWord t shell)
    | [] => return .help
  | _ => return .help

end TraitCheck.Command

import Inliner.File.Path

/-!
Command lines. Options may stand before the command, where they are general ones, or after it.
An option that stands in both places has the value from after the command.
-/

namespace Inliner.CommandLine

/-! ## What can be asked for -/

inductive CommandName where
  | merge
  | bundle
  | imports
deriving DecidableEq, Repr, Inhabited

inductive Switch where
  | exactSymbols
  | verbose
  | quiet
  | json
  | version
deriving DecidableEq, Repr, Inhabited

inductive Parameter where
  | config
  | workspaceRoot
  | libraryRoot
  | lenient
  | output
deriving DecidableEq, Repr, Inhabited

/-- Where an argument stands. -/
inductive Level where
  | general
  | after (command : CommandName)
deriving DecidableEq, Repr, Inhabited

namespace CommandName

def ofString? (name : String) : Option CommandName :=
  [("merge", merge), ("bundle", bundle), ("imports", imports)].lookup name

end CommandName

namespace Level

def longSwitch? (level : Level) (name : String) : Option Switch :=
  match level, name with
  | _, "exact-symbols" => some .exactSymbols
  | _, "verbose" => some .verbose
  | _, "quiet" => some .quiet
  | .general, "version" => some .version
  | .after _, "json" => some .json
  | _, _ => none

def shortSwitch? (level : Level) (name : Char) : Option Switch :=
  match level, name with
  | _, 'v' => some .verbose
  | .general, 'V' => some .version
  | _, _ => none

def longParameter? (level : Level) (name : String) : Option Parameter :=
  match level, name with
  | _, "config" => some .config
  | _, "workspace-root" => some .workspaceRoot
  | _, "library-root" => some .libraryRoot
  | _, "lenient" => some .lenient
  | .after .merge, "output" => some .output
  | _, _ => none

def shortParameter? (level : Level) (name : Char) : Option Parameter :=
  match level, name with
  | .after .merge, 'o' => some .output
  | _, _ => none

end Level

/-! ## Arguments one by one -/

inductive Argument where
  | separator
  | long (name : String) (value : Option String)
  | short (names : List Char)
  | plain
deriving DecidableEq, Repr

def splitEquals (text : Text) : String × Option String :=
  match text.dropWhile (· ≠ '=') with
  | [] => (String.ofList text, none)
  | _ :: value => (String.ofList (text.takeWhile (· ≠ '=')), some (String.ofList value))

/-- The kind of an argument. A single hyphen is no option. -/
def Argument.ofString (argument : String) : Argument :=
  match argument.toList with
  | ['-', '-'] => .separator
  | '-' :: '-' :: text =>
      let (name, value) := splitEquals text
      .long name value
  | '-' :: first :: names => .short (first :: names)
  | _ => .plain

/-- Why reading a command line stops. -/
inductive Halt where
  | rejected
  | version
deriving DecidableEq, Repr

structure Given where
  switches : List Switch
  values : List (Parameter × String)
  operands : List String
deriving DecidableEq, Repr, Inhabited

def Parameter.isPath : Parameter → Bool
  | .lenient => false
  | .config | .workspaceRoot | .libraryRoot | .output => true

def Parameter.repeats : Parameter → Bool
  | .lenient => true
  | .config | .workspaceRoot | .libraryRoot | .output => false

namespace Given

def nothing : Given := ⟨[], [], []⟩

def addSwitch (given : Given) (switch : Switch) : Except Halt Given :=
  if switch = .version then
    .error .version
  else if switch ∈ given.switches then
    .error .rejected
  else
    .ok { given with switches := given.switches ++ [switch] }

def addValue (given : Given) (parameter : Parameter) (value : String) : Except Halt Given :=
  if parameter.isPath && value.isEmpty then
    .error .rejected
  else if !parameter.repeats && (given.values.lookup parameter).isSome then
    .error .rejected
  else
    .ok { given with values := given.values ++ [(parameter, value)] }

def addOperand (given : Given) (operand : String) : Given :=
  { given with operands := given.operands ++ [operand] }

def value? (given : Given) (parameter : Parameter) : Option String :=
  given.values.lookup parameter

/-- The values of an option that may be given more than once. -/
def allValues (given : Given) (parameter : Parameter) : List String :=
  (given.values.filter (·.1 = parameter)).map (·.2)

end Given

/-- The value that stands behind the short name of an option; an equals sign before it does not
count. -/
def attachedValue : List Char → Option String
  | [] => none
  | '=' :: value => some (String.ofList value)
  | value => some (String.ofList value)

/-- Adds options by their short names. If the last one has its value in the next argument, it is
given as well. -/
def addShort (level : Level) : Given → List Char → Except Halt (Given × Option Parameter)
  | given, [] => .ok (given, none)
  | given, name :: names =>
      match level.shortSwitch? name, level.shortParameter? name with
      | some switch, _ =>
          match given.addSwitch switch with
          | .ok more => addShort level more names
          | .error halt => .error halt
      | none, some parameter =>
          match attachedValue names with
          | none => .ok (given, some parameter)
          | some value =>
              match given.addValue parameter value with
              | .ok more => .ok (more, none)
              | .error halt => .error halt
      | none, none => .error .rejected

/-- Adds an option by its long name. If it has its value in the next argument, it is given as
well. -/
def addLong (level : Level) (given : Given) (name : String) (value : Option String) :
    Except Halt (Given × Option Parameter) :=
  match level.longSwitch? name, level.longParameter? name, value with
  | some switch, _, none => (given.addSwitch switch).map (·, none)
  | none, some parameter, some text => (given.addValue parameter text).map (·, none)
  | none, some parameter, none => .ok (given, some parameter)
  | _, _, _ => .error .rejected

def addOption (level : Level) (given : Given) (argument : Argument) :
    Except Halt (Given × Option Parameter) :=
  match argument with
  | .long name value => addLong level given name value
  | .short names => addShort level given names
  | .separator | .plain => .error .rejected

/-- Reads the arguments at a level, up to the command if it is still to come. Gives the command
and the arguments after it. -/
def readLevel (level : Level) : Given → List String →
    Except Halt (Given × Option (CommandName × List String))
  | given, [] => .ok (given, none)
  | given, argument :: arguments =>
      match Argument.ofString argument with
      | .separator => .ok ({ given with operands := given.operands ++ arguments }, none)
      | .plain =>
          match level with
          | .general =>
              match CommandName.ofString? argument with
              | some command => .ok (given, some (command, arguments))
              | none => .error .rejected
          | .after _ => readLevel level (given.addOperand argument) arguments
      | option =>
          match addOption level given option with
          | .error halt => .error halt
          | .ok (more, none) => readLevel level more arguments
          | .ok (more, some parameter) =>
              match arguments with
              | [] => .error .rejected
              | value :: rest =>
                  if Argument.ofString value = .plain then
                    match more.addValue parameter value with
                    | .error halt => .error halt
                    | .ok extended => readLevel level extended rest
                  else
                    .error .rejected

/-! ## Whole command lines -/

inductive Command where
  | merge (file : Path) (output : Option Path)
  | bundle (contest problem : String)
  | imports (file : Path)
deriving DecidableEq, Repr, Inhabited

structure Invocation where
  command : Command
  json : Bool
  config : Option Path
  workspaceRoot : Option Path
  libraryRoot : Option Path
  lenient : List String
  exactSymbols : Bool
  quiet : Bool
deriving DecidableEq, Repr, Inhabited

def commandOf (name : CommandName) (given : Given) : Option Command :=
  match name, given.operands with
  | .merge, [file] =>
      if file.isEmpty then
        none
      else
        some (.merge (.ofString file) ((given.value? .output).map .ofString))
  | .bundle, [contest, problem] => some (.bundle contest problem)
  | .imports, [file] => if file.isEmpty then none else some (.imports (.ofString file))
  | _, _ => none

def invocationOf (command : Command) (general after : Given) : Invocation :=
  let value (parameter : Parameter) : Option Path :=
    ((after.value? parameter).or (general.value? parameter)).map .ofString
  let switch (switch : Switch) : Bool :=
    switch ∈ after.switches || switch ∈ general.switches
  { command := command
    json := switch .json
    config := value .config
    workspaceRoot := value .workspaceRoot
    libraryRoot := value .libraryRoot
    lenient :=
      if (after.allValues .lenient).isEmpty then
        general.allValues .lenient
      else
        after.allValues .lenient
    exactSymbols := switch .exactSymbols
    quiet := switch .quiet || switch .json }

def Invocation.ofArguments (arguments : List String) : Except Halt Invocation :=
  match readLevel .general .nothing arguments with
  | .error halt => .error halt
  | .ok (_, none) => .error .rejected
  | .ok (general, some (name, rest)) =>
      match readLevel (.after name) .nothing rest with
      | .error halt => .error halt
      | .ok (after, _) =>
          match commandOf name after with
          | some command => .ok (invocationOf command general after)
          | none => .error .rejected

end Inliner.CommandLine

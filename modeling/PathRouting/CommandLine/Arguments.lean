import PathRouting.Kind

/-! The arguments of the program. Options come before the name of a command, the operands
of a command after it, and two hyphens alone end the options. -/

namespace PathRouting.CommandLine

/-- What the program is asked to do. -/
inductive Command where
  /-- Check the configured routes. -/
  | check
  /-- List the configured routes. -/
  | routes
  /-- Resolve a request. -/
  | resolve (method : Kind) (path : Text)
  deriving DecidableEq

/-- The arguments, understood. -/
structure Invocation where
  config : Text
  logLevel : Option Text
  command : Command
  deriving DecidableEq

/-- The options that have been read. -/
structure Options where
  config : Option Text := none
  logLevel : Option Text := none

/-- An option. -/
inductive OptionName where
  | config
  | logLevel
  deriving DecidableEq

def defaultConfig : String := "routes.toml"

namespace OptionName

def ofLetter? (c : Char) : Option OptionName :=
  if c = 'c' then some .config else if c = 'l' then some .logLevel else none

def ofName? (name : Text) : Option OptionName :=
  if name = "config".toList then some .config
  else if name = "log-level".toList then some .logLevel
  else none

end OptionName

/-- Whether an argument looks like an option, a lone hyphen not being one. -/
def isOption : Text → Bool
  | '-' :: _ :: _ => true
  | _ => false

/-- The option that an argument names, with the value attached to it if there is one:
after an equals sign, or right after a one-letter name. -/
def optionOf? : Text → Option (OptionName × Option Text)
  | '-' :: '-' :: rest =>
    match rest.span (· != '=') with
    | (name, []) => (OptionName.ofName? name).map (·, none)
    | (name, _ :: value) => (OptionName.ofName? name).map (·, some value)
  | '-' :: c :: rest =>
    (OptionName.ofLetter? c).map fun name =>
      match rest with
      | [] => (name, none)
      | '=' :: value => (name, some value)
      | value => (name, some value)
  | _ => none

/-- The options with one more, which may not be there yet. A file cannot have an empty
name. -/
def Options.add? (o : Options) (name : OptionName) (value : Text) : Option Options :=
  match name with
  | .config => if o.config.isSome ∨ value = [] then none else some { o with config := some value }
  | .logLevel => if o.logLevel.isSome then none else some { o with logLevel := some value }

/-- The operands among the arguments of a command: all of them after two hyphens alone,
and none that looks like an option before. -/
def operands? : List Text → Option (List Text)
  | [] => some []
  | arg :: args =>
    if arg = ['-', '-'] then some args
    else if isOption arg then none
    else (operands? args).map (arg :: ·)

def command? (name : Text) (args : List Text) : Option Command :=
  match operands? args with
  | none => none
  | some operands =>
    if name = "check".toList then if operands = [] then some .check else none
    else if name = "routes".toList then if operands = [] then some .routes else none
    else if name = "match".toList then
      match operands with
      | [method, path] => (Kind.ofText? method).map fun k => .resolve k path
      | _ => none
    else none

def invocation? (o : Options) : List Text → Option Invocation
  | [] => none
  | arg :: args =>
    match optionOf? arg with
    | some (name, some value) => (o.add? name value).bind fun o => invocation? o args
    | some (name, none) =>
      match args with
      | [] => none
      | value :: args =>
        if isOption value then none else (o.add? name value).bind fun o => invocation? o args
    | none =>
      (command? arg args).map fun command =>
        ⟨o.config.getD defaultConfig.toList, o.logLevel, command⟩

/-- The invocation that arguments mean, if they are understood. -/
def Invocation.ofArguments? (args : List Text) : Option Invocation := invocation? {} args

end PathRouting.CommandLine

import Mathlib.Data.Rat.Init
import Mathlib.Tactic.Common

/-!
# Util.Config — `config`

The options are declared, parsed and stored by `boost::program_options`, which is the parameter `Boost`; what the
code relies on of its `store` is `Boost.Documented`.

* `Config.parseArgs`, `Config.parseFile`: the two `parse`s.
* `Config.parseArgs_inv`, `Config.parseFile_inv`: a parse that succeeds is a parse and a store.
-/

namespace Webvirtd

/-- `boost::any`, with the types that the declared options have. -/
inductive Any
  | string (s : String)
  | unsigned (n : UInt32)
  | double (d : ℚ)
  deriving DecidableEq

/-- The type of a `value_semantic`; `untyped` is that of an option declared without one. -/
inductive ValueType
  | untyped | string | unsigned | double
  deriving DecidableEq

/-- `option_description`. -/
structure OptionDesc where
  name : String
  short : Option Char := none
  type : ValueType := .untyped
  defaultValue : Option Any := none
  description : String

/-- `variable_value`. -/
structure VariableValue where
  value : Any
  defaulted : Bool
  deriving DecidableEq

/-- `variables_map`. -/
abbrev VariablesMap := String → Option VariableValue

/-- `parsed_options`: the names that a source gives, with their tokens. -/
abbrev Parsed := List (String × List String)

/-- `boost::program_options::error`; `unknown_option` is caught by its own class. -/
inductive OptionError
  | unknownOption (what : String)
  | other (what : String)
  deriving DecidableEq

/-- `boost::program_options`. -/
structure Boost where
  parseCommandLine : (argv : List String) → List OptionDesc → Except OptionError Parsed
  parseConfigFile : (contents : String) → List OptionDesc → Except OptionError Parsed
  /-- `value_semantic::parse` -/
  semantic : OptionDesc → List String → Except OptionError Any
  store : Parsed → List OptionDesc → VariablesMap → Except OptionError VariablesMap
  /-- `operator<<` of `options_description` -/
  print : (caption : String) → List OptionDesc → String

/-- An option is stored with a value that a source gave. -/
def Explicit (vm : VariablesMap) (k : String) : Prop := ∃ v, vm k = some ⟨v, false⟩

/-- The option of a name. -/
def findOption (k : String) (desc : List OptionDesc) : Option OptionDesc :=
  desc.find? fun d => d.name == k

def defaultOf (k : String) (desc : List OptionDesc) : Option VariableValue :=
  (findOption k desc).bind fun d => d.defaultValue.map fun v => ⟨v, true⟩

/-- The documentation of `store`: an explicit value is not changed, a parsed option replaces a defaulted one, and
an option that is not in the map gets its default. -/
structure Boost.Documented (B : Boost) : Prop where
  kept : ∀ {parsed desc vm vm' k}, B.store parsed desc vm = .ok vm' → Explicit vm k → vm' k = vm k
  given : ∀ {parsed desc vm vm' k tokens}, B.store parsed desc vm = .ok vm' → ¬ Explicit vm k →
    parsed.lookup k = some tokens →
    ∃ d v, findOption k desc = some d ∧ B.semantic d tokens = .ok v ∧ vm' k = some ⟨v, false⟩
  absent : ∀ {parsed desc vm vm' k}, B.store parsed desc vm = .ok vm' → parsed.lookup k = none →
    vm' k = (vm k).or (defaultOf k desc)

theorem Boost.Documented.explicit_of_given {B : Boost} (hB : B.Documented) {parsed : Parsed}
    {desc : List OptionDesc} {vm vm' : VariablesMap} {k : String} {tokens : List String}
    (h : B.store parsed desc vm = .ok vm') (hk : parsed.lookup k = some tokens) : Explicit vm' k := by
  by_cases hvm : Explicit vm k
  · obtain ⟨v, hv⟩ := hvm
    exact ⟨v, (hB.kept h ⟨v, hv⟩).trans hv⟩
  · obtain ⟨_, v, _, _, hv⟩ := hB.given h hvm hk
    exact ⟨v, hv⟩

/-- `config`. -/
structure Config where
  cmdlineDesc : List OptionDesc
  desc : List OptionDesc := []
  vm : VariablesMap := fun _ => none

namespace Config

/-- `config::init`, with `HOME`. -/
def init (home : String) : Config where
  cmdlineDesc := [
    ⟨"help", some 'h', .untyped, none, "print this help message"⟩,
    ⟨"config", some 'c', .string, some (.string
      (if home.isEmpty || home.toList.getLast? == some '/' then home ++ ".webvirtd.conf"
        else home ++ "/.webvirtd.conf")), "path to configuration file"⟩]

/-- `config::add_option`. -/
def addOption (conf : Config) (d : OptionDesc) : Config := { conf with desc := conf.desc ++ [d] }

/-- `config::has`. -/
def has (conf : Config) (name : String) : Bool := (conf.vm name).isSome

/-- `config::get<std::string>`; `none` is the exception of `at` or of `as`. -/
def getString (conf : Config) (name : String) : Option String :=
  match conf.vm name with
  | some ⟨.string s, _⟩ => some s
  | _ => none

/-- `config::parse(argc, argv)`. -/
def parseArgs (B : Boost) (conf : Config) (argv : List String) : Except OptionError Config := do
  let visible := conf.cmdlineDesc ++ conf.desc
  let parsed ← B.parseCommandLine argv visible
  let vm ← B.store parsed visible conf.vm
  pure { conf with vm := vm }

/-- `config::parse(file)`; `contents` is `none` if the file does not exist. -/
def parseFile (B : Boost) (conf : Config) (contents : Option String) : Except OptionError Config :=
  match contents with
  | none => pure conf
  | some text => do
    let parsed ← B.parseConfigFile text conf.desc
    let vm ← B.store parsed conf.desc conf.vm
    pure { conf with vm := vm }

/-- `operator<<` -/
def usage (B : Boost) (conf : Config) : String :=
  let epilog :=
    "configuration\n" ++
    "  Options found in the 'program options' section can be set both in\n" ++
    "  configuration files and with command-line usage.\n\n" ++
    "  Default configuration is located at ~/.webvirtd.conf and can be\n" ++
    "  overridden using the command-line '--config' option.\n"
  "usage: webvirtd [options]\n\n" ++ B.print "command-line options" conf.cmdlineDesc ++ "\n" ++
    B.print "program options" conf.desc ++ "\n" ++ epilog ++ "\n"

variable {B : Boost} {conf conf' : Config}

theorem ok_of_bind {ε α β : Type} {x : Except ε α} {f : α → Except ε β} {b : β}
    (h : (x >>= f) = .ok b) : ∃ a, x = .ok a ∧ f a = .ok b := by
  cases x with
  | error e => cases h
  | ok a => exact ⟨a, rfl, h⟩

theorem parseArgs_inv {argv : List String} (h : conf.parseArgs B argv = .ok conf') :
    ∃ parsed vm, B.parseCommandLine argv (conf.cmdlineDesc ++ conf.desc) = .ok parsed ∧
      B.store parsed (conf.cmdlineDesc ++ conf.desc) conf.vm = .ok vm ∧
      conf' = { conf with vm := vm } := by
  obtain ⟨parsed, hparsed, h⟩ := ok_of_bind h
  obtain ⟨vm, hvm, h⟩ := ok_of_bind h
  cases h
  exact ⟨parsed, vm, hparsed, hvm, rfl⟩

theorem parseFile_inv {contents : Option String} (h : conf.parseFile B contents = .ok conf') :
    (contents = none ∧ conf' = conf) ∨
      ∃ text parsed vm, contents = some text ∧ B.parseConfigFile text conf.desc = .ok parsed ∧
        B.store parsed conf.desc conf.vm = .ok vm ∧ conf' = { conf with vm := vm } := by
  cases contents with
  | none =>
    cases h
    exact .inl ⟨rfl, rfl⟩
  | some text =>
    obtain ⟨parsed, hparsed, h⟩ := ok_of_bind h
    obtain ⟨vm, hvm, h⟩ := ok_of_bind h
    cases h
    exact .inr ⟨text, parsed, vm, rfl, hparsed, hvm, rfl⟩

end Config

end Webvirtd

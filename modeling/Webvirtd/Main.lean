import Webvirtd.Util.Config

/-!
# Main — `main`, up to `webvirt_main`

The command line is stored, then the file, then the command line again, and the logger is set after the first.

* `stored_value`: what is stored of an option with a value is the command line's, or else the file's, or else the
  default.
* `flag_of_running`: the logger has only what the command line says.
* `settings_iff`: so the sources agree unless one of its two options is in the file alone.
-/

namespace Webvirtd.Main

/-- What `main` takes from the system. -/
structure Env where
  version : String
  /-- `HOME` -/
  home : String
  hardwareConcurrency : UInt32
  /-- the name of the group of the process -/
  groupName : String
  /-- contents of the files that exist -/
  files : String → Option String

/-- The options that `main` adds. -/
def programOptions (env : Env) : List OptionDesc := [
  ⟨"version", none, .untyped, none, "display version"⟩,
  ⟨"verbose", some 'v', .untyped, none, "enable debug logging"⟩,
  ⟨"disable-timestamp", none, .untyped, none, "disable logging timestamps"⟩,
  ⟨"socket", some 's', .string, some (.string "/var/run/webvirtd/webvirtd.sock"), "unix socket path"⟩,
  ⟨"threads", some 't', .unsigned, some (.unsigned env.hardwareConcurrency),
    "number of worker threads"⟩,
  ⟨"socket-group", none, .string, some (.string env.groupName), "socket group"⟩,
  ⟨"libvirt-shutdown-timeout", none, .double, some (.double 3),
    "timeout in seconds for domain shutdown state to react"⟩,
  ⟨"libvirt-shutoff-timeout", none, .double, some (.double 15),
    "timeout in seconds for domain shutoff state to react"⟩]

/-- `conf` with its options declared. -/
def declared (env : Env) : Config := (programOptions env).foldl Config.addOption (Config.init env.home)

/-- `logger::debug_` and `logger::time_`. -/
structure Logger where
  debug : Bool := false
  time : Bool := true

/-- How `main` goes on: it returns a code after a text, an exception leaves it, or `webvirt_main` is called. -/
inductive Outcome
  | returned (code : ℕ) (text : String)
  | terminated
  | running (logger : Logger) (conf : Config) (socketPath : String)

/-- `main`. -/
def main (B : Boost) (env : Env) (argv : List String) : Outcome :=
  match (declared env).parseArgs B argv with
  | .error (.unknownOption what) => .returned 1 (what ++ "\n")
  | .error (.other _) => .terminated
  | .ok conf =>
    if conf.has "version" then .returned 0 (env.version ++ "\n")
    else
      let logger : Logger := { debug := conf.has "verbose", time := !conf.has "disable-timestamp" }
      if conf.has "help" then .returned 0 (conf.usage B)
      else
        match conf.getString "config" with
        | none => .terminated
        | some configPath =>
          match conf.parseFile B (env.files configPath) with
          | .error _ => .terminated
          | .ok conf =>
            -- Parse command-line again; those options are prioritized over config
            match conf.parseArgs B argv with
            | .error _ => .terminated
            | .ok conf =>
              match conf.getString "socket" with
              | none => .terminated
              | some socketPath => .running logger conf socketPath

/-! ## The settings -/

/-- The options that `main` acts on as it reads them: the flags of the logger. -/
def flags : List String := ["verbose", "disable-timestamp"]

/-- A setting of the program: a flag, or the value that `config::get` returns. -/
inductive Setting
  | flag (on : Bool)
  | value (v : Option Any)
  deriving DecidableEq

/-- The setting of an option in `webvirt_main`. -/
def setting (logger : Logger) (conf : Config) (k : String) : Setting :=
  if k = "verbose" then .flag logger.debug
  else if k = "disable-timestamp" then .flag (!logger.time)
  else .value ((conf.vm k).map VariableValue.value)

/-- The setting that the sources agree on: the command line's, or else the file's, or else the default. -/
def agreed (B : Boost) (env : Env) (cmdline file : Parsed) (k : String) : Setting :=
  let tokens := (cmdline.lookup k).or (file.lookup k)
  if k ∈ flags then .flag tokens.isSome
  else .value ((findOption k (programOptions env)).bind fun d =>
    match tokens with
    | some tokens => (B.semantic d tokens).toOption
    | none => d.defaultValue)

/-- The file that the command line names. -/
def configPath (B : Boost) (env : Env) (cmdline : Parsed) : Option Any :=
  (findOption "config" (Config.init env.home).cmdlineDesc).bind fun d =>
    match cmdline.lookup "config" with
    | some tokens => (B.semantic d tokens).toOption
    | none => d.defaultValue

/-- What the command line and the file give; a file that does not exist gives nothing. -/
structure Sources (B : Boost) (env : Env) (argv : List String) (cmdline file : Parsed) : Prop where
  parsed : B.parseCommandLine argv ((Config.init env.home).cmdlineDesc ++ programOptions env) =
    .ok cmdline
  contents : ∃ path, configPath B env cmdline = some (.string path) ∧
    match env.files path with
    | none => file = []
    | some text => B.parseConfigFile text (programOptions env) = .ok file

section

variable {B : Boost} {env : Env} {argv : List String} {logger : Logger} {conf : Config}
  {socketPath : String} {cmdline file : Parsed}

/-- `main` comes to `webvirt_main` through its three parses. -/
theorem main_running (h : main B env argv = .running logger conf socketPath) :
    ∃ conf₁ conf₂ path, (declared env).parseArgs B argv = .ok conf₁ ∧
      logger = ⟨conf₁.has "verbose", !conf₁.has "disable-timestamp"⟩ ∧
      conf₁.getString "config" = some path ∧
      conf₁.parseFile B (env.files path) = .ok conf₂ ∧ conf₂.parseArgs B argv = .ok conf := by
  unfold main at h
  cases h₁ : (declared env).parseArgs B argv with
  | error e =>
    rw [h₁] at h
    cases e with
    | unknownOption what => cases h
    | other what => cases h
  | ok conf₁ =>
    rw [h₁] at h
    dsimp only at h
    by_cases hversion : conf₁.has "version" = true
    · rw [if_pos hversion] at h
      cases h
    · rw [if_neg hversion] at h
      by_cases hhelp : conf₁.has "help" = true
      · rw [if_pos hhelp] at h
        cases h
      · rw [if_neg hhelp] at h
        cases hpath : conf₁.getString "config" with
        | none =>
          rw [hpath] at h
          cases h
        | some path =>
          rw [hpath] at h
          dsimp only at h
          cases h₂ : conf₁.parseFile B (env.files path) with
          | error e =>
            rw [h₂] at h
            cases h
          | ok conf₂ =>
            rw [h₂] at h
            dsimp only at h
            cases h₃ : conf₂.parseArgs B argv with
            | error e =>
              rw [h₃] at h
              cases h
            | ok conf₃ =>
              rw [h₃] at h
              dsimp only at h
              cases hsocket : conf₃.getString "socket" with
              | none =>
                rw [hsocket] at h
                cases h
              | some socketPath' =>
                rw [hsocket] at h
                cases h
                exact ⟨conf₁, conf₂, path, rfl, rfl, hpath, h₂, h₃⟩

/-! ## The three stores -/

/-- `visible` -/
def visible (env : Env) : List OptionDesc := (Config.init env.home).cmdlineDesc ++ programOptions env

theorem findOption_visible_config :
    findOption "config" (visible env) = findOption "config" (Config.init env.home).cmdlineDesc := rfl

theorem findOption_visible {d : OptionDesc} (hd : d ∈ programOptions env) :
    findOption d.name (visible env) = findOption d.name (programOptions env) := by
  have hother : findOption d.name (Config.init env.home).cmdlineDesc = none := by
    simp only [programOptions, List.mem_cons, List.not_mem_nil, or_false] at hd
    rcases hd with rfl | rfl | rfl | rfl | rfl | rfl | rfl | rfl <;> rfl
  rw [findOption, visible, List.find?_append]
  rw [findOption] at hother
  rw [hother]
  rfl

theorem not_explicit_empty (k : String) : ¬ Explicit (fun _ => none) k := by
  rintro ⟨v, hv⟩
  cases hv

/-- The path is what the first store gives for `config`. -/
theorem configPath_of_store (hB : B.Documented) {vm : VariablesMap} {path : String} {b : Bool}
    (h : B.store cmdline (visible env) (fun _ => none) = .ok vm)
    (hpath : vm "config" = some ⟨.string path, b⟩) :
    configPath B env cmdline = some (.string path) := by
  unfold configPath
  cases hk : cmdline.lookup "config" with
  | some tokens =>
    obtain ⟨d, v, hd, hv, hvm⟩ := hB.given h (not_explicit_empty _) hk
    rw [hpath] at hvm
    cases hvm
    rw [findOption_visible_config] at hd
    rw [hd]
    simp only [Option.bind_some, hv]
    rfl
  | none =>
    have hvm := hB.absent h hk
    rw [hpath, defaultOf, findOption_visible_config] at hvm
    cases hvm
    rfl

/-- What `main` has stored when it calls `webvirt_main`. -/
structure Stores (B : Boost) (env : Env) (cmdline file : Parsed) (logger : Logger)
    (vm₁ vm₂ vm : VariablesMap) : Prop where
  first : B.store cmdline (visible env) (fun _ => none) = .ok vm₁
  logger : logger = ⟨(vm₁ "verbose").isSome, !(vm₁ "disable-timestamp").isSome⟩
  second : file = [] ∧ vm₂ = vm₁ ∨ B.store file (programOptions env) vm₁ = .ok vm₂
  third : B.store cmdline (visible env) vm₂ = .ok vm

theorem stores_of_running (hB : B.Documented) (hs : Sources B env argv cmdline file)
    (h : main B env argv = .running logger conf socketPath) :
    ∃ vm₁ vm₂, Stores B env cmdline file logger vm₁ vm₂ conf.vm := by
  obtain ⟨conf₁, conf₂, path, h₁, hlogger, hpath, h₂, h₃⟩ := main_running h
  obtain ⟨parsed, vm₁, hparsed, hstore₁, rfl⟩ := Config.parseArgs_inv h₁
  obtain rfl : cmdline = parsed := Except.ok.inj (hs.parsed.symm.trans hparsed)
  obtain ⟨path', hpath', hcontents⟩ := hs.contents
  have hconfig : ∃ b, vm₁ "config" = some ⟨.string path, b⟩ := by
    unfold Config.getString at hpath
    split at hpath
    next s b hsome =>
      cases hpath
      exact ⟨b, hsome⟩
    next => cases hpath
  obtain ⟨b, hconfig⟩ := hconfig
  have hsame := configPath_of_store hB hstore₁ hconfig
  rw [hpath'] at hsame
  cases hsame
  rcases Config.parseFile_inv h₂ with ⟨hnone, rfl⟩ | ⟨text, parsed', vm₂, hsome, hparsed', hstore₂, rfl⟩
  · rw [hnone] at hcontents
    obtain ⟨parsed', vm, hparsed', hstore₃, rfl⟩ := Config.parseArgs_inv h₃
    obtain rfl : cmdline = parsed' := Except.ok.inj (hs.parsed.symm.trans hparsed')
    exact ⟨vm₁, vm₁, hstore₁, hlogger, .inl ⟨hcontents, rfl⟩, hstore₃⟩
  · rw [hsome] at hcontents
    obtain rfl : file = parsed' := Except.ok.inj (hcontents.symm.trans hparsed')
    obtain ⟨parsed', vm, hparsed'', hstore₃, rfl⟩ := Config.parseArgs_inv h₃
    obtain rfl : cmdline = parsed' := Except.ok.inj (hs.parsed.symm.trans hparsed'')
    exact ⟨vm₁, vm₂, hstore₁, hlogger, .inr hstore₂, hstore₃⟩

/-! ## What is stored of an option -/

theorem findOption_mem {d : OptionDesc} (hd : d ∈ programOptions env) :
    findOption d.name (programOptions env) = some d := by
  simp only [programOptions, List.mem_cons, List.not_mem_nil, or_false] at hd
  rcases hd with rfl | rfl | rfl | rfl | rfl | rfl | rfl | rfl <;> rfl

theorem defaultOf_mem {d : OptionDesc} (hd : d ∈ programOptions env) :
    defaultOf d.name (programOptions env) = d.defaultValue.map fun v => ⟨v, true⟩ := by
  rw [defaultOf, findOption_mem hd]
  rfl

theorem defaultOf_visible {d : OptionDesc} (hd : d ∈ programOptions env) :
    defaultOf d.name (visible env) = d.defaultValue.map fun v => ⟨v, true⟩ := by
  rw [defaultOf, findOption_visible hd, findOption_mem hd]
  rfl

variable {vm₁ vm₂ vm : VariablesMap} {d : OptionDesc} {tokens : List String}

/-- An option on the command line is stored by the first store, and kept by the others. -/
theorem Stores.of_cmdline (hB : B.Documented) (h : Stores B env cmdline file logger vm₁ vm₂ vm)
    (hd : d ∈ programOptions env) (hk : cmdline.lookup d.name = some tokens) :
    ∃ v, B.semantic d tokens = .ok v ∧ vm d.name = some ⟨v, false⟩ := by
  obtain ⟨d', v, hd', hv, hvm₁⟩ := hB.given h.first (not_explicit_empty _) hk
  rw [findOption_visible hd, findOption_mem hd] at hd'
  cases hd'
  have hvm₂ : vm₂ d.name = some ⟨v, false⟩ := by
    rcases h.second with ⟨_, rfl⟩ | hstore
    · exact hvm₁
    · exact (hB.kept hstore ⟨v, hvm₁⟩).trans hvm₁
  exact ⟨v, hv, (hB.kept h.third ⟨v, hvm₂⟩).trans hvm₂⟩

/-- Without it there the first store leaves the default. -/
theorem Stores.first_absent (hB : B.Documented) (h : Stores B env cmdline file logger vm₁ vm₂ vm)
    (hd : d ∈ programOptions env) (hk : cmdline.lookup d.name = none) :
    vm₁ d.name = d.defaultValue.map fun v => ⟨v, true⟩ := by
  rw [hB.absent h.first hk, defaultOf_visible hd]
  rfl

theorem Stores.of_file (hB : B.Documented) (h : Stores B env cmdline file logger vm₁ vm₂ vm)
    (hd : d ∈ programOptions env) (hk : cmdline.lookup d.name = none)
    (hfile : file.lookup d.name = some tokens) :
    ∃ v, B.semantic d tokens = .ok v ∧ vm d.name = some ⟨v, false⟩ := by
  have hvm₁ := h.first_absent hB hd hk
  have hdefault : ¬ Explicit vm₁ d.name := by
    rintro ⟨v, hv⟩
    rw [hvm₁] at hv
    obtain ⟨_, _, heq⟩ := Option.map_eq_some_iff.mp hv
    cases heq
  rcases h.second with ⟨rfl, _⟩ | hstore
  · cases hfile
  · obtain ⟨d', v, hd', hv, hvm₂⟩ := hB.given hstore hdefault hfile
    rw [findOption_mem hd] at hd'
    cases hd'
    exact ⟨v, hv, (hB.kept h.third ⟨v, hvm₂⟩).trans hvm₂⟩

theorem Stores.of_neither (hB : B.Documented) (h : Stores B env cmdline file logger vm₁ vm₂ vm)
    (hd : d ∈ programOptions env) (hk : cmdline.lookup d.name = none)
    (hfile : file.lookup d.name = none) : vm d.name = d.defaultValue.map fun v => ⟨v, true⟩ := by
  have hvm₁ := h.first_absent hB hd hk
  have hvm₂ : vm₂ d.name = d.defaultValue.map fun v => ⟨v, true⟩ := by
    rcases h.second with ⟨_, rfl⟩ | hstore
    · exact hvm₁
    · rw [hB.absent hstore hfile, hvm₁, defaultOf_mem hd, Option.or_self]
  rw [hB.absent h.third hk, hvm₂, defaultOf_visible hd, Option.or_self]

/-- The command line's value, or else the file's, or else the default. -/
theorem Stores.value (hB : B.Documented) (h : Stores B env cmdline file logger vm₁ vm₂ vm)
    (hd : d ∈ programOptions env) :
    (vm d.name).map VariableValue.value =
      match (cmdline.lookup d.name).or (file.lookup d.name) with
      | some tokens => (B.semantic d tokens).toOption
      | none => d.defaultValue := by
  cases hk : cmdline.lookup d.name with
  | some tokens =>
    obtain ⟨v, hv, hvm⟩ := h.of_cmdline hB hd hk
    rw [hvm, Option.some_or]
    dsimp only
    rw [hv]
    rfl
  | none =>
    rw [Option.none_or]
    cases hfile : file.lookup d.name with
    | some tokens =>
      obtain ⟨v, hv, hvm⟩ := h.of_file hB hd hk hfile
      rw [hvm]
      dsimp only
      rw [hv]
      rfl
    | none =>
      rw [h.of_neither hB hd hk hfile, Option.map_map]
      exact Option.map_id'

/-- A flag of the logger is set if the command line has it. -/
theorem Stores.first_isSome (hB : B.Documented) (h : Stores B env cmdline file logger vm₁ vm₂ vm)
    (hd : d ∈ programOptions env) (hflag : d.defaultValue = none) :
    (vm₁ d.name).isSome = (cmdline.lookup d.name).isSome := by
  cases hk : cmdline.lookup d.name with
  | some tokens =>
    obtain ⟨v, hv⟩ := hB.explicit_of_given h.first hk
    rw [hv]
    rfl
  | none =>
    rw [h.first_absent hB hd hk, hflag]
    rfl

/-! ## The settings in `webvirt_main` -/

theorem flag_iff {k : String} : k ∈ flags ↔ k = "verbose" ∨ k = "disable-timestamp" := by
  simp [flags]

theorem setting_of_flag (hB : B.Documented)
    (h : Stores B env cmdline file logger vm₁ vm₂ conf.vm) {k : String} (hk : k ∈ flags) :
    setting logger conf k = .flag (cmdline.lookup k).isSome := by
  rcases flag_iff.mp hk with rfl | rfl
  · have hd : (⟨"verbose", some 'v', .untyped, none, "enable debug logging"⟩ : OptionDesc) ∈
        programOptions env := by simp [programOptions]
    rw [setting, if_pos rfl, h.logger]
    exact congrArg Setting.flag (h.first_isSome hB hd rfl)
  · have hd : (⟨"disable-timestamp", none, .untyped, none, "disable logging timestamps"⟩ :
        OptionDesc) ∈ programOptions env := by simp [programOptions]
    rw [setting, if_neg (by decide), if_pos rfl, h.logger, Bool.not_not]
    exact congrArg Setting.flag (h.first_isSome hB hd rfl)

theorem agreed_of_flag {k : String} (hk : k ∈ flags) :
    agreed B env cmdline file k = .flag ((cmdline.lookup k).isSome || (file.lookup k).isSome) := by
  rw [agreed, if_pos hk, Option.isSome_or]

theorem setting_of_value (hB : B.Documented)
    (h : Stores B env cmdline file logger vm₁ vm₂ conf.vm) (hd : d ∈ programOptions env)
    (hk : d.name ∉ flags) :
    setting logger conf d.name = agreed B env cmdline file d.name := by
  rw [flag_iff, not_or] at hk
  rw [setting, if_neg hk.1, if_neg hk.2, agreed, if_neg (by rw [flag_iff, not_or]; exact hk),
    findOption_mem hd, h.value hB hd]
  rfl

theorem mem_programOptions_of_flag (env : Env) {k : String} (hk : k ∈ flags) :
    ∃ d ∈ programOptions env, d.name = k ∧ d.name ≠ "version" := by
  rcases flag_iff.mp hk with rfl | rfl
  · exact ⟨⟨"verbose", some 'v', .untyped, none, "enable debug logging"⟩, by simp [programOptions],
      rfl, by decide⟩
  · exact ⟨⟨"disable-timestamp", none, .untyped, none, "disable logging timestamps"⟩,
      by simp [programOptions], rfl, by decide⟩

theorem setting_eq_agreed_iff (hB : B.Documented)
    (h : Stores B env cmdline file logger vm₁ vm₂ conf.vm) :
    (∀ d ∈ programOptions env, d.name ≠ "version" →
        setting logger conf d.name = agreed B env cmdline file d.name) ↔
      ∀ k ∈ flags, (file.lookup k).isSome = true → (cmdline.lookup k).isSome = true := by
  constructor
  · intro hall k hk hfile
    obtain ⟨d, hd, rfl, hversion⟩ := mem_programOptions_of_flag env hk
    have heq := hall d hd hversion
    rw [setting_of_flag hB h hk, agreed_of_flag hk, hfile, Bool.or_true] at heq
    exact Setting.flag.inj heq
  · intro hall d hd _
    by_cases hk : d.name ∈ flags
    · rw [setting_of_flag hB h hk, agreed_of_flag hk]
      have himp := hall d.name hk
      cases hc : (cmdline.lookup d.name).isSome with
      | true => rfl
      | false =>
        cases hf : (file.lookup d.name).isSome with
        | true => exact absurd (himp hf) (by simp [hc])
        | false => rfl
    · exact setting_of_value hB h hd hk

/-- The option `o` is moved from the command line into the file. -/
structure Moved (B : Boost) (env : Env) (o : String) (cmdline file cmdline' file' : Parsed) :
    Prop where
  mem : ∃ d ∈ programOptions env, d.name = o ∧ d.name ≠ "version"
  moved : ∃ tokens tokens', cmdline.lookup o = some tokens ∧ file'.lookup o = some tokens' ∧
    ∀ d ∈ programOptions env, d.name = o → B.semantic d tokens' = B.semantic d tokens
  gone : cmdline'.lookup o = none
  new : file.lookup o = none
  cmdline_others : ∀ k, k ≠ o → cmdline'.lookup k = cmdline.lookup k
  file_others : ∀ k, k ≠ o → file'.lookup k = file.lookup k

variable {o : String} {files' : String → Option String} {cmdline' file' : Parsed} {logger' : Logger}
  {conf' : Config} {vm₁' vm₂' : VariablesMap}

theorem Moved.agreed_eq (h : Moved B env o cmdline file cmdline' file')
    (hd : d ∈ programOptions env) :
    agreed B { env with files := files' } cmdline' file' d.name =
      agreed B env cmdline file d.name := by
  by_cases hdo : d.name = o
  · obtain ⟨tokens, tokens', hc, hf, hsame⟩ := h.moved
    have hmem := findOption_mem hd
    rw [hdo] at hmem ⊢
    have hmem' : findOption o (programOptions { env with files := files' }) = some d := hmem
    simp only [agreed, hc, hf, h.gone, h.new, hmem, hmem', Option.none_or, Option.some_or,
      Option.isSome_some, Option.bind_some, hsame d hd hdo]
  · have hmem := findOption_mem hd
    have hmem' : findOption d.name (programOptions { env with files := files' }) = some d := hmem
    simp only [agreed, h.cmdline_others _ hdo, h.file_others _ hdo, hmem, hmem']

theorem setting_moved_iff (hB : B.Documented)
    (h : Stores B env cmdline file logger vm₁ vm₂ conf.vm)
    (h' : Stores B { env with files := files' } cmdline' file' logger' vm₁' vm₂' conf'.vm)
    (hmoved : Moved B env o cmdline file cmdline' file') :
    (∀ d ∈ programOptions env, d.name ≠ "version" →
        setting logger' conf' d.name = setting logger conf d.name) ↔ o ∉ flags := by
  constructor
  · intro hall hflag
    obtain ⟨d, hd, rfl, hversion⟩ := hmoved.mem
    obtain ⟨tokens, _, hc, _⟩ := hmoved.moved
    have heq := hall d hd hversion
    rw [setting_of_flag hB h hflag, setting_of_flag hB h' hflag, hc, hmoved.gone] at heq
    cases heq
  · intro hflag d hd _
    by_cases hk : d.name ∈ flags
    · have hdo : d.name ≠ o := fun heq => hflag (heq ▸ hk)
      rw [setting_of_flag hB h hk, setting_of_flag hB h' hk, hmoved.cmdline_others _ hdo]
    · rw [setting_of_value hB h hd hk, setting_of_value hB h' hd hk, hmoved.agreed_eq hd]

end

/-- When `webvirt_main` is called, the settings are the ones that the sources agree on exactly if neither
`verbose` nor `disable-timestamp` is in the file without being on the command line; an option that is moved from
the command line into the file leaves all settings as they were exactly if it is not one of these two. -/
theorem settings_iff {B : Boost} (hB : B.Documented) {env : Env} {argv : List String}
    {cmdline file : Parsed} (hs : Sources B env argv cmdline file) {logger : Logger} {conf : Config}
    {socketPath : String} (hmain : main B env argv = .running logger conf socketPath) :
    ((∀ d ∈ programOptions env, d.name ≠ "version" →
        setting logger conf d.name = agreed B env cmdline file d.name) ↔
      ∀ k ∈ flags, (file.lookup k).isSome = true → (cmdline.lookup k).isSome = true) ∧
    ∀ o files' argv' cmdline' file' logger' conf' socketPath',
      Moved B env o cmdline file cmdline' file' →
      Sources B { env with files := files' } argv' cmdline' file' →
      main B { env with files := files' } argv' = .running logger' conf' socketPath' →
      ((∀ d ∈ programOptions env, d.name ≠ "version" →
        setting logger' conf' d.name = setting logger conf d.name) ↔ o ∉ flags) := by
  obtain ⟨vm₁, vm₂, h⟩ := stores_of_running hB hs hmain
  refine ⟨setting_eq_agreed_iff hB h, ?_⟩
  intro o files' argv' cmdline' file' logger' conf' socketPath' hmoved hs' hmain'
  obtain ⟨vm₁', vm₂', h'⟩ := stores_of_running hB hs' hmain'
  exact setting_moved_iff hB h h' hmoved

/-! ## A file with a flag -/

/-- `name=value` -/
def readOption (cs : List Char) : String × List String :=
  (String.ofList (cs.takeWhile (· ≠ '=')),
    match cs.dropWhile (· ≠ '=') with
    | [] => []
    | _ :: value => [String.ofList value])

def checkNames (desc : List OptionDesc) (parsed : Parsed) : Except OptionError Parsed :=
  match parsed.find? fun p => (findOption p.1 desc).isNone with
  | some p => .error (.unknownOption ("unrecognised option '" ++ p.1 ++ "'"))
  | none => .ok parsed

/-- Strings and flags. -/
def readTokens (d : OptionDesc) (tokens : List String) : Except OptionError Any :=
  match d.type, tokens with
  | .untyped, [] => .ok (.string "")
  | .untyped, [token] => .ok (.string token)
  | .string, [token] => .ok (.string token)
  | _, _ => .error (.other ("the argument for option '" ++ d.name ++ "' is invalid"))

def storeTokens (parsed : Parsed) (desc : List OptionDesc) (vm : VariablesMap) :
    Except OptionError VariablesMap :=
  if parsed.all fun p => ((vm p.1).any fun v => !v.defaulted) ||
      (findOption p.1 desc).any fun d => (readTokens d p.2).toOption.isSome then
    .ok fun k =>
      match vm k with
      | some ⟨v, false⟩ => some ⟨v, false⟩
      | old =>
        match parsed.lookup k with
        | some tokens => (findOption k desc).bind fun d =>
            (readTokens d tokens).toOption.map fun v => ⟨v, false⟩
        | none => old.or (defaultOf k desc)
  else .error (.other "the argument for option is invalid")

/-- Long options, and lines of a file, without abbreviations. -/
def longOptions : Boost where
  parseCommandLine argv desc :=
    checkNames desc (argv.tail.filterMap fun arg =>
      match arg.toList with
      | '-' :: '-' :: cs => some (readOption cs)
      | _ => none)
  parseConfigFile contents desc := checkNames desc [readOption contents.toList]
  semantic := readTokens
  store := storeTokens
  print caption _ := caption

theorem storeTokens_of_not_explicit {parsed : Parsed} {desc : List OptionDesc} {vm vm' : VariablesMap}
    {k : String} (h : storeTokens parsed desc vm = .ok vm') (hvm : ¬ Explicit vm k) :
    vm' k = match parsed.lookup k with
      | some tokens => (findOption k desc).bind fun d =>
          (readTokens d tokens).toOption.map fun v => ⟨v, false⟩
      | none => (vm k).or (defaultOf k desc) := by
  unfold storeTokens at h
  split_ifs at h
  cases h
  rcases hold : vm k with _ | ⟨v, _ | _⟩
  · simp only [hold]
  · exact absurd ⟨v, hold⟩ hvm
  · simp only [hold]

theorem storeTokens_kept {parsed : Parsed} {desc : List OptionDesc} {vm vm' : VariablesMap} {k : String}
    (h : storeTokens parsed desc vm = .ok vm') (hvm : Explicit vm k) : vm' k = vm k := by
  obtain ⟨v, hv⟩ := hvm
  unfold storeTokens at h
  split_ifs at h
  cases h
  simp only [hv]

theorem longOptions_documented : longOptions.Documented where
  kept := storeTokens_kept
  given := by
    intro parsed desc vm vm' k tokens h hvm hk
    have h : storeTokens parsed desc vm = .ok vm' := h
    have hvalue := storeTokens_of_not_explicit h hvm
    unfold storeTokens at h
    split_ifs at h with hall
    have hmem : (k, tokens) ∈ parsed := by
      obtain ⟨l₁, l₂, rfl, _⟩ := List.lookup_eq_some_iff.mp hk
      simp
    have hread := List.all_eq_true.mp hall _ hmem
    rw [Bool.or_eq_true] at hread
    rcases hread with hold | hread
    · obtain ⟨⟨v, b⟩, hv, hb⟩ := (Option.any_eq_true _ _).mp hold
      cases b with
      | true => cases hb
      | false => exact absurd ⟨v, hv⟩ hvm
    · obtain ⟨d, hd, hok⟩ := (Option.any_eq_true _ _).mp hread
      have hd : findOption k desc = some d := hd
      cases hv : readTokens d tokens with
      | error e =>
        rw [hv] at hok
        cases hok
      | ok v =>
        refine ⟨d, v, hd, hv, ?_⟩
        rw [hvalue, hk]
        simp only [hd, Option.bind_some, hv]
        rfl
  absent := by
    intro parsed desc vm vm' k h hk
    by_cases hvm : Explicit vm k
    · obtain ⟨v, hv⟩ := hvm
      rw [storeTokens_kept h ⟨v, hv⟩, hv]
      rfl
    · rw [storeTokens_of_not_explicit h hvm, hk]

/-- The environment of a user whose `~/.webvirtd.conf` is `contents`. -/
def homeEnv (contents : String) : Env where
  version := "1.0"
  home := "/home/ann"
  hardwareConcurrency := 4
  groupName := "ann"
  files path := if path = "/home/ann/.webvirtd.conf" then some contents else none

/-- `socket=/run/a.sock` in the file and `--verbose` on the command line -/
theorem settings_iff_socket :
    ∃ logger conf,
      main longOptions (homeEnv "socket=/run/a.sock") ["webvirtd", "--verbose"] =
        .running logger conf "/run/a.sock" ∧
      ∀ d ∈ programOptions (homeEnv "socket=/run/a.sock"), d.name ≠ "version" →
        setting logger conf d.name = agreed longOptions (homeEnv "socket=/run/a.sock")
          [("verbose", [])] [("socket", ["/run/a.sock"])] d.name := by
  have hs : Sources longOptions (homeEnv "socket=/run/a.sock") ["webvirtd", "--verbose"]
      [("verbose", [])] [("socket", ["/run/a.sock"])] :=
    { parsed := by rfl
      contents := ⟨"/home/ann/.webvirtd.conf", by rfl, by rfl⟩ }
  refine ⟨_, _, rfl, ?_⟩
  exact (settings_iff longOptions_documented hs rfl).1.mpr (by decide)

/-- `verbose=true` in the file -/
theorem verbose_ignored :
    longOptions.Documented ∧
      Sources longOptions (homeEnv "verbose=true") ["webvirtd"] [] [("verbose", ["true"])] ∧
      ∃ logger conf,
        main longOptions (homeEnv "verbose=true") ["webvirtd"] =
          .running logger conf "/var/run/webvirtd/webvirtd.sock" ∧
        setting logger conf "verbose" = .flag false ∧
        agreed longOptions (homeEnv "verbose=true") [] [("verbose", ["true"])] "verbose" =
          .flag true := by
  refine ⟨longOptions_documented, ?_, _, _, rfl, rfl, rfl⟩
  exact
    { parsed := by rfl
      contents := ⟨"/home/ann/.webvirtd.conf", by rfl, by rfl⟩ }

end Webvirtd.Main

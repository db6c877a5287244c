import LiveQuery.Settings.File

/-!
# Settings/CommandLine — assignments from the command line and the environment

Each option has a value, in the next argument or after an equals sign, and can be given once.  An
option that is not given falls back to a variable of its own.  Any other variable of the service
assigns the key that its name spells, with two underscores where the key has a point.

From low to high, the layers are the defaults, the file, the variables that spell keys, and the
options with their fallbacks.
-/

namespace LiveQuery.Settings

open Text

/-- **What the command line can say.** -/
inductive Flag where
  | config
  | feedAddress
  | lineAddress
  | messageAddress
  | queueCapacity
  | cachePath
  | cacheCapacity
deriving DecidableEq, Repr

namespace Flag

/-- All of them. -/
def all : List Flag :=
  [.config, .feedAddress, .lineAddress, .messageAddress, .queueCapacity, .cachePath, .cacheCapacity]

/-- The name of an option, after two dashes. -/
def name : Flag → String
  | .config => "config"
  | .feedAddress => "upstream"
  | .lineAddress => "tcp-address"
  | .messageAddress => "ws-address"
  | .queueCapacity => "queue-capacity"
  | .cachePath => "cache-key"
  | .cacheCapacity => "cache-capacity"

/-- The variable that stands in for an option that is not given. -/
def fallback? : Flag → Option String
  | .config => none
  | .feedAddress => some "LIVETAP_UPSTREAM_ADDRESS"
  | .lineAddress => some "LIVETAP_TCP_ADDRESS"
  | .messageAddress => some "LIVETAP_WS_ADDRESS"
  | .queueCapacity => some "LIVETAP_QUEUE_CAPACITY"
  | .cachePath => some "LIVETAP_CACHE_KEY"
  | .cacheCapacity => some "LIVETAP_CACHE_CAPACITY"

/-- The key that an option assigns; the option for a file assigns none. -/
def key? : Flag → Option (List String)
  | .config => none
  | .feedAddress => some feedAddressKey
  | .lineAddress => some lineAddressKey
  | .messageAddress => some messageAddressKey
  | .queueCapacity => some queueCapacityKey
  | .cachePath => some cachePathKey
  | .cacheCapacity => some cacheCapacityKey

/-- The option of a name. -/
def ofName? (cs : List Char) : Option Flag := all.find? fun f => f.name.toList == cs

/-- Whether an option wants a number. -/
def isNumeric : Flag → Bool
  | .queueCapacity | .cacheCapacity => true
  | _ => false

/-- **Whether a value can be given to an option**: a number to some, and anything but nothing to the
one for a file. -/
def allows (f : Flag) (value : List Char) : Bool :=
  if f.isNumeric then (readUnsigned? capacityLimit value).isSome
  else f ≠ .config || value ≠ []

/-- An integer as 64 bits hold it, with a sign: the upper half stands for the negative numbers. -/
def signed (n : Nat) : Int := (n : Int).bmod UInt64.size

/-- **What an option assigns.** -/
def assignment? (f : Flag) (value : List Char) : Option Assignment :=
  f.key?.map fun key =>
    ⟨key, if f.isNumeric then .integer (signed ((readUnsigned? capacityLimit value).getD 0))
      else .text (String.ofList value)⟩

end Flag

/-! ## The command line -/

/-- What has been given, latest first. -/
abbrev Given := List (Flag × List Char)

/-- The value of an option, if it was given. -/
def Given.value? (g : Given) (f : Flag) : Option (List Char) := g.lookup f

/-- Gives a value to an option, once. -/
def give (g : Given) (f : Flag) (value : List Char) : Option Given :=
  if f.allows value && (g.value? f).isNone then some ((f, value) :: g) else none

/-- Whether an argument can be the value of the option before it: it must not look like an option
itself. -/
def isPlainArgument : List Char → Bool
  | '-' :: _ :: _ => false
  | _ => true

/-- What an argument says that begins like an option: the option, and its value if that is in the
same argument. -/
def readFlag? (arg : List Char) : Option (Flag × Option (List Char)) :=
  match arg with
  | '-' :: '-' :: rest =>
    match rest.span (· ≠ '=') with
    | (name, '=' :: value) => (Flag.ofName? name).map (·, some value)
    | (name, _) => (Flag.ofName? name).map (·, none)
  | ['-', 'c'] => some (.config, none)
  | '-' :: 'c' :: '=' :: value => some (.config, some value)
  | '-' :: 'c' :: value => some (.config, some value)
  | _ => none

/-- **Reads the arguments.**  Two dashes alone end the options, and nothing may follow. -/
def readArguments (g : Given) : List (List Char) → Option Given
  | [] => some g
  | arg :: rest =>
    if arg = ['-', '-'] then if rest = [] then some g else none
    else
      match readFlag? arg, rest with
      | some (f, some value), rest => (give g f value).bind fun g => readArguments g rest
      | some (f, none), value :: rest =>
        if isPlainArgument value then (give g f value).bind fun g => readArguments g rest else none
      | _, _ => none

/-- Gives an option that was not given the value of its variable. -/
def giveVariable (env : List (String × String)) (g : Given) (f : Flag) : Option Given :=
  match g.value? f, f.fallback?.bind fun v => env.lookup v with
  | none, some value => give g f value.toList
  | _, _ => some g

/-- **What the command line says**, its variables included. -/
def readCommandLine (args : List String) (env : List (String × String)) : Option Given := do
  let g ← readArguments [] (args.map String.toList)
  Flag.all.foldlM (giveVariable env) g

/-- The layer of the command line. -/
def layerOfGiven (g : Given) : List Assignment := g.filterMap fun (f, value) => f.assignment? value

/-! ## The environment -/

/-- How the variables of the service begin, in letters of either case. -/
def variablePrefix : List Char := "livetap_".toList

/-- Cuts a text where two underscores or a point stand. -/
def cutVariable (piece : List Char) : List Char → List (List Char)
  | '_' :: '_' :: rest => piece.reverse :: cutVariable [] rest
  | '.' :: rest => piece.reverse :: cutVariable [] rest
  | c :: rest => cutVariable (c :: piece) rest
  | [] => [piece.reverse]

/-- **The key that the name of a variable spells.** -/
def keyOfVariable? (name : String) : Option (List String) :=
  let lower := name.toList.map Char.toLower
  if variablePrefix.isPrefixOf lower then
    let names := cutVariable [] (lower.drop variablePrefix.length)
    if names.all fun n => n ≠ [] && n.all isKeyChar then some (names.map String.ofList) else none
  else none

/-- The layer of the environment. -/
def layerOfEnvironment (env : List (String × String)) : List Assignment :=
  env.filterMap fun (name, value) => (keyOfVariable? name).map fun key => ⟨key, .text value⟩

/-! ## All together -/

/-- The layer of the file that the command line names, if it names one; `contents` gives the
contents of the files that can be read. -/
def layerOfConfig (contents : String → Option String) (g : Given) :
    Except SettingsError (List Assignment) :=
  match g.value? .config with
  | none => .ok []
  | some path =>
    match (contents (String.ofList path)).bind layerOfFile? with
    | some layer => .ok layer
    | none => .error .unreadable

/-- **The settings that a command line, an environment and the files around them amount to.** -/
def load (args : List String) (env : List (String × String)) (contents : String → Option String) :
    Except SettingsError Settings :=
  match readCommandLine args env with
  | none => .error .usage
  | some g => do
    let file ← layerOfConfig contents g
    ofLayers [file, layerOfEnvironment env, layerOfGiven g]

end LiveQuery.Settings

/-
# `PeerBus.CommandLine.Options` — the options of the command line

Options take a value, written `--name value` or `--name=value`; flags take none and have short
forms that can be joined.  Nothing may be given twice, and nothing else may be given at all.
Arguments are read from left to right: the first that is wrong, or that asks for help or for the
version, decides.
-/
namespace PeerBus.CommandLine

/-- The settings of a test run. -/
structure Options where
  /-- The passes over the window in each round. -/
  passes : UInt32 := 500
  /-- The rounds before the client ends the session; zero for no end. -/
  rounds : UInt64 := 10
  /-- The size of the shared window in bytes. -/
  windowSize : UInt64 := 1048576
  serverId : UInt16 := 0
  clientId : UInt16 := 1
  /-- The bound on each wait in milliseconds. -/
  timeoutMs : Option UInt64 := none
  /-- Where the sequence of round seeds starts. -/
  seed : Option UInt64 := none
  verbose : Bool := false

/-- The options that take a value. -/
inductive Setting where
  | passes
  | rounds
  | windowSize
  | serverId
  | clientId
  | timeoutMs
  | seed
  deriving DecidableEq

/-- The flags. -/
inductive Switch where
  | verbose
  | help
  | version
  deriving DecidableEq

/-- What the arguments ask for. -/
inductive Order where
  | run (options : Options)
  | help
  | version
  /-- The arguments cannot be used. -/
  | misuse (message : String)

namespace Setting

/-- The option with a given name. -/
def ofName? : String → Option Setting
  | "passes" => some passes
  | "rounds" => some rounds
  | "window-size" => some windowSize
  | "server-id" => some serverId
  | "client-id" => some clientId
  | "timeout-ms" => some timeoutMs
  | "seed" => some seed
  | _ => none

/-- The name of an option. -/
def name : Setting → String
  | passes => "passes"
  | rounds => "rounds"
  | windowSize => "window-size"
  | serverId => "server-id"
  | clientId => "client-id"
  | timeoutMs => "timeout-ms"
  | seed => "seed"

end Setting

namespace Switch

/-- The flag with a given name. -/
def ofName? : String → Option Switch
  | "verbose" => some verbose
  | "help" => some help
  | "version" => some version
  | _ => none

/-- The flag with a given letter. -/
def ofLetter? : Char → Option Switch
  | 'v' => some verbose
  | 'h' => some help
  | 'V' => some version
  | _ => none

end Switch

/-! ## Numbers -/

/-- A number of decimal digits, of which there must be one. -/
def digits? (text : List Char) : Option Nat :=
  if text.isEmpty || !text.all Char.isDigit then none
  else some (text.foldl (fun n c => 10 * n + (c.toNat - '0'.toNat)) 0)

/-- A number without a minus sign that is less than `bound`. -/
def unsigned? (bound : Nat) (text : String) : Option Nat :=
  let magnitude := match text.toList with
    | '+' :: rest => digits? rest
    | rest => digits? rest
  magnitude.filter fun n => n < bound

/-- A number less than `bound` that may carry a minus sign if it is zero. -/
def narrow? (bound : Nat) (text : String) : Option Nat :=
  match text.toList with
  | '-' :: rest => (digits? rest).filter fun n => n = 0
  | _ => unsigned? bound text

/-- The options with one of them set from its text. -/
def Options.set? (o : Options) (setting : Setting) (text : String) : Option Options :=
  match setting with
  | .passes => (narrow? UInt32.size text).map fun n => { o with passes := UInt32.ofNat n }
  | .rounds => (unsigned? UInt64.size text).map fun n => { o with rounds := UInt64.ofNat n }
  | .windowSize =>
      (unsigned? UInt64.size text).map fun n => { o with windowSize := UInt64.ofNat n }
  | .serverId => (narrow? UInt16.size text).map fun n => { o with serverId := UInt16.ofNat n }
  | .clientId => (narrow? UInt16.size text).map fun n => { o with clientId := UInt16.ofNat n }
  | .timeoutMs =>
      (unsigned? UInt64.size text).map fun n => { o with timeoutMs := some (UInt64.ofNat n) }
  | .seed => (unsigned? UInt64.size text).map fun n => { o with seed := some (UInt64.ofNat n) }

/-! ## Reading the arguments -/

/-- What was read so far. -/
structure Reading where
  options : Options := {}
  /-- The options that have their value. -/
  given : List Setting := []
  /-- The option whose value comes next. -/
  pending : Option Setting := none

namespace Reading

/-- Gives an option its value, which must be its first. -/
def assign (r : Reading) (setting : Setting) (text : String) : Except Order Reading :=
  if setting ∈ r.given then
    .error (.misuse s!"the argument --{setting.name} cannot be used multiple times")
  else
    match r.options.set? setting text with
    | none => .error (.misuse s!"invalid value '{text}' for --{setting.name}")
    | some options =>
        .ok { options := options, given := setting :: r.given, pending := none }

/-- Turns a flag on. -/
def turn (r : Reading) (switch : Switch) : Except Order Reading :=
  match switch with
  | .help => .error .help
  | .version => .error .version
  | .verbose =>
      if r.options.verbose then
        .error (.misuse "the argument --verbose cannot be used multiple times")
      else .ok { r with options := { r.options with verbose := true } }

/-- No option may be without its value. -/
def ready (r : Reading) : Except Order Reading :=
  match r.pending with
  | none => .ok r
  | some setting => .error (.misuse s!"a value is required for --{setting.name}")

/-- Reads a long form, the text after its two dashes. -/
def long (r : Reading) (text : List Char) : Except Order Reading := do
  let r ← r.ready
  let name := String.ofList (text.takeWhile fun c => c ≠ '=')
  let value := match text.dropWhile fun c => c ≠ '=' with
    | [] => none
    | _ :: value => some (String.ofList value)
  match Setting.ofName? name, Switch.ofName? name, value with
  | some setting, _, some value => r.assign setting value
  | some setting, _, none => .ok { r with pending := some setting }
  | none, some switch, none => r.turn switch
  | none, some _, some value =>
      .error (.misuse s!"unexpected value '{value}' for --{name}")
  | none, none, _ => .error (.misuse s!"unexpected argument --{name}")

/-- Reads short forms joined to one argument. -/
def short (r : Reading) (letters : List Char) : Except Order Reading := do
  let r ← r.ready
  letters.foldlM (fun r c =>
    match Switch.ofLetter? c with
    | some switch => turn r switch
    | none => .error (.misuse s!"unexpected argument -{c}")) r

/-- Reads an argument that is no option: it must be the value of the one before it. -/
def plain (r : Reading) (text : String) : Except Order Reading :=
  match r.pending with
  | some setting => r.assign setting text
  | none => .error (.misuse s!"unexpected argument '{text}'")

/-- Reads all arguments. -/
def all (r : Reading) : List String → Except Order Reading
  | [] => r.ready
  | argument :: rest =>
      match argument.toList with
      | ['-', '-'] =>
          match rest with
          | [] => r.ready
          | extra :: _ => .error (.misuse s!"unexpected argument '{extra}'")
      | '-' :: '-' :: text => do
          let r ← r.long text
          r.all rest
      | '-' :: c :: letters => do
          let r ← r.short (c :: letters)
          r.all rest
      | _ => do
          let r ← r.plain argument
          r.all rest

end Reading

/-- What the arguments ask for. -/
def Order.ofArguments (arguments : List String) : Order :=
  match Reading.all {} arguments with
  | .ok r => .run r.options
  | .error order => order

end PeerBus.CommandLine

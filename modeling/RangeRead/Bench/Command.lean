import RangeRead.Bench.Table
import RangeRead.Number.Numeral
import RangeRead.Store

/-!
# The benchmark command

Three workloads are run on four configurations over one object. `BenchSettings.ofArguments` reads the command line
and `report` runs everything and gives the table of the results.
-/

namespace RangeRead.Bench

/-! ## Command line -/

structure BenchSettings where
  /-- The size of the object, in units of `2 ^ 20` bytes. -/
  sizeMb : Int := 64
  /-- The bytes of each read. -/
  readSize : Int := 64 * 1024
  /-- The bits of the pause before every range, in milliseconds. -/
  latencyMs : UInt64 := Float.toBits 20
  iterations : Int := 3
  seed : Int := 0

inductive UsageError
  | unknownOption (given : String)
  | missingValue (option : String)
  | badValue (option given : String)

def UsageError.message : UsageError → String
  | unknownOption given => s!"unrecognized arguments: {given}"
  | missingValue option => s!"argument {option}: expected one argument"
  | badValue option given => s!"argument {option}: invalid value: {Text.quoted given}"

namespace BenchSettings

/-- The bytes of the object. -/
def size (b : BenchSettings) : Int := b.sizeMb * 1024 * 1024

/-- The pause before every range, in seconds. -/
def latency (b : BenchSettings) : Float := Float.ofBits b.latencyMs / 1000

/-- The bits of the pause in seconds. Where there is no number, the sign is that of the pause that was given. -/
def latencyBits (b : BenchSettings) : UInt64 :=
  if (Float.ofBits b.latencyMs).isNaN then b.latencyMs else b.latency.toBits

def optionNames : List String := ["--size-mb", "--read-size", "--latency-ms", "--iterations", "--seed"]

/-- The option that an argument names in full, or by a beginning that no other option has. -/
def optionNamed? (given : String) : Option String :=
  if optionNames.contains given then some given
  else
    match optionNames.filter fun name => 2 < given.length && given.toList.isPrefixOf name.toList with
    | [name] => some name
    | _ => none

/-- Sets the option of a name. -/
def set (b : BenchSettings) (name value : String) : Option BenchSettings :=
  match name with
  | "--size-mb" => (Text.integer? value).map fun n => { b with sizeMb := n }
  | "--read-size" => (Text.integer? value).map fun n => { b with readSize := n }
  | "--latency-ms" => (Number.bitsOfText? value).map fun bits => { b with latencyMs := bits }
  | "--iterations" => (Text.integer? value).map fun n => { b with iterations := n }
  | "--seed" => (Text.integer? value).map fun n => { b with seed := n }
  | _ => none

/-- Sets an option, which must be a known one with a value of its kind. -/
def put (b : BenchSettings) (given value : String) : Except UsageError BenchSettings :=
  match optionNamed? given with
  | none => .error (.unknownOption given)
  | some name =>
    match b.set name value with
    | none => .error (.badValue name value)
    | some b => .ok b

/-- Reads options from a command line; the value of an option follows it, or stands behind a `=`. -/
def ofArguments (b : BenchSettings) : List String → Except UsageError BenchSettings
  | [] => .ok b
  | [given] =>
    match Number.splitAtFirst (· == '=') given.toList with
    | (name, some value) => b.put (String.ofList name) (String.ofList value)
    | (_, none) =>
      match optionNamed? given with
      | none => .error (.unknownOption given)
      | some name => .error (.missingValue name)
  | given :: value :: rest =>
    match Number.splitAtFirst (· == '=') given.toList with
    | (name, some value') => do ofArguments (← b.put (String.ofList name) (String.ofList value')) (value :: rest)
    | (_, none) => do ofArguments (← b.put given value) rest

end BenchSettings

/-! ## The report -/

/-- The path of the object that is read. -/
def benchPath : String := "bench.bin"

/-- The channels that are compared. -/
def configurations : List (String × ReadOptions) :=
  [("simple", { ReadOptions.standard with adaptive := .flag false }),
   ("sequential", { ReadOptions.standard with accessPattern := .sequential }),
   ("random", { ReadOptions.standard with accessPattern := .random }),
   ("auto", { ReadOptions.standard with accessPattern := .auto })]

inductive WorkloadKind
  | sequential
  | columnar
  | random

namespace WorkloadKind

def all : List WorkloadKind := [sequential, columnar, random]

def name : WorkloadKind → String
  | sequential => "sequential"
  | columnar => "columnar"
  | random => "random"

/-- The reads of a workload. -/
def reads {γ : Type} (source : RandomSource γ) (size readSize : Int) (g : γ) :
    WorkloadKind → Except BenchError Workload × γ
  | sequential => (sequentialScan size readSize, g)
  | columnar => Bench.columnar source size readSize g
  | random => randomReads source size readSize g

end WorkloadKind

variable {σ H γ : Type} {m : Type → Type} [Monad m]

/-- Runs one workload on each of the configurations. -/
def runConfigurations (watch : Stopwatch m) (latency : Float) (t : Transport σ H) (memory patience : Nat)
    (object : ObjectHandle) (workloadName : String) (workload : Workload) (count : Nat) :
    List (String × ReadOptions) → σ → m (Outcome BenchError (List BenchResult) × σ)
  | [], s => pure (.done [], s)
  | (name, options) :: rest, s => do
    let (result, s) ← run watch latency t memory patience name workloadName object options workload count s
    match result with
    | .failed e => pure (.failed (.reading e), s)
    | .stalled => pure (.stalled, s)
    | .done result =>
      let (results, s) ← runConfigurations watch latency t memory patience object workloadName workload count rest s
      pure (results.map (result :: ·), s)

/-- Makes and runs workloads, which share one source of random numbers. -/
def runWorkloads (watch : Stopwatch m) (t : Transport σ H) (source : RandomSource γ) (memory patience : Nat)
    (object : ObjectHandle) (settings : BenchSettings) :
    List WorkloadKind → γ → σ → m (Outcome BenchError (List BenchResult))
  | [], _, _ => pure (.done [])
  | kind :: kinds, g, s =>
    match kind.reads source settings.size settings.readSize g with
    | (.error e, _) => pure (.failed e)
    | (.ok workload, g) => do
      let (results, s) ← runConfigurations watch settings.latency t memory patience object kind.name workload
        settings.iterations.toNat configurations s
      match results with
      | .failed e => pure (.failed e)
      | .stalled => pure .stalled
      | .done results =>
        let rest ← runWorkloads watch t source memory patience object settings kinds g s
        pure (rest.map (results ++ ·))

/-- Runs the benchmark over an object of the size that the settings ask for and gives the table of results. -/
def report (watch : Stopwatch m) (t : Transport σ H) (source : RandomSource γ) (memory patience : Nat)
    (settings : BenchSettings) (g : γ) (s : σ) : m (Outcome BenchError String) :=
  match ObjectHandle.create benchPath settings.size none none none with
  | .error e => pure (.failed (.reading e))
  | .ok object => do
    match ← runWorkloads watch t source memory patience object settings WorkloadKind.all g s with
    | .failed e => pure (.failed e)
    | .stalled => pure .stalled
    | .done results =>
      match table results with
      | .error e => pure (.failed e)
      | .ok text => pure (.done text)

end RangeRead.Bench

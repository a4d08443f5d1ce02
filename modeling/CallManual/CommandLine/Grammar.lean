import CallManual.Text.Identifier

/-!
# Reading options

Arguments are read from left to right. An option that takes a value may have it attached or in the
next argument, which then must not look like an option. A value is checked only when something else
begins, so a fault in the argument after it comes first.
-/
namespace CallManual.CommandLine

/-- Faults in the arguments. A pair that is none comes with the usage of its option. -/
inductive UsageError
  | badPair (usage value : Text)
  | misuse
  deriving DecidableEq, Repr

/-- What an option says, other than asking for help or for the version. -/
inductive ValueKind
  | flag
  | path
  | count
  | pair
  | names
  deriving DecidableEq, Repr

inductive Effect
  | store (kind : ValueKind)
  | help
  | version
  deriving DecidableEq, Repr

structure OptionSpec where
  name : Text
  short : Option Char := none
  valueName : Text := []
  effect : Effect
  deriving DecidableEq, Repr

/-- The options of a command, how many free arguments it takes, and the commands that may follow. -/
structure Grammar where
  options : List OptionSpec
  maxFree : Option Nat
  commands : List Text := []

/-- The options and free arguments read so far, in their order. The pending option has no value yet,
or one that is not checked. -/
structure Matches where
  stored : List (Text × Text) := []
  free : List Text := []
  pending : Option (OptionSpec × Option Text) := none
  deriving DecidableEq, Repr

/-- Where reading a command ends. -/
inductive Stop
  | finished (m : Matches)
  | command (m : Matches) (name : Text) (rest : List Text)
  | help
  | version

def maxCount : Nat := 18446744073709551615

/-- The number a count stands for. A plus sign may stand in front. -/
def count? (t : Text) : Option Nat :=
  let ds := match t with
    | '+' :: ds => ds
    | ds => ds
  if !ds.isEmpty && ds.all Text.isDigit && Text.digitsValue ds ≤ maxCount then
    some (Text.digitsValue ds)
  else none

/-- Name and path of a pair with an equals sign between them. -/
def pair? (t : Text) : Option (Text × Text) :=
  match Text.cutFirst? (· == '=') t with
  | none => none
  | some (name, path) =>
    let name := Text.trim name
    let path := Text.trim path
    if name.isEmpty || path.isEmpty then none else some (name, path)

def ValueKind.takesValue : ValueKind → Bool
  | flag => false
  | _ => true

/-- Whether an option of this kind may be given more than once. -/
def ValueKind.repeats : ValueKind → Bool
  | pair | names => true
  | _ => false

def OptionSpec.usage (o : OptionSpec) : Text := "--" ++ o.name ++ " <" ++ o.valueName ++ ">"

def OptionSpec.check (o : OptionSpec) (v : Text) : ValueKind → Except UsageError Unit
  | .flag | .names => .ok ()
  | .path => if v.isEmpty then .error .misuse else .ok ()
  | .count => if (count? v).isSome then .ok () else .error .misuse
  | .pair => if (pair? v).isSome then .ok () else .error (.badPair o.usage v)

namespace Matches

/-- Stores one use of an option. -/
def store (m : Matches) (o : OptionSpec) (kind : ValueKind) (v : Text) :
    Except UsageError Matches := do
  if !kind.repeats && m.stored.any fun s => s.1 = o.name then throw .misuse
  o.check v kind
  return { m with stored := m.stored ++ [(o.name, v)] }

/-- Stores the pending option. -/
def settle (m : Matches) : Except UsageError Matches :=
  match m.pending with
  | none => .ok m
  | some (_, none) => .error .misuse
  | some (o, some v) =>
    match o.effect with
    | .store kind => { m with pending := none }.store o kind v
    | _ => .ok { m with pending := none }

def isWaiting (m : Matches) : Bool :=
  match m.pending with
  | some (_, none) => true
  | _ => false

end Matches

/-- What the use of an option leads to. -/
inductive Step
  | next (m : Matches)
  | stop (s : Stop)

/-- One use of an option, with the value attached to it. -/
def useOption (m : Matches) (o : OptionSpec) (attached : Option Text) : Except UsageError Step :=
  match o.effect, attached with
  | .help, none => do
    let _ ← m.settle
    return .stop .help
  | .version, none => do
    let _ ← m.settle
    return .stop .version
  | .store kind, some v => do
    if kind.takesValue then return .next (← (← m.settle).store o kind v) else throw .misuse
  | .store kind, none => do
    let m ← m.settle
    if kind.takesValue then return .next { m with pending := some (o, none) }
    else return .next (← m.store o kind [])
  | _, some _ => .error .misuse

/-- The option of a long name, with the value after an equals sign. -/
def readLong (g : Grammar) (m : Matches) (t : Text) : Except UsageError Step :=
  let (name, attached) := match Text.cutFirst? (· == '=') t with
    | some (name, v) => (name, some v)
    | none => (t, none)
  match g.options.find? fun o => o.name = name with
  | none => .error .misuse
  | some o => useOption m o attached

/-- Options of one letter, the last of which may have its value attached. -/
def readShort (g : Grammar) (m : Matches) : Text → Except UsageError Step
  | [] => .ok (.next m)
  | c :: t =>
    match g.options.find? fun o => o.short = some c with
    | none => .error .misuse
    | some o => do
      let takesValue := match o.effect with
        | .store kind => kind.takesValue
        | _ => false
      if takesValue then
        useOption m o (match t with
          | [] => none
          | '=' :: v => some v
          | v => some v)
      else
        match ← useOption m o none with
        | .stop s => return .stop s
        | .next m => readShort g m t

def takeFree (g : Grammar) (m : Matches) (a : Text) : Except UsageError Matches :=
  if g.maxFree.all fun n => m.free.length < n then do
    let m ← m.settle
    return { m with free := m.free ++ [a] }
  else .error .misuse

/-- Reads the arguments of a command up to their end or to the name of a further command. After two
dashes every argument is a free one. -/
def readArguments (g : Grammar) :
    (freeOnly : Bool) → Matches → List Text → Except UsageError Stop
  | _, m, [] => .ok (.finished m)
  | true, m, a :: rest => do readArguments g true (← takeFree g m a) rest
  | false, m, a :: rest =>
    if !m.isWaiting && g.commands.elem a then .ok (.command m a rest)
    else
      match a with
      | ['-', '-'] => readArguments g true m rest
      | '-' :: '-' :: t => do
        match ← readLong g m t with
        | .stop s => return s
        | .next m => readArguments g false m rest
      | '-' :: c :: t => do
        match ← readShort g m (c :: t) with
        | .stop s => return s
        | .next m => readArguments g false m rest
      | _ =>
        match m.pending with
        | some (o, none) => readArguments g false { m with pending := some (o, some a) } rest
        | _ => do readArguments g false (← takeFree g m a) rest

end CallManual.CommandLine

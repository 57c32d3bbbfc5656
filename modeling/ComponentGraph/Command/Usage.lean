import ComponentGraph.Json.Value

/-!
Reading the arguments of a command. A form says which named parameters a command has, each a flag or
with a value, and which values it takes by position. Arguments are taken from left to right; a value
is checked only when the next parameter or the end is reached, so a parameter that does not exist is
noticed before the value in front of it. After `--` every argument is a value by position.
-/

set_option autoImplicit false
set_option relaxedAutoImplicit false

namespace ComponentGraph.Command

/-- Why arguments are not carried out. Asking for help or for the version is one reason. -/
inductive UsageError where
  | unknownCommand
  | unknownParameter
  | missingParameter
  | unacceptableValue
  | malformedValue
  | repeatedParameter
  | unneededValue
  | helpRequested
  | versionRequested
  deriving Repr, DecidableEq

/-- What a value has to be. -/
inductive Shape where
  | natural
  | text
  | path
  | choice (names : List String)
  deriving Repr, DecidableEq

/-- A named parameter; without a shape it is a flag. -/
structure Parameter where
  name : String
  letter : Option Char := none
  shape : Option Shape := none
  deriving Repr, DecidableEq

/-- A value that is given by its position. -/
structure Position where
  name : String
  shape : Shape
  required : Bool
  deriving Repr, DecidableEq

/-- The parameters of a command. -/
structure Form where
  parameters : List Parameter
  positions : List Position
  deriving Repr, DecidableEq

/-- The flag that every command has. -/
def helpFlag : Parameter := { name := "help", letter := some 'h' }

/-! ### Values -/

/-- A value that was checked. -/
inductive Value where
  | present
  | natural (number : Nat)
  | text (text : String)
  deriving Repr, DecidableEq

/-- A natural number of sixty-four bits: digits, with a plus sign in front or without. -/
def natural? (text : String) : Option Nat :=
  let digits :=
    match text.toList with
    | '+' :: rest => rest
    | plain => plain
  let number := digits.foldl (fun sum digit ↦ sum * 10 + (digit.toNat - 48)) 0
  if digits.isEmpty || !digits.all Char.isDigit || decide (Json.largestNatural < number) then none
  else some number

/-- Checks a value against its shape. -/
def Shape.check : Shape → String → Except UsageError Value
  | .natural, written =>
      match natural? written with
      | some number => .ok (.natural number)
      | none => .error .malformedValue
  | .text, written => .ok (.text written)
  | .path, written => if written = "" then .error .unacceptableValue else .ok (.text written)
  | .choice names, written =>
      if names.contains written then .ok (.text written) else .error .unacceptableValue

/-! ### Reading -/

/-- A parameter that has been named and whose value, if it has come, is not checked yet. -/
structure Pending where
  name : String
  shape : Shape
  value : Option String
  deriving Repr, DecidableEq

/-- What has been read so far. -/
structure Progress where
  given : List (String × Value) := []
  pending : Option Pending := none
  positions : List Position
  onlyPositions : Bool := false
  deriving Repr, DecidableEq

/-- Enters a checked value; each name takes one. -/
def Progress.give (progress : Progress) (name : String) (value : Except UsageError Value) :
    Except UsageError Progress :=
  if (progress.given.lookup name).isSome then .error .repeatedParameter
  else value.map (fun checked ↦ { progress with given := progress.given ++ [(name, checked)] })

/-- Checks the pending value, if there is one. -/
def Progress.settle (progress : Progress) : Except UsageError Progress :=
  match progress.pending with
  | none => .ok progress
  | some pending =>
      match pending.value with
      | none => .error .unacceptableValue
      | some value =>
          { progress with pending := none }.give pending.name (pending.shape.check value)

/-- Enters a flag. -/
def Progress.flag (progress : Progress) (name : String) : Except UsageError Progress := do
  let settled ← progress.settle
  if name = helpFlag.name then .error .helpRequested
  else settled.give name (.ok .present)

/-- Enters flags by letter. -/
def Progress.letters (form : Form) : List Char → Progress → Except UsageError Progress
  | [], progress => .ok progress
  | letter :: rest, progress =>
      let known := (helpFlag :: form.parameters).find? (fun parameter ↦
        parameter.letter == some letter)
      match known with
      | some parameter => do Progress.letters form rest (← progress.flag parameter.name)
      | none => .error .unknownParameter

/-- The name and the attached value of an argument without its two dashes. -/
def splitAttached (argument : List Char) : String × Option String :=
  match argument.span (fun character ↦ character != '=') with
  | (name, []) => (String.ofList name, none)
  | (name, _ :: value) => (String.ofList name, some (String.ofList value))

/-- Enters a parameter by its name. -/
def Progress.named (form : Form) (argument : List Char) (progress : Progress) :
    Except UsageError Progress :=
  let (name, attached) := splitAttached argument
  match (helpFlag :: form.parameters).find? (fun parameter ↦ parameter.name == name) with
  | none => .error .unknownParameter
  | some parameter =>
      match parameter.shape, attached with
      | none, none => progress.flag name
      | none, some _ => .error .unneededValue
      | some shape, some value => do (← progress.settle).give name (shape.check value)
      | some shape, none => do
          return { (← progress.settle) with pending := some ⟨name, shape, none⟩ }

/-- Enters a value by its position. -/
def Progress.positional (argument : String) (progress : Progress) : Except UsageError Progress :=
  match progress.positions with
  | [] => .error .unknownParameter
  | position :: later => do
      return {
        (← progress.settle) with
        pending := some ⟨position.name, position.shape, some argument⟩
        positions := later }

/-- Enters an argument that is no parameter: the value that a parameter waits for, or else a value
by its position. -/
def Progress.plain (argument : String) (progress : Progress) : Except UsageError Progress :=
  match progress.pending with
  | some ⟨name, shape, none⟩ => .ok { progress with pending := some ⟨name, shape, some argument⟩ }
  | _ => progress.positional argument

/-- Enters one argument. -/
def Progress.argument (form : Form) (progress : Progress) (argument : String) :
    Except UsageError Progress :=
  if progress.onlyPositions then progress.positional argument
  else
    match argument.toList with
    | ['-', '-'] => .ok { progress with onlyPositions := true }
    | '-' :: '-' :: rest => progress.named form rest
    | ['-'] => progress.plain argument
    | '-' :: letters => Progress.letters form letters progress
    | _ => progress.plain argument

/-- Reads the arguments of a command: the values given, by name. -/
def Form.read (form : Form) (arguments : List String) :
    Except UsageError (List (String × Value)) := do
  let progress ←
    arguments.foldlM (Progress.argument form) ({ positions := form.positions } : Progress)
  let settled ← progress.settle
  if form.positions.any (fun position ↦
      position.required && (settled.given.lookup position.name).isNone) then
    .error .missingParameter
  else .ok settled.given

end ComponentGraph.Command

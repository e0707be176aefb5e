import Runbook.Text.Digit
import Runbook.Text.Split

/-!
# Arguments

The arguments of a command are options and operands. An option begins with a dash; a long one may be
cut short as long as no other option begins so, and its value is the next argument or follows an
equals sign. After two dashes everything is an operand. What the arguments say is read from left to
right, so that the first request for help or the first fault decides.
-/

namespace Runbook.CommandLine

/-- An option by its name, with its meaning. -/
structure OptionSpec (κ : Type) where
  /-- The name, with its dashes. -/
  name : String
  /-- What the option is for. -/
  meaning : κ
  /-- Whether the option has a value. -/
  hasValue : Bool := false

/-- How many operands a command has. -/
inductive Arity where
  /-- Exactly one. -/
  | one
  /-- As many as stand next to each other. -/
  | any
  deriving DecidableEq, Repr

/-- The options and operands of a command. -/
structure Grammar (κ : Type) where
  /-- The options. -/
  options : List (OptionSpec κ)
  /-- How many operands there are. -/
  arity : Arity

/-- Why arguments cannot be read. -/
inductive Fault where
  /-- Several options begin like this one. -/
  | ambiguous (argument : String)
  /-- An option lacks its value. -/
  | missingValue (option : String)
  /-- An option that has no value is given one. -/
  | unexpectedValue (option : String)
  /-- A value is none of those that an option takes. -/
  | badValue (option value : String)
  /-- An option or operand that has to be there is not. -/
  | missing (name : String)
  /-- There is no such command. -/
  | noCommand (name : String)
  /-- There is no use for these arguments. -/
  | unrecognized (arguments : List String)
  deriving DecidableEq, Repr

/-- The wording of a fault. -/
def Fault.message : Fault → String
  | .ambiguous argument => s!"several options begin like {argument}"
  | .missingValue option => s!"{option} needs a value"
  | .unexpectedValue option => s!"{option} takes no value"
  | .badValue option value => s!"{option} does not take {value}"
  | .missing name => s!"{name} is required"
  | .noCommand name => s!"there is no command {name}"
  | .unrecognized arguments => "there is no use for " ++ Text.join " " arguments

/-- Why a command is not carried out. -/
inductive Refusal where
  /-- Help is asked for. -/
  | help
  /-- There is nothing to do. -/
  | nothing
  /-- The arguments cannot be read. -/
  | fault (fault : Fault)
  deriving DecidableEq, Repr

/-- The exit code of a command that is not carried out. -/
def Refusal.exitCode : Refusal → Nat
  | .help => 0
  | .nothing => 1
  | .fault _ => 2

/-- The characters of a nonempty number without a sign. -/
def isPlainNumber (cs : List Char) : Bool :=
  let isDigit (c : Char) : Bool := (Text.decimalValue? c).isSome
  match Text.cut? '.' cs with
  | none => !cs.isEmpty && cs.all isDigit
  | some (whole, fraction) => whole.all isDigit && !fraction.isEmpty && fraction.all isDigit

/-- Whether a text is a negative number; a line feed after it does not count. -/
def isNegativeNumber : List Char → Bool
  | '-' :: cs => isPlainNumber cs || (cs.getLast? == some '\n' && isPlainNumber cs.dropLast)
  | _ => false

/-- What an argument is. -/
inductive Word (κ : Type) where
  /-- An operand, or the value of the option before it. -/
  | operand (text : String)
  /-- Two dashes. -/
  | separator
  /-- An option with the value behind its equals sign. -/
  | option (spec : OptionSpec κ) (attached : Option String)
  /-- A short option with the letters right behind it. -/
  | letters (spec : OptionSpec κ) (letters : List Char)
  /-- Like an option, but there is none of this name. -/
  | unknown (text : String)

variable {κ : Type}

/-- The option of a name. -/
def findOption? (options : List (OptionSpec κ)) (name : List Char) : Option (OptionSpec κ) :=
  options.find? fun spec => spec.name.toList == name

/-- The name before the first equals sign, and the value after it. -/
def attachedValue (cs : List Char) : List Char × Option (List Char) :=
  match Text.cut? '=' cs with
  | some (name, value) => (name, some value)
  | none => (cs, none)

/-- What an argument may be though it is not the name of an option: one of the long options that
begin like it, or the short one that it begins with. -/
def candidates (options : List (OptionSpec κ)) (cs : List Char) : List (Word κ) :=
  match cs with
  | '-' :: '-' :: _ =>
    let (name, value) := attachedValue cs
    (options.filter fun spec => name.isPrefixOf spec.name.toList).map fun spec =>
      .option spec (value.map String.ofList)
  | _ =>
    (options.filter fun spec => spec.name.toList == cs.take 2).map fun spec =>
      .letters spec (cs.drop 2)

/-- What an argument is that may be an option. -/
def classifyDashed (options : List (OptionSpec κ)) (text : String) : Except Fault (Word κ) :=
  let cs := text.toList
  let (name, value) := attachedValue cs
  let exact := (findOption? options cs).map fun spec => Word.option spec none
  let withValue := (findOption? options name).map fun spec =>
    Word.option spec (value.map String.ofList)
  -- A full name counts even where other options begin like it.
  match exact.or withValue with
  | some word => .ok word
  | none =>
    match candidates options cs with
    | [word] => .ok word
    | [] =>
      -- Negative numbers and texts with blanks are operands though they begin with a dash.
      if isNegativeNumber cs || cs.contains ' ' then .ok (.operand text) else .ok (.unknown text)
    | _ => .error (.ambiguous text)

/-- What an argument before two dashes is. -/
def classify (options : List (OptionSpec κ)) (text : String) : Except Fault (Word κ) :=
  match text.toList with
  | '-' :: _ :: _ => classifyDashed options text
  | _ => .ok (.operand text)

/-- What arguments are. -/
def classifyAll (options : List (OptionSpec κ)) : List String → Except Fault (List (Word κ))
  | [] => .ok []
  | text :: texts =>
    if text = "--" then .ok (.separator :: texts.map .operand)
    else do
      let word ← classify options text
      let words ← classifyAll options texts
      return word :: words

/-- What the arguments say, piece by piece. -/
inductive Item (κ : Type) where
  /-- An option with its value, if it has one. -/
  | option (spec : OptionSpec κ) (value : Option String)
  /-- An operand. -/
  | operand (text : String)

/-- What is still expected of the operands. -/
inductive Expected where
  /-- One operand. -/
  | one
  /-- Operands that stand next to each other. -/
  | any
  /-- The operands that follow the first one. -/
  | more
  /-- Nothing but two dashes behind the only operand. -/
  | closing
  /-- Nothing. -/
  | none
  deriving DecidableEq, Repr

/-- What is expected of the operands at the beginning. -/
def Arity.expected : Arity → Expected
  | .one => .one
  | .any => .any

/-- What is expected after an operand, if one was expected. -/
def Expected.afterOperand? : Expected → Option Expected
  | .one => some .closing
  | .any => some .more
  | .more => some .more
  | .closing => Option.none
  | .none => Option.none

/-- What is expected after two dashes, if there is a use for them. -/
def Expected.afterSeparator? : Expected → Option Expected
  | .one => some .one
  | .any => some .more
  | .more => some .more
  | .closing => some .none
  | .none => Option.none

/-- What is expected after an option: operands that have been begun are over. -/
def Expected.afterOption : Expected → Expected
  | .one => .one
  | .any => .any
  | _ => .none

/-- What arguments say up to the first fault, and the arguments that there was no use for. -/
structure Reading (κ : Type) where
  /-- The pieces in order. -/
  items : List (Item κ) := []
  /-- The arguments that there was no use for. -/
  unused : List String := []
  /-- The fault that ended the reading. -/
  fault : Option Fault := none

/-- The reading with a piece in front. -/
def Reading.with (item : Item κ) (r : Reading κ) : Reading κ :=
  { r with items := item :: r.items }

/-- The reading with an argument in front that there is no use for. -/
def Reading.without (text : String) (r : Reading κ) : Reading κ :=
  { r with unused := text :: r.unused }

/-- The reading that ends with a fault. -/
def Reading.failed (fault : Fault) : Reading κ :=
  { fault := some fault }

/-- The short options without values that letters behind one give, and the letters from the first on
that gives none. A dash or an equals sign can stand behind no such option. -/
def cluster? (options : List (OptionSpec κ)) :
    List Char → Option (List (OptionSpec κ) × List Char)
  | [] => some ([], [])
  | c :: cs =>
    if c == '-' || c == '=' then none
    else
      match (findOption? options ['-', c]).filter fun spec => !spec.hasValue with
      | none => some ([], c :: cs)
      | some spec => (cluster? options cs).map fun (more, rest) => (spec :: more, rest)

/-- Reads words from left to right. -/
def readWords (options : List (OptionSpec κ)) : Expected → List (Word κ) → Reading κ
  | _, [] => {}
  | expected, .operand text :: words =>
    match expected.afterOperand? with
    | some next => (readWords options next words).with (.operand text)
    | none => (readWords options expected words).without text
  | expected, .separator :: words =>
    match expected.afterSeparator? with
    | some next => readWords options next words
    | none => (readWords options expected words).without "--"
  | expected, .unknown text :: words =>
    (readWords options expected.afterOption words).without text
  | expected, .option spec (some value) :: words =>
    let rest := readWords options expected.afterOption words
    if spec.hasValue then rest.with (.option spec (some value))
    else .failed (.unexpectedValue spec.name)
  | expected, .letters spec letters :: words =>
    let rest := readWords options expected.afterOption words
    if spec.hasValue then rest.with (.option spec (some (String.ofList letters)))
    else
      match cluster? options letters with
      | none => .failed (.unexpectedValue spec.name)
      | some (more, unknown) =>
        let rest := if unknown.isEmpty then rest else rest.without (String.ofList ('-' :: unknown))
        (spec :: more).foldr (fun spec rest => rest.with (.option spec none)) rest
  | expected, .option spec none :: .operand value :: words =>
    if spec.hasValue then
      (readWords options expected.afterOption words).with (.option spec (some value))
    else (readWords options expected.afterOption (.operand value :: words)).with (.option spec none)
  | expected, .option spec none :: words =>
    if spec.hasValue then .failed (.missingValue spec.name)
    else (readWords options expected.afterOption words).with (.option spec none)

/-- Reads the arguments of a command and lets each piece of them change what has been understood so
far. A piece that is refused decides before any fault behind it. -/
def Grammar.read {α : Type} (g : Grammar κ) (apply : α → Item κ → Except Refusal α) (start : α)
    (arguments : List String) : Except Refusal (α × List String) :=
  match classifyAll g.options arguments with
  | .error fault => .error (.fault fault)
  | .ok words =>
    let reading := readWords g.options g.arity.expected words
    -- All pieces stand before the fault that ended the reading.
    match reading.items.foldlM apply start with
    | .error refusal => .error refusal
    | .ok understood =>
      match reading.fault with
      | some fault => .error (.fault fault)
      | none => .ok (understood, reading.unused)

end Runbook.CommandLine

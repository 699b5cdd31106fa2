import TopicDirectory.Text.Decimal

/-!
# Command lines

A command line is read word by word against the options that a program has.  A long option takes its
value from the same word after an equals sign or from the next word, a short one also from the rest
of its own word; short options without value can be joined.  After `--` every word is an argument.
Values are checked as they are read, so the first fault decides.
-/

namespace TopicDirectory.CommandLine

/-- An option: its long and its short name, and which values it takes if it takes one. -/
structure Switch where
  long : String
  short : Option Char := none
  value : Option (String → Bool) := none

/-- What a program can be given. -/
structure Grammar where
  options : List Switch
  arguments : Nat

/-- The options and arguments that were given, in that order. -/
structure Given where
  values : List (String × String) := []
  arguments : List String := []
deriving DecidableEq, Repr

/-- How the reading of a command line ends. -/
inductive Reading
  | given (g : Given)
  | help
  | version
  | fault
deriving DecidableEq, Repr

namespace Given

/-- The value of an option. -/
def value? (g : Given) (long : String) : Option String := g.values.lookup long

/-- Whether an option was given. -/
def has (g : Given) (long : String) : Bool := (g.value? long).isSome

end Given

/-- Notes an option; it can be given once, and its value has to be one it takes. -/
def note? (g : Given) (o : Switch) (value : String) : Option Given :=
  if g.has o.long then none
  else if (o.value.getD fun _ => true) value then
    some { g with values := g.values ++ [(o.long, value)] }
  else none

/-- Whether a word can be the value of the option before it. -/
def isValue (word : String) : Bool :=
  match word.toList with
  | '-' :: _ :: _ => false
  | _ => true

/-- What comes of reading a part of a word. -/
inductive Step
  | go (g : Given)
  | needs (g : Given) (o : Switch)
  | stop (r : Reading)

/-- Reads a long option, given what follows its two dashes. -/
def long (grammar : Grammar) (g : Given) (cs : List Char) : Step :=
  let name := String.ofList (cs.takeWhile (· ≠ '='))
  let attached : Option String := match cs.dropWhile (· ≠ '=') with
    | [] => none
    | _ :: value => some (String.ofList value)
  match grammar.options.find? (fun o => o.long = name), attached with
  | none, none =>
    if name = "help" then .stop .help
    else if name = "version" then .stop .version
    else .stop .fault
  | none, some _ => .stop .fault
  | some o, some value =>
    if o.value.isSome then
      match note? g o value with
      | some g => .go g
      | none => .stop .fault
    else .stop .fault
  | some o, none =>
    if o.value.isSome then .needs g o
    else match note? g o "" with
      | some g => .go g
      | none => .stop .fault

/-- Reads joined short options, given what follows their dash. -/
def short (grammar : Grammar) (g : Given) : List Char → Step
  | [] => .go g
  | c :: cs =>
    match grammar.options.find? fun o => o.short = some c with
    | none =>
      if c = 'h' then .stop .help
      else if c = 'V' then .stop .version
      else .stop .fault
    | some o =>
      if o.value.isSome then
        match cs with
        | [] => .needs g o
        | '=' :: value | value =>
          match note? g o (String.ofList value) with
          | some g => .go g
          | none => .stop .fault
      else match note? g o "" with
        | some g => short grammar g cs
        | none => .stop .fault

/-- Notes an argument, if there is room for one more. -/
def argument? (grammar : Grammar) (g : Given) (word : String) : Option Given :=
  if g.arguments.length < grammar.arguments then
    some { g with arguments := g.arguments ++ [word] }
  else none

/-- Reads words of which every one is an argument. -/
def arguments (grammar : Grammar) (g : Given) : List String → Reading
  | [] => .given g
  | word :: words =>
    match argument? grammar g word with
    | some g => arguments grammar g words
    | none => .fault

mutual

/-- Reads the words of a command line. -/
def words (grammar : Grammar) (g : Given) : List String → Reading
  | [] => .given g
  | word :: rest =>
    match word.toList with
    | ['-', '-'] => arguments grammar g rest
    | '-' :: '-' :: cs => next grammar (long grammar g cs) rest
    | '-' :: c :: cs => next grammar (short grammar g (c :: cs)) rest
    | _ =>
      match argument? grammar g word with
      | some g => words grammar g rest
      | none => .fault

/-- Goes on after an option, with its value first if it still needs one. -/
def next (grammar : Grammar) : Step → List String → Reading
  | .go g, rest => words grammar g rest
  | .stop r, _ => r
  | .needs _ _, [] => .fault
  | .needs g o, value :: rest =>
    if isValue value then
      match note? g o value with
      | some g => words grammar g rest
      | none => .fault
    else .fault

end

/-- Reads a command line. -/
def read (grammar : Grammar) (line : List String) : Reading := words grammar {} line

/-! ### Values -/

/-- The port that a value gives. -/
def port? (value : String) : Option UInt16 :=
  (Decimal.int? value.toList).bind fun n =>
    if 0 ≤ n ∧ n < UInt16.size then some (UInt16.ofNat n.toNat) else none

/-- The number of 64 bits that a value gives. -/
def count? (value : String) : Option UInt64 :=
  (Decimal.nat? value.toList).bind fun n =>
    if n < UInt64.size then some (UInt64.ofNat n) else none

/-- An option that takes any text. -/
def text (long : String) (short : Option Char) : Switch := ⟨long, short, some fun _ => true⟩

/-- An option that takes a port. -/
def port (long : String) (short : Option Char) : Switch :=
  ⟨long, short, some fun v => (port? v).isSome⟩

/-- An option that takes a number. -/
def count (long : String) (short : Option Char) : Switch :=
  ⟨long, short, some fun v => (count? v).isSome⟩

/-- An option without value. -/
def flag (long : String) (short : Option Char) : Switch := ⟨long, short, none⟩

end TopicDirectory.CommandLine

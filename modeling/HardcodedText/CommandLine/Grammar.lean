import HardcodedText.Text.Quoted
import HardcodedText.Text.WordChar

/-!
# Options on a command line

How arguments are told apart: options in full, cut short, bundled or with a value attached to them,
and the words that are none.  After `--` there are words only.  What is found is a list of events,
which is read from left to right; a fault ends it.
-/

namespace HardcodedText.CommandLine

/-- What is wrong with a command line. -/
inductive Fault
  /-- An argument could be more than one option cut short. -/
  | ambiguous (arg : String) (forms : List String)
  /-- An option lacks its value. -/
  | needsValue (name : String)
  /-- An option that has no value was given one. -/
  | unwantedValue (name value : String)
  /-- Two options were given that exclude each other. -/
  | conflict (name other : String)
  /-- A value is not a whole number. -/
  | notInteger (name value : String)
  /-- A value is not one of those to choose from. -/
  | notChoice (name value : String) (choices : List String)
  /-- Arguments are missing. -/
  | missing (names : List String)
  /-- There are arguments too many. -/
  | unrecognized (args : List String)
deriving DecidableEq, Repr

/-- The wording of a fault. -/
def Fault.message : Fault → String
  | ambiguous arg forms => s!"ambiguous option: {arg} could match " ++ ", ".intercalate forms
  | needsValue name => s!"argument {name}: expected one argument"
  | unwantedValue name value =>
    s!"argument {name}: ignored explicit argument {Text.quoted value}"
  | conflict name other => s!"argument {name}: not allowed with argument {other}"
  | notInteger name value => s!"argument {name}: invalid int value: {Text.quoted value}"
  | notChoice name value choices =>
    s!"argument {name}: invalid choice: {Text.quoted value} (choose from " ++
      ", ".intercalate (choices.map Text.quoted) ++ ")"
  | missing names => "the following arguments are required: " ++ ", ".intercalate names
  | unrecognized args => "unrecognized arguments: " ++ " ".intercalate args

/-- The options of a command. -/
structure Grammar (ι : Type) where
  /-- The forms of the options, in order. -/
  forms : List (String × ι)
  /-- Whether an option has a value. -/
  takesValue : ι → Bool

/-- A value within the argument of its option. -/
inductive Attached
  /-- After an equals sign. -/
  | equals (text : List Char)
  /-- Right after a short option. -/
  | glued (text : List Char)
deriving DecidableEq, Repr

/-- What an argument is. -/
inductive Token (ι : Type)
  /-- No option. -/
  | word (text : String)
  /-- The end of the options. -/
  | stop
  /-- An option. -/
  | option (o : ι) (attached : Option Attached)
  /-- An option that the command does not have. -/
  | unknown (text : String)
deriving Repr

/-- What is met on a command line. -/
inductive Event (ι : Type)
  /-- An option with its value. -/
  | set (o : ι) (value : Option String)
  /-- No option. -/
  | word (text : String)
  /-- The end of the options. -/
  | stop
  /-- An option that the command does not have. -/
  | extra (text : String)
  /-- Something that is wrong. -/
  | fail (fault : Fault)
deriving Repr

/-- What the options of one argument come to. -/
structure Bundle (ι : Type) where
  /-- The options with their values. -/
  settings : List (ι × Option String)
  /-- A last option whose value is the next argument. -/
  pending : Option ι := none
  /-- The part of the argument that the command does not know. -/
  extra : Option String := none

/-- Whether an argument looks like a negative number. -/
def isNegativeNumber (cs : List Char) : Bool :=
  match cs with
  | '-' :: rest =>
    let rest := if rest.getLast? = some '\n' then rest.dropLast else rest
    let fraction := rest.dropWhile Text.isDigit
    match fraction with
    | [] => !rest.isEmpty
    | '.' :: ds => !ds.isEmpty && ds.all Text.isDigit
    | _ => false
  | _ => false

namespace Grammar

variable {ι : Type}

/-- The name of an option: all of its forms. -/
def name [BEq ι] (g : Grammar ι) (o : ι) : String :=
  "/".intercalate ((g.forms.filter (·.2 == o)).map (·.1))

/-- The options that an argument could be, each with its form. -/
def candidates (g : Grammar ι) (cs : List Char) : List (String × ι × Option Attached) :=
  let head := cs.takeWhile (· != '=')
  match cs with
  | '-' :: '-' :: _ =>
    let attached := match cs.dropWhile (· != '=') with
      | [] => none
      | _ :: value => some (.equals value)
    (g.forms.filter fun (form, _) ↦ head.isPrefixOf form.toList).map fun (form, o) ↦
      (form, o, attached)
  | _ =>
    g.forms.filterMap fun (form, o) ↦
      if form.toList = cs.take 2 then some (form, o, some (.glued (cs.drop 2)))
      else if cs.isPrefixOf form.toList then some (form, o, none)
      else none

/-- What an argument is that is not the form of an option. -/
def classifyRest (g : Grammar ι) (arg : String) : Except Fault (Token ι) :=
  let cs := arg.toList
  match g.candidates cs with
  | [] =>
    if isNegativeNumber cs || cs.contains ' ' then .ok (.word arg) else .ok (.unknown arg)
  | [(_, o, attached)] => .ok (.option o attached)
  | many => .error (.ambiguous arg (many.map (·.1)))

/-- What an argument is. -/
def classify (g : Grammar ι) (arg : String) : Except Fault (Token ι) :=
  let cs := arg.toList
  if cs.head? ≠ some '-' then .ok (.word arg)
  else
    match g.forms.lookup arg with
    | some o => .ok (.option o none)
    | none =>
      if cs.length = 1 then .ok (.word arg)
      else
        match cs.dropWhile (· != '='), g.forms.lookup (.ofList (cs.takeWhile (· != '='))) with
        | _ :: value, some o => .ok (.option o (some (.equals value)))
        | _, _ => g.classifyRest arg

/-- What arguments are. -/
def tokens (g : Grammar ι) : List String → Except Fault (List (Token ι))
  | [] => .ok []
  | arg :: rest =>
    if arg = "--" then .ok (.stop :: rest.map .word)
    else do return (← g.classify arg) :: (← g.tokens rest)

/-- What an option comes to that has nothing attached to it. -/
def bare (g : Grammar ι) (o : ι) : Bundle ι :=
  if g.takesValue o then { settings := [], pending := some o } else { settings := [(o, none)] }

/-- What an option comes to with an equals sign and a text after it. -/
def withEquals [BEq ι] (g : Grammar ι) (o : ι) (value : List Char) : Except Fault (Bundle ι) :=
  if g.takesValue o then .ok { settings := [(o, some (.ofList value))] }
  else .error (.unwantedValue (g.name o) (.ofList value))

/-- What a short option comes to with a text right after it: its value, or else further options. -/
def withGlued [BEq ι] (g : Grammar ι) (o : ι) : List Char → Except Fault (Bundle ι)
  | [] => .ok (g.bare o)
  | c :: rest =>
    if g.takesValue o then .ok { settings := [(o, some (.ofList (c :: rest)))] }
    else if c = '-' then .error (.unwantedValue (g.name o) (.ofList (c :: rest)))
    else
      match g.forms.lookup (.ofList ['-', c]) with
      | none => .ok { settings := [(o, none)], extra := some (.ofList ('-' :: c :: rest)) }
      | some next => do
        let b ← match rest with
          | '=' :: value => g.withEquals next value
          | rest => g.withGlued next rest
        return { b with settings := (o, none) :: b.settings }

/-- What the argument of an option comes to. -/
def bundle [BEq ι] (g : Grammar ι) (o : ι) : Option Attached → Except Fault (Bundle ι)
  | none => .ok (g.bare o)
  | some (.equals value) => g.withEquals o value
  | some (.glued text) => g.withGlued o text

/-- The events of a bundle without the value of its last option. -/
def bundleEvents (b : Bundle ι) : List (Event ι) :=
  b.extra.toList.map .extra ++ b.settings.map fun (o, value) ↦ .set o value

/-- What is met on a command line, from left to right. -/
def events [BEq ι] (g : Grammar ι) : List (Token ι) → List (Event ι)
  | [] => []
  | .word text :: rest => .word text :: g.events rest
  | .stop :: rest => .stop :: g.events rest
  | .unknown text :: rest => .extra text :: g.events rest
  | .option o attached :: rest =>
    match g.bundle o attached with
    | .error fault => [.fail fault]
    | .ok b =>
      match b.pending, rest with
      | none, rest => bundleEvents b ++ g.events rest
      | some last, .word text :: rest =>
        bundleEvents b ++ .set last (some text) :: g.events rest
      | some last, _ => [.fail (.needsValue (g.name last))]

/-- What is met on a command line, unless it has an option that is ambiguous. -/
def read [BEq ι] (g : Grammar ι) (args : List String) : Except Fault (List (Event ι)) :=
  (g.tokens args).map g.events

end Grammar

end HardcodedText.CommandLine
